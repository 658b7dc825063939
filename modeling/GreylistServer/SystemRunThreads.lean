/-
How the threads of the daemon keep together.  The monitor lives as long as the
server it belongs to, there is never more than one listening socket, and a
thread that waits in `accept` is woken by a signal whatever the monitor is
doing when it comes.
-/
import GreylistServer.SystemRun

namespace GreylistServer

namespace SystemRun

/-- The accept loop has not been left. -/
def inLoop : ServerRun.Main → Bool
  | .accepting | .accepted _ | .scheduling _ | .rejecting _ => true
  | _ => false

/-- The server's listening socket has not been closed. -/
def listens (main : ServerRun.Main) : Bool :=
  inLoop main || main = .failed

/-- A listening socket is open. -/
def State.listening (s : State) : Bool :=
  match s.phase with
  | .ready | .clearing => true
  | .serving => listens s.server.main
  | _ => false

theorem handle_main {s t : ServerRun.State} {c : Nat}
    (hhandle : ServerRun.handle s c = some t) : t.main = s.main := by
  obtain ⟨connection, -, hserved⟩ := ServerRun.handle_served hhandle
  cases hserved <;> rfl

theorem lift_main {spare max : Nat} {s t : ServerRun.State}
    {action : Scheduler.Action Nat}
    (hlift : ServerRun.lift spare max s action = some t) :
    t.main = s.main := by
  obtain ⟨scheduler, -, rfl⟩ := Option.map_eq_some_iff.mp hlift
  rfl

theorem run_main {spare max : Nat} {s t : ServerRun.State}
    (hrun : ServerRun.run spare max s = some t) :
    (inLoop t.main = true → inLoop s.main = true) ∧
      listens t.main = (listens s.main && s.main != .failed) := by
  cases hmain : s.main with
  | accepting => simp [ServerRun.run, hmain] at hrun
  | accepted c =>
      simp only [ServerRun.run, hmain] at hrun
      rw [lift_main hrun]
      exact ⟨fun _ => rfl, rfl⟩
  | scheduling c =>
      simp only [ServerRun.run, hmain] at hrun
      split at hrun
      · cases hrun
        exact ⟨fun _ => rfl, rfl⟩
      · cases hrun
        exact ⟨fun _ => rfl, rfl⟩
      · rw [lift_main hrun, hmain]
        exact ⟨fun _ => rfl, rfl⟩
  | rejecting c =>
      simp only [ServerRun.run, hmain] at hrun
      obtain ⟨connection, -, rfl⟩ := Option.map_eq_some_iff.mp hrun
      exact ⟨fun _ => rfl, rfl⟩
  | failed =>
      simp only [ServerRun.run, hmain] at hrun
      cases hrun
      exact ⟨fun hloop => hloop, rfl⟩
  | stopping =>
      simp only [ServerRun.run, hmain] at hrun
      rw [lift_main hrun]
      exact ⟨fun hloop => hloop, rfl⟩
  | shuttingDown =>
      simp only [ServerRun.run, hmain] at hrun
      cases hrun
      exact ⟨fun hloop => hloop, rfl⟩
  | awaitingHandlers =>
      simp only [ServerRun.run, hmain] at hrun
      split at hrun
      · cases hrun
        rw [hmain]
        exact ⟨fun hloop => hloop, rfl⟩
      · rw [lift_main hrun]
        exact ⟨fun hloop => hloop, rfl⟩
  | waiting =>
      simp only [ServerRun.run, hmain] at hrun
      split at hrun
      · cases hrun
        exact ⟨fun hloop => hloop, rfl⟩
      · rw [lift_main hrun, hmain]
        exact ⟨fun hloop => hloop, rfl⟩
  | returned => simp [ServerRun.run, hmain] at hrun

/-- The accept loop is never entered again, and the listening socket is closed
by the first step after a failed `accept`. -/
theorem serverStep_main {spare max : Nat} {s t : ServerRun.State}
    {action : ServerRun.Action}
    (hstep : ServerRun.step spare max s action = some t) :
    (inLoop t.main = true → inLoop s.main = true) ∧
      listens t.main =
        (listens s.main && !decide (s.main = .failed ∧ action = .main)) := by
  cases action with
  | accept fd =>
      simp only [ServerRun.step] at hstep
      split at hstep
      · next hguard =>
          cases hstep
          rw [hguard.1]
          exact ⟨fun _ => rfl, rfl⟩
      · cases hstep
  | acceptFails =>
      simp only [ServerRun.step] at hstep
      split at hstep
      · next hmain =>
          cases hstep
          rw [hmain]
          exact ⟨fun _ => rfl, rfl⟩
      · cases hstep
  | main =>
      have hmain := run_main hstep
      refine ⟨hmain.1, hmain.2.trans ?_⟩
      cases hfailed : s.main <;> simp [listens, inLoop]
  | worker i =>
      have hsame : t.main = s.main := by
        simp only [ServerRun.step] at hstep
        split at hstep
        · split at hstep
          · exact lift_main hstep
          · exact handle_main hstep
        · exact lift_main hstep
      rw [hsame]
      simp

/-- The signal makes the monitor leave its loop. -/
def Orders (sig : Option Signal) : Prop :=
  sig = some .SIGHUP ∨ sig = some .SIGQUIT

/-- What the phases say about the signal. -/
def Pending (s : State) : Prop :=
  match s.phase with
  | .deciding => s.globalSignal ≠ none
  | .reloading | .retrying | .clearing =>
      s.globalSignal ≠ none ∧ s.globalSignal ≠ some .SIGQUIT
  | _ => True

/-- What keeps the daemon together: the monitor lives as long as its server
runs, every listening socket that was opened is closed but the one in use, and
as long as nobody has interrupted the monitor it leaves its loop for a signal
only and then shuts the listening socket down. -/
structure Sound (s : State) : Prop where
  monitored : s.monitor ≠ .absent ↔ s.phase = .serving
  sockets : s.opened = s.closed + s.listening.toNat
  pending : Pending s
  uninterrupted : s.phase = .serving → inLoop s.server.main = true →
    s.interruption = false
  listens : s.phase = .serving → s.interruption = false →
    listens s.server.main = true
  leaving : s.phase = .serving → s.interruption = false →
    s.monitor = .leaving → Orders s.globalSignal
  ended : s.phase = .serving → s.interruption = false →
    s.monitor = .ended → s.listenerShut = true

theorem Sound.stored {s : State} (hs : Sound s) (sig : Signal)
    (hfree : s.globalSignal = none) :
    Sound { s with
      globalSignal := some sig
      log := s.log ++ [.stored sig] } where
  monitored := hs.monitored
  sockets := hs.sockets
  pending := by
    have hpending := hs.pending
    unfold Pending at hpending ⊢
    split at hpending <;> simp_all
  uninterrupted := hs.uninterrupted
  listens := hs.listens
  leaving := by
    intro hphase hnot hleaving
    have horders := hs.leaving hphase hnot hleaving
    rw [hfree] at horders
    rcases horders with hnone | hnone <;> cases hnone
  ended := hs.ended

/-- Outside of `srv->run()` there is no monitor. -/
theorem Sound.of_idle {s t : State} (hs : Sound s)
    (hbefore : s.phase ≠ .serving) (hafter : t.phase ≠ .serving)
    (hmonitor : t.monitor = s.monitor)
    (hsockets : t.opened = t.closed + t.listening.toNat)
    (hpending : Pending t) : Sound t where
  monitored := by
    rw [hmonitor, hs.monitored]
    exact iff_of_false hbefore hafter
  sockets := hsockets
  pending := hpending
  uninterrupted := fun hphase => absurd hphase hafter
  listens := fun hphase => absurd hphase hafter
  leaving := fun hphase => absurd hphase hafter
  ended := fun hphase => absurd hphase hafter

theorem Sound.served {s : State} (hs : Sound s) {config : Configuration}
    {action : ServerRun.Action} {server : ServerRun.State}
    (hphase : s.phase = .serving) (hpermitted : Permitted s action)
    (hstep : ServerRun.step config.1.spare config.1.max s.server action =
      some server) :
    Sound { s with
      server := server
      closed := if s.server.main = .failed ∧ action = .main then
        s.closed + 1 else s.closed } := by
  obtain ⟨hloop, hlistens⟩ := serverStep_main hstep
  have hsockets := hs.sockets
  simp only [State.listening, hphase] at hsockets
  constructor
  · exact hs.monitored
  · simp only [State.listening, hphase, hlistens]
    by_cases hcloses : s.server.main = .failed ∧ action = .main
    · have hopen : SystemRun.listens s.server.main = true := by
        rw [hcloses.1]
        rfl
      rw [if_pos hcloses, hsockets, hopen]
      simp [hcloses]
    · rw [if_neg hcloses, hsockets]
      simp [hcloses]
  · simp only [Pending, hphase]
  · intro _ hafter
    exact hs.uninterrupted hphase (hloop hafter)
  · intro _ hnot
    have hopen := hs.listens hphase hnot
    have hstays : ¬ (s.server.main = .failed ∧ action = .main) := by
      rintro ⟨hfailed, rfl⟩
      have hinterruption : s.interruption = true := hpermitted hfailed
      have hboth : (false : Bool) = true := hnot.symm.trans hinterruption
      cases hboth
    rw [hlistens, hopen]
    simp [hstays]
  · exact hs.leaving
  · exact hs.ended

theorem Sound.watched {s t : State} (hs : Sound s) (hwatched : Watched s t) :
    Sound t := by
  have hpending := hs.pending
  have hserving : ∀ monitor, s.monitor = monitor → monitor ≠ .absent →
      s.phase = .serving := by
    intro monitor hmonitor hne
    exact hs.monitored.mp (hmonitor ▸ hne)
  cases hwatched with
  | leaves hmonitor hwhy =>
      have hphase := hserving _ hmonitor (by simp)
      refine ⟨?_, hs.sockets, hpending, hs.uninterrupted, hs.listens, ?_, ?_⟩
      · exact iff_of_true (by simp) hphase
      · intro _ hnot _
        rcases hwhy with hquit | hhup | hinterruption
        · exact Or.inr hquit
        · exact Or.inl hhup
        · rw [hinterruption] at hnot
          cases hnot
      · intro _ _ hended
        cases hended
  | moves next hbefore hrunning hafter =>
      have hphase := hs.monitored.mp hbefore
      simp only [List.mem_cons, List.not_mem_nil, or_false] at hafter
      refine ⟨?_, hs.sockets, hpending, hs.uninterrupted, hs.listens, ?_, ?_⟩
      · refine iff_of_true ?_ hphase
        rcases hafter with rfl | rfl | rfl | rfl <;> simp
      · intro _ _ hleaving
        obtain rfl : next = .leaving := hleaving
        simp at hafter
      · intro _ _ hended
        obtain rfl : next = .ended := hended
        simp at hafter
  | refreshed hmonitor =>
      have hphase := hserving _ hmonitor (by simp)
      refine ⟨?_, hs.sockets, hpending, hs.uninterrupted, hs.listens, ?_, ?_⟩
      · exact iff_of_true (by simp) hphase
      · intro _ _ hleaving
        cases hleaving
      · intro _ _ hended
        cases hended
  | acknowledged hmonitor hsignal =>
      have hphase := hserving _ hmonitor (by simp)
      refine ⟨?_, hs.sockets, ?_, hs.uninterrupted, hs.listens, ?_, ?_⟩
      · exact iff_of_true (by simp) hphase
      · simp only [Pending, hphase]
      · intro _ _ hleaving
        cases hleaving
      · intro _ _ hended
        cases hended
  | ends hmonitor =>
      have hphase := hserving _ hmonitor (by simp)
      refine ⟨?_, hs.sockets, hpending, hs.uninterrupted, hs.listens, ?_, ?_⟩
      · exact iff_of_true (by simp) hphase
      · intro _ _ hleaving
        cases hleaving
      · intro _ hnot _
        have horders := hs.leaving hphase hnot hmonitor
        have hopen := hs.sockets
        simp only [State.listening, hphase, hs.listens hphase hnot] at hopen
        have hsome : s.globalSignal.isSome = true := by
          rcases horders with hsig | hsig <;> rw [hsig] <;> rfl
        have hne : (s.opened != s.closed) = true := by
          simp [hopen]
        simp only [hsome, hne, Bool.and_self, Bool.or_true]
  | thrown hmonitor hinterruption =>
      have hphase := hserving _ hmonitor (by simp)
      refine ⟨?_, hs.sockets, hpending, hs.uninterrupted, hs.listens, ?_, ?_⟩
      · exact iff_of_true (by simp) hphase
      · intro _ _ hleaving
        cases hleaving
      · intro _ hnot _
        rw [hinterruption] at hnot
        cases hnot

theorem Sound.moved {s t : State} (hs : Sound s) (hmoved : Moved s t) :
    Sound t := by
  have hsockets := hs.sockets
  have hpending := hs.pending
  cases hmoved with
  | dropped => exact hs
  | stored sig hfree => exact hs.stored sig hfree
  | compiled c params load next hphase hload =>
      rcases hphase with ⟨hphase, rfl⟩ | ⟨hphase, rfl⟩
      · simp only [State.listening, hphase] at hsockets
        exact hs.of_idle (by simp [hphase]) (by simp) rfl
          (by simpa [State.listening] using hsockets) trivial
      · simp only [State.listening, hphase] at hsockets
        simp only [Pending, hphase] at hpending
        exact hs.of_idle (by simp [hphase]) (by simp) rfl
          (by simpa [State.listening] using hsockets) hpending
  | rejected c e load next hphase hload =>
      rcases hphase with ⟨hphase, rfl⟩ | ⟨hphase, rfl⟩
      · simp only [State.listening, hphase] at hsockets
        exact hs.of_idle (by simp [hphase]) (by simp) rfl hsockets trivial
      · simp only [State.listening, hphase] at hsockets
        simp only [Pending, hphase] at hpending
        exact hs.of_idle (by simp [hphase]) (by simp) rfl hsockets hpending
  | unreadable hphase =>
      simp only [State.listening, hphase] at hsockets
      simp only [Pending, hphase] at hpending
      exact hs.of_idle (by simp [hphase]) (by simp) rfl hsockets hpending
  | restored config openListener params load hphase hrunning hload =>
      simp only [State.listening, hphase] at hsockets
      simp only [Pending, hphase] at hpending
      exact hs.of_idle (by simp [hphase]) (by simp) rfl
        (by simpa [State.listening] using hsockets) hpending
  | gaveUp hphase =>
      simp only [State.listening, hphase] at hsockets
      exact hs.of_idle (by simp [hphase]) (by simp) rfl hsockets trivial
  | begun hphase =>
      simp only [State.listening, hphase] at hsockets
      constructor
      · exact iff_of_true (by simp) rfl
      · exact hsockets
      · trivial
      · exact fun _ _ => rfl
      · exact fun _ _ => rfl
      · intro _ _ hleaving
        cases hleaving
      · intro _ _ hended
        cases hended
  | served config action server hphase hpermitted hrunning hstep =>
      exact hs.served hphase hpermitted hstep
  | interrupts hphase hmain =>
      refine ⟨hs.monitored, hsockets, hpending, ?_, ?_, ?_, ?_⟩
      · intro _ hloop
        rw [show inLoop s.server.main = false by rw [hmain]; rfl] at hloop
        cases hloop
      · intro _ hnot
        cases hnot
      · intro _ hnot
        cases hnot
      · intro _ hnot
        cases hnot
  | joined hphase hmain hmonitor =>
      have hclosed : SystemRun.listens ServerRun.Main.returned = false := rfl
      simp only [State.listening, hphase, hmain, hclosed] at hsockets
      constructor
      · exact iff_of_false (by simp) (by simp)
      · exact hsockets
      · trivial
      · intro hserving
        cases hserving
      · intro hserving
        cases hserving
      · intro hserving
        cases hserving
      · intro hserving
        cases hserving
  | failed hphase hnone =>
      simp only [State.listening, hphase] at hsockets
      exact hs.of_idle (by simp [hphase]) (by simp) rfl hsockets trivial
  | noticed hphase hsome =>
      simp only [State.listening, hphase] at hsockets
      exact hs.of_idle (by simp [hphase]) (by simp) rfl hsockets hsome
  | quits hphase hsignal =>
      simp only [State.listening, hphase] at hsockets
      exact hs.of_idle (by simp [hphase]) (by simp) rfl hsockets trivial
  | reloads hphase hsignal =>
      simp only [State.listening, hphase] at hsockets
      simp only [Pending, hphase] at hpending
      exact hs.of_idle (by simp [hphase]) (by simp) rfl hsockets
        ⟨hpending, hsignal⟩
  | clears hphase =>
      simp only [State.listening, hphase] at hsockets
      exact hs.of_idle (by simp [hphase]) (by simp) rfl hsockets trivial
  | watched t hwatched => exact hs.watched hwatched

theorem init_sound : Sound machine.init where
  monitored := iff_of_false (by simp [machine]) (by simp [machine])
  sockets := rfl
  pending := trivial
  uninterrupted := fun hphase => by cases hphase
  listens := fun hphase => by cases hphase
  leaving := fun hphase => by cases hphase
  ended := fun hphase => by cases hphase

theorem reachable_sound {s : State} (hs : machine.Reachable s) : Sound s :=
  hs.invariant init_sound fun hsound hstep => hsound.moved (step_moved hstep)

/-- In every reachable state at most one of the listening sockets ever opened
is not closed; one is open while the server accepts connections, and none when
`System::run` has ended. -/
theorem reachable_one_listener {s : State} (hs : machine.Reachable s) :
    s.closed ≤ s.opened ∧ s.opened ≤ s.closed + 1 ∧
      (s.phase = .serving → inLoop s.server.main = true →
        s.opened = s.closed + 1) ∧
      ∀ how, s.phase = .exited how → s.opened = s.closed := by
  have hsockets := (reachable_sound hs).sockets
  have hle := Bool.toNat_le s.listening
  refine ⟨by omega, by omega, ?_, ?_⟩
  · intro hphase hloop
    simp only [State.listening, hphase, SystemRun.listens, hloop] at hsockets
    exact hsockets
  · intro how hphase
    simp only [State.listening, hphase] at hsockets
    exact hsockets

/-- The monitor alone gets the listening socket shut down. -/
def Wakes (s : State) : Prop :=
  ∃ count t, machine.run (List.replicate count (.monitor false)) s = some t ∧
    t.listenerShut = true ∧ t.server = s.server

theorem Wakes.step {s t : State} (hstep : monitorStep s false = some t)
    (hserver : t.server = s.server) (hwakes : Wakes t) : Wakes s := by
  obtain ⟨count, last, hrun, hshut, hsame⟩ := hwakes
  refine ⟨count + 1, last, ?_, hshut, hsame.trans hserver⟩
  have hfirst : machine.step s (.monitor false) = some t := hstep
  rw [List.replicate_succ, Machine.run, hfirst, Option.bind_some]
  exact hrun

/-- From a place of the loop where the monitor goes on to the next one. -/
theorem wakes_of_moves {s : State} (hsound : Sound s) (next : Monitor)
    (hbefore : s.monitor ≠ .absent) (hrunning : s.monitor ≠ .ended)
    (hafter : next ∈ [.testing, .watching, .refreshing, .sleeping])
    (hstep : monitorStep s false = some { s with monitor := next })
    (hnext : Sound { s with monitor := next } →
      Wakes { s with monitor := next }) : Wakes s :=
  (hnext (hsound.watched (.moves next hbefore hrunning hafter))).step hstep rfl

section Waking

variable {s : State} (hsound : Sound s) (hphase : s.phase = .serving)
  (hnot : s.interruption = false) (horders : Orders s.globalSignal)

include hsound hphase hnot

theorem wakes_of_ended (hmonitor : s.monitor = .ended) : Wakes s :=
  ⟨0, s, rfl, hsound.ended hphase hnot hmonitor, rfl⟩

theorem wakes_of_leaving (hmonitor : s.monitor = .leaving) : Wakes s := by
  have hstep : monitorStep s false = some { s with
      monitor := .ended
      listenerShut := s.listenerShut ||
        (s.globalSignal.isSome && s.opened != s.closed) } := by
    simp only [monitorStep, hmonitor]
  exact (wakes_of_ended (hsound.watched (.ends hmonitor)) hphase hnot
    rfl).step hstep rfl

include horders

theorem wakes_of_testing (hmonitor : s.monitor = .testing) : Wakes s := by
  have hwhy : s.globalSignal = some .SIGQUIT ∨
      s.globalSignal = some .SIGHUP ∨ s.interruption = true := by
    rcases horders with hhup | hquit
    · exact Or.inr (Or.inl hhup)
    · exact Or.inl hquit
  have hstep : monitorStep s false = some { s with monitor := .leaving } := by
    simp only [monitorStep, hmonitor, if_pos hwhy]
  exact (wakes_of_leaving (hsound.watched (.leaves hmonitor hwhy)) hphase hnot
    rfl).step hstep rfl

theorem wakes_of_sleeping (hmonitor : s.monitor = .sleeping) : Wakes s := by
  refine wakes_of_moves hsound .testing (by simp [hmonitor])
    (by simp [hmonitor]) (by simp) ?_ ?_
  · simp only [monitorStep, hmonitor]
  · intro hafter
    exact wakes_of_testing hafter hphase hnot horders rfl

theorem wakes_of_acknowledging (hmonitor : s.monitor = .acknowledging) :
    Wakes s := by
  have hother : s.globalSignal ≠ some .SIGUSR2 := by
    rcases horders with hsig | hsig <;> rw [hsig] <;> simp
  refine wakes_of_moves hsound .sleeping (by simp [hmonitor])
    (by simp [hmonitor]) (by simp) ?_ ?_
  · simp only [monitorStep, hmonitor, if_neg hother]
  · intro hafter
    exact wakes_of_sleeping hafter hphase hnot horders rfl

theorem wakes_of_watching (hmonitor : s.monitor = .watching) : Wakes s := by
  have hother : s.globalSignal ≠ some .SIGUSR2 := by
    rcases horders with hsig | hsig <;> rw [hsig] <;> simp
  refine wakes_of_moves hsound .sleeping (by simp [hmonitor])
    (by simp [hmonitor]) (by simp) ?_ ?_
  · simp [monitorStep, hmonitor, hother]
  · intro hafter
    exact wakes_of_sleeping hafter hphase hnot horders rfl

theorem wakes_of_refreshing (hmonitor : s.monitor = .refreshing) :
    Wakes s := by
  have hstep : monitorStep s false = some { s with
      monitor := .acknowledging
      log := s.log ++ [.refreshed] } := by
    simp only [monitorStep, hmonitor]
  exact (wakes_of_acknowledging (hsound.watched (.refreshed hmonitor)) hphase
    hnot horders rfl).step hstep rfl

end Waking

/-- No wake-up is lost: in every reachable state in which `System::run` waits
in `accept`, the monitor is still there or has shut the listening socket down;
and when a hangup or quit signal is set, the monitor's own next steps shut it
down, whatever it is doing. -/
theorem reachable_accept_wakes {s : State} (hs : machine.Reachable s)
    (hphase : s.phase = .serving) (hmain : s.server.main = .accepting) :
    (s.monitor ≠ .absent ∧ (s.monitor = .ended → s.listenerShut = true)) ∧
      (Orders s.globalSignal → Wakes s) := by
  have hsound := reachable_sound hs
  have hnot : s.interruption = false :=
    hsound.uninterrupted hphase (by rw [hmain]; rfl)
  have hthere : s.monitor ≠ .absent := hsound.monitored.mpr hphase
  refine ⟨⟨hthere, hsound.ended hphase hnot⟩, ?_⟩
  intro horders
  cases hmonitor : s.monitor with
  | absent => exact absurd hmonitor hthere
  | testing => exact wakes_of_testing hsound hphase hnot horders hmonitor
  | watching => exact wakes_of_watching hsound hphase hnot horders hmonitor
  | refreshing => exact wakes_of_refreshing hsound hphase hnot horders hmonitor
  | acknowledging =>
      exact wakes_of_acknowledging hsound hphase hnot horders hmonitor
  | sleeping => exact wakes_of_sleeping hsound hphase hnot horders hmonitor
  | leaving => exact wakes_of_leaving hsound hphase hnot hmonitor
  | ended => exact wakes_of_ended hsound hphase hnot hmonitor

namespace ThreadsWitness

/-- A configuration without sections. -/
def blank : Attempt where
  lines := []
  openListener _ _ := .ok ()

/-- A hangup comes while the first server waits for connections. -/
def hungUp : List Action :=
  [.startup blank, .main, .signal .SIGHUP]

def waiting : State :=
  (machine.run hungUp {}).get (by decide +kernel)

theorem waiting_reachable : machine.Reachable waiting :=
  ⟨hungUp, (Option.some_get _).symm⟩

theorem waiting_accepts :
    waiting.phase = .serving ∧ waiting.server.main = .accepting ∧
      waiting.globalSignal = some .SIGHUP := by
  decide +kernel

theorem waiting_one_listener : waiting.opened = waiting.closed + 1 := by
  obtain ⟨hphase, hmain, -⟩ := waiting_accepts
  exact (reachable_one_listener waiting_reachable).2.2.1 hphase
    (by rw [hmain]; rfl)

theorem waiting_wakes : Orders waiting.globalSignal ∧ Wakes waiting := by
  obtain ⟨hphase, hmain, hsignal⟩ := waiting_accepts
  have horders : Orders waiting.globalSignal := Or.inl hsignal
  exact ⟨horders, (reachable_accept_wakes waiting_reachable hphase
    hmain).2 horders⟩

end ThreadsWitness

end SystemRun

end GreylistServer
