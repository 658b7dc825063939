/-
The daemon as a whole.  `System::run` compiles a configuration and runs a
server on it until `accept` fails; the global signal then says whether to end,
to reload or to give up.  Beside it run the server's monitor thread, which
watches the same signal, and the signal handler, which sets it.
-/
import GreylistServer.ServerRun
import GreylistServer.SystemReload

namespace GreylistServer

namespace SystemRun

/-- The signals a handler is installed for. -/
inductive Signal where
  | SIGHUP
  | SIGQUIT
  | SIGUSR2
deriving Repr, DecidableEq

/-- How `System::run` ends: with a return, or with the exception that `main`
catches. -/
inductive Exit where
  | startupFailed
  | unexpectedError
  | quit
  | previousFailed
deriving Repr, DecidableEq

/-- What `main` returns then. -/
def Exit.code : Exit → Int
  | .startupFailed => -1
  | .unexpectedError => -1
  | .quit => 0
  | .previousFailed => -2

/-- Where the thread in `System::run` stands. -/
inductive Phase where
  /-- Before the first `compileConfig`. -/
  | starting
  /-- Before `srv->run()`. -/
  | ready
  /-- In `srv->run()`. -/
  | serving
  /-- `srv->run()` returned, before the test for no signal. -/
  | returned
  /-- Before the comparison with `SIGQUIT`. -/
  | deciding
  /-- Before the new configuration is read and compiled. -/
  | reloading
  /-- It was rejected, before the previous one is compiled again. -/
  | retrying
  /-- Before the signal is set back. -/
  | clearing
  | exited (how : Exit)
deriving Repr, DecidableEq

/-- Where the thread in `Server::monitor` stands. -/
inductive Monitor where
  /-- Not created yet, or joined. -/
  | absent
  /-- Before the condition of the loop. -/
  | testing
  /-- Before the test whether the caches are to be refreshed. -/
  | watching
  /-- Before `CacheRefresh::run`. -/
  | refreshing
  /-- Before the signal is set back. -/
  | acknowledging
  /-- In `sleep`, where an interruption is noticed. -/
  | sleeping
  /-- Past the loop, before the test for a signal. -/
  | leaving
  | ended
deriving Repr, DecidableEq

/-- What a server is made from. -/
abbrev Configuration := ServerParams × Chain × ServerSettings

/-- What happens to the global signal and because of it. -/
inductive Event where
  | stored (sig : Signal)
  | refreshed
  | acknowledged
  /-- `System::run` goes on to reload (`none`) or ends. -/
  | decided (how : Option Exit)
  | cleared
deriving Repr, DecidableEq

/-- The threads, the listening socket and what is running.  The counters are
the calls of `TCPListener::open` that succeeded and the calls of its `close`;
`attempts` are the configurations that were tried. -/
structure State where
  globalSignal : Option Signal := none
  phase : Phase := .starting
  server : ServerRun.State := {}
  monitor : Monitor := .absent
  interruption : Bool := false
  listenerShut : Bool := false
  opened : Nat := 0
  closed : Nat := 0
  running : Option Configuration := none
  system : System := {}
  attempts : List Attempt := []
  log : List Event := []

/-- `signal_handler`: a signal that comes while another one is not finished is
dropped. -/
def signalHandler (s : State) (sig : Signal) : State :=
  if s.globalSignal ≠ none then s
  else
    { s with
      globalSignal := some sig
      log := s.log ++ [.stored sig] }

/-- The first `compileConfig`. -/
def startup (s : State) (c : Attempt) : State :=
  match s.system.load c with
  | (.ok params, load) =>
      { s with
        phase := .ready
        opened := s.opened + 1
        running := some (params, load.core, load.settings)
        system := load.system
        attempts := s.attempts ++ [c] }
  | (.error _, load) =>
      { s with
        phase := .exited .startupFailed
        system := load.system
        attempts := s.attempts ++ [c] }

/-- The reload of the configuration, where the file may not be there.  The
running configuration is replaced when the new one was compiled. -/
def reload (s : State) : Option Attempt → State
  | none => { s with phase := .retrying }
  | some c =>
      match s.system.load c with
      | (.ok params, load) =>
          { s with
            phase := .clearing
            opened := s.opened + 1
            running := some (params, load.core, load.settings)
            system := load.system
            attempts := s.attempts ++ [c] }
      | (.error _, load) =>
          { s with
            phase := .retrying
            system := load.system
            attempts := s.attempts ++ [c] }

/-- `compileConfig` with the previous core and settings and no parsing. -/
def retry (s : State) (openListener : Listener) : Option State :=
  s.running.map fun config =>
    match System.compileConfig openListener [] true
        { system := s.system, core := config.2.1, settings := config.2.2 } with
    | (.ok params, load) =>
        { s with
          phase := .clearing
          opened := s.opened + 1
          running := some (params, load.core, load.settings) }
    | (.error _, _) => { s with phase := .exited .previousFailed }

/-- The next step of `Server::monitor`; `due` says that the time for a refresh
has come. -/
def monitorStep (s : State) (due : Bool) : Option State :=
  match s.monitor with
  | .absent => none
  | .testing =>
      if s.globalSignal = some .SIGQUIT ∨ s.globalSignal = some .SIGHUP ∨
          s.interruption = true then
        some { s with monitor := .leaving }
      else some { s with monitor := .watching }
  | .watching =>
      if s.globalSignal = some .SIGUSR2 ∨
          due = true ∧ s.running.any (fun config => 0 < config.1.cacheRefresh)
      then some { s with monitor := .refreshing }
      else some { s with monitor := .sleeping }
  | .refreshing =>
      some { s with
        monitor := .acknowledging
        log := s.log ++ [.refreshed] }
  | .acknowledging =>
      if s.globalSignal = some .SIGUSR2 then
        some { s with
          monitor := .sleeping
          globalSignal := none
          log := s.log ++ [.acknowledged] }
      else some { s with monitor := .sleeping }
  | .sleeping => some { s with monitor := .testing }
  | .leaving =>
      some { s with
        monitor := .ended
        listenerShut := s.listenerShut ||
          (s.globalSignal.isSome && s.opened != s.closed) }
  | .ended => none

/-- The steps of `System::run` that depend on nothing outside, with the first
and the last one of `Server::run`. -/
def mainStep (s : State) : Option State :=
  match s.phase with
  | .ready =>
      some { s with
        phase := .serving
        server := {}
        monitor := .testing
        interruption := false
        listenerShut := false }
  | .serving =>
      if s.server.main = .failed ∧ s.interruption = false then
        some { s with interruption := true }
      else if s.server.main = .returned ∧ s.monitor = .ended then
        some { s with phase := .returned, monitor := .absent }
      else none
  | .returned =>
      if s.globalSignal = none then
        some { s with
          phase := .exited .unexpectedError
          log := s.log ++ [.decided (some .unexpectedError)] }
      else some { s with phase := .deciding }
  | .deciding =>
      if s.globalSignal = some .SIGQUIT then
        some { s with
          phase := .exited .quit
          log := s.log ++ [.decided (some .quit)] }
      else
        some { s with
          phase := .reloading
          log := s.log ++ [.decided none] }
  | .clearing =>
      some { s with
        phase := .ready
        globalSignal := none
        log := s.log ++ [.cleared] }
  | .starting | .reloading | .retrying | .exited _ => none

/-- What a step of the server presupposes: no connection comes from a listener
that was shut down, and the listener is closed after the interruption of the
monitor. -/
def Permitted (s : State) : ServerRun.Action → Prop
  | .accept _ => s.listenerShut = false
  | .main => s.server.main = .failed → s.interruption = true
  | .acceptFails | .worker _ => True

instance (s : State) : (action : ServerRun.Action) →
    Decidable (Permitted s action)
  | .accept _ => inferInstanceAs (Decidable (_ = _))
  | .main => inferInstanceAs (Decidable (_ → _))
  | .acceptFails | .worker _ => isTrue trivial

/-- A step of `Server::run` and its workers. -/
def serverStep (s : State) (action : ServerRun.Action) : Option State :=
  if s.phase = .serving ∧ Permitted s action then
    s.running.bind fun config =>
      (ServerRun.step config.1.spare config.1.max s.server action).map
        fun server =>
          { s with
            server := server
            closed := if s.server.main = .failed ∧ action = .main then
              s.closed + 1 else s.closed }
  else none

/-- Who takes the next step, and what it finds outside. -/
inductive Action where
  | signal (sig : Signal)
  | startup (c : Attempt)
  | main
  | reload (c : Option Attempt)
  | retry (openListener : Listener)
  | server (action : ServerRun.Action)
  | monitor (due : Bool)
  /-- The sleep of the monitor throws. -/
  | interrupted

def step (s : State) : Action → Option State
  | .signal sig => some (signalHandler s sig)
  | .startup c => if s.phase = .starting then some (startup s c) else none
  | .main => mainStep s
  | .reload c => if s.phase = .reloading then some (reload s c) else none
  | .retry openListener =>
      if s.phase = .retrying then retry s openListener else none
  | .server action => serverStep s action
  | .monitor due => monitorStep s due
  | .interrupted =>
      if s.monitor = .sleeping ∧ s.interruption = true then
        some { s with monitor := .ended }
      else none

/-- The daemon from the start of `System::run` on. -/
def machine : Machine State Action where
  init := {}
  step := step

/-- What one step of the monitor can be. -/
inductive Watched (s : State) : State → Prop where
  | leaves (hmonitor : s.monitor = .testing)
      (hwhy : s.globalSignal = some .SIGQUIT ∨ s.globalSignal = some .SIGHUP ∨
        s.interruption = true) :
      Watched s { s with monitor := .leaving }
  | moves (next : Monitor) (hbefore : s.monitor ≠ .absent)
      (hrunning : s.monitor ≠ .ended)
      (hafter : next ∈ [.testing, .watching, .refreshing, .sleeping]) :
      Watched s { s with monitor := next }
  | refreshed (hmonitor : s.monitor = .refreshing) :
      Watched s { s with
        monitor := .acknowledging
        log := s.log ++ [.refreshed] }
  | acknowledged (hmonitor : s.monitor = .acknowledging)
      (hsignal : s.globalSignal = some .SIGUSR2) :
      Watched s { s with
        monitor := .sleeping
        globalSignal := none
        log := s.log ++ [.acknowledged] }
  | ends (hmonitor : s.monitor = .leaving) :
      Watched s { s with
        monitor := .ended
        listenerShut := s.listenerShut ||
          (s.globalSignal.isSome && s.opened != s.closed) }
  | thrown (hmonitor : s.monitor = .sleeping)
      (hinterruption : s.interruption = true) :
      Watched s { s with monitor := .ended }

theorem monitorStep_watched {s t : State} {due : Bool}
    (hstep : monitorStep s due = some t) : Watched s t := by
  cases hmonitor : s.monitor with
  | absent => simp [monitorStep, hmonitor] at hstep
  | testing =>
      simp only [monitorStep, hmonitor] at hstep
      split at hstep
      · next hwhy =>
          cases hstep
          exact .leaves hmonitor hwhy
      · cases hstep
        exact .moves .watching (by simp [hmonitor]) (by simp [hmonitor])
          (by simp)
  | watching =>
      simp only [monitorStep, hmonitor] at hstep
      split at hstep
      · cases hstep
        exact .moves .refreshing (by simp [hmonitor]) (by simp [hmonitor])
          (by simp)
      · cases hstep
        exact .moves .sleeping (by simp [hmonitor]) (by simp [hmonitor])
          (by simp)
  | refreshing =>
      simp only [monitorStep, hmonitor] at hstep
      cases hstep
      exact .refreshed hmonitor
  | acknowledging =>
      simp only [monitorStep, hmonitor] at hstep
      split at hstep
      · next hsignal =>
          cases hstep
          exact .acknowledged hmonitor hsignal
      · cases hstep
        exact .moves .sleeping (by simp [hmonitor]) (by simp [hmonitor])
          (by simp)
  | sleeping =>
      simp only [monitorStep, hmonitor] at hstep
      cases hstep
      exact .moves .testing (by simp [hmonitor]) (by simp [hmonitor])
        (by simp)
  | leaving =>
      simp only [monitorStep, hmonitor] at hstep
      cases hstep
      exact .ends hmonitor
  | ended => simp [monitorStep, hmonitor] at hstep

/-- What one step of the daemon can be. -/
inductive Moved (s : State) : State → Prop where
  | dropped : Moved s s
  | stored (sig : Signal) (hfree : s.globalSignal = none) :
      Moved s { s with
        globalSignal := some sig
        log := s.log ++ [.stored sig] }
  /-- A configuration was compiled, at the start or for a reload. -/
  | compiled (c : Attempt) (params : ServerParams) (load : Loading)
      (next : Phase) (hphase : s.phase = .starting ∧ next = .ready ∨
        s.phase = .reloading ∧ next = .clearing)
      (hload : s.system.load c = (.ok params, load)) :
      Moved s { s with
        phase := next
        opened := s.opened + 1
        running := some (params, load.core, load.settings)
        system := load.system
        attempts := s.attempts ++ [c] }
  | rejected (c : Attempt) (e : Error) (load : Loading) (next : Phase)
      (hphase : s.phase = .starting ∧ next = .exited .startupFailed ∨
        s.phase = .reloading ∧ next = .retrying)
      (hload : s.system.load c = (.error e, load)) :
      Moved s { s with
        phase := next
        system := load.system
        attempts := s.attempts ++ [c] }
  | unreadable (hphase : s.phase = .reloading) :
      Moved s { s with phase := .retrying }
  | restored (config : Configuration) (openListener : Listener)
      (params : ServerParams) (load : Loading) (hphase : s.phase = .retrying)
      (hrunning : s.running = some config)
      (hload : System.compileConfig openListener [] true
        { system := s.system, core := config.2.1, settings := config.2.2 } =
        (.ok params, load)) :
      Moved s { s with
        phase := .clearing
        opened := s.opened + 1
        running := some (params, load.core, load.settings) }
  | gaveUp (hphase : s.phase = .retrying) :
      Moved s { s with phase := .exited .previousFailed }
  | begun (hphase : s.phase = .ready) :
      Moved s { s with
        phase := .serving
        server := {}
        monitor := .testing
        interruption := false
        listenerShut := false }
  | served (config : Configuration) (action : ServerRun.Action)
      (server : ServerRun.State) (hphase : s.phase = .serving)
      (hpermitted : Permitted s action) (hrunning : s.running = some config)
      (hstep : ServerRun.step config.1.spare config.1.max s.server action =
        some server) :
      Moved s { s with
        server := server
        closed := if s.server.main = .failed ∧ action = .main then
          s.closed + 1 else s.closed }
  | interrupts (hphase : s.phase = .serving)
      (hmain : s.server.main = .failed) :
      Moved s { s with interruption := true }
  | joined (hphase : s.phase = .serving) (hmain : s.server.main = .returned)
      (hmonitor : s.monitor = .ended) :
      Moved s { s with phase := .returned, monitor := .absent }
  | failed (hphase : s.phase = .returned) (hnone : s.globalSignal = none) :
      Moved s { s with
        phase := .exited .unexpectedError
        log := s.log ++ [.decided (some .unexpectedError)] }
  | noticed (hphase : s.phase = .returned) (hsome : s.globalSignal ≠ none) :
      Moved s { s with phase := .deciding }
  | quits (hphase : s.phase = .deciding)
      (hsignal : s.globalSignal = some .SIGQUIT) :
      Moved s { s with
        phase := .exited .quit
        log := s.log ++ [.decided (some .quit)] }
  | reloads (hphase : s.phase = .deciding)
      (hsignal : s.globalSignal ≠ some .SIGQUIT) :
      Moved s { s with
        phase := .reloading
        log := s.log ++ [.decided none] }
  | clears (hphase : s.phase = .clearing) :
      Moved s { s with
        phase := .ready
        globalSignal := none
        log := s.log ++ [.cleared] }
  | watched (t : State) (hwatched : Watched s t) : Moved s t

theorem mainStep_moved {s t : State} (hstep : mainStep s = some t) :
    Moved s t := by
  cases hphase : s.phase with
  | ready =>
      simp only [mainStep, hphase] at hstep
      cases hstep
      exact .begun hphase
  | serving =>
      simp only [mainStep, hphase] at hstep
      split at hstep
      · next hfailed =>
          cases hstep
          have hmoved := Moved.interrupts hphase hfailed.1
          rwa [hphase] at hmoved
      · split at hstep
        · next hjoin =>
            cases hstep
            exact .joined hphase hjoin.1 hjoin.2
        · cases hstep
  | returned =>
      simp only [mainStep, hphase] at hstep
      split at hstep
      · next hnone =>
          cases hstep
          exact .failed hphase hnone
      · next hsome =>
          cases hstep
          exact .noticed hphase hsome
  | deciding =>
      simp only [mainStep, hphase] at hstep
      split at hstep
      · next hquit =>
          cases hstep
          exact .quits hphase hquit
      · next hother =>
          cases hstep
          exact .reloads hphase hother
  | clearing =>
      simp only [mainStep, hphase] at hstep
      cases hstep
      exact .clears hphase
  | starting => simp [mainStep, hphase] at hstep
  | reloading => simp [mainStep, hphase] at hstep
  | retrying => simp [mainStep, hphase] at hstep
  | exited how => simp [mainStep, hphase] at hstep

theorem startup_moved {s : State} (hphase : s.phase = .starting)
    (c : Attempt) : Moved s (startup s c) := by
  unfold startup
  split
  · next params load hload =>
      exact .compiled c params load .ready (Or.inl ⟨hphase, rfl⟩) hload
  · next e load hload =>
      exact .rejected c e load _ (Or.inl ⟨hphase, rfl⟩) hload

theorem reload_moved {s : State} (hphase : s.phase = .reloading)
    (c : Option Attempt) : Moved s (reload s c) := by
  cases c with
  | none => exact .unreadable hphase
  | some c =>
      simp only [reload]
      split
      · next params load hload =>
          exact .compiled c params load .clearing (Or.inr ⟨hphase, rfl⟩) hload
      · next e load hload =>
          exact .rejected c e load .retrying (Or.inr ⟨hphase, rfl⟩) hload

theorem retry_moved {s t : State} (hphase : s.phase = .retrying)
    {openListener : Listener} (hstep : retry s openListener = some t) :
    Moved s t := by
  obtain ⟨config, hrunning, rfl⟩ := Option.map_eq_some_iff.mp hstep
  split
  · next params load hload =>
      exact .restored config openListener params load hphase hrunning hload
  · exact .gaveUp hphase

/-- Every step is one of the above. -/
theorem step_moved {s t : State} {action : Action}
    (hstep : step s action = some t) : Moved s t := by
  cases action with
  | signal sig =>
      simp only [step, signalHandler] at hstep
      split at hstep
      · cases hstep
        exact .dropped
      · next hfree =>
          cases hstep
          exact .stored sig (by simpa using hfree)
  | startup c =>
      simp only [step] at hstep
      split at hstep
      · next hphase =>
          cases hstep
          exact startup_moved hphase c
      · cases hstep
  | main => exact mainStep_moved hstep
  | reload c =>
      simp only [step] at hstep
      split at hstep
      · next hphase =>
          cases hstep
          exact reload_moved hphase c
      · cases hstep
  | retry openListener =>
      simp only [step] at hstep
      split at hstep
      · next hphase => exact retry_moved hphase hstep
      · cases hstep
  | server action =>
      simp only [step, serverStep] at hstep
      split at hstep
      · next hguard =>
          obtain ⟨config, hrunning, hmap⟩ :=
            Option.bind_eq_some_iff.mp hstep
          obtain ⟨server, hserver, rfl⟩ := Option.map_eq_some_iff.mp hmap
          exact .served config action server hguard.1 hguard.2 hrunning
            hserver
      · cases hstep
  | monitor due => exact .watched t (monitorStep_watched hstep)
  | interrupted =>
      simp only [step] at hstep
      split at hstep
      · next hguard =>
          cases hstep
          exact .watched _ (.thrown hguard.1 hguard.2)
      · cases hstep

end SystemRun

end GreylistServer
