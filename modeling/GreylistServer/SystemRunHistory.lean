/-
What a whole run of the daemon has done.  Every signal that was stored is used
up once before another one can be stored, and no request for a refresh is
dismissed without a refresh; and what is running is always the configuration
that was accepted last, however many were rejected since.
-/
import GreylistServer.SystemRunThreads
import GreylistServer.SystemSettings

namespace GreylistServer

namespace SystemRun

/-- The events that use up a stored signal: a reload a hangup, the end a quit,
and the reset by the monitor a request for a refresh.  When `accept` fails
before the reset, that request is taken for a hangup. -/
def UsesUp : Signal → Event → Prop
  | .SIGHUP, event => event = .decided none
  | .SIGQUIT, event => event = .decided (some .quit)
  | .SIGUSR2, event => event = .acknowledged ∨ event = .decided none

/-- An event that uses up a signal. -/
def IsUse (event : Event) : Prop :=
  ∃ sig, UsesUp sig event

/-- Nothing has happened but refreshes. -/
def Waiting (events : List Event) : Prop :=
  ∀ event ∈ events, event = .refreshed

/-- Nothing but refreshes comes before the event that uses the signal up. -/
def UsedUp (sig : Signal) (events : List Event) : Prop :=
  ∃ refreshes use rest, events = refreshes ++ use :: rest ∧
    Waiting refreshes ∧ UsesUp sig use

/-- The last signal in the log, if it is not used up. -/
def Unused (log : List Event) (sig : Signal) : Prop :=
  ∃ before after, log = before ++ .stored sig :: after ∧ Waiting after

theorem Waiting.concat {events : List Event} (hwaiting : Waiting events) :
    Waiting (events ++ [.refreshed]) := by
  intro event hmem
  rcases List.mem_append.mp hmem with hold | hnew
  · exact hwaiting event hold
  · exact List.mem_singleton.mp hnew

theorem Waiting.usedUp {events : List Event} (hwaiting : Waiting events)
    {sig : Signal} {event : Event} (huses : UsesUp sig event) :
    UsedUp sig (events ++ [event]) :=
  ⟨events, event, [], rfl, hwaiting, huses⟩

theorem UsedUp.concat {sig : Signal} {events : List Event}
    (hused : UsedUp sig events) (event : Event) :
    UsedUp sig (events ++ [event]) := by
  obtain ⟨refreshes, use, rest, rfl, hwaiting, huses⟩ := hused
  exact ⟨refreshes, use, rest ++ [event], by simp, hwaiting, huses⟩

theorem Unused.concat {log : List Event} {sig : Signal}
    (hlast : Unused log sig) : Unused (log ++ [.refreshed]) sig := by
  obtain ⟨before, after, rfl, hwaiting⟩ := hlast
  exact ⟨before, after ++ [.refreshed], by simp, hwaiting.concat⟩

/-- An event of a log with one more at its end is an old one or the new
one. -/
theorem concat_cases {log before after : List Event} {last event : Event}
    (hlog : log ++ [last] = before ++ event :: after) :
    (∃ middle, after = middle ++ [last] ∧ log = before ++ event :: middle) ∨
      after = [] ∧ event = last ∧ log = before := by
  rcases List.eq_nil_or_concat after with rfl | ⟨middle, final, rfl⟩
  · obtain ⟨hbefore, hlast⟩ := List.append_inj' hlog rfl
    cases hlast
    exact Or.inr ⟨rfl, rfl, hbefore⟩
  · rw [List.concat_eq_append, ← List.cons_append, ← List.append_assoc] at hlog
    obtain ⟨hbefore, hlast⟩ := List.append_inj' hlog rfl
    cases hlast
    exact Or.inl ⟨middle, List.concat_eq_append, hbefore⟩

/-- No decision about the signal has been made yet. -/
def Undecided : Phase → Prop
  | .reloading | .retrying | .clearing => False
  | .exited .quit | .exited .previousFailed => False
  | _ => True

/-- The log says what became of every signal: it is used up, or it is the one
that is set. -/
structure Obeyed (s : State) : Prop where
  stored : ∀ before sig after, s.log = before ++ .stored sig :: after →
    UsedUp sig after ∨
      Waiting after ∧ s.globalSignal = some sig ∧ Undecided s.phase
  uses : ∀ before event after, s.log = before ++ event :: after →
    IsUse event → ∃ sig, Unused before sig ∧ UsesUp sig event
  last : ∀ sig, s.globalSignal = some sig → Undecided s.phase →
    Unused s.log sig
  held : s.globalSignal = none → Undecided s.phase

/-- Steps that neither log anything nor touch the signal. -/
theorem Obeyed.of_same {s t : State} (hs : Obeyed s) (hlog : t.log = s.log)
    (hsignal : t.globalSignal = s.globalSignal)
    (hphase : Undecided t.phase ↔ Undecided s.phase) : Obeyed t where
  stored := by
    intro before sig after heq
    rw [hlog] at heq
    rw [hsignal, hphase]
    exact hs.stored before sig after heq
  uses := by
    intro before event after heq
    rw [hlog] at heq
    exact hs.uses before event after heq
  last := by
    intro sig hsome hundecided
    rw [hlog]
    exact hs.last sig (hsignal ▸ hsome) (hphase.mp hundecided)
  held := by
    intro hnone
    exact hphase.mpr (hs.held (hsignal ▸ hnone))

/-- An event that uses up no signal needs none. -/
theorem Obeyed.uses_concat {s : State} (hs : Obeyed s) {last : Event}
    (hlast : IsUse last → ∃ sig, Unused s.log sig ∧ UsesUp sig last) :
    ∀ before event after, s.log ++ [last] = before ++ event :: after →
      IsUse event → ∃ sig, Unused before sig ∧ UsesUp sig event := by
  intro before event after heq huse
  rcases concat_cases heq with ⟨middle, rfl, hlog⟩ | ⟨rfl, rfl, hlog⟩
  · exact hs.uses before event middle hlog huse
  · exact hlog ▸ hlast huse

theorem not_isUse_stored (sig : Signal) : ¬ IsUse (.stored sig) := by
  rintro ⟨other, huses⟩
  cases other <;> simp [UsesUp] at huses

theorem not_isUse_refreshed : ¬ IsUse .refreshed := by
  rintro ⟨other, huses⟩
  cases other <;> simp [UsesUp] at huses

theorem not_isUse_cleared : ¬ IsUse .cleared := by
  rintro ⟨other, huses⟩
  cases other <;> simp [UsesUp] at huses

theorem not_isUse_failed :
    ¬ IsUse (.decided (some .unexpectedError)) := by
  rintro ⟨other, huses⟩
  cases other <;> simp [UsesUp] at huses

/-- The signal that is set is used up. -/
theorem Obeyed.used {s t : State} (hs : Obeyed s) {sig : Signal}
    {event : Event} (hsignal : s.globalSignal = some sig)
    (hundecided : Undecided s.phase) (huses : UsesUp sig event)
    (hlog : t.log = s.log ++ [event])
    (hafter : t.globalSignal = none ↔ Undecided t.phase) : Obeyed t where
  stored := by
    rw [hlog]
    intro before other after heq
    refine Or.inl ?_
    rcases concat_cases heq with ⟨middle, rfl, hold⟩ | ⟨-, hlast, -⟩
    · rcases hs.stored before other middle hold with
        hused | ⟨hwaiting, hsome, -⟩
      · exact hused.concat event
      · rw [hsignal] at hsome
        cases hsome
        exact hwaiting.usedUp huses
    · exact absurd ⟨sig, hlast ▸ huses⟩ (not_isUse_stored other)
  uses := by
    rw [hlog]
    exact hs.uses_concat fun _ => ⟨sig, hs.last sig hsignal hundecided,
      huses⟩
  last := by
    intro other hsome hnow
    rw [hafter.mpr hnow] at hsome
    cases hsome
  held := hafter.mp

/-- An event that no signal waits for. -/
theorem Obeyed.unrelated {s t : State} (hs : Obeyed s) {event : Event}
    (hwhen : s.globalSignal = none ∨ ¬ Undecided s.phase)
    (hevent : ¬ IsUse event) (hstored : ∀ sig, event ≠ .stored sig)
    (hlog : t.log = s.log ++ [event]) (hnone : t.globalSignal = none)
    (hphase : Undecided t.phase) : Obeyed t where
  stored := by
    rw [hlog]
    intro before other after heq
    refine Or.inl ?_
    rcases concat_cases heq with ⟨middle, rfl, hold⟩ | ⟨-, hlast, -⟩
    · rcases hs.stored before other middle hold with
        hused | ⟨-, hsome, hundecided⟩
      · exact hused.concat event
      · rcases hwhen with hfree | hdecided
        · rw [hfree] at hsome
          cases hsome
        · exact absurd hundecided hdecided
    · exact absurd hlast.symm (hstored other)
  uses := by
    rw [hlog]
    exact hs.uses_concat fun huse => absurd huse hevent
  last := by
    intro other hsome
    rw [hnone] at hsome
    cases hsome
  held := fun _ => hphase

theorem Obeyed.storedSignal {s : State} (hs : Obeyed s) (sig : Signal)
    (hfree : s.globalSignal = none) :
    Obeyed { s with
      globalSignal := some sig
      log := s.log ++ [.stored sig] } where
  stored := by
    intro before other after heq
    rcases concat_cases heq with ⟨middle, rfl, hold⟩ | ⟨rfl, hlast, -⟩
    · rcases hs.stored before other middle hold with
        hused | ⟨-, hsome, -⟩
      · exact Or.inl (hused.concat _)
      · rw [hfree] at hsome
        cases hsome
    · cases hlast
      exact Or.inr ⟨fun _ hmem => absurd hmem List.not_mem_nil, rfl,
        hs.held hfree⟩
  uses := hs.uses_concat fun huse =>
    absurd huse (not_isUse_stored sig)
  last := by
    intro other hsome _
    cases hsome
    exact ⟨s.log, [], rfl, fun _ hmem => absurd hmem List.not_mem_nil⟩
  held := by
    intro hnone
    cases hnone

theorem Obeyed.refreshed {s : State} (hs : Obeyed s) (monitor : Monitor) :
    Obeyed { s with
      monitor := monitor
      log := s.log ++ [.refreshed] } where
  stored := by
    intro before other after heq
    rcases concat_cases heq with ⟨middle, rfl, hold⟩ | ⟨-, hlast, -⟩
    · rcases hs.stored before other middle hold with
        hused | ⟨hwaiting, hsome, hundecided⟩
      · exact Or.inl (hused.concat _)
      · exact Or.inr ⟨hwaiting.concat, hsome, hundecided⟩
    · cases hlast
  uses := hs.uses_concat fun huse =>
    absurd huse not_isUse_refreshed
  last := fun sig hsome hundecided => (hs.last sig hsome hundecided).concat
  held := hs.held

theorem Obeyed.watched {s t : State} (hs : Obeyed s) (hsound : Sound s)
    (hwatched : Watched s t) : Obeyed t := by
  cases hwatched with
  | leaves hmonitor hwhy => exact hs.of_same rfl rfl Iff.rfl
  | moves next hbefore hrunning hafter => exact hs.of_same rfl rfl Iff.rfl
  | refreshed hmonitor => exact hs.refreshed .acknowledging
  | acknowledged hmonitor hsignal =>
      have hphase : s.phase = .serving :=
        hsound.monitored.mp (by simp [hmonitor])
      have hundecided : Undecided s.phase := by
        rw [hphase]
        trivial
      exact hs.used hsignal hundecided (Or.inl rfl) rfl
        (iff_of_true rfl hundecided)
  | ends hmonitor => exact hs.of_same rfl rfl Iff.rfl
  | thrown hmonitor hinterruption => exact hs.of_same rfl rfl Iff.rfl

theorem Obeyed.moved {s t : State} (hs : Obeyed s) (hsound : Sound s)
    (hmoved : Moved s t) : Obeyed t := by
  have hpending := hsound.pending
  cases hmoved with
  | dropped => exact hs
  | stored sig hfree => exact hs.storedSignal sig hfree
  | compiled c params load next hphase hload =>
      refine hs.of_same rfl rfl ?_
      rcases hphase with ⟨hphase, rfl⟩ | ⟨hphase, rfl⟩ <;>
        simp [hphase, Undecided]
  | rejected c e load next hphase hload =>
      refine hs.of_same rfl rfl ?_
      rcases hphase with ⟨hphase, rfl⟩ | ⟨hphase, rfl⟩ <;>
        simp [hphase, Undecided]
  | unreadable hphase =>
      exact hs.of_same rfl rfl (by simp [hphase, Undecided])
  | restored config openListener params load hphase hrunning hload =>
      exact hs.of_same rfl rfl (by simp [hphase, Undecided])
  | gaveUp hphase =>
      exact hs.of_same rfl rfl (by simp [hphase, Undecided])
  | begun hphase => exact hs.of_same rfl rfl (by simp [hphase, Undecided])
  | served config action server hphase hpermitted hrunning hstep =>
      exact hs.of_same rfl rfl Iff.rfl
  | interrupts hphase hmain => exact hs.of_same rfl rfl Iff.rfl
  | joined hphase hmain hmonitor =>
      exact hs.of_same rfl rfl (by simp [hphase, Undecided])
  | failed hphase hnone =>
      exact hs.unrelated (Or.inl hnone) not_isUse_failed (by simp) rfl
        hnone trivial
  | noticed hphase hsome =>
      exact hs.of_same rfl rfl (by simp [hphase, Undecided])
  | quits hphase hsignal =>
      refine hs.used hsignal ?_ rfl rfl (iff_of_false ?_ ?_)
      · rw [hphase]
        trivial
      · rw [hsignal]
        exact Option.some_ne_none _
      · exact fun hundecided => hundecided
  | reloads hphase hsignal =>
      simp only [Pending, hphase] at hpending
      obtain ⟨sig, hsome⟩ := Option.ne_none_iff_exists'.mp hpending
      have huses : UsesUp sig (.decided none) := by
        cases sig with
        | SIGHUP => rfl
        | SIGQUIT => exact absurd hsome hsignal
        | SIGUSR2 => exact Or.inr rfl
      refine hs.used hsome ?_ huses rfl (iff_of_false hpending ?_)
      · rw [hphase]
        trivial
      · exact fun hundecided => hundecided
  | clears hphase =>
      refine hs.unrelated (Or.inr ?_) not_isUse_cleared (by simp) rfl rfl
        trivial
      rw [hphase]
      exact fun hundecided => hundecided
  | watched t hwatched => exact hs.watched hsound hwatched

theorem init_obeyed : Obeyed machine.init where
  stored := by
    intro before sig after heq
    cases before <;> cases heq
  uses := by
    intro before event after heq
    cases before <;> cases heq
  last := by
    intro sig hsome
    cases hsome
  held := fun _ => trivial

theorem reachable_obeyed {s : State} (hs : machine.Reachable s) :
    Obeyed s :=
  hs.induction init_obeyed fun hreach hobeyed hstep =>
    hobeyed.moved (reachable_sound hreach) (step_moved hstep)

/-- The caches have just been refreshed: since then nothing was logged but at
most one signal, which is still set. -/
def JustRefreshed (s : State) : Prop :=
  ∃ earlier, s.log = earlier ++ [Event.refreshed] ∨
    ∃ sig, s.globalSignal = some sig ∧
      s.log = earlier ++ [Event.refreshed, Event.stored sig]

/-- Directly before every reset by the monitor stands a refresh, with nothing
between them but the request that is reset. -/
def ResetsFresh (log : List Event) : Prop :=
  ∀ before after, log = before ++ Event.acknowledged :: after →
    ∃ earlier, before = earlier ++ [Event.refreshed] ∨
      before = earlier ++ [Event.refreshed, Event.stored .SIGUSR2]

theorem ResetsFresh.concat {log : List Event} (hlog : ResetsFresh log)
    {event : Event} (hevent : event ≠ .acknowledged) :
    ResetsFresh (log ++ [event]) := by
  intro before after heq
  rcases concat_cases heq with ⟨middle, -, hold⟩ | ⟨-, hlast, -⟩
  · exact hlog before middle hold
  · exact absurd hlast.symm hevent

/-- The monitor resets a request only right after a refresh. -/
structure Refreshed (s : State) : Prop where
  resets : ResetsFresh s.log
  monitor : s.monitor = .acknowledging → JustRefreshed s

theorem Refreshed.watched {s t : State} (hs : Refreshed s)
    (hwatched : Watched s t) : Refreshed t := by
  cases hwatched with
  | leaves hmonitor hwhy => exact ⟨hs.resets, nofun⟩
  | moves next hbefore hrunning hafter =>
      refine ⟨hs.resets, ?_⟩
      rintro (rfl : next = _)
      simp at hafter
  | refreshed hmonitor =>
      exact ⟨hs.resets.concat (by simp), fun _ => ⟨s.log, Or.inl rfl⟩⟩
  | acknowledged hmonitor hsignal =>
      refine ⟨?_, nofun⟩
      intro before after heq
      rcases concat_cases heq with ⟨middle, -, hold⟩ | ⟨-, -, rfl⟩
      · exact hs.resets before middle hold
      · obtain ⟨earlier, hlog | ⟨sig, hsome, hlog⟩⟩ := hs.monitor hmonitor
        · exact ⟨earlier, Or.inl hlog⟩
        · rw [hsignal] at hsome
          cases hsome
          exact ⟨earlier, Or.inr hlog⟩
  | ends hmonitor => exact ⟨hs.resets, nofun⟩
  | thrown hmonitor hinterruption => exact ⟨hs.resets, nofun⟩

theorem Refreshed.moved {s t : State} (hs : Refreshed s) (hsound : Sound s)
    (hmoved : Moved s t) : Refreshed t := by
  -- The monitor exists only while the server runs, so the main thread logs
  -- nothing between a refresh and the reset.
  have hserving : s.monitor = .acknowledging → s.phase = .serving :=
    fun hmonitor => hsound.monitored.mp (by simp [hmonitor])
  cases hmoved with
  | dropped => exact hs
  | stored sig hfree =>
      refine ⟨hs.resets.concat (by simp), fun hmonitor => ?_⟩
      obtain ⟨earlier, hlog | ⟨other, hsome, -⟩⟩ := hs.monitor hmonitor
      · exact ⟨earlier, Or.inr ⟨sig, rfl, by simp [hlog]⟩⟩
      · rw [hfree] at hsome
        cases hsome
  | compiled c params load next hphase hload => exact ⟨hs.resets, hs.monitor⟩
  | rejected c e load next hphase hload => exact ⟨hs.resets, hs.monitor⟩
  | unreadable hphase => exact ⟨hs.resets, hs.monitor⟩
  | restored config openListener params load hphase hrunning hload =>
      exact ⟨hs.resets, hs.monitor⟩
  | gaveUp hphase => exact ⟨hs.resets, hs.monitor⟩
  | begun hphase => exact ⟨hs.resets, nofun⟩
  | served config action server hphase hpermitted hrunning hstep =>
      exact ⟨hs.resets, hs.monitor⟩
  | interrupts hphase hmain => exact ⟨hs.resets, hs.monitor⟩
  | joined hphase hmain hmonitor => exact ⟨hs.resets, nofun⟩
  | failed hphase hnone =>
      refine ⟨hs.resets.concat (by simp), fun hmonitor => ?_⟩
      exact absurd (hphase.symm.trans (hserving hmonitor)) (by simp)
  | noticed hphase hsome => exact ⟨hs.resets, hs.monitor⟩
  | quits hphase hsignal =>
      refine ⟨hs.resets.concat (by simp), fun hmonitor => ?_⟩
      exact absurd (hphase.symm.trans (hserving hmonitor)) (by simp)
  | reloads hphase hsignal =>
      refine ⟨hs.resets.concat (by simp), fun hmonitor => ?_⟩
      exact absurd (hphase.symm.trans (hserving hmonitor)) (by simp)
  | clears hphase =>
      refine ⟨hs.resets.concat (by simp), fun hmonitor => ?_⟩
      exact absurd (hphase.symm.trans (hserving hmonitor)) (by simp)
  | watched t hwatched => exact hs.watched hwatched

theorem init_refreshed : Refreshed machine.init where
  resets := by
    intro before after heq
    cases before <;> cases heq
  monitor := nofun

theorem reachable_refreshed {s : State} (hs : machine.Reachable s) :
    Refreshed s :=
  hs.induction init_refreshed fun hreach hrefreshed hstep =>
    hrefreshed.moved (reachable_sound hreach) (step_moved hstep)

/-- After a signal was stored nothing but refreshes happens until it is used
up: a quit by the end, a hangup by a reload, a refresh request by the monitor's
reset or by a reload; until then it stays set and no other signal is stored.
Every reload, every end by a quit and every reset uses up a signal that was
stored before and had not been used up.  And a reset comes right after a
refresh, with nothing between them but the request itself. -/
theorem reachable_signals_used {s : State} (hs : machine.Reachable s) :
    (∀ before sig after, s.log = before ++ .stored sig :: after →
      UsedUp sig after ∨ Waiting after ∧ s.globalSignal = some sig) ∧
    (∀ before event after, s.log = before ++ event :: after →
      IsUse event → ∃ sig, Unused before sig ∧ UsesUp sig event) ∧
    ResetsFresh s.log := by
  have hobeyed := reachable_obeyed hs
  refine ⟨?_, hobeyed.uses, (reachable_refreshed hs).resets⟩
  intro before sig after hlog
  rcases hobeyed.stored before sig after hlog with
    hused | ⟨hwaiting, hsome, -⟩
  · exact Or.inl hused
  · exact Or.inr ⟨hwaiting, hsome⟩

/-- The configuration of the last attempt that was accepted, with what the
attempts before it had left behind; those after it were all rejected. -/
def LastAccepted (attempts : List Attempt) (config : Configuration) : Prop :=
  ∃ before c after, attempts = before ++ c :: after ∧
    (System.after before).outcome c = some config ∧
    ∀ earlier d later, after = earlier ++ d :: later →
      (System.after (before ++ c :: earlier)).outcome d = none

theorem after_concat (attempts : List Attempt) (c : Attempt) :
    System.after (attempts ++ [c]) =
      ((System.after attempts).load c).2.system := by
  rw [System.after, System.after, List.foldl_append]
  rfl

theorem lastAccepted_concat {attempts : List Attempt} {c : Attempt}
    {config : Configuration}
    (houtcome : (System.after attempts).outcome c = some config) :
    LastAccepted (attempts ++ [c]) config := by
  refine ⟨attempts, c, [], rfl, houtcome, ?_⟩
  intro earlier d later heq
  cases earlier <;> cases heq

theorem LastAccepted.rejects {attempts : List Attempt}
    {config : Configuration} (hlast : LastAccepted attempts config)
    {c : Attempt} (hnone : (System.after attempts).outcome c = none) :
    LastAccepted (attempts ++ [c]) config := by
  obtain ⟨before, first, after, rfl, houtcome, hrest⟩ := hlast
  refine ⟨before, first, after ++ [c], by simp, houtcome, ?_⟩
  intro earlier d later heq
  rcases List.eq_nil_or_concat later with rfl | ⟨later, last, rfl⟩
  · obtain ⟨rfl, hlast⟩ := List.append_inj' heq rfl
    cases hlast
    exact hnone
  · rw [List.concat_eq_append, ← List.cons_append, ← List.append_assoc] at heq
    exact hrest earlier d later (List.append_inj' heq rfl).1

end SystemRun

namespace ServerSettings

theorem contains_access (settings : ServerSettings)
    (keys : List ServerTokensType) (position : Nat) :
    (settings.access keys).contains position = true ↔
      settings.contains position = true ∨
        ∃ u ∈ keys, (u : Nat) = position := by
  induction keys generalizing settings with
  | nil => simp [access]
  | cons first rest ih =>
      have hcons : settings.access (first :: rest) =
          access (settings.insert first []) rest := rfl
      rw [hcons, ih, OrdMap.contains_insert]
      simp only [List.mem_cons, exists_eq_or_imp]
      constructor
      · rintro ((heq | hold) | hmem)
        · exact Or.inr (Or.inl heq.symm)
        · exact Or.inl hold
        · exact Or.inr (Or.inr hmem)
      · rintro (hold | heq | hmem)
        · exact Or.inl (Or.inr hold)
        · exact Or.inl (Or.inl heq.symm)
        · exact Or.inr hmem

/-- Accesses to what is there change nothing. -/
theorem access_of_contains {settings : ServerSettings}
    {keys : List ServerTokensType}
    (hall : ∀ u ∈ keys, settings.contains (u : Nat) = true) :
    settings.access keys = settings := by
  induction keys with
  | nil => rfl
  | cons first rest ih =>
      have hcons : settings.access (first :: rest) =
          access (settings.insert first []) rest := rfl
      have hsame : settings.insert (first : Nat) [] = settings := by
        rw [OrdMap.insert, if_pos (hall first List.mem_cons_self)]
      rw [hcons, hsame]
      exact ih fun u hmem => hall u (List.mem_cons_of_mem first hmem)

theorem compiled_compiled (settings : ServerSettings) :
    settings.compiled.compiled = settings.compiled := by
  have hlooked : settings.compiled.looked = settings.compiled := by
    apply access_of_contains
    intro u hmem
    rw [compiled, contains_access]
    refine Or.inl ?_
    rw [looked, contains_access]
    exact Or.inr ⟨u, hmem, rfl⟩
  rw [show settings.compiled.compiled = settings.compiled.looked.access
    [.sparethreads, .maxthreads, .poolrefresh, .cacherefresh, .maxrequests,
      .defer, .dunno, .onerror, .statsevery] from rfl, hlooked]
  apply access_of_contains
  intro u hmem
  rw [compiled, contains_access]
  exact Or.inr ⟨u, hmem, rfl⟩

end ServerSettings

namespace SystemRun

theorem outcome_of_ok {sys : System} {c : Attempt} {params : ServerParams}
    {load : Loading} (hload : sys.load c = (.ok params, load)) :
    sys.outcome c = some (params, load.core, load.settings) := by
  rw [System.outcome, hload]

theorem outcome_of_error {sys : System} {c : Attempt} {e : Error}
    {load : Loading} (hload : sys.load c = (.error e, load)) :
    sys.outcome c = none := by
  rw [System.outcome, hload]

/-- The parameters of an accepted configuration are those of its settings, and
its settings have every value that is looked at. -/
theorem outcome_settings {sys : System} {c : Attempt} {config : Configuration}
    (houtcome : sys.outcome c = some config) :
    config.1 = config.2.2.params ∧ config.2.2.compiled = config.2.2 := by
  rw [System.outcome] at houtcome
  split at houtcome
  · next params load hload =>
      obtain rfl := Option.some.inj houtcome
      obtain ⟨loaded, -, hparams, hsettings⟩ := System.compileConfig_ok hload
      simp only
      rw [hparams, hsettings]
      exact ⟨ServerSettings.params_congr fun u =>
        (loaded.settings.value_compiled u).symm,
        loaded.settings.compiled_compiled⟩
  · exact absurd houtcome.symm (Option.some_ne_none config)

/-- Compiling the previous configuration again gives the same one. -/
theorem compileConfig_again {core : Chain} {settings : ServerSettings}
    (hsettings : settings.compiled = settings) {openListener : Listener}
    {sys : System} {params : ServerParams} {load : Loading}
    (hload : System.compileConfig openListener [] true
      { system := sys, core := core, settings := settings } =
      (.ok params, load)) :
    params = settings.params ∧ load.core = core ∧
      load.settings = settings := by
  rw [System.compileConfig, if_pos rfl, System.startServer] at hload
  split at hload
  · injection hload with hresult
    cases hresult
  · injection hload with hresult hafter
    injection hresult with hsame
    rw [← hafter]
    dsimp only at hsame ⊢
    exact ⟨hsame.symm, rfl, hsettings⟩

/-- The system is what the attempts have left of it, and what is running was
accepted last. -/
structure Recorded (s : State) : Prop where
  system : s.system = System.after s.attempts
  running : ∀ config, s.running = some config →
    LastAccepted s.attempts config

theorem Recorded.of_same {s t : State} (hs : Recorded s)
    (hsystem : t.system = s.system) (hattempts : t.attempts = s.attempts)
    (hrunning : t.running = s.running) : Recorded t where
  system := by
    rw [hsystem, hattempts]
    exact hs.system
  running := by
    rw [hrunning, hattempts]
    exact hs.running

theorem Recorded.moved {s t : State} (hs : Recorded s)
    (hmoved : Moved s t) : Recorded t := by
  cases hmoved with
  | dropped => exact hs
  | stored sig hfree => exact hs.of_same rfl rfl rfl
  | compiled c params load next hphase hload =>
      rw [hs.system] at hload
      constructor
      · rw [after_concat, hload]
      · intro config hrunning
        cases hrunning
        exact lastAccepted_concat (outcome_of_ok hload)
  | rejected c e load next hphase hload =>
      rw [hs.system] at hload
      constructor
      · rw [after_concat, hload]
      · intro config hrunning
        exact (hs.running config hrunning).rejects (outcome_of_error hload)
  | unreadable hphase => exact hs.of_same rfl rfl rfl
  | restored config openListener params load hphase hrunning hload =>
      refine hs.of_same rfl rfl ?_
      obtain ⟨before, c, after, -, houtcome, -⟩ := hs.running config hrunning
      obtain ⟨hparams, hsettings⟩ := outcome_settings houtcome
      obtain ⟨rfl, hcore, hsame⟩ := compileConfig_again hsettings hload
      rw [hrunning, hcore, hsame, ← hparams]
  | gaveUp hphase => exact hs.of_same rfl rfl rfl
  | begun hphase => exact hs.of_same rfl rfl rfl
  | served config action server hphase hpermitted hrunning hstep =>
      exact hs.of_same rfl rfl rfl
  | interrupts hphase hmain => exact hs.of_same rfl rfl rfl
  | joined hphase hmain hmonitor => exact hs.of_same rfl rfl rfl
  | failed hphase hnone => exact hs.of_same rfl rfl rfl
  | noticed hphase hsome => exact hs.of_same rfl rfl rfl
  | quits hphase hsignal => exact hs.of_same rfl rfl rfl
  | reloads hphase hsignal => exact hs.of_same rfl rfl rfl
  | clears hphase => exact hs.of_same rfl rfl rfl
  | watched t hwatched => cases hwatched <;> exact hs.of_same rfl rfl rfl

theorem reachable_recorded {s : State} (hs : machine.Reachable s) :
    Recorded s := by
  refine hs.invariant ⟨rfl, ?_⟩ fun hrecorded hstep =>
    hrecorded.moved (step_moved hstep)
  intro config hrunning
  cases hrunning

/-- Outside of the start there is a configuration. -/
def Configured (s : State) : Prop :=
  s.phase = .starting ∨ s.phase = .exited .startupFailed ∨ s.running ≠ none

theorem Configured.moved {s t : State} (hs : Configured s)
    (hmoved : Moved s t) : Configured t := by
  have hrunning : ∀ phase, s.phase = phase → phase ≠ .starting →
      phase ≠ .exited .startupFailed → s.running ≠ none := by
    intro phase hphase hfirst hlast
    rcases hs with hstarting | hfailed | hsome
    · exact absurd (hphase.symm.trans hstarting) hfirst
    · exact absurd (hphase.symm.trans hfailed) hlast
    · exact hsome
  cases hmoved with
  | dropped => exact hs
  | stored sig hfree => exact hs
  | compiled c params load next hphase hload =>
      exact Or.inr (Or.inr (Option.some_ne_none _))
  | rejected c e load next hphase hload =>
      rcases hphase with ⟨-, rfl⟩ | ⟨hphase, rfl⟩
      · exact Or.inr (Or.inl rfl)
      · exact Or.inr (Or.inr (hrunning _ hphase (by simp) (by simp)))
  | unreadable hphase =>
      exact Or.inr (Or.inr (hrunning _ hphase (by simp) (by simp)))
  | restored config openListener params load hphase hrunning hload =>
      exact Or.inr (Or.inr (Option.some_ne_none _))
  | gaveUp hphase =>
      exact Or.inr (Or.inr (hrunning _ hphase (by simp) (by simp)))
  | begun hphase =>
      exact Or.inr (Or.inr (hrunning _ hphase (by simp) (by simp)))
  | served config action server hphase hpermitted hrunning hstep => exact hs
  | interrupts hphase hmain => exact hs
  | joined hphase hmain hmonitor =>
      exact Or.inr (Or.inr (hrunning _ hphase (by simp) (by simp)))
  | failed hphase hnone =>
      exact Or.inr (Or.inr (hrunning _ hphase (by simp) (by simp)))
  | noticed hphase hsome =>
      exact Or.inr (Or.inr (hrunning _ hphase (by simp) (by simp)))
  | quits hphase hsignal =>
      exact Or.inr (Or.inr (hrunning _ hphase (by simp) (by simp)))
  | reloads hphase hsignal =>
      exact Or.inr (Or.inr (hrunning _ hphase (by simp) (by simp)))
  | clears hphase =>
      exact Or.inr (Or.inr (hrunning _ hphase (by simp) (by simp)))
  | watched t hwatched => cases hwatched <;> exact hs

/-- Once the daemon has started, it always runs with the parameters, the policy
chain and the settings of the configuration that was accepted last: attempts
that were rejected since, unreadable files and the recovery from them change
nothing about it. -/
theorem reachable_runs_last_accepted {s : State} (hs : machine.Reachable s)
    (hstarted : s.phase ≠ .starting)
    (hrunning : s.phase ≠ .exited .startupFailed) :
    ∃ config, s.running = some config ∧ LastAccepted s.attempts config := by
  have hinit : Configured machine.init := Or.inl rfl
  have hconfigured : Configured s :=
    hs.invariant hinit fun hold hstep => Configured.moved hold
      (step_moved hstep)
  rcases hconfigured with hphase | hphase | hsome
  · exact absurd hphase hstarted
  · exact absurd hphase hrunning
  · obtain ⟨config, hconfig⟩ := Option.ne_none_iff_exists'.mp hsome
    exact ⟨config, hconfig, (reachable_recorded hs).running config hconfig⟩

namespace HistoryWitness

open ThreadsWitness

/-- A configuration whose port is taken. -/
def busy : Attempt where
  lines := []
  openListener _ _ := .error (.runtime_error "bind error".toList)

/-- After a hangup the server winds up, the new configuration is rejected and
the previous one is compiled again. -/
def recovery : List Action :=
  hungUp ++ [Action.server .acceptFails, Action.main] ++
    List.replicate 7 (Action.server .main) ++
    [Action.monitor false, .monitor false, .main, .main, .main,
      .reload (some busy), .retry fun _ _ => .ok (), .main]

def recovered : State :=
  (machine.run recovery {}).get (by decide +kernel)

theorem recovered_reachable : machine.Reachable recovered :=
  ⟨recovery, (Option.some_get _).symm⟩

theorem recovered_ready :
    recovered.phase = .ready ∧ recovered.globalSignal = none ∧
      recovered.attempts.length = 2 ∧
      recovered.log = [.stored .SIGHUP, .decided none, .cleared] := by
  decide +kernel

theorem recovered_used :
    recovered.globalSignal = none ∧
      UsedUp .SIGHUP [.decided none, .cleared] := by
  obtain ⟨-, hnone, -, hlog⟩ := recovered_ready
  refine ⟨hnone, ?_⟩
  rcases (reachable_signals_used recovered_reachable).1 [] .SIGHUP _
    hlog with hused | ⟨-, hsome⟩
  · exact hused
  · rw [hnone] at hsome
    cases hsome

theorem recovered_runs_first :
    recovered.attempts.length = 2 ∧
      ∃ config, recovered.running = some config ∧
        LastAccepted recovered.attempts config := by
  obtain ⟨hphase, -, hlength, -⟩ := recovered_ready
  refine ⟨hlength, reachable_runs_last_accepted recovered_reachable ?_ ?_⟩
  · rw [hphase]
    simp
  · rw [hphase]
    simp

end HistoryWitness

end SystemRun

end GreylistServer
