/-
What becomes of the descriptors that `accept` returns.  Each is with the
accept loop, with the scheduler or with one handler, is closed by the one that
has it last and never twice; those that nobody takes from the scheduler are
never closed.
-/
import GreylistServer.ServerRun

namespace GreylistServer

namespace ServerRun

open Scheduler (Copy Caller Stepped)

variable {spare max : Nat} {s t : State} {action : Action}

theorem stage_enter (s : State) (c d : Nat) (stage : Stage) :
    (s.enter c stage).stage d =
      if d = c then (s.stage d).map (fun _ => stage) else s.stage d := by
  simp only [State.stage, State.enter, List.getElem?_modify]
  by_cases hd : d = c
  · cases hget : s.connections[d]? <;> simp_all
  · have hne : ¬ c = d := fun heq => hd heq.symm
    cases hget : s.connections[d]? <;> simp_all

theorem stage_enter_of_ne {c d : Nat} (hne : d ≠ c) (stage : Stage) :
    (s.enter c stage).stage d = s.stage d := by
  rw [stage_enter, if_neg hne]

@[simp] theorem stage_close (s : State) (c d fd : Nat) :
    (s.close c fd).stage d = s.stage d := by
  simp only [State.stage, State.close, List.getElem?_map, Option.map_map]
  congr 1
  funext connection
  simp only [Function.comp, Connection.closeNumber]
  split <;> rfl

theorem lt_of_stage {c : Nat} {stage : Stage} (hstage : s.stage c = some stage) :
    c < s.connections.length := by
  obtain ⟨connection, hget, -⟩ := Option.map_eq_some_iff.mp hstage
  exact (List.getElem?_eq_some_iff.mp hget).1

theorem scheduler_step {scheduler next : Scheduler.State Nat}
    {action : Scheduler.Action Nat}
    (hs : (Scheduler.machine Nat spare max).Reachable scheduler)
    (hstep : Scheduler.step spare max scheduler action = some next) :
    (Scheduler.machine Nat spare max).Reachable next :=
  hs.step hstep

/-- The steps of the scheduler keep it a reachable one. -/
theorem Ran.scheduler (hran : Ran spare max s action t)
    (hs : (Scheduler.machine Nat spare max).Reachable s.scheduler) :
    (Scheduler.machine Nat spare max).Reachable t.scheduler := by
  cases hran with
  | accepted | handed | refused | rejected => exact hs
  | called c scheduler hmain hstep => exact scheduler_step hs hstep
  | scheduled c scheduler hmain hstep => exact scheduler_step hs hstep
  | winds _ next scheduler shut _ hbefore hafter hstep =>
      rcases hstep with rfl | ⟨action, -, hstep⟩
      · exact hs
      · exact scheduler_step hs hstep
  | worked i scheduler hstep hdone => exact scheduler_step hs hstep
  | served i copy connection t hrunning hget hserved =>
      cases hserved <;> exact hs

theorem reachable_scheduler (hs : (machine spare max).Reachable s) :
    (Scheduler.machine Nat spare max).Reachable s.scheduler := by
  apply hs.invariant
  · exact Machine.reachable_init
  · intro s action t hs hstep
    exact (step_ran hstep).scheduler hs

/-- Connection `c` is still with the accept loop. -/
def Pending (s : State) (c : Nat) : Prop :=
  s.main = .accepted c ∨ s.main = .rejecting c ∨
    s.main = .scheduling c ∧ s.scheduler.caller ≠ .idle (some true)

/-- The task of connection `c` was handed to the scheduler. -/
def Pushed (s : State) (c : Nat) : Prop :=
  ∃ copy ∈ s.scheduler.pushed, copy.task = c

/-- Every connection is in one place: with the accept loop, pushed once, or
rejected.  Its handler runs only between the start and the end of its task. -/
structure Owned (s : State) : Prop where
  tasks_nodup : (s.scheduler.pushed.map Copy.task).Nodup
  pushed_lt : ∀ copy ∈ s.scheduler.pushed, copy.task < s.connections.length
  pending : ∀ c, Pending s c → s.stage c = some .accepted ∧ ¬ Pushed s c
  calling : ∀ c, s.main = .scheduling c →
    s.scheduler.caller.task = some c ∨
      s.scheduler.caller = .idle (some false) ∨
      s.scheduler.caller = .idle (some true) ∧ Pushed s c
  placed : ∀ c < s.connections.length,
    Pending s c ∨ Pushed s c ∨ s.stage c = some .rejected
  unstarted : ∀ copy ∈ s.scheduler.pushed, copy ∉ s.scheduler.started →
    s.stage copy.task = some .accepted
  finished : ∀ copy ∈ s.scheduler.finished,
    s.stage copy.task = some .finished

theorem not_pending_of_current (hmain : s.main.current = none) (c : Nat) :
    ¬ Pending s c := by
  rintro (hpending | hpending | ⟨hpending, -⟩) <;>
    simp [hpending] at hmain

theorem Pending.current {c : Nat} (hpending : Pending s c) :
    s.main.current = some c := by
  rcases hpending with hmain | hmain | ⟨hmain, -⟩ <;> simp [hmain]

/-- A task was pushed only once. -/
theorem Owned.copy_unique (hs : Owned s) {copy other : Copy Nat}
    (hcopy : copy ∈ s.scheduler.pushed) (hother : other ∈ s.scheduler.pushed)
    (htask : copy.task = other.task) : copy = other :=
  List.inj_on_of_nodup_map hs.tasks_nodup hcopy hother htask

theorem Owned.accepted (hs : Owned s) (fd : Nat)
    (hmain : s.main = .accepting)
    (hfinished : ∀ copy ∈ s.scheduler.finished, copy ∈ s.scheduler.pushed) :
    Owned { s with
      main := .accepted s.connections.length
      connections := s.connections ++ [⟨fd, true, .accepted⟩] } := by
  have hstage : ∀ c < s.connections.length,
      State.stage { s with
        main := .accepted s.connections.length
        connections := s.connections ++ [⟨fd, true, .accepted⟩] } c =
        s.stage c := by
    intro c hc
    simp only [State.stage, List.getElem?_append_left hc]
  constructor
  case tasks_nodup => exact hs.tasks_nodup
  case pushed_lt =>
    intro copy hcopy
    have hlt := hs.pushed_lt copy hcopy
    simp only [List.length_append, List.length_singleton]
    omega
  case pending =>
    intro c hpending
    cases hpending.current
    refine ⟨by simp [State.stage], ?_⟩
    rintro ⟨copy, hcopy, htask⟩
    have hlt := hs.pushed_lt copy hcopy
    omega
  case calling =>
    intro c hscheduling
    cases hscheduling
  case placed =>
    intro c hc
    simp only [List.length_append, List.length_singleton] at hc
    by_cases hlast : c = s.connections.length
    · exact Or.inl (Or.inl (by simp [hlast]))
    · have hlt : c < s.connections.length := by omega
      rw [hstage c hlt]
      rcases hs.placed c hlt with hpending | hplaced
      · exact absurd hpending (not_pending_of_current (by simp [hmain]) c)
      · exact Or.inr hplaced
  case unstarted =>
    intro copy hcopy hstarted
    rw [hstage _ (hs.pushed_lt copy hcopy)]
    exact hs.unstarted copy hcopy hstarted
  case finished =>
    intro copy hcopy
    rw [hstage _ (hs.pushed_lt copy (hfinished copy hcopy))]
    exact hs.finished copy hcopy

/-- A step that moves no connection to another place. -/
theorem Owned.unmoved (hs : Owned s)
    (hconnections : t.connections = s.connections)
    (hpushed : t.scheduler.pushed = s.scheduler.pushed)
    (hstarted : t.scheduler.started = s.scheduler.started)
    (hfinished : t.scheduler.finished = s.scheduler.finished)
    (hpending : ∀ c, Pending t c ↔ Pending s c)
    (hcalling : ∀ c, t.main = .scheduling c →
      t.scheduler.caller.task = some c ∨
        t.scheduler.caller = .idle (some false)) : Owned t := by
  have hstage : ∀ c, t.stage c = s.stage c := by
    intro c
    simp only [State.stage, hconnections]
  have hsame : ∀ c, Pushed t c ↔ Pushed s c := by
    intro c
    simp only [Pushed, hpushed]
  constructor
  case tasks_nodup => simpa only [hpushed] using hs.tasks_nodup
  case pushed_lt => simpa only [hpushed, hconnections] using hs.pushed_lt
  case pending =>
    intro c hc
    rw [hstage, hsame]
    exact hs.pending c ((hpending c).mp hc)
  case calling =>
    intro c hc
    rcases hcalling c hc with htask | hidle
    · exact Or.inl htask
    · exact Or.inr (Or.inl hidle)
  case placed =>
    intro c hc
    rw [hpending, hsame, hstage]
    exact hs.placed c (hconnections ▸ hc)
  case unstarted => simpa only [hpushed, hstarted, hstage] using hs.unstarted
  case finished => simpa only [hfinished, hstage] using hs.finished

theorem Owned.pushed (hs : Owned s) {c ticket : Nat}
    (hmain : s.main = .scheduling c)
    (hbusy : s.scheduler.caller.task = some c)
    {scheduler : Scheduler.State Nat}
    (hpushed : scheduler.pushed = s.scheduler.pushed ++ [⟨ticket, c⟩])
    (hstarted : scheduler.started = s.scheduler.started)
    (hfinished : scheduler.finished = s.scheduler.finished)
    (hcaller : scheduler.caller = .idle (some true)) :
    Owned { s with scheduler := scheduler } := by
  have hbefore : s.scheduler.caller ≠ .idle (some true) := by
    intro hidle
    rw [hidle] at hbusy
    cases hbusy
  obtain ⟨hstage, hnot⟩ := hs.pending c (Or.inr (Or.inr ⟨hmain, hbefore⟩))
  have hmono : ∀ d, Pushed s d →
      Pushed { s with scheduler := scheduler } d := by
    rintro d ⟨copy, hcopy, htask⟩
    exact ⟨copy, by simp [hpushed, hcopy], htask⟩
  have hnew : Pushed { s with scheduler := scheduler } c :=
    ⟨⟨ticket, c⟩, by simp [hpushed], rfl⟩
  have hnone : ∀ d, ¬ Pending { s with scheduler := scheduler } d := by
    intro d
    simp [Pending, hmain, hcaller]
  constructor
  case tasks_nodup =>
    simp only [hpushed, List.map_append, List.map_cons, List.map_nil]
    refine List.nodup_append.mpr ⟨hs.tasks_nodup, by simp, ?_⟩
    intro task htask last hlast heq
    obtain ⟨copy, hcopy, rfl⟩ := List.mem_map.mp htask
    rw [List.mem_singleton.mp hlast] at heq
    exact hnot ⟨copy, hcopy, heq⟩
  case pushed_lt =>
    intro copy hcopy
    simp only [hpushed] at hcopy
    rcases List.mem_append.mp hcopy with hold | hlast
    · exact hs.pushed_lt copy hold
    · cases List.mem_singleton.mp hlast
      exact lt_of_stage hstage
  case pending => exact fun d hd => absurd hd (hnone d)
  case calling =>
    intro d hd
    rw [hmain] at hd
    cases hd
    exact Or.inr (Or.inr ⟨hcaller, hnew⟩)
  case placed =>
    intro d hd
    rcases hs.placed d hd with hold | hold | hrejected
    · have hcurrent := hold.current
      rw [hmain] at hcurrent
      cases hcurrent
      exact Or.inr (Or.inl hnew)
    · exact Or.inr (Or.inl (hmono d hold))
    · exact Or.inr (Or.inr hrejected)
  case unstarted =>
    intro copy hcopy hnotStarted
    simp only [hpushed] at hcopy
    simp only [hstarted] at hnotStarted
    rcases List.mem_append.mp hcopy with hold | hlast
    · exact hs.unstarted copy hold hnotStarted
    · cases List.mem_singleton.mp hlast
      exact hstage
  case finished =>
    simp only [hfinished]
    exact hs.finished

theorem Owned.scheduled (hs : Owned s) {c : Nat}
    (hmain : s.main = .scheduling c) {scheduler : Scheduler.State Nat}
    (hstep : Stepped s.scheduler .caller scheduler) :
    Owned { s with scheduler := scheduler } := by
  have hbusy : s.scheduler.caller.task = some c := by
    rcases hs.calling c hmain with hbusy | hidle | ⟨hidle, -⟩
    · exact hbusy
    · cases hstep <;> simp_all
    · cases hstep <;> simp_all
  have hnot : s.scheduler.caller ≠ .idle (some true) := by
    intro hidle
    rw [hidle] at hbusy
    cases hbusy
  cases hstep with
  | read next _ _ _ htask =>
      refine hs.unmoved rfl rfl rfl rfl ?_ ?_
      · intro d
        have hnext : next ≠ .idle (some true) := by
          rintro rfl
          rcases htask with htask | htask
          · rw [hbusy] at htask
            cases htask
          · cases htask
        simp [Pending, hmain, hnot, hnext]
      · intro d hd
        rw [hmain] at hd
        cases hd
        rwa [hbusy] at htask
  | reused task hcaller =>
      refine hs.unmoved rfl rfl rfl rfl ?_ ?_
      · intro d
        simp [Pending, hmain, hnot]
      · intro d hd
        rw [hmain] at hd
        cases hd
        rw [hcaller] at hbusy
        exact Or.inl hbusy
  | created task hcaller =>
      refine hs.unmoved rfl rfl rfl rfl ?_ ?_
      · intro d
        simp [Pending, hmain, hnot]
      · intro d hd
        rw [hmain] at hd
        cases hd
        rw [hcaller] at hbusy
        exact Or.inl hbusy
  | pushed task created hcaller hmonitor =>
      have htask : task = c := by
        rw [hcaller] at hbusy
        exact Option.some.inj hbusy
      subst htask
      exact hs.pushed hmain hbusy rfl rfl rfl rfl

/-- The accept loop closes the connection that the scheduler refused. -/
theorem Owned.rejected (hs : Owned s) {c fd : Nat}
    (hmain : s.main = .rejecting c)
    (hfinished : ∀ copy ∈ s.scheduler.finished, copy ∈ s.scheduler.pushed) :
    Owned ((({ s with main := .accepting } : State).close c fd).enter c
      .rejected) := by
  obtain ⟨hstage, hnot⟩ := hs.pending c (Or.inr (Or.inl hmain))
  have hother : ∀ copy ∈ s.scheduler.pushed, State.stage
      ((({ s with main := .accepting } : State).close c fd).enter c .rejected)
        copy.task = s.stage copy.task := by
    intro copy hcopy
    have hne : copy.task ≠ c := fun heq => hnot ⟨copy, hcopy, heq⟩
    rw [stage_enter, if_neg hne, stage_close]
    rfl
  constructor
  case tasks_nodup => exact hs.tasks_nodup
  case pushed_lt =>
    intro copy hcopy
    simpa [State.enter, State.close] using hs.pushed_lt copy hcopy
  case pending =>
    intro d hd
    exact absurd hd (not_pending_of_current rfl d)
  case calling => exact nofun
  case placed =>
    intro d hd
    simp only [State.enter, State.close, List.length_modify,
      List.length_map] at hd
    by_cases hdc : d = c
    · refine Or.inr (Or.inr ?_)
      rw [stage_enter, if_pos hdc, stage_close, hdc]
      simp only [State.stage] at hstage ⊢
      rw [hstage]
      rfl
    · rcases hs.placed d hd with hpending | hpushed | hrejected
      · have hcurrent := hpending.current
        rw [hmain] at hcurrent
        exact absurd (Option.some.inj hcurrent).symm hdc
      · exact Or.inr (Or.inl hpushed)
      · refine Or.inr (Or.inr ?_)
        rw [stage_enter, if_neg hdc, stage_close]
        exact hrejected
  case unstarted =>
    intro copy hcopy hstarted
    rw [hother copy hcopy]
    exact hs.unstarted copy hcopy hstarted
  case finished =>
    intro copy hcopy
    rw [hother copy (hfinished copy hcopy)]
    exact hs.finished copy hcopy

theorem Owned.worked (hs : Owned s) {i : Nat}
    {before after : Scheduler.Worker Nat} {scheduler : Scheduler.State Nat}
    (hget : s.scheduler.workers[i]? = some before)
    (hmoved : Scheduler.Moved s.scheduler i before after scheduler)
    (hdone : ∀ copy, before = .running copy →
      s.stage copy.task = some .finished) :
    Owned { s with scheduler := scheduler } := by
  have hpending : ∀ c, Pending { s with scheduler := scheduler } c ↔
      Pending s c := by
    intro c
    simp only [Pending, hmoved.caller]
  constructor
  case tasks_nodup => simpa only [hmoved.pushed] using hs.tasks_nodup
  case pushed_lt => simpa only [hmoved.pushed] using hs.pushed_lt
  case pending =>
    intro c hc
    simp only [Pushed, hmoved.pushed]
    exact hs.pending c ((hpending c).mp hc)
  case calling =>
    intro c hc
    simp only [Pushed, hmoved.pushed, hmoved.caller]
    exact hs.calling c hc
  case placed =>
    intro c hc
    rw [hpending]
    simp only [Pushed, hmoved.pushed]
    exact hs.placed c hc
  case unstarted =>
    intro copy hcopy hstarted
    simp only [hmoved.pushed] at hcopy
    refine hs.unstarted copy hcopy fun hmem => hstarted ?_
    cases hmoved.handled with
    | pops _ _ _ hsame _ => simpa only [hsame] using hmem
    | starts _ _ _ hadds _ => simp [hadds, hmem]
    | finishes _ _ _ hsame _ => simpa only [hsame] using hmem
    | keeps _ _ _ _ _ _ _ _ hsame _ => simpa only [hsame] using hmem
  case finished =>
    intro copy hcopy
    cases hmoved.handled with
    | pops _ _ _ _ hsame =>
        simp only [hsame] at hcopy
        exact hs.finished copy hcopy
    | starts _ _ _ _ hsame =>
        simp only [hsame] at hcopy
        exact hs.finished copy hcopy
    | finishes _ _ _ _ hadds =>
        simp only [hadds] at hcopy
        rcases List.mem_append.mp hcopy with hold | hlast
        · exact hs.finished copy hold
        · cases List.mem_singleton.mp hlast
          exact hdone copy rfl
    | keeps _ _ _ _ _ _ _ _ _ hsame =>
        simp only [hsame] at hcopy
        exact hs.finished copy hcopy

/-- A handler's step changes the stage of its own connection only, and never
to or from `rejected`. -/
theorem Served.stage {c : Nat} {connection : Connection}
    (hserved : Served s c connection t)
    (hget : s.connections[c]? = some connection) :
    t.scheduler = s.scheduler ∧ t.main = s.main ∧
      t.connections.length = s.connections.length ∧
      s.stage c ≠ some .rejected ∧
      ∀ d, d ≠ c → t.stage d = s.stage d := by
  have hstage : s.stage c = some connection.stage := by
    simp [State.stage, hget]
  cases hserved with
  | wraps hbefore =>
      exact ⟨rfl, rfl, by simp [State.enter], by simp [hstage, hbefore],
        fun d hd => stage_enter_of_ne hd _⟩
  | begins inserted hbefore =>
      exact ⟨rfl, rfl, by simp [State.enter], by simp [hstage, hbefore],
        fun d hd => stage_enter_of_ne hd _⟩
  | ends inserted hbefore =>
      exact ⟨rfl, rfl, by simp [State.enter], by simp [hstage, hbefore],
        fun d hd => stage_enter_of_ne hd _⟩
  | closes inserted hbefore =>
      refine ⟨rfl, rfl, by simp [State.enter, State.close],
        by simp [hstage, hbefore], fun d hd => ?_⟩
      rw [stage_enter_of_ne hd, stage_close]
  | erases inserted hbefore =>
      exact ⟨rfl, rfl, by simp [State.enter], by simp [hstage, hbefore],
        fun d hd => stage_enter_of_ne hd _⟩

theorem Owned.served (hs : Owned s) {i : Nat} {copy : Copy Nat}
    {connection : Connection} (htasks : Scheduler.Accounted s.scheduler)
    (hrunning : s.scheduler.workers[i]? = some (.running copy))
    (hget : s.connections[copy.task]? = some connection)
    (hserved : Served s copy.task connection t) : Owned t := by
  obtain ⟨hscheduler, hmain, hlength, hrejected, hother⟩ := hserved.stage hget
  have hpopped := (htasks.held.held i _ copy hrunning rfl)
  have hcopy : copy ∈ s.scheduler.pushed :=
    htasks.ordered.popped_pushed (List.mem_map.mpr ⟨_, hpopped.1, rfl⟩)
  have hdistinct : ∀ other ∈ s.scheduler.pushed, other ≠ copy →
      t.stage other.task = s.stage other.task := by
    intro other hmem hne
    exact hother _ fun htask => hne (hs.copy_unique hmem hcopy htask)
  have hpending : ∀ c, Pending t c ↔ Pending s c := by
    intro c
    simp only [Pending, hmain, hscheduler]
  have hpushed : ∀ c, Pushed t c ↔ Pushed s c := by
    intro c
    simp only [Pushed, hscheduler]
  constructor
  case tasks_nodup => simpa only [hscheduler] using hs.tasks_nodup
  case pushed_lt => simpa only [hscheduler, hlength] using hs.pushed_lt
  case pending =>
    intro c hc
    obtain ⟨hstage, hnot⟩ := hs.pending c ((hpending c).mp hc)
    have hne : c ≠ copy.task := fun heq => hnot ⟨copy, hcopy, heq.symm⟩
    rw [hother c hne, hpushed]
    exact ⟨hstage, hnot⟩
  case calling =>
    intro c hc
    rw [hmain] at hc
    rw [hscheduler, hpushed]
    exact hs.calling c hc
  case placed =>
    intro c hc
    rw [hlength] at hc
    rw [hpending, hpushed]
    rcases hs.placed c hc with hold | hold | hold
    · exact Or.inl hold
    · exact Or.inr (Or.inl hold)
    · have hne : c ≠ copy.task := fun heq => hrejected (heq ▸ hold)
      exact Or.inr (Or.inr ((hother c hne).trans hold))
  case unstarted =>
    intro other hmem hstarted
    rw [hscheduler] at hmem hstarted
    have hne : other ≠ copy := by
      rintro rfl
      exact hstarted (htasks.runOnce.running_started i other hrunning)
    rw [hdistinct other hmem hne]
    exact hs.unstarted other hmem hstarted
  case finished =>
    intro other hmem
    rw [hscheduler] at hmem
    have hne : other ≠ copy := by
      rintro rfl
      exact hpopped.2 hmem
    rw [hdistinct other
      (htasks.ordered.popped_pushed (htasks.held.finished_popped other hmem))
      hne]
    exact hs.finished other hmem

/-- The shutdown part leaves the tasks and the caller alone. -/
theorem winds_same {scheduler next : Scheduler.State Nat}
    {action : Scheduler.Action Nat}
    (haction : action ∈ [.shutdown, .wait, .waiter])
    (hstep : Scheduler.step spare max scheduler action = some next) :
    next.pushed = scheduler.pushed ∧ next.started = scheduler.started ∧
      next.finished = scheduler.finished ∧ next.workers = scheduler.workers ∧
      next.queue = scheduler.queue := by
  have hstepped := Scheduler.step_stepped hstep
  cases hstepped <;> simp_all

theorem Owned.ran (hs : Owned s) (htasks : Scheduler.Accounted s.scheduler)
    (hran : Ran spare max s action t) : Owned t := by
  have hfinished : ∀ copy ∈ s.scheduler.finished,
      copy ∈ s.scheduler.pushed := fun copy hmem =>
    htasks.ordered.popped_pushed (htasks.held.finished_popped copy hmem)
  cases hran with
  | accepted fd hmain hfresh => exact hs.accepted fd hmain hfinished
  | called c scheduler hmain hstep =>
      cases Scheduler.step_stepped hstep with
      | called =>
          refine hs.unmoved rfl rfl rfl rfl ?_ ?_
          · intro d
            simp [Pending, hmain]
          · intro d hd
            cases hd
            exact Or.inl rfl
  | scheduled c scheduler hmain hstep =>
      exact hs.scheduled hmain (Scheduler.step_stepped hstep)
  | handed c hmain hcaller =>
      refine hs.unmoved rfl rfl rfl rfl ?_ nofun
      intro d
      simp [Pending, hmain, hcaller]
  | refused c hmain hcaller =>
      refine hs.unmoved rfl rfl rfl rfl ?_ nofun
      intro d
      simp [Pending, hmain, hcaller]
  | rejected c connection hmain hget => exact hs.rejected hmain hfinished
  | winds _ next scheduler shut _ hbefore hafter hstep =>
      have hsame : scheduler.pushed = s.scheduler.pushed ∧
          scheduler.started = s.scheduler.started ∧
          scheduler.finished = s.scheduler.finished := by
        rcases hstep with rfl | ⟨action, haction, hstep⟩
        · exact ⟨rfl, rfl, rfl⟩
        · obtain ⟨hpushed, hstarted, hends, -, -⟩ := winds_same haction hstep
          exact ⟨hpushed, hstarted, hends⟩
      refine hs.unmoved rfl hsame.1 hsame.2.1 hsame.2.2 ?_ ?_
      · intro c
        exact iff_of_false (not_pending_of_current hafter c)
          (not_pending_of_current hbefore c)
      · intro c hc
        simp only at hc
        rw [hc] at hafter
        cases hafter
  | worked i scheduler hstep hdone =>
      cases Scheduler.step_stepped hstep with
      | worked _ before after _ hget hmoved =>
          exact hs.worked hget hmoved
            fun copy hbefore => hdone copy (hbefore ▸ hget)
  | served i copy connection t hrunning hget hserved =>
      exact hs.served htasks hrunning hget hserved

theorem reachable_owned (hs : (machine spare max).Reachable s) : Owned s := by
  apply hs.induction
  · constructor <;> simp [machine, Pending, Pushed]
  · intro s action t hreach hs hstep
    exact hs.ran (Scheduler.reachable_accounted (reachable_scheduler hreach))
      (step_ran hstep)

/-- The descriptor was closed by the one that had it last. -/
def Stage.closed : Stage → Bool
  | .rejected | .erasing _ | .finished => true
  | _ => false

/-- `::close` was called once for each closed connection and for no other, it
closed that connection's own descriptor, and open descriptors have different
numbers. -/
structure Descriptors (s : State) : Prop where
  closed_count : ∀ (c : Nat) connection, s.connections[c]? = some connection →
    s.closed.count c = connection.stage.closed.toNat ∧
      connection.isOpen = !connection.stage.closed
  closed_lt : ∀ c ∈ s.closed, c < s.connections.length
  distinct : ∀ (c d : Nat) connection other,
    s.connections[c]? = some connection → s.connections[d]? = some other →
      connection.isOpen = true → other.isOpen = true →
        connection.fd = other.fd → c = d

theorem getElem?_enter (s : State) (c d : Nat) (stage : Stage) :
    (s.enter c stage).connections[d]? = s.connections[d]?.map
      fun connection =>
        if d = c then { connection with stage := stage } else connection := by
  simp only [State.enter, List.getElem?_modify]
  by_cases hd : d = c
  · simp [hd]
  · have hne : ¬ c = d := fun heq => hd heq.symm
    simp [hd, hne]

/-- Closing the number of an open connection closes that connection and no
other. -/
theorem Descriptors.getElem?_close (hs : Descriptors s) {c : Nat}
    {connection : Connection} (hget : s.connections[c]? = some connection)
    (hopen : connection.isOpen = true) (d : Nat) :
    (s.close c connection.fd).connections[d]? = s.connections[d]?.map
      fun other =>
        if d = c then { other with isOpen := false } else other := by
  simp only [State.close, List.getElem?_map]
  cases hother : s.connections[d]? with
  | none => rfl
  | some other =>
      simp only [Option.map_some, Option.some.injEq, Connection.closeNumber]
      by_cases hd : d = c
      · rw [hd, hget] at hother
        cases hother
        simp [hd, hopen]
      · have hne : ¬ (other.isOpen = true ∧ other.fd = connection.fd) := by
          rintro ⟨hisOpen, hfd⟩
          exact hd (hs.distinct d c other connection hother hget hisOpen hopen
            hfd)
        simp [hd, hne]

theorem Descriptors.accepted (hs : Descriptors s) (fd : Nat) (main : Main)
    (hfresh : ∀ connection ∈ s.connections, connection.isOpen = true →
      connection.fd ≠ fd) :
    Descriptors { s with
      main := main
      connections := s.connections ++ [⟨fd, true, .accepted⟩] } where
  closed_count := by
    intro c connection hc
    rcases getElem?_concat_cases hc with hold | ⟨hlast, rfl⟩
    · exact hs.closed_count c connection hold
    · refine ⟨?_, rfl⟩
      simp only [Stage.closed, Bool.toNat_false, List.count_eq_zero]
      intro hmem
      have hlt := hs.closed_lt c hmem
      omega
  closed_lt := by
    intro c hc
    have hlt := hs.closed_lt c hc
    simp only [List.length_append, List.length_singleton]
    omega
  distinct := by
    intro c d connection other hc hd hopen hopen' hfd
    rcases getElem?_concat_cases hc with hc | ⟨hc', rfl⟩
    · rcases getElem?_concat_cases hd with hd | ⟨-, rfl⟩
      · exact hs.distinct c d connection other hc hd hopen hopen' hfd
      · exact absurd hfd (hfresh connection (List.mem_of_getElem? hc) hopen)
    · rcases getElem?_concat_cases hd with hd | ⟨hd', rfl⟩
      · exact absurd hfd.symm (hfresh other (List.mem_of_getElem? hd) hopen')
      · rw [hc', hd']

/-- Closing connection `c` and entering its next stage. -/
theorem Descriptors.getElem?_closes (hs : Descriptors s) {c : Nat}
    {connection : Connection} (hget : s.connections[c]? = some connection)
    (hopen : connection.isOpen = true) (stage : Stage) (d : Nat) :
    ((s.close c connection.fd).enter c stage).connections[d]? =
      s.connections[d]?.map fun other =>
        if d = c then { other with isOpen := false, stage := stage }
        else other := by
  rw [getElem?_enter, hs.getElem?_close hget hopen, Option.map_map]
  congr 1
  funext other
  by_cases hd : d = c <;> simp [hd]

/-- The one that has the open descriptor of connection `c` closes it. -/
theorem Descriptors.closes (hs : Descriptors s) {c : Nat}
    {connection : Connection} (hget : s.connections[c]? = some connection)
    (hbefore : connection.stage.closed = false) {stage : Stage}
    (hafter : stage.closed = true) :
    Descriptors ((s.close c connection.fd).enter c stage) := by
  obtain ⟨hcount, hisOpen⟩ := hs.closed_count c connection hget
  have hopen : connection.isOpen = true := by simp [hisOpen, hbefore]
  have hlookup := hs.getElem?_closes hget hopen stage
  constructor
  case closed_count =>
    intro d other hd
    rw [hlookup] at hd
    obtain ⟨before, hbefore', hother⟩ := Option.map_eq_some_iff.mp hd
    simp only [State.enter, State.close, List.count_append]
    by_cases hdc : d = c
    · rw [if_pos hdc] at hother
      subst hother
      rw [hdc, hcount]
      simp [hbefore, hafter]
    · rw [if_neg hdc] at hother
      subst hother
      have hne : ¬ c = d := fun heq => hdc heq.symm
      simpa [hne] using hs.closed_count d before hbefore'
  case closed_lt =>
    intro d hd
    simp only [State.enter, State.close, List.mem_append, List.mem_singleton,
      List.length_modify, List.length_map] at hd ⊢
    rcases hd with hd | rfl
    · exact hs.closed_lt d hd
    · exact (List.getElem?_eq_some_iff.mp hget).1
  case distinct =>
    intro d e first second hd he hfirst hsecond hfd
    rw [hlookup] at hd he
    obtain ⟨first', hd', rfl⟩ := Option.map_eq_some_iff.mp hd
    obtain ⟨second', he', rfl⟩ := Option.map_eq_some_iff.mp he
    by_cases hdc : d = c
    · simp [hdc] at hfirst
    · by_cases hec : e = c
      · simp [hec] at hsecond
      · simp only [if_neg hdc] at hfirst hfd
        simp only [if_neg hec] at hsecond hfd
        exact hs.distinct d e first' second' hd' he' hfirst hsecond hfd

/-- A stage that leaves the descriptor as it is. -/
theorem Descriptors.enters (hs : Descriptors s) {c : Nat}
    {connection : Connection} (hget : s.connections[c]? = some connection)
    {stage : Stage} (hsame : stage.closed = connection.stage.closed)
    (hconnections : t.connections = (s.enter c stage).connections)
    (hclosed : t.closed = s.closed) : Descriptors t := by
  have hlookup : ∀ (d : Nat) (other : Connection),
      t.connections[d]? = some other → ∃ before : Connection,
        s.connections[d]? = some before ∧ other.fd = before.fd ∧
        other.isOpen = before.isOpen ∧
        other.stage.closed = before.stage.closed := by
    intro d other hd
    rw [hconnections, getElem?_enter] at hd
    obtain ⟨before, hbefore, rfl⟩ := Option.map_eq_some_iff.mp hd
    refine ⟨before, hbefore, ?_⟩
    by_cases hdc : d = c
    · rw [hdc, hget] at hbefore
      cases hbefore
      simp [hdc, hsame]
    · simp [hdc]
  constructor
  case closed_count =>
    intro d other hd
    obtain ⟨before, hbefore, -, hopen, hstage⟩ := hlookup d other hd
    rw [hclosed, hopen, hstage]
    exact hs.closed_count d before hbefore
  case closed_lt =>
    intro d hd
    rw [hclosed] at hd
    rw [hconnections]
    simpa [State.enter] using hs.closed_lt d hd
  case distinct =>
    intro d e first second hd he hfirst hsecond hfd
    obtain ⟨first', hd', hfd', hopen, -⟩ := hlookup d first hd
    obtain ⟨second', he', hfe', hopen', -⟩ := hlookup e second he
    exact hs.distinct d e first' second' hd' he' (hopen ▸ hfirst)
      (hopen' ▸ hsecond) (by rw [← hfd', ← hfe', hfd])

theorem Descriptors.served (hs : Descriptors s) {c : Nat}
    {connection : Connection} (hget : s.connections[c]? = some connection)
    (hserved : Served s c connection t) : Descriptors t := by
  cases hserved with
  | wraps hstage => exact hs.enters hget (by rw [hstage]; rfl) rfl rfl
  | begins inserted hstage => exact hs.enters hget (by rw [hstage]; rfl) rfl rfl
  | ends inserted hstage => exact hs.enters hget (by rw [hstage]; rfl) rfl rfl
  | closes inserted hstage => exact hs.closes hget (by rw [hstage]; rfl) rfl
  | erases inserted hstage => exact hs.enters hget (by rw [hstage]; rfl) rfl rfl

theorem Descriptors.ran (hs : Descriptors s) (howned : Owned s)
    (hran : Ran spare max s action t) : Descriptors t := by
  cases hran with
  | accepted fd hmain hfresh => exact hs.accepted fd _ hfresh
  | called | scheduled | handed | refused | winds | worked =>
      exact ⟨hs.closed_count, hs.closed_lt, hs.distinct⟩
  | rejected c connection hmain hget =>
      have hstage := (howned.pending c (Or.inr (Or.inl hmain))).1
      simp only [State.stage, hget, Option.map_some, Option.some.injEq]
        at hstage
      have hs' : Descriptors { s with main := .accepting } :=
        ⟨hs.closed_count, hs.closed_lt, hs.distinct⟩
      exact hs'.closes hget (by rw [hstage]; rfl) rfl
  | served i copy connection t hrunning hget hserved =>
      exact hs.served hget hserved

theorem reachable_descriptors (hs : (machine spare max).Reachable s) :
    Descriptors s := by
  apply hs.induction
  · constructor <;> simp [machine]
  · intro s action t hreach hs hstep
    exact hs.ran (reachable_owned hreach) (step_ran hstep)

/-- Every descriptor that `accept` returned is closed, by one `::close`. -/
def AllClosedOnce (s : State) : Prop :=
  ∀ (c : Nat) connection, s.connections[c]? = some connection →
    connection.isOpen = false ∧ s.closed.count c = 1

/-- No task is queued, and each worker that holds one has closed its
connection. -/
def NothingHeld (s : State) : Prop :=
  s.scheduler.queue = [] ∧
    ∀ worker ∈ s.scheduler.workers, ∀ copy, worker.holds = some copy →
      ∃ stage, s.stage copy.task = some stage ∧ stage.closed = true

theorem Descriptors.allClosedOnce_iff (hs : Descriptors s) :
    AllClosedOnce s ↔ ∀ (c : Nat) connection,
      s.connections[c]? = some connection → connection.stage.closed = true := by
  constructor
  · intro hall c connection hget
    obtain ⟨hopen, -⟩ := hall c connection hget
    rw [(hs.closed_count c connection hget).2] at hopen
    simpa using hopen
  · intro hall c connection hget
    obtain ⟨hcount, hopen⟩ := hs.closed_count c connection hget
    rw [hcount, hopen, hall c connection hget]
    exact ⟨rfl, rfl⟩

theorem Descriptors.closed_at_most_once (hs : Descriptors s) (c : Nat) :
    s.closed.count c ≤ 1 := by
  cases hget : s.connections[c]? with
  | some connection =>
      rw [(hs.closed_count c connection hget).1]
      exact Bool.toNat_le _
  | none =>
      have hnot : c ∉ s.closed := fun hmem =>
        absurd (hs.closed_lt c hmem) (not_lt.mpr
          (List.getElem?_eq_none_iff.mp hget))
      rw [List.count_eq_zero.mpr hnot]
      exact Nat.zero_le 1

/-- A queued task has an open connection. -/
theorem queue_nil_of_closed (howned : Owned s)
    (htasks : Scheduler.Accounted s.scheduler)
    (hall : ∀ (c : Nat) connection, s.connections[c]? = some connection →
      connection.stage.closed = true) : s.scheduler.queue = [] := by
  cases hqueue : s.scheduler.queue with
  | nil => rfl
  | cons copy rest =>
      have hcopy : copy ∈ s.scheduler.pushed := by
        rw [htasks.ordered.pushed_eq, hqueue]
        simp
      have hnot : copy ∉ s.scheduler.started := fun hmem =>
        htasks.ordered.front_not_popped hqueue
          (htasks.runOnce.started_popped copy hmem)
      obtain ⟨connection, hget, hstage⟩ :=
        Option.map_eq_some_iff.mp (howned.unstarted copy hcopy hnot)
      have hclosed := hall _ connection hget
      rw [hstage] at hclosed
      cases hclosed

/-- A task that is neither queued nor held by a worker before its close has a
closed connection. -/
theorem closed_of_nothingHeld (howned : Owned s)
    (htasks : Scheduler.Accounted s.scheduler) (hheld : NothingHeld s)
    {copy : Copy Nat} (hcopy : copy ∈ s.scheduler.pushed) :
    ∃ stage, s.stage copy.task = some stage ∧ stage.closed = true := by
  rw [htasks.ordered.pushed_eq, hheld.1, List.append_nil] at hcopy
  by_cases hfinished : copy ∈ s.scheduler.finished
  · exact ⟨.finished, howned.finished copy hfinished, rfl⟩
  · obtain ⟨⟨_, i⟩, hpopped, rfl⟩ := List.mem_map.mp hcopy
    obtain ⟨worker, hworker, hholds⟩ :=
      htasks.held.holder _ i hpopped hfinished
    exact hheld.2 worker (List.mem_of_getElem? hworker) _ hholds

/-- No descriptor is ever closed twice.  When `run` returns, all of them are
closed exactly when no task is left in the queue or with a worker that has not
closed its connection. -/
theorem returned_closed_iff (hs : (machine spare max).Reachable s) :
    (∀ c, s.closed.count c ≤ 1) ∧
      (s.main = .returned → (AllClosedOnce s ↔ NothingHeld s)) := by
  have hdescriptors := reachable_descriptors hs
  have howned := reachable_owned hs
  have htasks := Scheduler.reachable_accounted (reachable_scheduler hs)
  refine ⟨hdescriptors.closed_at_most_once, fun hmain => ?_⟩
  rw [hdescriptors.allClosedOnce_iff]
  constructor
  · intro hall
    refine ⟨queue_nil_of_closed howned htasks hall, ?_⟩
    intro worker hworker copy hholds
    obtain ⟨i, hi⟩ := List.mem_iff_getElem?.mp hworker
    have hpopped := (htasks.held.held i worker copy hi hholds).1
    have hlt := howned.pushed_lt copy
      (htasks.ordered.popped_pushed (List.mem_map.mpr ⟨_, hpopped, rfl⟩))
    have hget := List.getElem?_eq_getElem hlt
    exact ⟨_, by rw [State.stage, hget]; rfl, hall _ _ hget⟩
  · intro hheld c connection hget
    have hstage : s.stage c = some connection.stage := by
      rw [State.stage, hget]
      rfl
    have hlt := (List.getElem?_eq_some_iff.mp hget).1
    rcases howned.placed c hlt with hpending | ⟨copy, hcopy, rfl⟩ | hrejected
    · exact absurd hpending (not_pending_of_current (by simp [hmain]) c)
    · obtain ⟨stage, hfound, hclosed⟩ :=
        closed_of_nothingHeld howned htasks hheld hcopy
      rw [hstage] at hfound
      cases hfound
      exact hclosed
    · rw [hstage] at hrejected
      rw [Option.some.inj hrejected]
      rfl

namespace DescriptorsWitness

/-- `accept` returns the number and `schedule` creates a worker for it. -/
def accepting (fd : Nat) : List Action :=
  .accept fd :: List.replicate 8 .main

/-- The first connection is being served and the second one is queued when
`accept` fails. -/
def queuedAtSignal : List Action :=
  accepting 5 ++ List.replicate 8 (.worker 0) ++ accepting 6 ++
    .acceptFails :: List.replicate 3 .main

/-- Both workers end, and `run` returns. -/
def winding : List Action :=
  List.replicate 6 (.worker 1) ++ List.replicate 9 (.worker 0) ++
    List.replicate 4 .main

/-- All threads have ended and the second descriptor is open. -/
theorem queued_descriptor_left_open :
    ∃ s, (machine 1 2).Reachable s ∧ s.main = .returned ∧
      s.scheduler.workers = [.ended, .ended] ∧ ¬ AllClosedOnce s := by
  refine ⟨((machine 1 2).run (queuedAtSignal ++ winding) {}).get
    (by decide +kernel), ⟨queuedAtSignal ++ winding, (Option.some_get _).symm⟩,
    by decide +kernel, by decide +kernel, ?_⟩
  intro hall
  exact absurd (hall 1 ⟨6, true, .accepted⟩ (by decide +kernel)).1 (by decide)

/-- One connection, served before `accept` fails. -/
def servedBefore : List Action :=
  accepting 5 ++ List.replicate 8 (.worker 0) ++
    .acceptFails :: List.replicate 3 .main ++ List.replicate 9 (.worker 0) ++
    List.replicate 4 .main

def served : State where
  scheduler :=
    { shutdown := true
      caller := .idle (some true)
      waiter := .returned
      workers := [.ended]
      pushed := [⟨0, 0⟩]
      popped := [(⟨0, 0⟩, 0)]
      started := [⟨0, 0⟩]
      finished := [⟨0, 0⟩] }
  connections := [⟨5, false, .finished⟩]
  main := .returned
  closed := [0]

theorem served_closed_once : AllClosedOnce served :=
  ((returned_closed_iff (s := served)
    (show (machine 1 2).Reachable served from
      ⟨servedBefore, by decide +kernel⟩)).2 rfl).mpr
    ⟨rfl, by simp [served]⟩

end DescriptorsWitness

end ServerRun

end GreylistServer
