/-
What becomes of a task handed to the scheduler.  Every pushed copy is in the
queue or was popped by exactly one worker, copies leave the queue in the order
in which they came, and each is run at most once.
-/
import GreylistServer.Scheduler

namespace GreylistServer

namespace Scheduler

variable {T : Type} {s t : State T} {i : Nat} {before after : Worker T}

/-- Copies leave the queue in the order in which they were pushed. -/
structure Ordered (s : State T) : Prop where
  pushed_eq : s.pushed = s.popped.map Prod.fst ++ s.queue
  tickets : s.pushed.map Copy.ticket = List.range s.pushed.length

/-- A popped copy is held by the worker that popped it until its run ends. -/
structure Held (s : State T) : Prop where
  held : ∀ (i : Nat) worker copy, s.workers[i]? = some worker →
    worker.holds = some copy → (copy, i) ∈ s.popped ∧ copy ∉ s.finished
  holder : ∀ copy i, (copy, i) ∈ s.popped → copy ∉ s.finished →
    ∃ worker, s.workers[i]? = some worker ∧ worker.holds = some copy
  finished_popped : ∀ copy ∈ s.finished, copy ∈ s.popped.map Prod.fst

/-- No copy was started twice, a running one was started, and one held by a
worker that is not running it was not. -/
structure RunOnce (s : State T) : Prop where
  started_nodup : s.started.Nodup
  started_popped : ∀ copy ∈ s.started, copy ∈ s.popped.map Prod.fst
  unstarted : ∀ (i : Nat) worker copy, s.workers[i]? = some worker →
    worker.holds = some copy → worker.isRunning = false → copy ∉ s.started
  running_started : ∀ (i : Nat) copy, s.workers[i]? = some (.running copy) →
    copy ∈ s.started

structure Accounted (s : State T) : Prop where
  ordered : Ordered s
  held : Held s
  runOnce : RunOnce s

theorem Ordered.pushed_nodup (hs : Ordered s) : s.pushed.Nodup := by
  apply List.Nodup.of_map Copy.ticket
  rw [hs.tickets]
  exact List.nodup_range

/-- No copy was popped twice. -/
theorem Ordered.popped_unique (hs : Ordered s) {copy : Copy T} {i j : Nat}
    (hi : (copy, i) ∈ s.popped) (hj : (copy, j) ∈ s.popped) : i = j := by
  have hnodup := hs.pushed_nodup
  rw [hs.pushed_eq] at hnodup
  have hsame := List.inj_on_of_nodup_map (List.nodup_append.mp hnodup).1 hi hj
    rfl
  exact congrArg Prod.snd hsame

/-- What is still queued was not popped. -/
theorem Ordered.front_not_popped (hs : Ordered s) {copy : Copy T}
    {rest : List (Copy T)} (hqueue : s.queue = copy :: rest) :
    copy ∉ s.popped.map Prod.fst := by
  have hnodup := hs.pushed_nodup
  rw [hs.pushed_eq, hqueue] at hnodup
  intro hmem
  exact (List.nodup_append.mp hnodup).2.2 copy hmem copy (by simp) rfl

theorem Ordered.moved (hs : Ordered s) (hmoved : Moved s i before after t) :
    Ordered t where
  pushed_eq := by
    rw [hmoved.pushed, hs.pushed_eq]
    cases hmoved.handled with
    | pops copy hqueue hpopped _ _ =>
        rw [hqueue, hpopped]
        simp
    | starts _ hqueue hpopped _ _ => rw [hqueue, hpopped]
    | finishes _ hqueue hpopped _ _ => rw [hqueue, hpopped]
    | keeps _ _ _ _ _ _ hqueue hpopped _ _ => rw [hqueue, hpopped]
  tickets := by
    rw [hmoved.pushed]
    exact hs.tickets

theorem Held.pops {copy : Copy T} (hs : Held s) (hordered : Ordered s)
    (hget : s.workers[i]? = some .popping)
    (hmoved : Moved s i .popping (.taken copy) t)
    (hqueue : s.queue = copy :: t.queue)
    (hpopped : t.popped = s.popped ++ [(copy, i)])
    (hfinished : t.finished = s.finished) : Held t where
  held := by
    intro j worker other hj hholds
    rw [hmoved.getElem? hget] at hj
    rw [hpopped, hfinished]
    by_cases hji : j = i
    · simp only [hji, if_true, Option.some.injEq] at hj
      subst hj
      cases hholds
      have hfresh := hordered.front_not_popped hqueue
      exact ⟨by simp [hji], fun hmem => hfresh (hs.finished_popped _ hmem)⟩
    · rw [if_neg hji] at hj
      obtain ⟨hmem, hnot⟩ := hs.held j worker other hj hholds
      exact ⟨by simp [hmem], hnot⟩
  holder := by
    intro other j hmem hnot
    rw [hfinished] at hnot
    rw [hmoved.getElem? hget]
    rw [hpopped] at hmem
    rcases List.mem_append.mp hmem with hold | hnew
    · obtain ⟨worker, hworker, hholds⟩ := hs.holder other j hold hnot
      have hji : j ≠ i := by
        rintro rfl
        rw [hget] at hworker
        cases hworker
        cases hholds
      rw [if_neg hji]
      exact ⟨worker, hworker, hholds⟩
    · cases List.mem_singleton.mp hnew
      exact ⟨.taken copy, by simp, rfl⟩
  finished_popped := by
    intro other hmem
    rw [hfinished] at hmem
    rw [hpopped, List.map_append]
    exact List.mem_append_left _ (hs.finished_popped other hmem)

theorem Held.keeps (hs : Held s) (hget : s.workers[i]? = some before)
    (hmoved : Moved s i before after t) (hholds : after.holds = before.holds)
    (hpopped : t.popped = s.popped) (hfinished : t.finished = s.finished) :
    Held t where
  held := by
    intro j worker copy hj hcopy
    rw [hmoved.getElem? hget] at hj
    rw [hpopped, hfinished]
    by_cases hji : j = i
    · simp only [hji, if_true, Option.some.injEq] at hj
      subst hj
      rw [hji]
      exact hs.held i before copy hget (hholds ▸ hcopy)
    · rw [if_neg hji] at hj
      exact hs.held j worker copy hj hcopy
  holder := by
    intro copy j hmem hnot
    rw [hpopped] at hmem
    rw [hfinished] at hnot
    rw [hmoved.getElem? hget]
    obtain ⟨worker, hworker, hcopy⟩ := hs.holder copy j hmem hnot
    by_cases hji : j = i
    · rw [hji, hget] at hworker
      cases hworker
      exact ⟨after, by simp [hji], hholds.trans hcopy⟩
    · exact ⟨worker, by simp [hji, hworker], hcopy⟩
  finished_popped := by
    rw [hpopped, hfinished]
    exact hs.finished_popped

theorem Held.finishes {copy : Copy T} (hs : Held s) (hordered : Ordered s)
    (hget : s.workers[i]? = some (.running copy))
    (hmoved : Moved s i (.running copy) .ending t)
    (hpopped : t.popped = s.popped)
    (hfinished : t.finished = s.finished ++ [copy]) : Held t where
  held := by
    intro j worker other hj hother
    rw [hmoved.getElem? hget] at hj
    rw [hpopped, hfinished]
    by_cases hji : j = i
    · simp only [hji, if_true, Option.some.injEq] at hj
      subst hj
      cases hother
    · rw [if_neg hji] at hj
      obtain ⟨hmem, hnot⟩ := hs.held j worker other hj hother
      have hne : other ≠ copy := by
        rintro rfl
        have hi := (hs.held i _ other hget rfl).1
        exact hji (hordered.popped_unique hmem hi)
      exact ⟨hmem, by simp [hnot, hne]⟩
  holder := by
    intro other j hmem hnot
    rw [hpopped] at hmem
    rw [hfinished] at hnot
    simp only [List.mem_append, List.mem_singleton, not_or] at hnot
    rw [hmoved.getElem? hget]
    obtain ⟨worker, hworker, hholds⟩ := hs.holder other j hmem hnot.1
    by_cases hji : j = i
    · rw [hji, hget] at hworker
      cases hworker
      cases hholds
      exact absurd rfl hnot.2
    · exact ⟨worker, by simp [hji, hworker], hholds⟩
  finished_popped := by
    intro other hmem
    rw [hfinished] at hmem
    rw [hpopped]
    rcases List.mem_append.mp hmem with hold | hnew
    · exact hs.finished_popped other hold
    · cases List.mem_singleton.mp hnew
      exact List.mem_map.mpr ⟨_, (hs.held i _ copy hget rfl).1, rfl⟩

theorem Held.moved (hs : Held s) (hordered : Ordered s)
    (hget : s.workers[i]? = some before)
    (hmoved : Moved s i before after t) : Held t := by
  cases hmoved.handled with
  | pops copy hqueue hpopped _ hfinished =>
      exact hs.pops hordered hget hmoved hqueue hpopped hfinished
  | starts copy _ hpopped _ hfinished =>
      exact hs.keeps hget hmoved rfl hpopped hfinished
  | finishes copy _ hpopped _ hfinished =>
      exact hs.finishes hordered hget hmoved hpopped hfinished
  | keeps _ _ _ hholds _ _ _ hpopped _ hfinished =>
      exact hs.keeps hget hmoved hholds hpopped hfinished

/-- A step that starts no task keeps every copy from being started twice when
what the worker holds afterwards was not started. -/
theorem RunOnce.quiet (hs : RunOnce s) (hget : s.workers[i]? = some before)
    (hmoved : Moved s i before after t)
    (hpopped : ∀ copy ∈ s.popped.map Prod.fst, copy ∈ t.popped.map Prod.fst)
    (hstarted : t.started = s.started)
    (hunstarted : ∀ copy, after.holds = some copy → after.isRunning = false →
      copy ∉ s.started) (hquiet : after.isRunning = false) : RunOnce t where
  started_nodup := by
    rw [hstarted]
    exact hs.started_nodup
  started_popped := by
    rw [hstarted]
    exact fun copy hmem => hpopped copy (hs.started_popped copy hmem)
  unstarted := by
    intro j worker copy hj hholds hrunning
    rw [hstarted]
    rw [hmoved.getElem? hget] at hj
    by_cases hji : j = i
    · simp only [hji, if_true, Option.some.injEq] at hj
      subst hj
      exact hunstarted copy hholds hrunning
    · rw [if_neg hji] at hj
      exact hs.unstarted j worker copy hj hholds hrunning
  running_started := by
    intro j copy hj
    rw [hstarted]
    rw [hmoved.getElem? hget] at hj
    by_cases hji : j = i
    · simp only [hji, if_true, Option.some.injEq] at hj
      subst hj
      cases hquiet
    · rw [if_neg hji] at hj
      exact hs.running_started j copy hj

theorem RunOnce.starts {copy : Copy T} (hs : RunOnce s) (hordered : Ordered s)
    (hheld : Held s) (hget : s.workers[i]? = some (.starting copy))
    (hmoved : Moved s i (.starting copy) (.running copy) t)
    (hpopped : t.popped = s.popped)
    (hstarted : t.started = s.started ++ [copy]) : RunOnce t where
  started_nodup := by
    have hnot := hs.unstarted i _ copy hget rfl rfl
    rw [hstarted]
    exact List.nodup_append.mpr ⟨hs.started_nodup, by simp,
      fun other hother last hlast => by
        cases List.mem_singleton.mp hlast
        exact fun heq => hnot (heq ▸ hother)⟩
  started_popped := by
    intro other hmem
    rw [hstarted] at hmem
    rw [hpopped]
    rcases List.mem_append.mp hmem with hold | hnew
    · exact hs.started_popped other hold
    · cases List.mem_singleton.mp hnew
      exact List.mem_map.mpr ⟨_, (hheld.held i _ copy hget rfl).1, rfl⟩
  unstarted := by
    intro j worker other hj hholds hrunning
    rw [hstarted]
    rw [hmoved.getElem? hget] at hj
    by_cases hji : j = i
    · simp only [hji, if_true, Option.some.injEq] at hj
      subst hj
      cases hrunning
    · rw [if_neg hji] at hj
      have hne : other ≠ copy := by
        rintro rfl
        exact hji (hordered.popped_unique
          (hheld.held j worker other hj hholds).1
          (hheld.held i _ other hget rfl).1)
      have hnot := hs.unstarted j worker other hj hholds hrunning
      simp [hnot, hne]
  running_started := by
    intro j other hj
    rw [hstarted]
    rw [hmoved.getElem? hget] at hj
    by_cases hji : j = i
    · simp only [hji, if_true, Option.some.injEq] at hj
      cases hj
      simp
    · rw [if_neg hji] at hj
      exact List.mem_append_left _ (hs.running_started j other hj)

theorem RunOnce.moved (hs : RunOnce s) (hordered : Ordered s) (hheld : Held s)
    (hget : s.workers[i]? = some before)
    (hmoved : Moved s i before after t) : RunOnce t := by
  cases hmoved.handled with
  | pops copy hqueue hpopped hstarted _ =>
      refine hs.quiet hget hmoved ?_ hstarted ?_ rfl
      · intro other hmem
        rw [hpopped, List.map_append]
        exact List.mem_append_left _ hmem
      · intro other hother _ hmem
        cases hother
        exact hordered.front_not_popped hqueue (hs.started_popped _ hmem)
  | starts copy _ hpopped hstarted _ =>
      exact hs.starts hordered hheld hget hmoved hpopped hstarted
  | finishes copy _ hpopped hstarted _ =>
      exact hs.quiet hget hmoved (by simp [hpopped]) hstarted nofun rfl
  | keeps _ _ _ hholds hrunning hquiet _ hpopped hstarted _ =>
      refine hs.quiet hget hmoved (by simp [hpopped]) hstarted ?_ hquiet
      intro copy hcopy hnot
      rw [hholds] at hcopy
      rw [hrunning] at hnot
      exact hs.unstarted i before copy hget hcopy hnot

theorem Ordered.popped_pushed (hs : Ordered s) {copy : Copy T}
    (hmem : copy ∈ s.popped.map Prod.fst) : copy ∈ s.pushed := by
  rw [hs.pushed_eq]
  exact List.mem_append_left _ hmem

/-- A new worker holds nothing. -/
theorem Accounted.created (hs : Accounted s) (caller : Caller T) :
    Accounted { s with
      caller := caller
      workers := s.workers ++ [.entering] } where
  ordered := { hs.ordered with }
  held := { hs.held with
    held := by
      intro i worker copy hi hholds
      rcases getElem?_concat_cases hi with hold | ⟨-, rfl⟩
      · exact hs.held.held i worker copy hold hholds
      · cases hholds
    holder := by
      intro copy i hmem hnot
      obtain ⟨worker, hworker, hholds⟩ := hs.held.holder copy i hmem hnot
      have hlt := (List.getElem?_eq_some_iff.mp hworker).1
      exact ⟨worker, by simp [List.getElem?_append_left hlt, hworker], hholds⟩ }
  runOnce := { hs.runOnce with
    unstarted := by
      intro i worker copy hi hholds hrunning
      rcases getElem?_concat_cases hi with hold | ⟨-, rfl⟩
      · exact hs.runOnce.unstarted i worker copy hold hholds hrunning
      · cases hholds
    running_started := by
      intro i copy hi
      rcases getElem?_concat_cases hi with hold | ⟨-, hnew⟩
      · exact hs.runOnce.running_started i copy hold
      · cases hnew }

theorem Accounted.stepped {action : Action T} (hs : Accounted s)
    (hstep : Stepped s action t) : Accounted t := by
  cases hstep with
  | called | read | reused | stopped | awaited | observed =>
      exact ⟨{ hs.ordered with }, { hs.held with }, { hs.runOnce with }⟩
  | created task hcaller => exact hs.created _
  | pushed task created hcaller hmonitor =>
      refine ⟨⟨?_, ?_⟩, { hs.held with }, { hs.runOnce with }⟩
      · simp only [hs.ordered.pushed_eq, List.append_assoc]
      · simp only [List.map_append, List.map_cons, List.map_nil,
          hs.ordered.tickets, List.length_append, List.length_singleton,
          List.range_succ]
  | worked i before after _ hget hmoved =>
      exact ⟨hs.ordered.moved hmoved, hs.held.moved hs.ordered hget hmoved,
        hs.runOnce.moved hs.ordered hs.held hget hmoved⟩

theorem reachable_accounted {maxSpare maxWorkers : Nat}
    (hs : (machine T maxSpare maxWorkers).Reachable s) : Accounted s := by
  apply hs.invariant
  · refine ⟨⟨rfl, rfl⟩, ⟨?_, ?_, ?_⟩, ⟨?_, ?_, ?_, ?_⟩⟩ <;> simp [machine]
  · intro s action t hs hstep
    exact hs.stepped (step_stepped hstep)

/-- The tasks come out of the queue in the order in which `schedule` pushed
them.  A popped task whose run has not ended is held by exactly one worker, no
task is started twice, and nobody pops from an empty queue. -/
theorem tasks_popped_in_order_once {maxSpare maxWorkers : Nat}
    (hs : (machine T maxSpare maxWorkers).Reachable s) :
    s.pushed = s.popped.map Prod.fst ++ s.queue ∧
      s.pushed.map Copy.ticket = List.range s.pushed.length ∧
      (∀ copy ∈ s.popped.map Prod.fst, copy ∉ s.finished →
        ∃! i : Nat, ∃ worker, s.workers[i]? = some worker ∧
          worker.holds = some copy) ∧
      (∀ (i : Nat) worker copy, s.workers[i]? = some worker →
        worker.holds = some copy →
          copy ∈ s.popped.map Prod.fst ∧ copy ∉ s.finished) ∧
      s.started.Nodup ∧ (∀ copy ∈ s.started, copy ∈ s.popped.map Prod.fst) ∧
      (∀ i : Nat, s.workers[i]? = some .popping → s.queue ≠ []) := by
  obtain ⟨hordered, hheld, honce⟩ := reachable_accounted hs
  refine ⟨hordered.pushed_eq, hordered.tickets, ?_, ?_, honce.started_nodup,
    honce.started_popped, (reachable_consistent hs).popping⟩
  · intro copy hmem hnot
    obtain ⟨⟨_, i⟩, hi, rfl⟩ := List.mem_map.mp hmem
    refine ⟨i, hheld.holder _ i hi hnot, ?_⟩
    rintro j ⟨worker, hj, hholds⟩
    exact hordered.popped_unique (hheld.held j worker _ hj hholds).1 hi
  · intro i worker copy hi hholds
    obtain ⟨hmem, hnot⟩ := hheld.held i worker copy hi hholds
    exact ⟨List.mem_map.mpr ⟨_, hmem, rfl⟩, hnot⟩

namespace TasksWitness

/-- One call of `schedule` with the machine's six steps of its caller. -/
def scheduling (task : Nat) : List (Action Nat) :=
  .schedule task :: List.replicate 6 .caller

/-- Two tasks, the first of them popped and running. -/
def twoTasks : List (Action Nat) :=
  scheduling 7 ++ List.replicate 8 (.worker 0) ++ scheduling 8

def oneRunning : State Nat where
  queue := [⟨1, 8⟩]
  active := 1
  caller := .idle (some true)
  workers := [.running ⟨0, 7⟩, .entering]
  pushed := [⟨0, 7⟩, ⟨1, 8⟩]
  popped := [(⟨0, 7⟩, 0)]
  started := [⟨0, 7⟩]

theorem twoTasks_oneRunning :
    (machine Nat 1 2).run twoTasks (machine Nat 1 2).init =
      some oneRunning := by
  decide

theorem oneRunning_popped_in_order :
    oneRunning.pushed = oneRunning.popped.map Prod.fst ++ oneRunning.queue :=
  (tasks_popped_in_order_once ⟨twoTasks, twoTasks_oneRunning⟩).1

end TasksWitness

end Scheduler

end GreylistServer
