/-
The two promises of `schedule` that rest on reading the counters: at most
`_maxWorkers` tasks run at a time, and a queued task has a worker of its own
that will pop it.  A worker counts itself late and leaves `_waiting` late, so
either promise holds only in the runs in which the counters were right when
`schedule` relied on them.
-/
import GreylistServer.SchedulerTasks

namespace GreylistServer

namespace Scheduler

variable {T : Type} {s t : State T} {action : Action T}

/-- The number of tasks running at the same time. -/
def running (s : State T) : Nat :=
  s.workers.countP Worker.isRunning

/-- The number of created workers that may still run a task. -/
def able (s : State T) : Nat :=
  s.workers.countP Worker.able

/-- The number of workers that will pop a task before they run one. -/
def free (s : State T) : Nat :=
  s.workers.countP Worker.free

/-- About to create a worker. -/
@[simp] def Caller.creates : Caller T → Bool
  | .creating _ => true
  | _ => false

/-- A step that creates a worker finds fewer than `maxWorkers` workers that
may still run a task. -/
def CreatesWithinLimit (maxWorkers : Nat) (s : State T)
    (action : Action T) : Prop :=
  action = .caller → s.caller.creates = true → able s < maxWorkers

instance [DecidableEq T] (maxWorkers : Nat) (s : State T)
    (action : Action T) :
    Decidable (CreatesWithinLimit maxWorkers s action) :=
  inferInstanceAs (Decidable (_ → _ → _))

theorem running_le_able (s : State T) : running s ≤ able s := by
  apply List.countP_mono_left
  intro worker _ hrunning
  cases worker <;> simp_all

theorem Moved.able_le {i : Nat} {before after : Worker T}
    (hmoved : Moved s i before after t)
    (hget : s.workers[i]? = some before) : Scheduler.able t ≤ Scheduler.able s := by
  have hcount := hmoved.countP hget Worker.able
  have hable := hmoved.able
  simp only [Scheduler.able]
  cases hafter : after.able
  · simp only [hafter, Bool.toNat_false] at hcount
    omega
  · simp only [hafter, hable hafter, Bool.toNat_true] at hcount
    omega

/-- Only the creation of a worker adds one that may run a task. -/
theorem Stepped.able_le {maxWorkers : Nat} (hstep : Stepped s action t)
    (hlimit : CreatesWithinLimit maxWorkers s action)
    (hs : able s ≤ maxWorkers) : able t ≤ maxWorkers := by
  cases hstep with
  | called | read | reused | pushed | stopped | awaited | observed => exact hs
  | created task hcaller =>
      have hlt := hlimit rfl (by simp [hcaller])
      simp only [able, List.countP_append, List.countP_singleton] at hlt ⊢
      simp only [Worker.able, if_true]
      omega
  | worked i before after _ hget hmoved =>
      exact le_trans (hmoved.able_le hget) hs

/-- In a run whose steps create a worker only while fewer than `maxWorkers`
may still run a task, at most `maxWorkers` tasks run at any time. -/
theorem running_le_maxWorkers {maxSpare maxWorkers : Nat}
    {actions : List (Action T)}
    (hlimit : (machine T maxSpare maxWorkers).Along
      (fun s action _ => CreatesWithinLimit maxWorkers s action) actions
      (machine T maxSpare maxWorkers).init)
    (hrun : (machine T maxSpare maxWorkers).run actions
      (machine T maxSpare maxWorkers).init = some s) :
    running s ≤ maxWorkers := by
  apply le_trans (running_le_able s)
  refine Machine.run_preserves_along (fun s => able s ≤ maxWorkers) ?_
    (Nat.zero_le _) hlimit hrun
  intro s action t hs hok hstep
  exact (step_stepped hstep).able_le hok hs

/-- With no call of `schedule` in progress and no shutdown, the queue holds no
more tasks than there are workers that will pop one. -/
def Covered (s : State T) : Prop :=
  s.shutdown = false → (∃ answer, s.caller = .idle answer) →
    s.queue.length ≤ free s

/-- A push by a call that created no worker finds a worker that will pop. -/
def PushesToFree (s : State T) (action : Action T) : Prop :=
  action = .caller → ∀ task, s.caller = .pushing task false →
    s.monitor = none → s.shutdown = false → 0 < free s

/-- How many free workers the queue needs at each point of `schedule`. -/
def Provided (s : State T) : Prop :=
  match s.caller with
  | .pushing _ true => s.queue.length + 1 ≤ free s
  | .pushing _ false => s.queue = []
  | _ => s.queue.length ≤ free s

/-- Without a shutdown a worker stops being free only by popping a task. -/
theorem Moved.free_le {i : Nat} {before after : Worker T}
    (hmoved : Moved s i before after t) (hget : s.workers[i]? = some before)
    (hshutdown : s.shutdown = false) :
    t.queue.length + Scheduler.free s ≤ s.queue.length + Scheduler.free t := by
  have hcount := hmoved.countP hget Worker.free
  simp only [Scheduler.free]
  by_cases hpopping : before = .popping
  · obtain ⟨copy, hqueue, rfl, -⟩ := hmoved.pops hpopping
    subst hpopping
    simp only [hqueue, List.length_cons]
    simp only [Worker.free, Bool.toNat_true, Bool.toNat_false] at hcount
    omega
  · have hfree := hmoved.free
    simp only [hpopping, hshutdown, Bool.false_eq_true, or_false] at hfree
    rw [(hmoved.queue hpopping).1]
    cases hbefore : before.free
    · simp only [hbefore, Bool.toNat_false] at hcount
      omega
    · simp only [hbefore, hfree hbefore, Bool.toNat_true] at hcount
      omega

theorem Moved.provided {i : Nat} {before after : Worker T}
    (hmoved : Moved s i before after t) (hget : s.workers[i]? = some before)
    (hshutdown : s.shutdown = false) (hs : Provided s) : Provided t := by
  have hfree := hmoved.free_le hget hshutdown
  simp only [Provided, hmoved.caller] at hs ⊢
  split at hs
  · omega
  · cases hmoved.handled with
    | pops copy hqueue _ _ _ =>
        rw [hs] at hqueue
        cases hqueue
    | starts _ hqueue _ _ _ => rw [hqueue, hs]
    | finishes _ hqueue _ _ _ => rw [hqueue, hs]
    | keeps _ _ _ _ _ _ hqueue _ _ _ => rw [hqueue, hs]
  · omega

theorem provided_of_not_pushes (hcaller : s.caller.pushes = false) :
    Provided s ↔ s.queue.length ≤ free s := by
  cases hs : s.caller <;> simp_all [Provided]

theorem Stepped.provided (hstep : Stepped s action t)
    (hshutdown : t.shutdown = false) (hs : Provided s)
    (hok : PushesToFree s action) : Provided t := by
  cases hstep with
  | called task answer hcaller =>
      simp only [Provided, hcaller] at hs
      exact hs
  | read next _ hbefore hafter _ =>
      rw [provided_of_not_pushes hbefore] at hs
      exact (provided_of_not_pushes hafter).mpr hs
  | reused task hcaller hqueue => exact hqueue
  | created task hcaller =>
      simp only [Provided, hcaller, free] at hs
      simp only [Provided, free, List.countP_append, List.countP_singleton,
        Worker.free, if_true]
      omega
  | pushed task created hcaller hmonitor =>
      simp only [Provided, hcaller] at hs
      simp only [Provided, List.length_append, List.length_singleton]
      cases created with
      | false =>
          have hfree : 0 < free s := hok rfl task hcaller hmonitor hshutdown
          simp only at hs
          rw [hs]
          exact hfree
      | true => exact hs
  | stopped => cases hshutdown
  | awaited | observed => exact hs
  | worked i before after _ hget hmoved =>
      rw [hmoved.shutdown] at hshutdown
      exact hmoved.provided hget hshutdown hs

theorem Provided.covered (hs : s.shutdown = false → Provided s) :
    Covered s := by
  intro hshutdown ⟨answer, hcaller⟩
  simpa only [Provided, hcaller] using hs hshutdown

/-- A push without a free worker strands its task. -/
theorem not_covered_of_push {maxSpare maxWorkers : Nat}
    (hs : s.shutdown = false → Provided s)
    (hstep : step maxSpare maxWorkers s action = some t)
    (hok : ¬ PushesToFree s action) : ¬ Covered t := by
  simp only [PushesToFree, not_forall, not_lt, Nat.le_zero] at hok
  obtain ⟨rfl, task, hcaller, hmonitor, hshutdown, hfree⟩ := hok
  simp only [Provided, hcaller] at hs
  simp only [step, schedule, hcaller, hmonitor, if_true] at hstep
  cases hstep
  intro hcovered
  have hle := hcovered hshutdown ⟨some true, rfl⟩
  simp only [hs hshutdown, free] at hle hfree
  rw [hfree] at hle
  exact absurd hle (by simp)

/-- A run keeps a worker for every queued task in all its states exactly when
each push by a call that created no worker finds a worker that will pop. -/
theorem covered_iff_pushesToFree (maxSpare maxWorkers : Nat)
    (actions : List (Action T)) :
    (machine T maxSpare maxWorkers).Along (fun _ _ t => Covered t) actions
        (machine T maxSpare maxWorkers).init ↔
      (machine T maxSpare maxWorkers).Along
        (fun s action _ => PushesToFree s action) actions
        (machine T maxSpare maxWorkers).init := by
  have hpreserves : ∀ {s : State T} {action : Action T} {t : State T},
      (s.shutdown = false → Provided s) → PushesToFree s action →
        step maxSpare maxWorkers s action = some t →
          t.shutdown = false → Provided t := by
    intro s action t hs hok hstep ht
    have hstepped := step_stepped hstep
    exact hstepped.provided ht (hs (hstepped.shutdown_mono ht)) hok
  refine Machine.along_iff ?_ hpreserves actions (fun _ => Nat.le_refl 0)
  intro s action t hs hstep
  constructor
  · intro hcovered
    by_contra hok
    exact not_covered_of_push hs hstep hok hcovered
  · intro hok
    exact Provided.covered (hpreserves hs hok hstep)

namespace LimitsWitness

open TasksWitness

/-- Two calls of `schedule` before the first created worker counts itself, and
then both workers as far as the run of their tasks. -/
def bothCreated : List (Action Nat) :=
  scheduling 7 ++ scheduling 8 ++ List.replicate 8 (.worker 0) ++
    List.replicate 8 (.worker 1)

/-- With a limit of one worker two tasks run at the same time. -/
theorem limit_of_one_exceeded :
    ∃ s, (machine Nat 1 1).Reachable s ∧ ¬ running s ≤ 1 := by
  refine ⟨((machine Nat 1 1).run bothCreated {}).get (by decide),
    ⟨bothCreated, ?_⟩, by decide⟩
  exact (Option.some_get _).symm

theorem oneRunning_within_limit : running oneRunning ≤ 2 :=
  running_le_maxWorkers (show (machine Nat 1 2).Along
    (fun s action _ => CreatesWithinLimit 2 s action) twoTasks _ by decide)
    twoTasks_oneRunning

/-- The second call of `schedule` finds the first worker still counted as
waiting after it popped the first task. -/
def pushedBehind : List (Action Nat) :=
  scheduling 7 ++ List.replicate 5 (.worker 0) ++ scheduling 8

/-- A task is queued, and the only worker holds another one. -/
theorem task_stranded :
    ∃ s, (machine Nat 1 2).Reachable s ∧ ¬ Covered s := by
  refine ⟨((machine Nat 1 2).run pushedBehind {}).get (by decide),
    ⟨pushedBehind, ?_⟩, ?_⟩
  · exact (Option.some_get _).symm
  · intro hcovered
    exact absurd (hcovered (by decide) ⟨some true, by decide⟩) (by decide)

end LimitsWitness

end Scheduler

end GreylistServer
