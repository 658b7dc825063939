/-
What the return of `wait` says about the workers.  `wait` reads `_active` and
then `_waiting`; the workers that neither counter shows at those moments are
still there when it returns.
-/
import GreylistServer.SchedulerTasks

namespace GreylistServer

namespace Scheduler

variable {T : Type} {s t : State T}

/-- Every worker thread has ended. -/
def Quiet (s : State T) : Prop :=
  ∀ worker ∈ s.workers, worker = .ended

/-- Every worker alive is in one of the two regions that the counters
count: none is still before its `++_waiting`, between `--_waiting` and
`++_active`, or past its last decrement. -/
def AllCounted (s : State T) : Prop :=
  ∀ worker ∈ s.workers, worker ≠ .ended →
    worker.countedWaiting = true ∨ worker.countedActive = true

/-- Neither counter counts anybody. -/
theorem Consistent.not_counted (hs : Consistent s) (hwaiting : s.waiting = 0)
    (hactive : s.active = 0) {worker : Worker T} (hmem : worker ∈ s.workers) :
    worker.countedWaiting = false ∧ worker.countedActive = false := by
  rw [hs.waiting_eq, List.countP_eq_zero] at hwaiting
  rw [hs.active_eq, List.countP_eq_zero] at hactive
  exact ⟨by simpa using hwaiting worker hmem, by simpa using hactive worker hmem⟩

theorem Quiet.active_eq (hquiet : Quiet s) (hs : Consistent s) :
    s.active = 0 := by
  rw [hs.active_eq, List.countP_eq_zero]
  intro worker hmem
  simp [hquiet worker hmem]

/-- Workers that have ended stay so, and without a call of `schedule` no new
one comes. -/
theorem Quiet.stepped {action : Action T} (hs : Quiet s)
    (hcaller : ∃ answer, s.caller = .idle answer)
    (haction : ∀ task, action ≠ .schedule task)
    (hstep : Stepped s action t) :
    Quiet t ∧ ∃ answer, t.caller = .idle answer := by
  obtain ⟨answer, hidle⟩ := hcaller
  cases hstep with
  | called task => exact absurd rfl (haction task)
  | read next hbusy => exact absurd hidle (hbusy answer)
  | reused task hbusy | created task hbusy | pushed task created hbusy =>
      rw [hidle] at hbusy
      cases hbusy
  | stopped | awaited | observed => exact ⟨hs, answer, hidle⟩
  | worked i before after _ hget hmoved =>
      exact absurd (hs before (List.mem_of_getElem? hget)) hmoved.alive

theorem Quiet.run {maxSpare maxWorkers : Nat} {later : List (Action T)}
    {u : State T} (hquiet : Quiet t)
    (hcaller : ∃ answer, t.caller = .idle answer)
    (hlater : (machine T maxSpare maxWorkers).Along
      (fun _ action _ => ∀ task, action ≠ .schedule task) later t)
    (hrun : (machine T maxSpare maxWorkers).run later t = some u) :
    Quiet u := by
  have hboth := Machine.run_preserves_along
    (fun s => Quiet s ∧ ∃ answer, s.caller = .idle answer)
    (fun hs haction hstep =>
      hs.1.stepped hs.2 haction (step_stepped hstep))
    ⟨hquiet, hcaller⟩ hlater hrun
  exact hboth.1

/-- With no call of `schedule` in progress or later, and shut down or not,
`wait` returns with all workers ended for good exactly when, as it
reads `_waiting`, no task has begun since it read `_active` and every worker
alive is counted. -/
theorem wait_returns_quiet_iff (maxSpare maxWorkers : Nat)
    (hs : (machine T maxSpare maxWorkers).Reachable s)
    (hcaller : ∃ answer, s.caller = .idle answer)
    (hreads : s.waiter = .readWaiting)
    (hstep : step maxSpare maxWorkers s .waiter = some t)
    (hreturns : t.waiter = .returned) :
    (∀ later u, (machine T maxSpare maxWorkers).Along
        (fun _ action _ => ∀ task, action ≠ .schedule task) later t →
      (machine T maxSpare maxWorkers).run later t = some u →
        Quiet u ∧ ∀ i, step maxSpare maxWorkers u (.worker i) = none) ↔
      s.active = 0 ∧ AllCounted s := by
  have hconsistent := reachable_consistent hs
  have hzero : s.waiting = 0 ∧ t = { s with waiter := .returned } := by
    simp only [step, wait, hreads] at hstep
    split at hstep
    · cases hstep
      cases hreturns
    · cases hstep
      exact ⟨by omega, rfl⟩
  obtain ⟨hwaiting, rfl⟩ := hzero
  constructor
  · intro hlater
    have hquiet : Quiet s := (hlater [] _ trivial rfl).1
    exact ⟨hquiet.active_eq hconsistent,
      fun worker hmem halive => absurd (hquiet worker hmem) halive⟩
  · rintro ⟨hactive, hcounted⟩ later u hlater hrun
    have hquiet : Quiet s := by
      intro worker hmem
      by_contra halive
      have hnot := hconsistent.not_counted hwaiting hactive hmem
      rcases hcounted worker hmem halive with hw | ha
      · rw [hnot.1] at hw
        cases hw
      · rw [hnot.2] at ha
        cases ha
    have ht : Quiet { s with waiter := .returned } := hquiet
    have hu : Quiet u := ht.run hcaller hlater hrun
    refine ⟨hu, fun i => ?_⟩
    cases hget : u.workers[i]? with
    | none => simp [step, hget]
    | some worker =>
        have hended := hu worker (List.mem_of_getElem? hget)
        simp [step, hget, hended, exec]

namespace ShutdownWitness

open TasksWitness

/-- `wait` reads both counters before the created worker has counted
itself. -/
def notStarted : List (Action Nat) :=
  scheduling 7 ++ [.shutdown, .wait, .waiter]

def aboutToReturn : State Nat where
  queue := [⟨0, 7⟩]
  shutdown := true
  caller := .idle (some true)
  waiter := .readWaiting
  workers := [.entering]
  pushed := [⟨0, 7⟩]

/-- `wait` returns while the worker is alive, and the worker then enters the
scheduler. -/
theorem wait_returns_before_worker :
    (machine Nat 1 2).Reachable aboutToReturn ∧
      ∃ t u, step 1 2 aboutToReturn .waiter = some t ∧
        t.waiter = .returned ∧ ¬ Quiet t ∧
        step 1 2 t (.worker 0) = some u ∧ u.waiting = 1 := by
  refine ⟨⟨notStarted, by decide⟩, _, _, rfl, rfl, ?_, rfl, rfl⟩
  intro hquiet
  exact absurd (hquiet .entering (by decide)) (by decide)

/-- The only task was run to its end before `wait` is called. -/
def servedFirst : List (Action Nat) :=
  scheduling 7 ++ List.replicate 8 (.worker 0) ++ [.shutdown] ++
    List.replicate 4 (.worker 0) ++ [.wait, .waiter]

def served : State Nat where
  shutdown := true
  caller := .idle (some true)
  waiter := .readWaiting
  workers := [.ended]
  pushed := [⟨0, 7⟩]
  popped := [(⟨0, 7⟩, 0)]
  started := [⟨0, 7⟩]
  finished := [⟨0, 7⟩]

theorem served_wait_returns_quiet :
    Quiet { served with waiter := .returned } :=
  ((wait_returns_quiet_iff 1 2 (s := served)
    ⟨servedFirst, by decide⟩ ⟨some true, rfl⟩ rfl rfl rfl).mpr
    ⟨rfl, fun _ hmem halive => absurd (List.mem_singleton.mp hmem) halive⟩
    [] _ trivial rfl).1

end ShutdownWitness

end Scheduler

end GreylistServer
