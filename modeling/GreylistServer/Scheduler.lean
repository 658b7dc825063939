/-
The task scheduler as a machine of atomic steps: one caller of `schedule`,
calls of `shutdown` and `wait`, and the worker threads running `exec`.  Each
read or update of a counter, each lock-protected access to the queue, the
creation of a thread and the start and end of a task is one step.  Wake-ups of
the condition variable may come at any time, notified or spurious.
-/
import GreylistServer.Lib.Machine

namespace GreylistServer

namespace Scheduler

/-- The copy of a task made by one `push_back`.  The ticket numbers the pushes
and tells apart copies of equal tasks. -/
structure Copy (T : Type) where
  ticket : Nat
  task : T
deriving Repr, DecidableEq

/-- Where a worker thread stands in `exec`. -/
inductive Worker (T : Type) where
  /-- Before `++_waiting`: newly created, or polling again. -/
  | entering
  /-- Before it holds `_monitor`. -/
  | locking
  /-- Before it evaluates the predicate of `_signal.wait`. -/
  | checking
  /-- Blocked in `_signal.wait` with `_monitor` released. -/
  | sleeping
  /-- Past `_signal.wait`, before `isShutdown`. -/
  | signalled
  /-- Before `_queue.front` and `_queue.pop_front`. -/
  | popping
  /-- In the shutdown branch, before `--_waiting`. -/
  | leaving
  /-- In the shutdown branch, before `_monitor` is released. -/
  | releasing
  /-- Past `lock.unlock()`, before `--_waiting`. -/
  | taken (copy : Copy T)
  /-- Between `--_waiting` and `++_active`. -/
  | uncounted (copy : Copy T)
  /-- Before the call of the task. -/
  | starting (copy : Copy T)
  /-- In the call of the task. -/
  | running (copy : Copy T)
  /-- Past the task, before `--_active`. -/
  | ending
  /-- Before it compares `_waiting` with `_maxSpare`. -/
  | comparing
  /-- Before it reads `_shutdown` a last time. -/
  | polling
  /-- `exec` returned true and the thread ended. -/
  | ended
deriving Repr, DecidableEq

/-- Where the caller stands in `schedule`. -/
inductive Caller (T : Type) where
  /-- No call in progress; what the last one returned. -/
  | idle (answer : Option Bool)
  | readShutdown (task : T)
  | readWaiting (task : T)
  | readActive (task : T) (waiting : Nat)
  | testWaiting (task : T)
  | testQueue (task : T)
  | creating (task : T)
  /-- Before the locked push; whether this call created a worker. -/
  | pushing (task : T) (created : Bool)
deriving Repr, DecidableEq

/-- Where the thread that calls `wait` stands. -/
inductive Waiter where
  | idle
  | readActive
  | readWaiting
  | notifying
  | returned
deriving Repr, DecidableEq

/-- The scheduler's members and threads.  The logs record every push, every
pop with the worker that made it, and every start and end of a task. -/
structure State (T : Type) where
  queue : List (Copy T) := []
  active : Nat := 0
  waiting : Nat := 0
  shutdown : Bool := false
  monitor : Option Nat := none
  caller : Caller T := .idle none
  waiter : Waiter := .idle
  workers : List (Worker T) := []
  pushed : List (Copy T) := []
  popped : List (Copy T × Nat) := []
  started : List (Copy T) := []
  finished : List (Copy T) := []
deriving Repr, DecidableEq

variable {T : Type}

/-- The next step of the call of `schedule` in progress. -/
def schedule (maxWorkers : Nat) (s : State T) : Option (State T) :=
  match s.caller with
  | .idle _ => none
  | .readShutdown task =>
      if s.shutdown then some { s with caller := .idle (some false) }
      else some { s with caller := .readWaiting task }
  | .readWaiting task => some { s with caller := .readActive task s.waiting }
  | .readActive task waiting =>
      if waiting + s.active ≥ maxWorkers then
        some { s with caller := .idle (some false) }
      else some { s with caller := .testWaiting task }
  | .testWaiting task =>
      if s.waiting = 0 then some { s with caller := .creating task }
      else some { s with caller := .testQueue task }
  | .testQueue task =>
      if s.queue = [] then some { s with caller := .pushing task false }
      else some { s with caller := .creating task }
  | .creating task =>
      some { s with
        caller := .pushing task true
        workers := s.workers ++ [.entering] }
  | .pushing task _ =>
      if s.monitor = none then
        some { s with
          caller := .idle (some true)
          queue := s.queue ++ [⟨s.pushed.length, task⟩]
          pushed := s.pushed ++ [⟨s.pushed.length, task⟩] }
      else none

/-- The next step of the call of `wait` in progress. -/
def wait (s : State T) : Option (State T) :=
  match s.waiter with
  | .idle => none
  | .readActive =>
      if s.active > 0 then some { s with waiter := .notifying }
      else some { s with waiter := .readWaiting }
  | .readWaiting =>
      if s.waiting > 0 then some { s with waiter := .notifying }
      else some { s with waiter := .returned }
  | .notifying =>
      if s.monitor = none then some { s with waiter := .readActive } else none
  | .returned => none

@[simp] def State.move (s : State T) (i : Nat) (worker : Worker T) : State T :=
  { s with workers := s.workers.set i worker }

/-- The next step of worker `i`, standing at the given point of `exec`.  A pop
from an empty queue is undefined and has no next state. -/
def exec (maxSpare : Nat) (s : State T) (i : Nat) :
    Worker T → Option (State T)
  | .entering => some { s.move i .locking with waiting := s.waiting + 1 }
  | .locking =>
      if s.monitor = none then
        some { s.move i .checking with monitor := some i }
      else none
  | .checking =>
      if s.shutdown ∨ s.queue ≠ [] then some (s.move i .signalled)
      else some { s.move i .sleeping with monitor := none }
  | .sleeping => some (s.move i .locking)
  | .signalled =>
      if s.shutdown then some (s.move i .leaving)
      else some (s.move i .popping)
  | .popping =>
      match s.queue with
      | [] => none
      | copy :: rest =>
          some { s.move i (.taken copy) with
            queue := rest
            monitor := none
            popped := s.popped ++ [(copy, i)] }
  | .leaving => some { s.move i .releasing with waiting := s.waiting - 1 }
  | .releasing => some { s.move i .ended with monitor := none }
  | .taken copy =>
      some { s.move i (.uncounted copy) with waiting := s.waiting - 1 }
  | .uncounted copy =>
      some { s.move i (.starting copy) with active := s.active + 1 }
  | .starting copy =>
      some { s.move i (.running copy) with started := s.started ++ [copy] }
  | .running copy =>
      some { s.move i .ending with finished := s.finished ++ [copy] }
  | .ending => some { s.move i .comparing with active := s.active - 1 }
  | .comparing =>
      if s.waiting ≥ maxSpare then some (s.move i .ended)
      else some (s.move i .polling)
  | .polling =>
      if s.shutdown then some (s.move i .ended)
      else some (s.move i .entering)
  | .ended => none

/-- Who takes the next step: a new call of `schedule`, the call in progress, a
call of `shutdown`, a new call of `wait`, the one in progress, or a worker. -/
inductive Action (T : Type) where
  | schedule (task : T)
  | caller
  | shutdown
  | wait
  | waiter
  | worker (i : Nat)
deriving Repr, DecidableEq

def step (maxSpare maxWorkers : Nat) (s : State T) :
    Action T → Option (State T)
  | .schedule task =>
      match s.caller with
      | .idle _ => some { s with caller := .readShutdown task }
      | _ => none
  | .caller => schedule maxWorkers s
  | .shutdown => some { s with shutdown := true }
  | .wait =>
      match s.waiter with
      | .idle | .returned => some { s with waiter := .readActive }
      | _ => none
  | .waiter => wait s
  | .worker i => s.workers[i]?.bind (exec maxSpare s i)

/-- The scheduler from its constructor on. -/
def machine (T : Type) (maxSpare maxWorkers : Nat) :
    Machine (State T) (Action T) where
  init := {}
  step := step maxSpare maxWorkers

namespace Worker

/-- Counted in `_waiting`. -/
@[simp] def countedWaiting : Worker T → Bool
  | .locking | .checking | .sleeping | .signalled | .popping | .leaving
  | .taken _ => true
  | _ => false

/-- Counted in `_active`. -/
@[simp] def countedActive : Worker T → Bool
  | .starting _ | .running _ | .ending => true
  | _ => false

@[simp] def holdsMonitor : Worker T → Bool
  | .checking | .signalled | .popping | .leaving | .releasing => true
  | _ => false

/-- The popped task the worker has not finished. -/
@[simp] def holds : Worker T → Option (Copy T)
  | .taken copy | .uncounted copy | .starting copy | .running copy => some copy
  | _ => none

/-- Holds no task and, short of a shutdown, pops one before it runs
anything. -/
@[simp] def free : Worker T → Bool
  | .entering | .locking | .checking | .sleeping | .signalled | .popping => true
  | _ => false

/-- May still run a task. -/
@[simp] def able : Worker T → Bool
  | .leaving | .releasing | .ended => false
  | _ => true

@[simp] def isRunning : Worker T → Bool
  | .running _ => true
  | _ => false

end Worker

/-- What one step of worker `i` from `before` to `after` does to the
scheduler. -/
structure Moved (s : State T) (i : Nat) (before after : Worker T)
    (t : State T) : Prop where
  workers : t.workers = s.workers.set i after
  caller : t.caller = s.caller
  waiter : t.waiter = s.waiter
  shutdown : t.shutdown = s.shutdown
  pushed : t.pushed = s.pushed
  waiting : t.waiting =
    s.waiting + after.countedWaiting.toNat - before.countedWaiting.toNat
  active : t.active =
    s.active + after.countedActive.toNat - before.countedActive.toNat
  monitor : t.monitor =
    if after.holdsMonitor = before.holdsMonitor then s.monitor
    else if after.holdsMonitor then some i else none
  acquires : after.holdsMonitor = true →
    before.holdsMonitor = true ∨ s.monitor = none
  alive : before ≠ .ended
  able : after.able = true → before.able = true
  free : before.free = true →
    after.free = true ∨ before = .popping ∨ s.shutdown = true
  signalled : after = .signalled → s.shutdown = true ∨ s.queue ≠ []
  popping : after = .popping → before = .signalled ∧ s.shutdown = false
  pops : before = .popping → ∃ copy, s.queue = copy :: t.queue ∧
    after = .taken copy ∧ t.popped = s.popped ++ [(copy, i)]
  starts : ∀ copy, before = .starting copy →
    after = .running copy ∧ t.started = s.started ++ [copy]
  finishes : ∀ copy, before = .running copy →
    after = .ending ∧ t.finished = s.finished ++ [copy]
  queue : before ≠ .popping → t.queue = s.queue ∧ t.popped = s.popped
  started : (∀ copy, before ≠ .starting copy) →
    t.started = s.started ∧ after.isRunning = false
  finished : (∀ copy, before ≠ .running copy) → t.finished = s.finished
  holds : before ≠ .popping → (∀ copy, before ≠ .running copy) →
    after.holds = before.holds

theorem exec_moved {maxSpare : Nat} {s t : State T} {i : Nat}
    {before : Worker T} (hexec : exec maxSpare s i before = some t) :
    ∃ after, Moved s i before after t := by
  cases before with
  | entering =>
      cases hexec
      exact ⟨.locking, by constructor <;> simp⟩
  | locking =>
      simp only [exec] at hexec
      split at hexec
      · cases hexec
        exact ⟨.checking, by constructor <;> simp_all⟩
      · cases hexec
  | checking =>
      simp only [exec] at hexec
      split at hexec
      · cases hexec
        exact ⟨.signalled, by constructor <;> simp_all⟩
      · cases hexec
        exact ⟨.sleeping, by constructor <;> simp_all⟩
  | sleeping =>
      cases hexec
      exact ⟨.locking, by constructor <;> simp⟩
  | signalled =>
      simp only [exec] at hexec
      split at hexec
      · cases hexec
        exact ⟨.leaving, by constructor <;> simp_all⟩
      · cases hexec
        exact ⟨.popping, by constructor <;> simp_all⟩
  | popping =>
      simp only [exec] at hexec
      split at hexec
      · cases hexec
      · rename_i copy rest hqueue
        cases hexec
        exact ⟨.taken copy, by constructor <;> simp_all⟩
  | leaving =>
      cases hexec
      exact ⟨.releasing, by constructor <;> simp⟩
  | releasing =>
      cases hexec
      exact ⟨.ended, by constructor <;> simp⟩
  | taken copy =>
      cases hexec
      exact ⟨.uncounted copy, by constructor <;> simp⟩
  | uncounted copy =>
      cases hexec
      exact ⟨.starting copy, by constructor <;> simp⟩
  | starting copy =>
      cases hexec
      exact ⟨.running copy, by constructor <;> simp⟩
  | running copy =>
      cases hexec
      exact ⟨.ending, by constructor <;> simp⟩
  | ending =>
      cases hexec
      exact ⟨.comparing, by constructor <;> simp⟩
  | comparing =>
      simp only [exec] at hexec
      split at hexec
      · cases hexec
        exact ⟨.ended, by constructor <;> simp⟩
      · cases hexec
        exact ⟨.polling, by constructor <;> simp⟩
  | polling =>
      simp only [exec] at hexec
      split at hexec
      · cases hexec
        exact ⟨.ended, by constructor <;> simp⟩
      · cases hexec
        exact ⟨.entering, by constructor <;> simp⟩
  | ended => cases hexec

/-- What one step of worker `i` does to the queue and the logs. -/
inductive Handled (s t : State T) (i : Nat) : Worker T → Worker T → Prop where
  | pops (copy : Copy T) (hqueue : s.queue = copy :: t.queue)
      (hpopped : t.popped = s.popped ++ [(copy, i)])
      (hstarted : t.started = s.started) (hfinished : t.finished = s.finished) :
      Handled s t i .popping (.taken copy)
  | starts (copy : Copy T) (hqueue : t.queue = s.queue)
      (hpopped : t.popped = s.popped) (hstarted : t.started = s.started ++ [copy])
      (hfinished : t.finished = s.finished) :
      Handled s t i (.starting copy) (.running copy)
  | finishes (copy : Copy T) (hqueue : t.queue = s.queue)
      (hpopped : t.popped = s.popped) (hstarted : t.started = s.started)
      (hfinished : t.finished = s.finished ++ [copy]) :
      Handled s t i (.running copy) .ending
  | keeps (before after : Worker T) (hpopping : before ≠ .popping)
      (hholds : after.holds = before.holds)
      (hrunning : after.isRunning = before.isRunning)
      (hquiet : after.isRunning = false) (hqueue : t.queue = s.queue)
      (hpopped : t.popped = s.popped) (hstarted : t.started = s.started)
      (hfinished : t.finished = s.finished) : Handled s t i before after

theorem Moved.handled {s t : State T} {i : Nat} {before after : Worker T}
    (hmoved : Moved s i before after t) : Handled s t i before after := by
  cases before with
  | popping =>
      obtain ⟨copy, hqueue, rfl, hpopped⟩ := hmoved.pops rfl
      exact .pops copy hqueue hpopped (hmoved.started nofun).1
        (hmoved.finished nofun)
  | starting copy =>
      obtain ⟨rfl, hstarted⟩ := hmoved.starts copy rfl
      exact .starts copy (hmoved.queue nofun).1 (hmoved.queue nofun).2 hstarted
        (hmoved.finished nofun)
  | running copy =>
      obtain ⟨rfl, hfinished⟩ := hmoved.finishes copy rfl
      exact .finishes copy (hmoved.queue nofun).1 (hmoved.queue nofun).2
        (hmoved.started nofun).1 hfinished
  | _ =>
      exact .keeps _ _ nofun (hmoved.holds nofun nofun)
        (hmoved.started nofun).2 (hmoved.started nofun).2
        (hmoved.queue nofun).1 (hmoved.queue nofun).2
        (hmoved.started nofun).1 (hmoved.finished nofun)

/-- Past the decision whether to create a worker. -/
@[simp] def Caller.pushes : Caller T → Bool
  | .pushing _ _ => true
  | _ => false

/-- The task of the call in progress. -/
@[simp] def Caller.task : Caller T → Option T
  | .idle _ => none
  | .readShutdown task | .readWaiting task | .readActive task _
  | .testWaiting task | .testQueue task | .creating task
  | .pushing task _ => some task

/-- What one step of the machine can be. -/
inductive Stepped (s : State T) : Action T → State T → Prop where
  | called (task : T) (answer : Option Bool)
      (hcaller : s.caller = .idle answer) :
      Stepped s (.schedule task) { s with caller := .readShutdown task }
  /-- The caller reads a member and pushes nothing yet, or is turned down. -/
  | read (next : Caller T) (hbusy : ∀ answer, s.caller ≠ .idle answer)
      (hbefore : s.caller.pushes = false) (hafter : next.pushes = false)
      (htask : next.task = s.caller.task ∨ next = .idle (some false)) :
      Stepped s .caller { s with caller := next }
  /-- A worker waits and the queue was seen empty: no thread is created. -/
  | reused (task : T) (hcaller : s.caller = .testQueue task)
      (hqueue : s.queue = []) :
      Stepped s .caller { s with caller := .pushing task false }
  | created (task : T) (hcaller : s.caller = .creating task) :
      Stepped s .caller { s with
        caller := .pushing task true
        workers := s.workers ++ [.entering] }
  | pushed (task : T) (created : Bool)
      (hcaller : s.caller = .pushing task created)
      (hmonitor : s.monitor = none) :
      Stepped s .caller { s with
        caller := .idle (some true)
        queue := s.queue ++ [⟨s.pushed.length, task⟩]
        pushed := s.pushed ++ [⟨s.pushed.length, task⟩] }
  | stopped : Stepped s .shutdown { s with shutdown := true }
  | awaited : Stepped s .wait { s with waiter := .readActive }
  | observed (next : Waiter) : Stepped s .waiter { s with waiter := next }
  | worked (i : Nat) (before after : Worker T) (t : State T)
      (hget : s.workers[i]? = some before) (hmoved : Moved s i before after t) :
      Stepped s (.worker i) t

theorem schedule_stepped {maxWorkers : Nat} {s t : State T}
    (hstep : schedule maxWorkers s = some t) : Stepped s .caller t := by
  cases hcaller : s.caller with
  | idle answer => simp [schedule, hcaller] at hstep
  | readShutdown task =>
      simp only [schedule, hcaller] at hstep
      split at hstep <;> cases hstep
      · exact .read _ (by simp [hcaller]) (by simp [hcaller]) rfl (by simp [hcaller])
      · exact .read _ (by simp [hcaller]) (by simp [hcaller]) rfl (by simp [hcaller])
  | readWaiting task =>
      simp only [schedule, hcaller] at hstep
      cases hstep
      exact .read _ (by simp [hcaller]) (by simp [hcaller]) rfl (by simp [hcaller])
  | readActive task waiting =>
      simp only [schedule, hcaller] at hstep
      split at hstep <;> cases hstep
      · exact .read _ (by simp [hcaller]) (by simp [hcaller]) rfl (by simp [hcaller])
      · exact .read _ (by simp [hcaller]) (by simp [hcaller]) rfl (by simp [hcaller])
  | testWaiting task =>
      simp only [schedule, hcaller] at hstep
      split at hstep <;> cases hstep
      · exact .read _ (by simp [hcaller]) (by simp [hcaller]) rfl (by simp [hcaller])
      · exact .read _ (by simp [hcaller]) (by simp [hcaller]) rfl (by simp [hcaller])
  | testQueue task =>
      simp only [schedule, hcaller] at hstep
      split at hstep <;> cases hstep
      · exact .reused task hcaller (by assumption)
      · exact .read _ (by simp [hcaller]) (by simp [hcaller]) rfl (by simp [hcaller])
  | creating task =>
      simp only [schedule, hcaller] at hstep
      cases hstep
      exact .created task hcaller
  | pushing task created =>
      simp only [schedule, hcaller] at hstep
      split at hstep <;> cases hstep
      exact .pushed task created hcaller (by assumption)

theorem wait_stepped {s t : State T} (hstep : wait s = some t) :
    Stepped s .waiter t := by
  cases hwaiter : s.waiter with
  | idle => simp [wait, hwaiter] at hstep
  | readActive =>
      simp only [wait, hwaiter] at hstep
      split at hstep <;> cases hstep <;> exact .observed _
  | readWaiting =>
      simp only [wait, hwaiter] at hstep
      split at hstep <;> cases hstep <;> exact .observed _
  | notifying =>
      simp only [wait, hwaiter] at hstep
      split at hstep <;> cases hstep
      exact .observed _
  | returned => simp [wait, hwaiter] at hstep

/-- Every step is one of the above. -/
theorem step_stepped {maxSpare maxWorkers : Nat} {s t : State T}
    {action : Action T} (hstep : step maxSpare maxWorkers s action = some t) :
    Stepped s action t := by
  cases action with
  | schedule task =>
      simp only [step] at hstep
      split at hstep
      · cases hstep
        exact .called task _ (by assumption)
      · cases hstep
  | caller => exact schedule_stepped hstep
  | shutdown =>
      cases hstep
      exact .stopped
  | wait =>
      simp only [step] at hstep
      split at hstep <;> cases hstep <;> exact .awaited
  | waiter => exact wait_stepped hstep
  | worker i =>
      obtain ⟨before, hget, hexec⟩ := Option.bind_eq_some_iff.mp hstep
      obtain ⟨after, hmoved⟩ := exec_moved hexec
      exact .worked i before after t hget hmoved

/-- A shutdown is never taken back. -/
theorem Stepped.shutdown_mono {s t : State T} {action : Action T}
    (hstep : Stepped s action t) (ht : t.shutdown = false) :
    s.shutdown = false := by
  cases hstep with
  | called | read | reused | created | pushed | awaited | observed => exact ht
  | stopped => cases ht
  | worked i before after _ hget hmoved =>
      rw [← hmoved.shutdown]
      exact ht

/-- The counters count the workers in their regions, `_monitor` names its
holder, and a worker about to pop has a task to pop. -/
structure Consistent (s : State T) : Prop where
  waiting_eq : s.waiting = s.workers.countP Worker.countedWaiting
  active_eq : s.active = s.workers.countP Worker.countedActive
  monitor_iff : ∀ (i : Nat) worker, s.workers[i]? = some worker →
    (worker.holdsMonitor = true ↔ s.monitor = some i)
  monitor_lt : ∀ i, s.monitor = some i → i < s.workers.length
  signalled : ∀ i : Nat, s.workers[i]? = some .signalled →
    s.shutdown = true ∨ s.queue ≠ []
  popping : ∀ i : Nat, s.workers[i]? = some .popping → s.queue ≠ []

theorem Moved.getElem? {s t : State T} {i : Nat} {before after : Worker T}
    (hmoved : Moved s i before after t) (hget : s.workers[i]? = some before)
    (j : Nat) :
    t.workers[j]? = if j = i then some after else s.workers[j]? := by
  have hlt := (List.getElem?_eq_some_iff.mp hget).1
  rw [hmoved.workers, List.getElem?_set]
  by_cases hj : i = j
  · simp [hj, hj ▸ hlt]
  · simp [hj, Ne.symm hj]

/-- A move of one worker changes the number of workers in a region by the
worker's own part. -/
theorem Moved.countP {s t : State T} {i : Nat} {before after : Worker T}
    (hmoved : Moved s i before after t) (hget : s.workers[i]? = some before)
    (region : Worker T → Bool) :
    t.workers.countP region + (region before).toNat =
      s.workers.countP region + (region after).toNat := by
  rw [hmoved.workers]
  exact countP_set_add hget

/-- Only the worker that pops takes from the queue, and nobody else is past
the predicate then. -/
theorem Consistent.queue_other {s t : State T} {i j : Nat}
    {before after worker : Worker T} (hs : Consistent s)
    (hget : s.workers[i]? = some before) (hmoved : Moved s i before after t)
    (hother : s.workers[j]? = some worker) (hne : j ≠ i)
    (hholds : worker.holdsMonitor = true) : t.queue = s.queue := by
  by_cases hpopping : before = .popping
  · have hi := (hs.monitor_iff i before hget).mp (by simp [hpopping])
    have hj := (hs.monitor_iff j worker hother).mp hholds
    rw [hi] at hj
    exact absurd (Option.some.inj hj).symm hne
  · exact (hmoved.queue hpopping).1

theorem Consistent.moved {s t : State T} {i : Nat} {before after : Worker T}
    (hs : Consistent s) (hget : s.workers[i]? = some before)
    (hmoved : Moved s i before after t) : Consistent t where
  waiting_eq := by
    have hcount := hmoved.countP hget Worker.countedWaiting
    have hwaiting := hmoved.waiting
    have hbefore := hs.waiting_eq
    omega
  active_eq := by
    have hcount := hmoved.countP hget Worker.countedActive
    have hactive := hmoved.active
    have hbefore := hs.active_eq
    omega
  monitor_iff := by
    intro j worker hj
    have hi := hs.monitor_iff i before hget
    have hacquires := hmoved.acquires
    rw [hmoved.getElem? hget] at hj
    rw [hmoved.monitor]
    by_cases hji : j = i
    · simp only [hji, if_true, Option.some.injEq] at hj
      subst hj
      subst hji
      cases hafter : after.holdsMonitor <;>
        cases hbefore : before.holdsMonitor <;> simp_all
    · rw [if_neg hji] at hj
      have hj' := hs.monitor_iff j worker hj
      have hij : ¬ i = j := fun heq => hji heq.symm
      cases hafter : after.holdsMonitor <;>
        cases hbefore : before.holdsMonitor <;> simp_all
  monitor_lt := by
    intro j hj
    have hlt := (List.getElem?_eq_some_iff.mp hget).1
    rw [hmoved.workers, List.length_set]
    rw [hmoved.monitor] at hj
    split at hj
    · exact hs.monitor_lt j hj
    · split at hj
      · cases hj
        exact hlt
      · cases hj
  signalled := by
    intro j hj
    rw [hmoved.getElem? hget] at hj
    by_cases hji : j = i
    · simp only [hji, if_true, Option.some.injEq] at hj
      have hne : before ≠ .popping := by
        intro hpopping
        obtain ⟨copy, -, hafter, -⟩ := hmoved.pops hpopping
        rw [hj] at hafter
        cases hafter
      rw [hmoved.shutdown, (hmoved.queue hne).1]
      exact hmoved.signalled hj
    · rw [if_neg hji] at hj
      rw [hmoved.shutdown, hs.queue_other hget hmoved hj hji rfl]
      exact hs.signalled j hj
  popping := by
    intro j hj
    rw [hmoved.getElem? hget] at hj
    by_cases hji : j = i
    · simp only [hji, if_true, Option.some.injEq] at hj
      obtain ⟨hbefore, hshutdown⟩ := hmoved.popping hj
      subst hbefore
      rw [(hmoved.queue (by simp)).1]
      simpa [hshutdown] using hs.signalled i hget
    · rw [if_neg hji] at hj
      rw [hs.queue_other hget hmoved hj hji rfl]
      exact hs.popping j hj

theorem Consistent.created {s : State T} (hs : Consistent s)
    (caller : Caller T) :
    Consistent { s with
      caller := caller
      workers := s.workers ++ [.entering] } where
  waiting_eq := by simpa using hs.waiting_eq
  active_eq := by simpa using hs.active_eq
  monitor_iff := by
    intro i worker hi
    rcases getElem?_concat_cases hi with hold | ⟨hlast, hnew⟩
    · exact hs.monitor_iff i worker hold
    · subst hnew
      have hne : s.monitor ≠ some i := fun hmonitor =>
        absurd (hs.monitor_lt i hmonitor) (by omega)
      simp [hne]
  monitor_lt := by
    intro i hi
    have hlt := hs.monitor_lt i hi
    simp only [List.length_append, List.length_singleton]
    omega
  signalled := by
    intro i hi
    rcases getElem?_concat_cases hi with hold | ⟨-, hnew⟩
    · exact hs.signalled i hold
    · cases hnew
  popping := by
    intro i hi
    rcases getElem?_concat_cases hi with hold | ⟨-, hnew⟩
    · exact hs.popping i hold
    · cases hnew

theorem Consistent.stepped {s t : State T} {action : Action T}
    (hs : Consistent s) (hstep : Stepped s action t) : Consistent t := by
  cases hstep with
  | called | read | reused | awaited | observed =>
      exact { hs with }
  | stopped => exact { hs with signalled := fun _ _ => Or.inl rfl }
  | created task hcaller => exact hs.created _
  | pushed task created hcaller hmonitor =>
      exact { hs with
        signalled := fun _ _ => Or.inr (by simp)
        popping := fun _ _ => by simp }
  | worked i before after _ hget hmoved => exact hs.moved hget hmoved

theorem reachable_consistent {maxSpare maxWorkers : Nat} {s : State T}
    (hs : (machine T maxSpare maxWorkers).Reachable s) : Consistent s := by
  apply hs.invariant
  · constructor <;> simp [machine]
  · intro s action t hs hstep
    exact hs.stepped (step_stepped hstep)

end Scheduler

end GreylistServer
