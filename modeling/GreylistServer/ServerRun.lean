/-
The server as a machine over the scheduler's: the accept loop of
`Server::run` with its shutdown part, and the handlers that the scheduler's
workers run.  Descriptor numbers are reused by the kernel, so a connection is
known by its position among the accepted ones and carries its number.
-/
import GreylistServer.Lib.OrdMap
import GreylistServer.SchedulerTasks

namespace GreylistServer

namespace ServerRun

/-- Who has a connection's descriptor, and how far `Server::handle` got with
it.  The flag is the member `_inserted` of its `SocketWrapper`. -/
inductive Stage where
  /-- With the accept loop or the scheduler. -/
  | accepted
  /-- Closed by the accept loop after `schedule` returned false. -/
  | rejected
  /-- The `SocketWrapper` is constructed. -/
  | wrapped (inserted : Bool)
  /-- Past `++_busyHandlers`. -/
  | serving (inserted : Bool)
  /-- Past `--_busyHandlers`, before `~SocketReader`. -/
  | closing (inserted : Bool)
  /-- Past `~SocketReader`, before `~SocketWrapper`. -/
  | erasing (inserted : Bool)
  /-- `handle` returned. -/
  | finished
deriving Repr, DecidableEq

/-- What one `accept` returned: the number, whether that descriptor is still
open, and who has it. -/
structure Connection where
  fd : Nat
  isOpen : Bool
  stage : Stage
deriving Repr, DecidableEq

/-- Where the thread in `Server::run` stands. -/
inductive Main where
  | accepting
  /-- Before the call of `schedule` for the connection. -/
  | accepted (c : Nat)
  | scheduling (c : Nat)
  /-- `schedule` returned false, before `::close`. -/
  | rejecting (c : Nat)
  /-- `accept` failed, before `_sockfd->close()`. -/
  | failed
  /-- Before `_scheduler.shutdown()`. -/
  | stopping
  /-- Before the loop over `_sockets`. -/
  | shuttingDown
  /-- In the loop on `_busyHandlers`. -/
  | awaitingHandlers
  /-- In `_scheduler.wait()`. -/
  | waiting
  | returned
deriving Repr, DecidableEq

/-- The server's members.  A task is the connection that its `handle` is bound
to.  The logs record for which connection `::close` was called and which
numbers the shutdown part passed to `::shutdown`. -/
structure State where
  scheduler : Scheduler.State Nat := {}
  connections : List Connection := []
  sockets : OrdMap Nat Bool := {}
  busyHandlers : Nat := 0
  main : Main := .accepting
  closed : List Nat := []
  shut : List Nat := []
deriving Repr, DecidableEq

/-- The kernel closes the open descriptor with the number, if there is one. -/
def Connection.closeNumber (fd : Nat) (connection : Connection) : Connection :=
  if connection.isOpen = true ∧ connection.fd = fd then
    { connection with isOpen := false }
  else connection

/-- `::close` of the number `fd` on behalf of connection `c`. -/
def State.close (s : State) (c fd : Nat) : State :=
  { s with
    connections := s.connections.map (Connection.closeNumber fd)
    closed := s.closed ++ [c] }

def State.enter (s : State) (c : Nat) (stage : Stage) : State :=
  { s with
    connections := s.connections.modify c
      (fun connection => { connection with stage := stage }) }

def State.stage (s : State) (c : Nat) : Option Stage :=
  s.connections[c]?.map Connection.stage

/-- The next step of `Server::handle` for connection `c`.  Serving requests
touches none of this state, so the loop may end at any time. -/
def handle (s : State) (c : Nat) : Option State :=
  s.connections[c]?.bind fun connection =>
    match connection.stage with
    | .accepted =>
        some { s.enter c (.wrapped (!s.sockets.contains connection.fd)) with
          sockets := s.sockets.insert connection.fd true }
    | .wrapped inserted =>
        some { s.enter c (.serving inserted) with
          busyHandlers := s.busyHandlers + 1 }
    | .serving inserted =>
        some { s.enter c (.closing inserted) with
          busyHandlers := s.busyHandlers - 1 }
    | .closing inserted =>
        some ((s.close c connection.fd).enter c (.erasing inserted))
    | .erasing inserted =>
        some { s.enter c .finished with
          sockets := if inserted then s.sockets.erase connection.fd
            else s.sockets }
    | .finished | .rejected => none

/-- A step of the scheduler on behalf of the server. -/
def lift (spare max : Nat) (s : State) (action : Scheduler.Action Nat) :
    Option State :=
  (Scheduler.step spare max s.scheduler action).map
    fun scheduler => { s with scheduler := scheduler }

/-- The next step of `Server::run` other than the return of `accept`. -/
def run (spare max : Nat) (s : State) : Option State :=
  match s.main with
  | .accepting => none
  | .accepted c => lift spare max { s with main := .scheduling c } (.schedule c)
  | .scheduling c =>
      match s.scheduler.caller with
      | .idle (some true) => some { s with main := .accepting }
      | .idle (some false) => some { s with main := .rejecting c }
      | _ => lift spare max s .caller
  | .rejecting c =>
      s.connections[c]?.map fun connection =>
        (({ s with main := .accepting } : State).close c connection.fd).enter c
          .rejected
  | .failed => some { s with main := .stopping }
  | .stopping => lift spare max { s with main := .shuttingDown } .shutdown
  | .shuttingDown =>
      some { s with main := .awaitingHandlers, shut := s.sockets.keys }
  | .awaitingHandlers =>
      if s.busyHandlers > 0 then some s
      else lift spare max { s with main := .waiting } .wait
  | .waiting =>
      if s.scheduler.waiter = .returned then some { s with main := .returned }
      else lift spare max s .waiter
  | .returned => none

/-- Who takes the next step: the kernel returning a descriptor or an error
from `accept`, the thread in `run`, or a worker. -/
inductive Action where
  | accept (fd : Nat)
  | acceptFails
  | main
  | worker (i : Nat)
deriving Repr, DecidableEq

def step (spare max : Nat) (s : State) : Action → Option State
  | .accept fd =>
      if s.main = .accepting ∧
          ∀ connection ∈ s.connections, connection.isOpen = true →
            connection.fd ≠ fd then
        some { s with
          main := .accepted s.connections.length
          connections := s.connections ++ [⟨fd, true, .accepted⟩] }
      else none
  | .acceptFails =>
      if s.main = .accepting then some { s with main := .failed } else none
  | .main => run spare max s
  | .worker i =>
      match s.scheduler.workers[i]? with
      | some (.running copy) =>
          if s.stage copy.task = some .finished then
            lift spare max s (.worker i)
          else handle s copy.task
      | _ => lift spare max s (.worker i)

/-- The server from the start of `run` on. -/
def machine (spare max : Nat) : Machine State Action where
  init := {}
  step := step spare max

/-- The connection the accept loop is busy with. -/
@[simp] def Main.current : Main → Option Nat
  | .accepted c | .scheduling c | .rejecting c => some c
  | _ => none

/-- What one step of `Server::handle` for connection `c` can be. -/
inductive Served (s : State) (c : Nat) (connection : Connection) :
    State → Prop where
  | wraps (hstage : connection.stage = .accepted) :
      Served s c connection
        { s.enter c (.wrapped (!s.sockets.contains connection.fd)) with
          sockets := s.sockets.insert connection.fd true }
  | begins (inserted : Bool) (hstage : connection.stage = .wrapped inserted) :
      Served s c connection { s.enter c (.serving inserted) with
        busyHandlers := s.busyHandlers + 1 }
  | ends (inserted : Bool) (hstage : connection.stage = .serving inserted) :
      Served s c connection { s.enter c (.closing inserted) with
        busyHandlers := s.busyHandlers - 1 }
  | closes (inserted : Bool) (hstage : connection.stage = .closing inserted) :
      Served s c connection
        ((s.close c connection.fd).enter c (.erasing inserted))
  | erases (inserted : Bool) (hstage : connection.stage = .erasing inserted) :
      Served s c connection { s.enter c .finished with
        sockets := if inserted then s.sockets.erase connection.fd
          else s.sockets }

theorem handle_served {s t : State} {c : Nat} (hhandle : handle s c = some t) :
    ∃ connection, s.connections[c]? = some connection ∧
      Served s c connection t := by
  obtain ⟨connection, hget, hstep⟩ := Option.bind_eq_some_iff.mp hhandle
  refine ⟨connection, hget, ?_⟩
  cases hstage : connection.stage with
  | accepted =>
      simp only [hstage] at hstep
      cases hstep
      exact .wraps hstage
  | rejected => simp [hstage] at hstep
  | wrapped inserted =>
      simp only [hstage] at hstep
      cases hstep
      exact .begins inserted hstage
  | serving inserted =>
      simp only [hstage] at hstep
      cases hstep
      exact .ends inserted hstage
  | closing inserted =>
      simp only [hstage] at hstep
      cases hstep
      exact .closes inserted hstage
  | erasing inserted =>
      simp only [hstage] at hstep
      cases hstep
      exact .erases inserted hstage
  | finished => simp [hstage] at hstep

/-- What one step of the server can be. -/
inductive Ran (spare max : Nat) (s : State) : Action → State → Prop where
  | accepted (fd : Nat) (hmain : s.main = .accepting)
      (hfresh : ∀ connection ∈ s.connections, connection.isOpen = true →
        connection.fd ≠ fd) :
      Ran spare max s (.accept fd) { s with
        main := .accepted s.connections.length
        connections := s.connections ++ [⟨fd, true, .accepted⟩] }
  | called (c : Nat) (scheduler : Scheduler.State Nat)
      (hmain : s.main = .accepted c)
      (hstep : Scheduler.step spare max s.scheduler (.schedule c) =
        some scheduler) :
      Ran spare max s .main { s with
        main := .scheduling c
        scheduler := scheduler }
  | scheduled (c : Nat) (scheduler : Scheduler.State Nat)
      (hmain : s.main = .scheduling c)
      (hstep : Scheduler.step spare max s.scheduler .caller =
        some scheduler) :
      Ran spare max s .main { s with scheduler := scheduler }
  | handed (c : Nat) (hmain : s.main = .scheduling c)
      (hcaller : s.scheduler.caller = .idle (some true)) :
      Ran spare max s .main { s with main := .accepting }
  | refused (c : Nat) (hmain : s.main = .scheduling c)
      (hcaller : s.scheduler.caller = .idle (some false)) :
      Ran spare max s .main { s with main := .rejecting c }
  | rejected (c : Nat) (connection : Connection)
      (hmain : s.main = .rejecting c)
      (hget : s.connections[c]? = some connection) :
      Ran spare max s .main
        ((({ s with main := .accepting } : State).close c connection.fd).enter c
          .rejected)
  /-- The shutdown part, which moves the scheduler only by `shutdown` and
  `wait`. -/
  | winds (action : Action) (next : Main) (scheduler : Scheduler.State Nat)
      (shut : List Nat) (haction : ∀ i, action ≠ .worker i)
      (hbefore : s.main.current = none) (hafter : next.current = none)
      (hstep : scheduler = s.scheduler ∨
        ∃ action, action ∈ [.shutdown, .wait, .waiter] ∧
          Scheduler.step spare max s.scheduler action = some scheduler) :
      Ran spare max s action { s with
        main := next
        scheduler := scheduler
        shut := shut }
  | worked (i : Nat) (scheduler : Scheduler.State Nat)
      (hstep : Scheduler.step spare max s.scheduler (.worker i) =
        some scheduler)
      (hdone : ∀ copy, s.scheduler.workers[i]? = some (.running copy) →
        s.stage copy.task = some .finished) :
      Ran spare max s (.worker i) { s with scheduler := scheduler }
  | served (i : Nat) (copy : Scheduler.Copy Nat) (connection : Connection)
      (t : State) (hrunning : s.scheduler.workers[i]? = some (.running copy))
      (hget : s.connections[copy.task]? = some connection)
      (hserved : Served s copy.task connection t) :
      Ran spare max s (.worker i) t

theorem run_ran {spare max : Nat} {s t : State}
    (hstep : run spare max s = some t) : Ran spare max s .main t := by
  cases hmain : s.main with
  | accepting => simp [run, hmain] at hstep
  | accepted c =>
      simp only [run, hmain, lift] at hstep
      obtain ⟨scheduler, hscheduler, rfl⟩ := Option.map_eq_some_iff.mp hstep
      exact .called c scheduler hmain hscheduler
  | scheduling c =>
      simp only [run, hmain] at hstep
      split at hstep
      · cases hstep
        exact .handed c hmain (by assumption)
      · cases hstep
        exact .refused c hmain (by assumption)
      · obtain ⟨scheduler, hscheduler, rfl⟩ := Option.map_eq_some_iff.mp hstep
        exact .scheduled c scheduler hmain hscheduler
  | rejecting c =>
      simp only [run, hmain] at hstep
      obtain ⟨connection, hget, rfl⟩ := Option.map_eq_some_iff.mp hstep
      exact .rejected c connection hmain hget
  | failed =>
      simp only [run, hmain] at hstep
      cases hstep
      exact .winds _ _ s.scheduler s.shut (by simp) (by simp [hmain]) rfl
          (Or.inl rfl)
  | stopping =>
      simp only [run, hmain, lift] at hstep
      obtain ⟨scheduler, hscheduler, rfl⟩ := Option.map_eq_some_iff.mp hstep
      exact .winds _ .shuttingDown scheduler s.shut (by simp) (by simp [hmain]) rfl
        (Or.inr ⟨_, by simp, hscheduler⟩)
  | shuttingDown =>
      simp only [run, hmain] at hstep
      cases hstep
      exact .winds _ _ s.scheduler _ (by simp) (by simp [hmain]) rfl
        (Or.inl rfl)
  | awaitingHandlers =>
      simp only [run, hmain, lift] at hstep
      split at hstep
      · cases hstep
        exact .winds _ s.main s.scheduler s.shut (by simp) (by simp [hmain])
          (by simp [hmain]) (Or.inl rfl)
      · obtain ⟨scheduler, hscheduler, rfl⟩ := Option.map_eq_some_iff.mp hstep
        exact .winds _ .waiting scheduler s.shut (by simp) (by simp [hmain]) rfl
          (Or.inr ⟨_, by simp, hscheduler⟩)
  | waiting =>
      simp only [run, hmain, lift] at hstep
      split at hstep
      · cases hstep
        exact .winds _ _ s.scheduler s.shut (by simp) (by simp [hmain]) rfl
          (Or.inl rfl)
      · obtain ⟨scheduler, hscheduler, rfl⟩ := Option.map_eq_some_iff.mp hstep
        exact .winds _ .waiting scheduler s.shut (by simp) (by simp [hmain]) rfl
          (Or.inr ⟨_, by simp, hscheduler⟩)
  | returned => simp [run, hmain] at hstep

/-- Every step is one of the above. -/
theorem step_ran {spare max : Nat} {s t : State} {action : Action}
    (hstep : step spare max s action = some t) : Ran spare max s action t := by
  cases action with
  | accept fd =>
      simp only [step] at hstep
      split at hstep
      · rename_i hguard
        cases hstep
        exact .accepted fd hguard.1 hguard.2
      · cases hstep
  | acceptFails =>
      simp only [step] at hstep
      split at hstep
      · rename_i hmain
        cases hstep
        exact .winds _ _ s.scheduler s.shut (by simp) (by simp [hmain]) rfl
          (Or.inl rfl)
      · cases hstep
  | main => exact run_ran hstep
  | worker i =>
      simp only [step, lift] at hstep
      split at hstep
      · rename_i copy hrunning
        split at hstep
        · rename_i hfinished
          obtain ⟨scheduler, hscheduler, rfl⟩ := Option.map_eq_some_iff.mp hstep
          refine .worked i scheduler hscheduler ?_
          intro other hother
          rw [hrunning] at hother
          cases hother
          exact hfinished
        · obtain ⟨connection, hget, hserved⟩ := handle_served hstep
          exact .served i copy connection t hrunning hget hserved
      · rename_i hrunning
        obtain ⟨scheduler, hscheduler, rfl⟩ := Option.map_eq_some_iff.mp hstep
        exact .worked i scheduler hscheduler
          (fun copy hcopy => absurd hcopy (hrunning copy))

end ServerRun

end GreylistServer
