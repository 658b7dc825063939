/-
The table `_sockets` against the connections being served.  A handler's
`SocketReader` is destroyed before its `SocketWrapper`, so the number stays in
the table after the descriptor is closed, and the kernel may give it to a new
connection in between.
-/
import GreylistServer.ServerDescriptors

namespace GreylistServer

namespace ServerRun

variable {spare max : Nat} {s t : State} {action : Action}

/-- The handler has finished constructing its `SocketWrapper`. -/
def Stage.constructed : Stage → Bool
  | .wrapped _ | .serving _ | .closing _ | .erasing _ | .finished => true
  | _ => false

/-- The open connection has a constructed `SocketWrapper`. -/
def Connection.isServed (connection : Connection) : Bool :=
  connection.isOpen && connection.stage.constructed

/-- The table has the numbers of the open connections whose handlers have
constructed their `SocketWrapper`, and no other. -/
structure Exact (s : State) : Prop where
  contains_served : ∀ (c : Nat) connection,
    s.connections[c]? = some connection → connection.isServed = true →
      s.sockets.contains connection.fd = true
  served_of_contains : ∀ fd, s.sockets.contains fd = true →
    ∃ (c : Nat) (connection : Connection),
      s.connections[c]? = some connection ∧ connection.fd = fd ∧
        connection.isServed = true

/-- The step is not the close of a descriptor by a handler's `SocketReader`. -/
def ClosesNoServed (s : State) (action : Action) : Prop :=
  ∀ (i : Nat) copy connection inserted, action = .worker i →
    s.scheduler.workers[i]? = some (.running copy) →
      s.connections[copy.task]? = some connection →
        connection.stage ≠ .closing inserted

/-- The table is exact, and no handler has closed its descriptor yet. -/
structure Unclosed (s : State) : Prop where
  table : Exact s
  isOpen : ∀ (c : Nat) connection, s.connections[c]? = some connection →
    connection.stage.constructed = true → connection.isOpen = true

/-- A step that leaves the table alone and serves the same connections. -/
theorem Unclosed.of_lookup (hs : Unclosed s) {f : Nat → Connection → Connection}
    (hlookup : ∀ c : Nat, t.connections[c]? = s.connections[c]?.map (f c))
    (hsockets : t.sockets = s.sockets)
    (hsame : ∀ (c : Nat) connection, s.connections[c]? = some connection →
      (f c connection).fd = connection.fd ∧
        (f c connection).isServed = connection.isServed ∧
        ((f c connection).stage.constructed = true →
          connection.stage.constructed = true)) : Unclosed t := by
  constructor
  · constructor
    · intro c connection hget hserved
      rw [hlookup] at hget
      obtain ⟨before, hbefore, rfl⟩ := Option.map_eq_some_iff.mp hget
      obtain ⟨hfd, hsame, -⟩ := hsame c before hbefore
      rw [hsockets, hfd]
      exact hs.table.contains_served c before hbefore (hsame ▸ hserved)
    · intro fd hfd
      rw [hsockets] at hfd
      obtain ⟨c, before, hbefore, hnumber, hserved⟩ :=
        hs.table.served_of_contains fd hfd
      obtain ⟨hsameFd, hsame, -⟩ := hsame c before hbefore
      exact ⟨c, f c before, by rw [hlookup, hbefore]; rfl,
        hsameFd.trans hnumber, hsame.trans hserved⟩
  · intro c connection hget hconstructed
    rw [hlookup] at hget
    obtain ⟨before, hbefore, rfl⟩ := Option.map_eq_some_iff.mp hget
    obtain ⟨-, hsame, hback⟩ := hsame c before hbefore
    have hopen := hs.isOpen c before hbefore (hback hconstructed)
    simp only [Connection.isServed, hopen, hback hconstructed, hconstructed,
      Bool.and_true] at hsame
    exact hsame

theorem Unclosed.accepted (hs : Unclosed s) (fd : Nat) (main : Main) :
    Unclosed { s with
      main := main
      connections := s.connections ++ [⟨fd, true, .accepted⟩] } := by
  constructor
  · constructor
    · intro c connection hget hserved
      rcases getElem?_concat_cases hget with hold | ⟨-, rfl⟩
      · exact hs.table.contains_served c connection hold hserved
      · cases hserved
    · intro number hnumber
      obtain ⟨c, connection, hget, hrest⟩ :=
        hs.table.served_of_contains number hnumber
      have hlt := (List.getElem?_eq_some_iff.mp hget).1
      exact ⟨c, connection, by simp [List.getElem?_append_left hlt, hget],
        hrest⟩
  · intro c connection hget hconstructed
    rcases getElem?_concat_cases hget with hold | ⟨-, rfl⟩
    · exact hs.isOpen c connection hold hconstructed
    · cases hconstructed

/-- The constructor of `SocketWrapper` enters the number. -/
theorem Unclosed.wraps (hs : Unclosed s) {c : Nat} {connection : Connection}
    (hget : s.connections[c]? = some connection)
    (hopen : connection.isOpen = true) (inserted : Bool) :
    Unclosed { s.enter c (.wrapped inserted) with
      sockets := s.sockets.insert connection.fd true } := by
  have hlookup := fun d => getElem?_enter s c d (.wrapped inserted)
  constructor
  · constructor
    · intro d other hother hserved
      simp only [OrdMap.contains_insert]
      simp only [hlookup] at hother
      obtain ⟨before, hbefore, rfl⟩ := Option.map_eq_some_iff.mp hother
      by_cases hdc : d = c
      · rw [hdc, hget] at hbefore
        cases hbefore
        simp [hdc]
      · rw [if_neg hdc] at hserved ⊢
        exact Or.inr (hs.table.contains_served d before hbefore hserved)
    · intro fd hfd
      simp only [OrdMap.contains_insert] at hfd
      rcases hfd with rfl | hold
      · exact ⟨c, { connection with stage := .wrapped inserted },
          by simp [hlookup, hget], rfl, by simp [Connection.isServed, hopen,
            Stage.constructed]⟩
      · obtain ⟨d, other, hother, hnumber, hserved⟩ :=
          hs.table.served_of_contains fd hold
        refine ⟨d, _, by rw [hlookup, hother]; rfl, ?_, ?_⟩
        · by_cases hdc : d = c <;> simp [hdc, hnumber]
        · by_cases hdc : d = c
          · rw [hdc, hget] at hother
            cases hother
            simp [hdc, Connection.isServed, hopen, Stage.constructed]
          · simp [hdc, hserved]
  · intro d other hother hconstructed
    simp only [hlookup] at hother
    obtain ⟨before, hbefore, rfl⟩ := Option.map_eq_some_iff.mp hother
    by_cases hdc : d = c
    · rw [hdc, hget] at hbefore
      cases hbefore
      simp [hdc, hopen]
    · rw [if_neg hdc] at hconstructed ⊢
      exact hs.isOpen d before hbefore hconstructed

/-- A stage of the handler with the descriptor open before and after it. -/
theorem Unclosed.enters (hs : Unclosed s) {c : Nat} {connection : Connection}
    (hget : s.connections[c]? = some connection)
    (hconstructed : connection.stage.constructed = true) {stage : Stage}
    (hstage : stage.constructed = true)
    (hconnections : t.connections = (s.enter c stage).connections)
    (hsockets : t.sockets = s.sockets) : Unclosed t := by
  refine hs.of_lookup (fun d => by rw [hconnections, getElem?_enter]) hsockets
    ?_
  intro d other hother
  by_cases hdc : d = c
  · rw [hdc, hget] at hother
    cases hother
    simp [hdc, Connection.isServed, hconstructed, hstage]
  · simp [hdc]

theorem Unclosed.served (hs : Unclosed s) (hdescriptors : Descriptors s)
    {c : Nat} {connection : Connection}
    (hget : s.connections[c]? = some connection)
    (hserved : Served s c connection t)
    (hok : ∀ inserted, connection.stage ≠ .closing inserted) :
    Unclosed t := by
  have hopen := (hdescriptors.closed_count c connection hget).2
  cases hserved with
  | wraps hstage =>
      rw [hstage] at hopen
      exact hs.wraps hget hopen _
  | begins inserted hstage =>
      exact hs.enters hget (by rw [hstage]; rfl) rfl rfl rfl
  | ends inserted hstage =>
      exact hs.enters hget (by rw [hstage]; rfl) rfl rfl rfl
  | closes inserted hstage => exact absurd hstage (hok inserted)
  | erases inserted hstage =>
      have hstill := hs.isOpen c connection hget (by rw [hstage]; rfl)
      rw [hopen, hstage] at hstill
      cases hstill

theorem Unclosed.ran (hs : Unclosed s) (howned : Owned s)
    (hdescriptors : Descriptors s) (hok : ClosesNoServed s action)
    (hran : Ran spare max s action t) : Unclosed t := by
  cases hran with
  | accepted fd hmain hfresh => exact hs.accepted fd _
  | called | scheduled | handed | refused | winds | worked =>
      exact ⟨⟨hs.table.1, hs.table.2⟩, hs.isOpen⟩
  | rejected c connection hmain hget =>
      have hstage := (howned.pending c (Or.inr (Or.inl hmain))).1
      simp only [State.stage, hget, Option.map_some, Option.some.injEq]
        at hstage
      have hopen := (hdescriptors.closed_count c connection hget).2
      rw [hstage] at hopen
      have hs' : Descriptors { s with main := .accepting } :=
        ⟨hdescriptors.closed_count, hdescriptors.closed_lt,
          hdescriptors.distinct⟩
      refine hs.of_lookup (hs'.getElem?_closes hget hopen .rejected) rfl ?_
      intro d other hother
      by_cases hdc : d = c
      · rw [hdc, hget] at hother
        cases hother
        simp [hdc, Connection.isServed, hstage, Stage.constructed]
      · simp [hdc]
  | served i copy connection t hrunning hget hserved =>
      exact hs.served hdescriptors hget hserved
        fun inserted => hok i copy connection inserted rfl hrunning hget

/-- Right after a handler closed its descriptor, the number is in the table
and no open connection has it. -/
theorem Unclosed.not_exact_of_closes (hs : Unclosed s)
    (hdescriptors : Descriptors s) {c : Nat} {connection : Connection}
    {inserted : Bool} (hget : s.connections[c]? = some connection)
    (hstage : connection.stage = .closing inserted)
    (hserved : Served s c connection t) : ¬ Exact t := by
  have hopen : connection.isOpen = true := by
    rw [(hdescriptors.closed_count c connection hget).2, hstage]
    rfl
  cases hserved with
  | closes inserted' hstage' =>
      intro hexact
      have hcontains := hs.table.contains_served c connection hget
        (by simp [Connection.isServed, hopen, hstage, Stage.constructed])
      obtain ⟨d, other, hother, hfd, hother'⟩ :=
        hexact.served_of_contains connection.fd hcontains
      rw [hdescriptors.getElem?_closes hget hopen] at hother
      obtain ⟨before, hbefore, rfl⟩ := Option.map_eq_some_iff.mp hother
      by_cases hdc : d = c
      · simp [hdc, Connection.isServed] at hother'
      · simp only [if_neg hdc, Connection.isServed, Bool.and_eq_true]
          at hfd hother'
        exact hdc (hdescriptors.distinct d c before connection hbefore hget
          hother'.1 hopen hfd)
  | wraps hother | begins _ hother | ends _ hother | erases _ hother =>
      rw [hstage] at hother
      cases hother

/-- In a run the table is exact in all states exactly when no handler comes to
close its descriptor. -/
theorem sockets_exact_iff (spare max : Nat) (actions : List Action) :
    (machine spare max).Along (fun _ _ t => Exact t) actions
        (machine spare max).init ↔
      (machine spare max).Along (fun s action _ => ClosesNoServed s action)
        actions (machine spare max).init := by
  have hpreserves : ∀ {s : State} {action : Action} {t : State},
      (machine spare max).Reachable s ∧ Unclosed s → ClosesNoServed s action →
        (machine spare max).step s action = some t →
          (machine spare max).Reachable t ∧ Unclosed t := by
    intro s action t hs hok hstep
    exact ⟨hs.1.step hstep, hs.2.ran (reachable_owned hs.1)
      (reachable_descriptors hs.1) hok (step_ran hstep)⟩
  refine Machine.along_iff ?_ hpreserves actions ⟨Machine.reachable_init, ?_⟩
  · intro s action t hs hstep
    constructor
    · intro hexact i copy connection inserted haction hrunning hget hstage
      subst haction
      have hran : Ran spare max s (.worker i) t := step_ran hstep
      cases hran with
      | winds _ _ _ _ haction => exact absurd rfl (haction i)
      | worked _ scheduler _ hdone =>
          have hfinished := hdone copy hrunning
          simp [State.stage, hget, hstage] at hfinished
      | served _ other connection' _ hrunning' hget' hserved =>
          rw [hrunning] at hrunning'
          cases hrunning'
          rw [hget] at hget'
          cases hget'
          exact hs.2.not_exact_of_closes (reachable_descriptors hs.1) hget
            hstage hserved hexact
    · intro hok
      exact (hpreserves hs hok hstep).2.table
  · refine ⟨⟨?_, ?_⟩, ?_⟩ <;> simp [machine, OrdMap.contains, OrdMap.find]

namespace SocketsWitness

open DescriptorsWitness

/-- The first handler has closed number 5 and not erased it yet when `accept`
returns 5 again; the second handler finds the entry, and then the first one
erases it. -/
def reusedNumber : List Action :=
  accepting 5 ++ List.replicate 12 (.worker 0) ++ accepting 5 ++
    List.replicate 9 (.worker 1) ++ [.worker 0]

/-- A closed descriptor stands in the table, and later an open one that is
being served does not. -/
theorem reused_number_erased :
    (∃ s, (machine 1 2).Reachable s ∧
      s.connections = [⟨5, false, .erasing true⟩] ∧
      s.sockets.contains 5 = true ∧ ¬ Exact s) ∧
    ∃ s, (machine 1 2).Reachable s ∧
      s.connections[1]? = some ⟨5, true, .wrapped false⟩ ∧
      s.sockets.contains 5 = false ∧ ¬ Exact s := by
  constructor
  · refine ⟨((machine 1 2).run (reusedNumber.take 21) {}).get
      (by decide +kernel), ⟨reusedNumber.take 21, (Option.some_get _).symm⟩,
      by decide +kernel, by decide +kernel, ?_⟩
    intro hexact
    obtain ⟨c, connection, hget, -, hserved⟩ :=
      hexact.served_of_contains 5 (by decide +kernel)
    have hmem := List.mem_of_getElem? hget
    rw [show State.connections _ = [⟨5, false, .erasing true⟩] by
      decide +kernel] at hmem
    cases List.mem_singleton.mp hmem
    cases hserved
  · refine ⟨((machine 1 2).run reusedNumber {}).get (by decide +kernel),
      ⟨reusedNumber, (Option.some_get _).symm⟩, by decide +kernel,
      by decide +kernel, ?_⟩
    intro hexact
    exact absurd (hexact.contains_served 1 ⟨5, true, .wrapped false⟩
      (by decide +kernel) (by decide)) (by decide +kernel)

end SocketsWitness

end ServerRun

end GreylistServer
