/-
The query objects of the threads over one connection pool.  A `DBQuery` takes
its connection in the constructor, keeps the result of the statement it has
executed, and frees first the result and then the connection in its
destructor.  A thread has at most one query object at a time; the threads take
their steps in any order.
-/
import GreylistServer.Lib.Holders
import GreylistServer.DBQuery
import GreylistServer.DatabaseHandles

namespace GreylistServer

namespace QueryPool

open DatabasePool

/-- A `DBQuery` and the `Query` in it, as far as they own something. -/
structure Object (H R : Type) where
  con : H
  res : Option R := none
  haveResult : Bool := false
deriving Repr, DecidableEq

/-- The query object of one thread.  After `released` only the connection is
left to be given back. -/
inductive Life (H R : Type) where
  | absent
  | alive (query : Object H R)
  | released (con : H)
deriving Repr, DecidableEq

/-- The pool and the objects, the results `dbi_conn_query` has returned and
those passed to `dbi_result_free`, how often `~Query` complained about a
result, and what was thrown by a destructor. -/
structure State (H R : Type) where
  pool : Pool H := {}
  objects : List (Life H R)
  returned : List R := []
  freed : List R := []
  complaints : Nat := 0
  thrown : List Error := []
deriving Repr, DecidableEq

variable {H R : Type}

def Life.connection : Life H R → Option H
  | .absent => none
  | .alive query => some query.con
  | .released con => some con

def Life.result : Life H R → Option R
  | .alive query => query.res
  | _ => none

/-- `Query::free_result`, with what is freed. -/
def Object.freeResult (query : Object H R) : List R × Object H R :=
  (query.res.toList, { query with res := none })

/-- The calls of `lookup` go through `get_resultf`, those of `insert` and
`update` through `executef`. -/
def Object.statement (driver : Driver) (rows : Bool) (sql : Str)
    (args : List Str) (query : Object H R) : Except Error Bool :=
  let q : Query := { con := true, res := query.res.isSome }
  if rows then (q.getResultf driver sql args).1
  else (q.executef driver sql args).1

/-- `~DBQuery`, and `~Query` up to the return of the connection. -/
def release (s : State H R) (i : Nat) (query : Object H R) : State H R :=
  let (first, rest) := if query.haveResult then query.freeResult
    else ([], query)
  { s with
    objects := s.objects.set i (.released query.con)
    freed := s.freed ++ (first ++ rest.res.toList)
    complaints := s.complaints + rest.res.toList.length }

/-- A step of one thread, with what the library answers.  A statement that
succeeds returns the given result. -/
inductive Action (H R : Type) where
  | construct (i : Nat) (dbi : Dbi H)
  | execute (i : Nat) (driver : Driver) (rows : Bool) (sql : Str)
      (args : List Str) (res : R)
  | release (i : Nat)
  | giveBack (i : Nat)

variable [DecidableEq H] [LT H] [DecidableLT H]

def step (db : Database) (s : State H R) :
    Action H R → Option (State H R)
  | .construct i dbi =>
      match s.objects[i]? with
      | some .absent =>
          if fresh dbi db s.pool then
            match grabdb dbi db s.pool with
            | (.error _, pool) => some { s with pool := pool }
            | (.ok con, pool) => some { s with
                pool := pool
                objects := s.objects.set i (.alive { con := con }) }
          else none
      | _ => none
  | .execute i driver rows sql args res =>
      match s.objects[i]? with
      | some (.alive query) =>
          match query.statement driver rows sql args with
          | .ok true => some { s with
              objects := s.objects.set i
                (.alive { query with res := some res, haveResult := true })
              returned := s.returned ++ [res] }
          | _ => some s
      | _ => none
  | .release i =>
      match s.objects[i]? with
      | some (.alive query) => some (release s i query)
      | _ => none
  | .giveBack i =>
      match s.objects[i]? with
      | some (.released con) =>
          let objects := s.objects.set i .absent
          match freedb db con s.pool with
          | (.error e, pool) => some { s with
              pool := pool
              objects := objects
              thrown := s.thrown ++ [e] }
          | (.ok (), pool) => some { s with pool := pool, objects := objects }
      | _ => none

/-- Any number of threads that share a database. -/
def machine (H R : Type) [DecidableEq H] [LT H] [DecidableLT H]
    (db : Database) (threads : Nat) : Machine (State H R) (Action H R) where
  init := { objects := List.replicate threads .absent }
  step := step db

/-- What a step does. -/
inductive Moved (db : Database) (s : State H R) :
    Action H R → State H R → Prop where
  | same (action : Action H R) : Moved db s action s
  | failed (i : Nat) (dbi : Dbi H) (e : Error)
      (hfresh : fresh dbi db s.pool = true)
      (hgrab : (grabdb dbi db s.pool).1 = .error e) :
      Moved db s (.construct i dbi) { s with
        pool := (grabdb dbi db s.pool).2 }
  | constructed (i : Nat) (dbi : Dbi H) (con : H)
      (hget : s.objects[i]? = some .absent)
      (hfresh : fresh dbi db s.pool = true)
      (hgrab : (grabdb dbi db s.pool).1 = .ok con) :
      Moved db s (.construct i dbi) { s with
        pool := (grabdb dbi db s.pool).2
        objects := s.objects.set i (.alive { con := con }) }
  | executed (action : Action H R) (i : Nat) (query : Object H R) (res : R)
      (hget : s.objects[i]? = some (.alive query)) (hres : query.res = none) :
      Moved db s action { s with
        objects := s.objects.set i
          (.alive { query with res := some res, haveResult := true })
        returned := s.returned ++ [res] }
  | released (i : Nat) (query : Object H R)
      (hget : s.objects[i]? = some (.alive query)) :
      Moved db s (.release i) (release s i query)
  | refused (i : Nat) (con : H) (e : Error)
      (hget : s.objects[i]? = some (.released con))
      (hused : s.pool.used.contains con = false) :
      Moved db s (.giveBack i) { s with
        objects := s.objects.set i .absent
        thrown := s.thrown ++ [e] }
  | returned (i : Nat) (con : H)
      (hget : s.objects[i]? = some (.released con))
      (hused : s.pool.used.contains con = true) :
      Moved db s (.giveBack i) { s with
        pool := (freedb db con s.pool).2
        objects := s.objects.set i .absent }

omit [DecidableEq H] [LT H] [DecidableLT H] in
/-- A query object with a result executes no further statement. -/
theorem Object.res_of_statement {driver : Driver} {rows : Bool} {sql : Str}
    {args : List Str} {query : Object H R}
    (hok : query.statement driver rows sql args = .ok true) :
    query.res = none := by
  cases hres : query.res with
  | none => rfl
  | some res =>
      cases rows <;>
        simp [Object.statement, Query.getResultf, Query.executef, hres]
          at hok

theorem step_moved {db : Database} {s t : State H R} {action : Action H R}
    (hstep : step db s action = some t) : Moved db s action t := by
  cases action with
  | construct i dbi =>
      simp only [step] at hstep
      split at hstep
      · next hget =>
          split at hstep
          · next hfresh =>
              split at hstep
              · next e pool hgrab =>
                  cases hstep
                  have hpool : pool = (grabdb dbi db s.pool).2 := by
                    rw [hgrab]
                  rw [hpool]
                  exact .failed i dbi e hfresh (by rw [hgrab])
              · next con pool hgrab =>
                  cases hstep
                  have hpool : pool = (grabdb dbi db s.pool).2 := by
                    rw [hgrab]
                  rw [hpool]
                  exact .constructed i dbi con hget hfresh (by rw [hgrab])
          · cases hstep
      · cases hstep
  | execute i driver rows sql args res =>
      simp only [step] at hstep
      split at hstep
      · next query hget =>
          split at hstep
          · next hok =>
              cases hstep
              exact .executed _ i query res hget
                (Object.res_of_statement hok)
          · cases hstep
            exact .same _
      · cases hstep
  | release i =>
      simp only [step] at hstep
      split at hstep
      · next query hget =>
          cases hstep
          exact .released i query hget
      · cases hstep
  | giveBack i =>
      simp only [step] at hstep
      split at hstep
      · next con hget =>
          cases hused : s.pool.used.contains con with
          | false =>
              rw [freedb, hused] at hstep
              cases hstep
              exact .refused i con _ hget hused
          | true =>
              have hback : freedb db con s.pool =
                  (.ok (), (freedb db con s.pool).2) := by
                rw [freedb, if_pos hused]
              rw [hback] at hstep
              cases hstep
              exact .returned i con hget hused
      · cases hstep

theorem reuse_used (ping : H → Bool) (s : Pool H) {con : H}
    (hreuse : (reuse ping s).1 = some con) :
    (reuse ping s).2.used = s.used.insert con () := by
  fun_induction reuse ping s with
  | case1 s hfree => cases hreuse
  | case2 s con' _ rest hfree erased hping =>
      cases hreuse
      rfl
  | case3 s con' _ rest hfree erased hping ih => exact ih hreuse

/-- A `grabdb` that succeeds adds its connection to `_used`, one that fails
leaves `_used` as it is. -/
theorem grabdb_used (dbi : Dbi H) (db : Database) {s : Pool H}
    (hs : Exclusive s) :
    (∀ con, (grabdb dbi db s).1 = .ok con →
      (grabdb dbi db s).2.used = s.used.insert con ()) ∧
      ∀ e, (grabdb dbi db s).1 = .error e →
        (grabdb dbi db s).2.used = s.used := by
  obtain ⟨-, -, hsame⟩ := reuse_spec dbi.ping s hs
  rcases hgrab : grabdb dbi db s with ⟨answer, after⟩
  cases Grabbed.of_eq hgrab with
  | uninitialized e hinit =>
      refine ⟨?_, fun _ _ => rfl⟩
      rintro _ ⟨⟩
  | reused con hreuse =>
      constructor
      · rintro _ ⟨⟩
        exact reuse_used dbi.ping s hreuse
      · rintro _ ⟨⟩
  | unsupported e hinit hreuse hnew =>
      refine ⟨?_, fun _ _ => hsame hreuse⟩
      rintro _ ⟨⟩
  | refused e con hinit hreuse hnew haccepts =>
      refine ⟨?_, fun _ _ => hsame hreuse⟩
      rintro _ ⟨⟩
  | connected con hreuse hnew haccepts =>
      constructor
      · rintro _ ⟨⟩
        simp only [hsame hreuse]
      · rintro _ ⟨⟩

/-- The objects hold the connections in use, each one its own, and the results
that were returned and not freed. -/
structure Owned (s : State H R) : Prop where
  exclusive : Exclusive s.pool
  nodup : s.pool.used.keys.Nodup
  connections : (s.objects.filterMap Life.connection).Perm s.pool.used.keys
  results : s.returned.Perm (s.freed ++ s.objects.filterMap Life.result)
  flagged : ∀ query, Life.alive query ∈ s.objects →
    query.haveResult = query.res.isSome
  quiet : s.complaints = 0
  clean : s.thrown = []

variable {s : State H R}

omit [LT H] [DecidableLT H] in
theorem Owned.contains_used (hs : Owned s) {i : Nat} {life : Life H R}
    {con : H} (hget : s.objects[i]? = some life)
    (hcon : life.connection = some con) :
    s.pool.used.contains con = true := by
  rw [OrdMap.contains_eq_true_iff, ← hs.connections.mem_iff,
    List.mem_filterMap]
  exact ⟨life, List.mem_of_getElem? hget, hcon⟩

omit [DecidableEq H] [LT H] [DecidableLT H] in
/-- The flags stay right where the moved object's flag is. -/
theorem flagged_set {objects : List (Life H R)} {i : Nat} {life : Life H R}
    (hflagged : ∀ query, Life.alive query ∈ objects →
      query.haveResult = query.res.isSome)
    (hlife : ∀ query, life = .alive query →
      query.haveResult = query.res.isSome) :
    ∀ query, Life.alive query ∈ objects.set i life →
      query.haveResult = query.res.isSome := by
  intro query hmem
  rcases List.mem_or_eq_of_mem_set hmem with hold | heq
  · exact hflagged query hold
  · exact hlife query heq.symm

theorem Owned.constructed (hs : Owned s) {db : Database} {i : Nat}
    {dbi : Dbi H} {con : H} (hget : s.objects[i]? = some .absent)
    (hfresh : fresh dbi db s.pool = true)
    (hgrab : (grabdb dbi db s.pool).1 = .ok con) :
    Owned { s with
      pool := (grabdb dbi db s.pool).2
      objects := s.objects.set i (.alive { con := con }) } := by
  obtain ⟨hafter, hspec⟩ := grabdb_spec dbi db hs.exclusive hfresh
  have hnew := (hspec con hgrab).1
  have hused := (grabdb_used dbi db hs.exclusive).1 con hgrab
  have hkeys := OrdMap.keys_insert_perm hnew ()
  have hnot : con ∉ s.pool.used.keys := by
    rw [← OrdMap.contains_eq_true_iff, hnew]
    exact Bool.false_ne_true
  refine ⟨hafter, ?_, ?_, ?_, flagged_set hs.flagged ?_, hs.quiet, hs.clean⟩
  · dsimp only
    rw [hused]
    exact hkeys.nodup_iff.mpr (List.nodup_cons.mpr ⟨hnot, hs.nodup⟩)
  · dsimp only
    rw [hused]
    have hmoved := filterMap_set_perm Life.connection
      (Life.alive { con := con }) hget
    exact (hmoved.trans (hs.connections.cons con)).trans hkeys.symm
  · have hmoved := filterMap_set_perm Life.result
      (Life.alive { con := con }) hget
    exact hs.results.trans (hmoved.symm.append_left s.freed)
  · rintro query ⟨⟩
    rfl

omit [LT H] [DecidableLT H] in
theorem Owned.executed (hs : Owned s) {i : Nat} {query : Object H R} (res : R)
    (hget : s.objects[i]? = some (.alive query)) (hres : query.res = none) :
    Owned { s with
      objects := s.objects.set i
        (.alive { query with res := some res, haveResult := true })
      returned := s.returned ++ [res] } := by
  refine ⟨hs.exclusive, hs.nodup, ?_, ?_, flagged_set hs.flagged ?_, hs.quiet,
    hs.clean⟩
  · have hmoved := filterMap_set_perm Life.connection
      (Life.alive { query with res := some res, haveResult := true }) hget
    exact ((List.perm_append_left_iff _).mp hmoved).trans hs.connections
  · have hmoved := filterMap_set_perm Life.result
      (Life.alive { query with res := some res, haveResult := true }) hget
    simp only [Life.result, hres, Option.toList_none, List.nil_append,
      Option.toList_some] at hmoved
    calc s.returned ++ [res]
        _ |>.Perm (s.freed ++ s.objects.filterMap Life.result ++ [res]) :=
          hs.results.append_right [res]
        _ = s.freed ++ (s.objects.filterMap Life.result ++ [res]) :=
          List.append_assoc ..
        _ |>.Perm (s.freed ++ ([res] ++ s.objects.filterMap Life.result)) :=
          List.perm_append_comm.append_left s.freed
        _ |>.Perm (s.freed ++ _) := hmoved.symm.append_left s.freed
  · rintro query ⟨⟩
    rfl

omit [LT H] [DecidableLT H] in
theorem Owned.released (hs : Owned s) {i : Nat} {query : Object H R}
    (hget : s.objects[i]? = some (.alive query)) :
    Owned (release s i query) := by
  have hflag := hs.flagged query (List.mem_of_getElem? hget)
  have hrelease : release s i query = { s with
      objects := s.objects.set i (.released query.con)
      freed := s.freed ++ query.res.toList } := by
    cases hres : query.res <;>
      simp [release, Object.freeResult, hflag, hres]
  rw [hrelease]
  refine ⟨hs.exclusive, hs.nodup, ?_, ?_, flagged_set hs.flagged ?_, hs.quiet,
    hs.clean⟩
  · have hmoved := filterMap_set_perm Life.connection
      (Life.released query.con) hget
    exact ((List.perm_append_left_iff _).mp hmoved).trans hs.connections
  · have hmoved := filterMap_set_perm Life.result
      (Life.released query.con) hget
    dsimp only
    rw [List.append_assoc]
    exact hs.results.trans (hmoved.symm.append_left s.freed)
  · rintro query ⟨⟩

theorem Owned.returned (hs : Owned s) {db : Database} {i : Nat} {con : H}
    (hget : s.objects[i]? = some (.released con)) :
    Owned { s with
      pool := (freedb db con s.pool).2
      objects := s.objects.set i .absent } := by
  have hcontains := hs.contains_used hget rfl
  have hused : (freedb db con s.pool).2.used = s.pool.used.erase con := by
    rw [freedb, if_pos hcontains]
  have hkeys := OrdMap.keys_erase_perm hs.nodup hcontains
  refine ⟨freedb_exclusive db con hs.exclusive, ?_, ?_, ?_,
    flagged_set hs.flagged ?_, hs.quiet, hs.clean⟩
  · dsimp only
    rw [hused]
    exact (List.nodup_cons.mp (hkeys.nodup_iff.mpr hs.nodup)).2
  · dsimp only
    rw [hused]
    have hmoved := filterMap_set_perm Life.connection
      Life.absent hget
    exact ((hmoved.trans hs.connections).trans hkeys.symm).cons_inv
  · have hmoved := filterMap_set_perm Life.result Life.absent hget
    exact hs.results.trans (hmoved.symm.append_left s.freed)
  · rintro query ⟨⟩

theorem Owned.moved (hs : Owned s) {db : Database} {action : Action H R}
    {t : State H R} (hmoved : Moved db s action t) : Owned t := by
  cases hmoved with
  | same => exact hs
  | failed i dbi e hfresh hgrab =>
      have hused := (grabdb_used dbi db hs.exclusive).2 e hgrab
      refine ⟨(grabdb_spec dbi db hs.exclusive hfresh).1, ?_, ?_, hs.results,
        hs.flagged, hs.quiet, hs.clean⟩
      · dsimp only
        rw [hused]
        exact hs.nodup
      · dsimp only
        rw [hused]
        exact hs.connections
  | constructed i dbi con hget hfresh hgrab =>
      exact hs.constructed hget hfresh hgrab
  | executed _ i query res hget hres => exact hs.executed res hget hres
  | released i query hget => exact hs.released hget
  | refused i con e hget hused =>
      rw [hs.contains_used hget rfl] at hused
      cases hused
  | returned i con hget hused => exact hs.returned hget

omit [DecidableEq H] [LT H] [DecidableLT H] in
theorem filterMap_replicate_absent {β : Type} {held : Life H R → Option β}
    (habsent : held .absent = none) (threads : Nat) :
    (List.replicate threads .absent).filterMap held = [] := by
  apply List.filterMap_eq_nil_iff.mpr
  intro life hmem
  rw [List.eq_of_mem_replicate hmem]
  exact habsent

theorem reachable_owned {db : Database} {threads : Nat}
    (hs : (machine H R db threads).Reachable s) : Owned s := by
  refine hs.invariant ?_ fun hs hstep => hs.moved (step_moved hstep)
  refine ⟨init_exclusive db, List.nodup_nil, ?_, ?_, ?_, rfl, rfl⟩
  · simp only [machine]
    rw [filterMap_replicate_absent rfl]
    exact .refl _
  · simp only [machine]
    rw [filterMap_replicate_absent rfl]
    exact .refl _
  · intro query hmem
    cases List.eq_of_mem_replicate hmem

/-- In every interleaving no destructor throws; a query object's connection is
open, in use and the connection of no other object, and every connection in
use is that of an object, so none is in use after the last object is gone. -/
theorem reachable_connections_owned {db : Database} {threads : Nat}
    (hs : (machine H R db threads).Reachable s) :
    s.thrown = [] ∧
      (∀ (i j : Nat) (first second : Life H R) (con : H),
        s.objects[i]? = some first → s.objects[j]? = some second →
        first.connection = some con → second.connection = some con →
        i = j) ∧
      (∀ con, s.pool.used.contains con = true ↔
        ∃ life ∈ s.objects, life.connection = some con) ∧
      (∀ life ∈ s.objects, ∀ con, life.connection = some con →
        con ∈ s.pool.opened ∧ s.pool.free.contains con = false) ∧
      ((∀ life ∈ s.objects, life = .absent) → s.pool.used.keys = []) := by
  have howned := reachable_owned hs
  have hused : ∀ con, s.pool.used.contains con = true ↔
      ∃ life ∈ s.objects, life.connection = some con := by
    intro con
    rw [OrdMap.contains_eq_true_iff, ← howned.connections.mem_iff,
      List.mem_filterMap]
  refine ⟨howned.clean, ?_, hused, ?_, ?_⟩
  · intro i j first second con hfirst hsecond hheld hother
    exact eq_of_nodup_filterMap
      (howned.connections.nodup_iff.mpr howned.nodup) hfirst hsecond hheld
      hother
  · intro life hmem con hcon
    have hcontains := (hused con).mpr ⟨life, hmem, hcon⟩
    exact ⟨howned.exclusive.used_opened con hcontains,
      howned.exclusive.disjoint con hcontains⟩
  · intro habsent
    have hnone : s.objects.filterMap Life.connection = [] := by
      apply List.filterMap_eq_nil_iff.mpr
      intro life hmem
      rw [habsent life hmem]
      rfl
    have hperm := howned.connections
    rw [hnone] at hperm
    exact hperm.symm.eq_nil

/-- In every interleaving the results returned so far are those freed so far
and those of the objects, each counted as often as it was returned: none is
freed twice, and none is lost.  The destructor of `Query` finds no result
left. -/
theorem reachable_results_freed_once {db : Database} {threads : Nat}
    (hs : (machine H R db threads).Reachable s) :
    s.complaints = 0 ∧
      s.returned.Perm (s.freed ++ s.objects.filterMap Life.result) ∧
      ((∀ life ∈ s.objects, life.result = none) →
        s.returned.Perm s.freed) := by
  have howned := reachable_owned hs
  refine ⟨howned.quiet, howned.results, fun hnone => ?_⟩
  have hresults := howned.results
  rwa [List.filterMap_eq_nil_iff.mpr hnone, List.append_nil] at hresults

section Bound

/-- The containers have an entry once, and not more than one free connection
above the spare ones. -/
structure Listed (db : Database) (pool : Pool H) : Prop where
  opened_nodup : pool.opened.Nodup
  free_nodup : pool.free.keys.Nodup
  size_le : pool.free.size ≤ db.spare + 1

variable {db : Database} {pool : Pool H}

omit [LT H] [DecidableLT H] in
/-- Erasing a free connection, and closing handles. -/
theorem Listed.erases (hlisted : Listed db pool) (con : H)
    {after : Pool H} (hfree : after.free = pool.free.erase con)
    (hopened : after.opened.Sublist pool.opened) : Listed db after where
  opened_nodup := hlisted.opened_nodup.sublist hopened
  free_nodup := by
    rw [hfree, OrdMap.keys_erase]
    exact hlisted.free_nodup.filter _
  size_le := by
    rw [hfree, OrdMap.size_eq_length_keys, OrdMap.keys_erase]
    have hle := List.length_filter_le (fun other => other ≠ con)
      pool.free.keys
    rw [← OrdMap.size_eq_length_keys] at hle
    exact Nat.le_trans hle hlisted.size_le

theorem reuse_listed (ping : H → Bool) (hlisted : Listed db pool) :
    Listed db (reuse ping pool).2 := by
  fun_induction reuse ping pool with
  | case1 pool hentries => exact hlisted
  | case2 pool con _ rest hentries erased hping =>
      exact hlisted.erases con rfl (List.Sublist.refl _)
  | case3 pool con _ rest hentries erased hping ih =>
      exact ih (hlisted.erases con rfl List.filter_sublist)

theorem grabdb_listed (dbi : Dbi H) (hlisted : Listed db pool)
    (hfresh : fresh dbi db pool = true) :
    Listed db (grabdb dbi db pool).2 := by
  have hreused := reuse_listed dbi.ping hlisted
  have hopens : ∀ con, dbi.new (driver db) = some con →
      (con :: (reuse dbi.ping pool).2.opened).Nodup := fun con hnew =>
    List.nodup_cons.mpr ⟨fresh_not_mem hfresh hnew, hreused.opened_nodup⟩
  rcases hgrab : grabdb dbi db pool with ⟨answer, after⟩
  cases Grabbed.of_eq hgrab with
  | uninitialized e hinit => exact hlisted
  | reused con hreuse => exact hreused
  | unsupported e hinit hreuse hnew => exact hreused
  | refused e con hinit hreuse hnew haccepts =>
      exact ⟨hopens con hnew, hreused.free_nodup, hreused.size_le⟩
  | connected con hreuse hnew haccepts =>
      exact ⟨hopens con hnew, hreused.free_nodup, hreused.size_le⟩

theorem freedb_listed (con : H) (hlisted : Listed db pool)
    (hs : Exclusive pool) : Listed db (freedb db con pool).2 := by
  unfold freedb
  split
  · next hused =>
      split
      · exact ⟨hlisted.opened_nodup.filter _, hlisted.free_nodup,
          hlisted.size_le⟩
      · next hsize =>
          have hnew := hs.disjoint con hused
          have hnot : con ∉ pool.free.keys := by
            rw [← OrdMap.contains_eq_true_iff, hnew]
            exact Bool.false_ne_true
          refine ⟨hlisted.opened_nodup, ?_, ?_⟩
          · exact (OrdMap.keys_insert_perm hnew ()).nodup_iff.mpr
              (List.nodup_cons.mpr ⟨hnot, hlisted.free_nodup⟩)
          · dsimp only
            rw [OrdMap.size_insert hnew]
            omega
  · exact hlisted

/-- A handle that is created for a query object connects. -/
def Connects (db : Database) (s : State H R) : Action H R → Prop
  | .construct _ dbi => DatabasePool.Connects db s.pool (.grab dbi)
  | _ => True

/-- The handles, once each, and no more objects than threads. -/
structure Counted (db : Database) (threads : Nat) (s : State H R) : Prop where
  owned : Owned s
  listed : Listed db s.pool
  held : Held s.pool
  threads : s.objects.length = threads

omit [LT H] [DecidableLT H] in
/-- The open handles are those of the two containers. -/
theorem Counted.length_opened {threads : Nat} {s : State H R}
    (hs : Counted db threads s) :
    s.pool.opened.length = s.pool.used.size + s.pool.free.size := by
  have hnodup : (s.pool.used.keys ++ s.pool.free.keys).Nodup := by
    refine List.nodup_append.mpr
      ⟨hs.owned.nodup, hs.listed.free_nodup, ?_⟩
    rintro con hused other hfree rfl
    rw [← OrdMap.contains_eq_true_iff] at hused hfree
    rw [hs.owned.exclusive.disjoint con hused] at hfree
    cases hfree
  have hperm : s.pool.opened.Perm
      (s.pool.used.keys ++ s.pool.free.keys) := by
    apply (List.perm_ext_iff_of_nodup hs.listed.opened_nodup hnodup).mpr
    intro con
    rw [List.mem_append, ← OrdMap.contains_eq_true_iff,
      ← OrdMap.contains_eq_true_iff]
    constructor
    · exact hs.held con
    · rintro (hused | hfree)
      · exact hs.owned.exclusive.used_opened con hused
      · exact hs.owned.exclusive.free_opened con hfree
  rw [hperm.length_eq, List.length_append, ← OrdMap.size_eq_length_keys,
    ← OrdMap.size_eq_length_keys]

omit [LT H] [DecidableLT H] in
theorem Counted.size_used_le {threads : Nat} {s : State H R}
    (hs : Counted db threads s) : s.pool.used.size ≤ threads := by
  rw [OrdMap.size_eq_length_keys, ← hs.owned.connections.length_eq,
    ← hs.threads]
  exact List.length_filterMap_le Life.connection s.objects

theorem Counted.moved {threads : Nat} {s t : State H R} {action : Action H R}
    (hs : Counted db threads s) (hconnects : Connects db s action)
    (hmoved : Moved db s action t) : Counted db threads t := by
  have howned := hs.owned.moved hmoved
  cases hmoved with
  | same => exact hs
  | failed i dbi e hfresh hgrab =>
      exact ⟨howned, grabdb_listed dbi hs.listed hfresh,
        grabdb_held hs.held hconnects, hs.threads⟩
  | constructed i dbi con hget hfresh hgrab =>
      exact ⟨howned, grabdb_listed dbi hs.listed hfresh,
        grabdb_held hs.held hconnects, List.length_set.trans hs.threads⟩
  | executed _ i query res hget hres =>
      exact ⟨howned, hs.listed, hs.held, List.length_set.trans hs.threads⟩
  | released i query hget =>
      exact ⟨howned, hs.listed, hs.held, List.length_set.trans hs.threads⟩
  | refused i con e hget hused =>
      exact ⟨howned, hs.listed, hs.held, List.length_set.trans hs.threads⟩
  | returned i con hget hused =>
      exact ⟨howned, freedb_listed con hs.listed hs.owned.exclusive,
        freedb_held db con hs.held, List.length_set.trans hs.threads⟩

theorem init_counted (db : Database) (threads : Nat) :
    Counted db threads (machine H R db threads).init where
  owned := reachable_owned Machine.reachable_init
  listed := ⟨List.nodup_nil, List.nodup_nil, Nat.zero_le _⟩
  held := by
    intro con hmem
    cases hmem
  threads := List.length_replicate

/-- In a run in which every handle that is created connects, the open
connections are at most one for each thread, the spare ones and one more. -/
theorem connections_bounded (db : Database) (threads : Nat)
    {actions : List (Action H R)} {s : State H R}
    (hconnects : (machine H R db threads).Along
      (fun s action _ => Connects db s action) actions
      (machine H R db threads).init)
    (hrun : (machine H R db threads).run actions
      (machine H R db threads).init = some s) :
    s.pool.used.size ≤ threads ∧ s.pool.free.size ≤ db.spare + 1 ∧
      s.pool.opened.length ≤ threads + db.spare + 1 := by
  have hcounted : Counted db threads s :=
    Machine.run_preserves_along (Counted db threads)
      (fun hs hok hstep => hs.moved hok (step_moved hstep))
      (init_counted db threads) hconnects hrun
  have hused := hcounted.size_used_le
  have hfree := hcounted.listed.size_le
  refine ⟨hused, hfree, ?_⟩
  rw [hcounted.length_opened]
  omega

end Bound

namespace QueryPoolWitness

open PoolWitness

/-- A driver that executes every statement. -/
def executing : Driver where
  quote text := some (("'" : Str) ++ text ++ ("'" : Str))
  query _ := .ok ()

/-- Two threads make their queries, and the first one is done with its. -/
def queries : List (Action Nat Nat) :=
  [.construct 0 (answering 1),
    .execute 0 executing true "SELECT `id` FROM `triplet" [] 5,
    .construct 1 (answering 2),
    .execute 1 executing false "UPDATE triplet SET `count`=1" [] 6,
    .release 0]

def oneReleased : State Nat Nat where
  pool := { used := ⟨[(1, ()), (2, ())]⟩, opened := [2, 1] }
  objects := [.released 1, .alive { con := 2, res := some 6, haveResult := true }]
  returned := [5, 6]
  freed := [5]

theorem oneReleased_run :
    (machine Nat Nat localhost 2).run queries
      (machine Nat Nat localhost 2).init = some oneReleased := by
  decide +kernel

/-- The connection that is still to be given back belongs to no other
object. -/
theorem oneReleased_owned :
    (Life.released (R := Nat) 1).connection = some 1 ∧
      oneReleased.thrown = [] ∧ 1 ∈ oneReleased.pool.opened ∧
      oneReleased.pool.free.contains 1 = false :=
  ⟨rfl,
    (reachable_connections_owned ⟨queries, oneReleased_run⟩).1,
    (reachable_connections_owned ⟨queries, oneReleased_run⟩).2.2.2.1
      (.released 1) List.mem_cons_self 1 rfl⟩

/-- One of the two results is freed. -/
theorem oneReleased_freed :
    oneReleased.complaints = 0 ∧
      oneReleased.returned.Perm (oneReleased.freed ++ [6]) :=
  ⟨(reachable_results_freed_once ⟨queries, oneReleased_run⟩).1,
    (reachable_results_freed_once ⟨queries, oneReleased_run⟩).2.1⟩

theorem queries_connect :
    (machine Nat Nat localhost 2).Along
      (fun s action _ => Connects localhost s action) queries
      (machine Nat Nat localhost 2).init := by
  have haccepts : ∀ con, Accepts (answering con) localhost con :=
    fun con => ⟨fun _ _ _ => rfl, rfl⟩
  have hconnects : ∀ (con : Nat) (pool : Pool Nat),
      DatabasePool.Connects localhost pool (.grab (answering con)) := by
    intro con pool _ _ other hnew
    cases hnew
    exact haccepts con
  refine fun _ _ => ⟨hconnects 1 _, fun _ _ => ⟨trivial, fun _ _ =>
    ⟨hconnects 2 _, fun _ _ => ⟨trivial, fun _ _ => ⟨trivial, trivial⟩⟩⟩⟩⟩

/-- With no spare connections two threads have at most three open. -/
theorem oneReleased_bounded :
    localhost.spare = 0 ∧ oneReleased.pool.opened.length ≤ 2 + 0 + 1 :=
  ⟨rfl, (connections_bounded localhost 2 queries_connect oneReleased_run).2.2⟩

end QueryPoolWitness

end QueryPool

end GreylistServer
