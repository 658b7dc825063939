/-
What becomes of the handles the DBI library returns.  A handle is in use, free
or closed; but `grabdb` throws between the creation of a handle and its entry
into a container, and a handle that does not accept an option or does not
connect is then in neither and is never closed.
-/
import GreylistServer.DatabasePool

namespace GreylistServer

namespace DatabasePool

/-- Where a handle may be. -/
inductive Place where
  | used
  | free
  | closed
deriving Repr, DecidableEq

/-- The pool, with the handles `dbi_conn_new` has returned so far. -/
structure Ledger (H : Type) where
  pool : Pool H := {}
  returned : List H := []
deriving Repr, DecidableEq

variable {H : Type} [DecidableEq H]

def Pool.At (s : Pool H) (con : H) : Place → Prop
  | .used => s.used.contains con = true
  | .free => s.free.contains con = true
  | .closed => con ∉ s.opened

/-- Every open handle is in one of the containers. -/
def Held (s : Pool H) : Prop :=
  ∀ con ∈ s.opened, s.used.contains con = true ∨ s.free.contains con = true

/-- `Database::~Database`. -/
def Pool.destroy (s : Pool H) : Pool H :=
  s.used.keys.foldl Pool.close (s.free.keys.foldl Pool.close s)

variable {s : Pool H} {con : H}

/-- Then every handle is in exactly one place. -/
theorem Held.placed (hheld : Held s) (hs : Exclusive s) (con : H) :
    ∃! place, s.At con place := by
  by_cases hopened : con ∈ s.opened
  · rcases hheld con hopened with hused | hfree
    · refine ⟨.used, hused, ?_⟩
      rintro (_ | _ | _) hplace
      · rfl
      · exact absurd hplace (Bool.eq_false_iff.mp (hs.disjoint con hused))
      · exact absurd hopened hplace
    · refine ⟨.free, hfree, ?_⟩
      rintro (_ | _ | _) hplace
      · exact absurd hfree (Bool.eq_false_iff.mp (hs.disjoint con hplace))
      · rfl
      · exact absurd hopened hplace
  · refine ⟨.closed, hopened, ?_⟩
    rintro (_ | _ | _) hplace
    · exact absurd (hs.used_opened con hplace) hopened
    · exact absurd (hs.free_opened con hplace) hopened
    · rfl

theorem mem_opened_foldl_close (handles : List H) (s : Pool H) (con : H) :
    con ∈ (handles.foldl Pool.close s).opened ↔
      con ∈ s.opened ∧ con ∉ handles := by
  induction handles generalizing s with
  | nil => simp
  | cons head rest ih =>
      rw [List.foldl_cons, ih, Pool.close, List.mem_filter, List.mem_cons,
        not_or, and_assoc, decide_eq_true_eq]

/-- The destructor closes every handle of the containers, and so all open ones
when none is elsewhere. -/
theorem Held.destroy (hheld : Held s) : s.destroy.opened = [] := by
  apply List.eq_nil_iff_forall_not_mem.mpr
  intro con hopened
  rw [Pool.destroy, mem_opened_foldl_close, mem_opened_foldl_close]
    at hopened
  obtain ⟨⟨hmem, hfree⟩, hused⟩ := hopened
  rw [OrdMap.mem_keys, ← Option.isSome_iff_exists] at hfree hused
  rcases hheld con hmem with hcontains | hcontains
  · exact hused hcontains
  · exact hfree hcontains

variable [LT H] [DecidableLT H]

/-- A free connection is used again exactly when one of them answers. -/
theorem reuse_eq_none_iff (ping : H → Bool) (s : Pool H) :
    (reuse ping s).1 = none ↔
      ∀ con, s.free.contains con = true → ping con = false := by
  fun_induction reuse ping s with
  | case1 s hfree =>
      refine iff_of_true rfl ?_
      intro con hcontains
      simp [OrdMap.contains, OrdMap.find, hfree] at hcontains
  | case2 s con _ rest hfree erased hping =>
      refine iff_of_false (Option.some_ne_none con) ?_
      intro hall
      rw [hall con (OrdMap.contains_of_entries hfree)] at hping
      cases hping
  | case3 s con _ rest hfree erased hping ih =>
      have hdead : ping con = false := by simpa using hping
      rw [ih]
      constructor
      · intro hall other hother
        by_cases heq : other = con
        · rw [heq, hdead]
        · exact hall other
            ((OrdMap.contains_erase s.free con other).mpr ⟨heq, hother⟩)
      · intro hall other hother
        exact hall other
          ((OrdMap.contains_erase s.free con other).mp hother).2

theorem reuse_held (ping : H → Bool) (s : Pool H) (hheld : Held s) :
    Held (reuse ping s).2 := by
  fun_induction reuse ping s with
  | case1 s hfree => exact hheld
  | case2 s con _ rest hfree erased hping =>
      intro other hother
      simp only [OrdMap.contains_insert, erased, OrdMap.contains_erase]
      by_cases heq : other = con
      · exact Or.inl (Or.inl heq)
      · rcases hheld other hother with hused | hin
        · exact Or.inl (Or.inr hused)
        · exact Or.inr ⟨heq, hin⟩
  | case3 s con _ rest hfree erased hping ih =>
      apply ih
      intro other hother
      simp only [erased, Pool.close, List.mem_filter, decide_eq_true_eq]
        at hother
      rcases hheld other hother.1 with hused | hin
      · exact Or.inl hused
      · exact Or.inr
          ((OrdMap.contains_erase s.free con other).mpr ⟨hother.2, hin⟩)

/-- The handle a call gets from `dbi_conn_new`. -/
def created (db : Database) (s : Pool H) : Action H → Option H
  | .grab dbi =>
      if dbi.initialized < -1 then none
      else
        match reuse dbi.ping s with
        | (some _, _) => none
        | (none, _) => dbi.new (driver db)
  | .free _ => none

/-- The calls of any number of users, with a record of the handles. -/
def ledger (H : Type) [DecidableEq H] [LT H] [DecidableLT H]
    (db : Database) : Machine (Ledger H) (Action H) where
  init := {}
  step s action := ((machine H db).step s.pool action).map fun pool =>
    { pool := pool
      returned := s.returned ++ (created db s.pool action).toList }

/-- What a call should leave behind: every handle ever returned is in exactly
one place, and a `grabdb` that throws has not changed `_used` and has closed
the handle it got. -/
def Conserves (db : Database) (s : Ledger H) (action : Action H)
    (t : Ledger H) : Prop :=
  (∀ con ∈ t.returned, ∃! place, t.pool.At con place) ∧
    ∀ dbi, action = .grab dbi →
      (∃ e, (grabdb dbi db s.pool).1 = .error e) →
      t.pool.used = s.pool.used ∧
        ∀ con, created db s.pool action = some con → t.pool.At con .closed

/-- The containers are disjoint and have exactly the open handles. -/
def Sound (s : Ledger H) : Prop :=
  Exclusive s.pool ∧ Held s.pool

/-- A handle that is created accepts the options and connects. -/
def Connects (db : Database) (s : Pool H) : Action H → Prop
  | .grab dbi => -1 ≤ dbi.initialized →
      (∀ con, s.free.contains con = true → dbi.ping con = false) →
      ∀ con, dbi.new (driver db) = some con → Accepts dbi db con
  | .free _ => True

/-- `dbi_conn_new` is called where no free connection answers. -/
theorem created_of_none {dbi : Dbi H} (db : Database)
    (hinit : ¬ dbi.initialized < -1) (hreuse : (reuse dbi.ping s).1 = none) :
    created db s (.grab dbi) = dbi.new (driver db) := by
  rw [created, if_neg hinit]
  split
  · next hfound =>
      rw [hfound] at hreuse
      cases hreuse
  · rfl

theorem Connects.accepts {dbi : Dbi H} {db : Database}
    (hconnects : Connects db s (.grab dbi)) (hinit : ¬ dbi.initialized < -1)
    (hreuse : (reuse dbi.ping s).1 = none)
    (hnew : dbi.new (driver db) = some con) : Accepts dbi db con :=
  hconnects (not_lt.mp hinit) ((reuse_eq_none_iff dbi.ping s).mp hreuse) con
    hnew

theorem grabdb_held {dbi : Dbi H} {db : Database} (hheld : Held s)
    (hconnects : Connects db s (.grab dbi)) :
    Held (grabdb dbi db s).2 := by
  have hreused := reuse_held dbi.ping s hheld
  rcases hgrab : grabdb dbi db s with ⟨answer, after⟩
  cases Grabbed.of_eq hgrab with
  | uninitialized e hinit => exact hheld
  | reused con hreuse => exact hreused
  | unsupported e hinit hreuse hnew => exact hreused
  | refused e con hinit hreuse hnew haccepts =>
      exact absurd (hconnects.accepts hinit hreuse hnew) haccepts
  | connected con hreuse hnew haccepts =>
      intro other hother
      rw [OrdMap.contains_insert]
      rcases List.mem_cons.mp hother with heq | hmem
      · exact Or.inl (Or.inl heq)
      · rcases hreused other hmem with hused | hfree
        · exact Or.inl (Or.inr hused)
        · exact Or.inr hfree

theorem freedb_held (db : Database) (con : H) (hheld : Held s) :
    Held (freedb db con s).2 := by
  unfold freedb
  split
  · split
    · intro other hother
      simp only [Pool.close, List.mem_filter, decide_eq_true_eq] at hother
      rcases hheld other hother.1 with hused | hfree
      · exact Or.inl
          ((OrdMap.contains_erase s.used con other).mpr ⟨hother.2, hused⟩)
      · exact Or.inr hfree
    · intro other hother
      simp only [OrdMap.contains_insert, OrdMap.contains_erase]
      by_cases heq : other = con
      · exact Or.inr (Or.inl heq)
      · rcases hheld other hother with hused | hfree
        · exact Or.inl ⟨heq, hused⟩
        · exact Or.inr (Or.inr hfree)
  · exact hheld

theorem step_held {db : Database} {t : Pool H} {action : Action H}
    (hheld : Held s) (hconnects : Connects db s action)
    (hstep : (machine H db).step s action = some t) : Held t := by
  cases action with
  | grab dbi =>
      simp only [machine] at hstep
      split at hstep
      · cases hstep
        exact grabdb_held hheld hconnects
      · cases hstep
  | free con =>
      cases hstep
      exact freedb_held db con hheld

/-- A `grabdb` that throws gets no handle or keeps it open; it does the latter
exactly when the handle does not connect. -/
theorem grabdb_throws_iff (dbi : Dbi H) (db : Database) (hs : Exclusive s) :
    ((∃ e, (grabdb dbi db s).1 = .error e) →
      (grabdb dbi db s).2.used = s.used ∧
        ∀ con, created db s (.grab dbi) = some con →
          con ∉ (grabdb dbi db s).2.opened) ↔
      Connects db s (.grab dbi) := by
  obtain ⟨-, -, hsame⟩ := reuse_spec dbi.ping s hs
  rcases hgrab : grabdb dbi db s with ⟨answer, after⟩
  cases Grabbed.of_eq hgrab with
  | uninitialized e hinit =>
      refine iff_of_true (fun _ => ⟨rfl, ?_⟩) ?_
      · intro con hcreated
        rw [created, if_pos hinit] at hcreated
        cases hcreated
      · intro hinit'
        exact absurd hinit (not_lt.mpr hinit')
  | reused con hreuse =>
      refine iff_of_true (fun herror => nomatch herror) ?_
      intro _ hdead
      rw [(reuse_eq_none_iff dbi.ping s).mpr hdead] at hreuse
      cases hreuse
  | unsupported e hinit hreuse hnew =>
      refine iff_of_true (fun _ => ⟨hsame hreuse, ?_⟩) ?_
      · intro con hcreated
        rw [created_of_none db hinit hreuse, hnew] at hcreated
        cases hcreated
      · intro _ _ con hsome
        rw [hnew] at hsome
        cases hsome
  | refused e con hinit hreuse hnew haccepts =>
      refine iff_of_false ?_ ?_
      · intro hthrows
        have hcreated : created db s (.grab dbi) = some con := by
          rw [created_of_none db hinit hreuse, hnew]
        exact (hthrows ⟨e, rfl⟩).2 con hcreated List.mem_cons_self
      · intro hconnects
        exact haccepts (hconnects.accepts hinit hreuse hnew)
  | connected con hreuse hnew haccepts =>
      refine iff_of_true (fun herror => nomatch herror) ?_
      intro _ _ other hother
      rw [hnew] at hother
      cases hother
      exact haccepts

theorem step_sound {db : Database} {s t : Ledger H} {action : Action H}
    (hsound : Sound s) (hconnects : Connects db s.pool action)
    (hstep : (ledger H db).step s action = some t) : Sound t := by
  obtain ⟨pool, hpool, rfl⟩ := Option.map_eq_some_iff.mp hstep
  exact ⟨step_exclusive hsound.1 hpool, step_held hsound.2 hconnects hpool⟩

/-- One call keeps its promise exactly when a handle it creates connects. -/
theorem step_conserves_iff {db : Database} {s t : Ledger H}
    {action : Action H} (hsound : Sound s)
    (hstep : (ledger H db).step s action = some t) :
    Conserves db s action t ↔ Connects db s.pool action := by
  obtain ⟨hs, hheld⟩ := hsound
  obtain ⟨pool, hpool, rfl⟩ := Option.map_eq_some_iff.mp hstep
  have hplaced : Connects db s.pool action →
      ∀ con, ∃! place, pool.At con place := fun hconnects =>
    (step_held hheld hconnects hpool).placed (step_exclusive hs hpool)
  cases action with
  | free con =>
      refine iff_of_true ⟨fun other _ => hplaced trivial other, ?_⟩ trivial
      intro dbi haction
      cases haction
  | grab dbi =>
      have hthrows := grabdb_throws_iff dbi db hs
      have hafter : pool = (grabdb dbi db s.pool).2 := by
        simp only [machine] at hpool
        split at hpool
        · exact (Option.some.inj hpool).symm
        · cases hpool
      rw [← hafter] at hthrows
      constructor
      · intro hconserves
        exact hthrows.mp (hconserves.2 dbi rfl)
      · intro hconnects
        refine ⟨fun con _ => hplaced hconnects con, ?_⟩
        intro other haction
        cases haction
        exact hthrows.mpr hconnects

/-- Along a run every handle ever returned is in exactly one place, and a
`grabdb` that throws closes what it got, exactly when every handle that is
created accepts the options and connects. -/
theorem handles_conserved_iff (db : Database) (actions : List (Action H)) :
    (ledger H db).Along (Conserves db) actions (ledger H db).init ↔
      (ledger H db).Along (fun s action _ => Connects db s.pool action)
        actions (ledger H db).init := by
  have hinit : Sound (ledger H db).init := ⟨init_exclusive db, nofun⟩
  exact Machine.along_iff step_conserves_iff step_sound actions hinit

/-- In a run whose handles all connect the destructor closes every handle that
is still open. -/
theorem destroy_closes_all (db : Database) {actions : List (Action H)}
    {t : Ledger H}
    (halong : (ledger H db).Along
      (fun s action _ => Connects db s.pool action) actions
      (ledger H db).init)
    (hrun : (ledger H db).run actions (ledger H db).init = some t) :
    t.pool.destroy.opened = [] := by
  have hinit : Sound (ledger H db).init := ⟨init_exclusive db, nofun⟩
  have hsound := Machine.run_preserves_along Sound step_sound hinit halong hrun
  exact hsound.2.destroy

namespace HandlesWitness

open PoolWitness

/-- A library that gives out a handle and cannot connect it. -/
def refusing (con : Nat) : Dbi Nat :=
  { answering con with connect := fun _ => false }

/-- The handle is open and in neither container. -/
theorem refused_handle_leaks :
    (ledger Nat localhost).run [.grab (refusing 1)] {} =
        some { pool := { opened := [1] }, returned := [1] } ∧
      ¬ (ledger Nat localhost).Along (Conserves localhost)
        [.grab (refusing 1)] {} := by
  have hstep : (ledger Nat localhost).step {} (.grab (refusing 1)) =
      some { pool := { opened := [1] }, returned := [1] } := by
    decide +kernel
  refine ⟨by rw [Machine.run, hstep]; rfl, ?_⟩
  intro halong
  obtain ⟨place, hplace, -⟩ := (halong _ hstep).1.1 1 (by decide)
  cases place with
  | used => cases hplace
  | free => cases hplace
  | closed => exact absurd (List.mem_singleton.mpr rfl) hplace

end HandlesWitness

end DatabasePool

end GreylistServer
