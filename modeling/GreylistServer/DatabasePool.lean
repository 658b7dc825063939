/-
The connection pool of a database.  `grabdb` hands out a free connection that
still answers, closing the dead ones it meets, or opens a new one; `freedb`
takes a connection back.  Both run under the mutex, so a call is one step.
What the DBI library answers is arbitrary.
-/
import GreylistServer.Lib.Machine
import GreylistServer.Creators

namespace GreylistServer

namespace DatabasePool

/-- The value of an option as it is passed to the driver. -/
inductive OptionValue where
  | text (value : Str)
  | number (value : Int)
deriving Repr, DecidableEq

/-- What the DBI library answers to the calls made by one `grabdb`.  A flag is
set when the call succeeds. -/
structure Dbi (H : Type) where
  initialized : Int
  ping : H → Bool
  new : Str → Option H
  setOption : H → Str → OptionValue → Bool
  connect : H → Bool
  error : H → Nat × Str

/-- The containers `_used` and `_free`, and the handles that were opened and
not closed since. -/
structure Pool (H : Type) where
  used : OrdMap H Unit := {}
  free : OrdMap H Unit := {}
  opened : List H := []
deriving Repr, DecidableEq

/-- The numeric options of a driver.  The entries meant for the two `sqlite`
drivers go to a set that was already copied. -/
def numericOptions (type : Str) : List Str :=
  if type = "mysql".toList then ["port".toList] else []

def optionValue (type key value : Str) : OptionValue :=
  if key ∈ numericOptions type then .number (extractInt value)
  else .text value

variable {H : Type} [DecidableEq H]

def DBIError (dbi : Dbi H) (con : H) (str : Str) : Error :=
  .DBIError (dbi.error con).1 (str ++ (": " : Str) ++ (dbi.error con).2)

/-- Pass the parameters other than the type to the new connection. -/
def setOptions (dbi : Dbi H) (type : Str) (con : H) :
    List (Str × Str) → Except Error Unit
  | [] => .ok ()
  | (key, value) :: rest =>
      if key = "type".toList then setOptions dbi type con rest
      else if dbi.setOption con key (optionValue type key value) then
        setOptions dbi type con rest
      else .error (DBIError dbi con
        (("dbi_conn_set_option failed for key " : Str) ++ key))

def Pool.close (s : Pool H) (con : H) : Pool H :=
  { s with opened := s.opened.filter (fun other => other ≠ con) }

/-- The two containers are disjoint and have open handles only. -/
structure Exclusive (s : Pool H) : Prop where
  disjoint : ∀ con, s.used.contains con = true → s.free.contains con = false
  used_opened : ∀ con, s.used.contains con = true → con ∈ s.opened
  free_opened : ∀ con, s.free.contains con = true → con ∈ s.opened

variable {s : Pool H} {con : H}

/-- A free connection that does not answer leaves the pool. -/
theorem Exclusive.discards (hs : Exclusive s)
    (hfree : s.free.contains con = true) :
    Exclusive (({ s with free := s.free.erase con } : Pool H).close con) where
  disjoint := by
    intro other hused
    have hnot := hs.disjoint other hused
    by_contra hcontains
    simp only [Pool.close, Bool.not_eq_false, OrdMap.contains_erase]
      at hcontains
    rw [hnot] at hcontains
    cases hcontains.2
  used_opened := by
    intro other hused
    have hne : other ≠ con := by
      rintro rfl
      rw [hs.disjoint other hused] at hfree
      cases hfree
    simp [Pool.close, hs.used_opened other hused, hne]
  free_opened := by
    intro other hother
    simp only [Pool.close, OrdMap.contains_erase] at hother
    simp [Pool.close, hs.free_opened other hother.2, hother.1]

/-- A new handle is open and in neither container. -/
theorem Exclusive.opens (hs : Exclusive s) (con : H) :
    Exclusive { s with opened := con :: s.opened } where
  disjoint := hs.disjoint
  used_opened := fun other hother =>
    List.mem_cons_of_mem con (hs.used_opened other hother)
  free_opened := fun other hother =>
    List.mem_cons_of_mem con (hs.free_opened other hother)

theorem Exclusive.not_used (hs : Exclusive s) (hnot : con ∉ s.opened) :
    s.used.contains con = false := by
  by_contra hused
  exact hnot (hs.used_opened con (by simpa using hused))

/-- A connection in use is closed. -/
theorem Exclusive.closes (hs : Exclusive s)
    (hused : s.used.contains con = true) :
    Exclusive { s.close con with used := s.used.erase con } where
  disjoint := by
    intro other hother
    exact hs.disjoint other ((OrdMap.contains_erase s.used con other).mp hother).2
  used_opened := by
    intro other hother
    obtain ⟨hne, hold⟩ := (OrdMap.contains_erase s.used con other).mp hother
    simp [Pool.close, hs.used_opened other hold, hne]
  free_opened := by
    intro other hother
    have hne : other ≠ con := by
      rintro rfl
      rw [Pool.close, hs.disjoint other hused] at hother
      cases hother
    simp [Pool.close, hs.free_opened other hother, hne]

variable [LT H] [DecidableLT H]

/-- Try the free connections in their order until one answers. -/
def reuse (ping : H → Bool) (s : Pool H) : Option H × Pool H :=
  match _hfree : s.free.entries with
  | [] => (none, s)
  | (con, _) :: _ =>
      let erased := { s with free := s.free.erase con }
      if ping con then
        (some con, { erased with used := s.used.insert con () })
      else reuse ping (erased.close con)
termination_by s.free.size
decreasing_by exact OrdMap.size_erase_lt _hfree

def driver (db : Database) : Str :=
  (db.dbparams.find "type".toList).getD []

/-- The handle for a query, or the exception, and the pool afterwards.  A new
handle whose options or connect fail stays open and is in neither
container. -/
def grabdb (dbi : Dbi H) (db : Database) (s : Pool H) :
    Except Error H × Pool H :=
  if dbi.initialized < -1 then
    (.error (.runtime_error (if dbi.initialized = 0 then
      "no DBI drivers found".toList else "failed to initialize DBI".toList)), s)
  else
    match reuse dbi.ping s with
    | (some con, s) => (.ok con, s)
    | (none, s) =>
        match dbi.new (driver db) with
        | none => (.error (.runtime_error
            (("dbi_conn_new() failed, driver " : Str) ++ driver db)), s)
        | some con =>
            let s := { s with opened := con :: s.opened }
            match setOptions dbi (driver db) con db.dbparams.entries with
            | .error error => (.error error, s)
            | .ok () =>
                if dbi.connect con then
                  (.ok con, { s with used := s.used.insert con () })
                else
                  (.error (DBIError dbi con "dbi_conn_connect failed".toList), s)

/-- Give a handle back: a handle that is not in use is an error. -/
def freedb (db : Database) (con : H) (s : Pool H) :
    Except Error Unit × Pool H :=
  if s.used.contains con then
    let kept := if s.free.size > db.spare then s.close con
      else { s with free := s.free.insert con () }
    (.ok (), { kept with used := s.used.erase con })
  else
    (.error (.logic_error
      "Freeing a db connection that isn't in use".toList), s)

/-- The library gives no handle that is open. -/
def fresh (dbi : Dbi H) (db : Database) (s : Pool H) : Bool :=
  (dbi.new (driver db)).all
    fun con => con ∉ (reuse dbi.ping s).2.opened

/-- One user's call, with the answers of the library. -/
inductive Action (H : Type) where
  | grab (dbi : Dbi H)
  | free (con : H)

/-- Calls of any number of users in any order, from an empty pool on. -/
def machine (H : Type) [DecidableEq H] [LT H] [DecidableLT H]
    (db : Database) : Machine (Pool H) (Action H) where
  init := {}
  step s
    | .grab dbi => if fresh dbi db s then some (grabdb dbi db s).2 else none
    | .free con => some (freedb db con s).2

/-- An open connection of neither container, or of `_free` from which it is
taken, comes into use. -/
theorem Exclusive.uses (hs : Exclusive s) {free : OrdMap H Unit}
    (hfree : ∀ other, free.contains other = true →
      other ≠ con ∧ s.free.contains other = true)
    (hopened : con ∈ s.opened) :
    Exclusive { s with free := free, used := s.used.insert con () } where
  disjoint := by
    intro other hused
    by_contra hcontains
    simp only [Bool.not_eq_false] at hcontains
    obtain ⟨hne, hold⟩ := hfree other hcontains
    simp only [OrdMap.contains_insert] at hused
    rcases hused with heq | hused
    · exact hne heq
    · rw [hs.disjoint other hused] at hold
      cases hold
  used_opened := by
    intro other hused
    simp only [OrdMap.contains_insert] at hused
    rcases hused with rfl | hused
    · exact hopened
    · exact hs.used_opened other hused
  free_opened := fun other hother => hs.free_opened other (hfree other hother).2

theorem reuse_spec (ping : H → Bool) (s : Pool H) (hs : Exclusive s) :
    Exclusive (reuse ping s).2 ∧
      (∀ con, (reuse ping s).1 = some con →
        s.used.contains con = false ∧
          (reuse ping s).2.used.contains con = true) ∧
      ((reuse ping s).1 = none → (reuse ping s).2.used = s.used) := by
  fun_induction reuse ping s with
  | case1 s hfree => exact ⟨hs, nofun, fun _ => rfl⟩
  | case2 s con _ rest hfree erased hping =>
      have hcontains := OrdMap.contains_of_entries hfree
      refine ⟨hs.uses ?_ (hs.free_opened con hcontains), ?_, nofun⟩
      · intro other hother
        exact (OrdMap.contains_erase s.free con other).mp hother
      · intro other hother
        cases hother
        constructor
        · by_contra hused
          simp only [Bool.not_eq_false] at hused
          rw [hs.disjoint con hused] at hcontains
          cases hcontains
        · simp [OrdMap.contains_insert]
  | case3 s con _ rest hfree erased hping ih =>
      exact ih (hs.discards (OrdMap.contains_of_entries hfree))

theorem Exclusive.connects (hs : Exclusive s) (hnot : con ∉ s.opened) :
    Exclusive { s with
      opened := con :: s.opened
      used := s.used.insert con () } := by
  refine (hs.opens con).uses ?_ List.mem_cons_self
  intro other hother
  refine ⟨?_, hother⟩
  rintro rfl
  exact hnot (hs.free_opened other hother)

/-- The library takes all parameters of the database and connects. -/
def Accepts (dbi : Dbi H) (db : Database) (con : H) : Prop :=
  (∀ entry ∈ db.dbparams.entries, entry.1 ≠ "type".toList →
    dbi.setOption con entry.1
      (optionValue (driver db) entry.1 entry.2) = true) ∧
    dbi.connect con = true

omit [DecidableEq H] [LT H] [DecidableLT H] in
theorem setOptions_ok_iff (dbi : Dbi H) (type : Str) (con : H)
    (entries : List (Str × Str)) :
    setOptions dbi type con entries = .ok () ↔
      ∀ entry ∈ entries, entry.1 ≠ "type".toList →
        dbi.setOption con entry.1 (optionValue type entry.1 entry.2) =
          true := by
  induction entries with
  | nil => exact iff_of_true rfl nofun
  | cons entry rest ih =>
      rw [List.forall_mem_cons, setOptions]
      by_cases htype : entry.1 = "type".toList
      · rw [if_pos htype, ih]
        exact ⟨fun hrest => ⟨fun hne => absurd htype hne, hrest⟩, And.right⟩
      · rw [if_neg htype]
        split
        · next hset =>
            rw [ih]
            exact ⟨fun hrest => ⟨fun _ => hset, hrest⟩, And.right⟩
        · next hset =>
            exact iff_of_false nofun fun hall => hset (hall.1 htype)

/-- What a call of `grabdb` does. -/
inductive Grabbed (dbi : Dbi H) (db : Database) (s : Pool H) :
    Except Error H → Pool H → Prop where
  | uninitialized (e : Error) (hinit : dbi.initialized < -1) :
      Grabbed dbi db s (.error e) s
  | reused (con : H) (hreuse : (reuse dbi.ping s).1 = some con) :
      Grabbed dbi db s (.ok con) (reuse dbi.ping s).2
  | unsupported (e : Error) (hinit : ¬ dbi.initialized < -1)
      (hreuse : (reuse dbi.ping s).1 = none)
      (hnew : dbi.new (driver db) = none) :
      Grabbed dbi db s (.error e) (reuse dbi.ping s).2
  | refused (e : Error) (con : H) (hinit : ¬ dbi.initialized < -1)
      (hreuse : (reuse dbi.ping s).1 = none)
      (hnew : dbi.new (driver db) = some con)
      (haccepts : ¬ Accepts dbi db con) :
      Grabbed dbi db s (.error e) { (reuse dbi.ping s).2 with
        opened := con :: (reuse dbi.ping s).2.opened }
  | connected (con : H) (hreuse : (reuse dbi.ping s).1 = none)
      (hnew : dbi.new (driver db) = some con)
      (haccepts : Accepts dbi db con) :
      Grabbed dbi db s (.ok con) { (reuse dbi.ping s).2 with
        opened := con :: (reuse dbi.ping s).2.opened
        used := (reuse dbi.ping s).2.used.insert con () }

theorem grabdb_grabbed (dbi : Dbi H) (db : Database) (s : Pool H) :
    Grabbed dbi db s (grabdb dbi db s).1 (grabdb dbi db s).2 := by
  by_cases hinit : dbi.initialized < -1
  · rw [grabdb, if_pos hinit]
    exact .uninitialized _ hinit
  · rw [grabdb, if_neg hinit]
    rcases hresult : reuse dbi.ping s with ⟨found, after⟩
    have hafter : after = (reuse dbi.ping s).2 := by rw [hresult]
    have hfound : (reuse dbi.ping s).1 = found := by rw [hresult]
    subst hafter
    cases found with
    | some con => exact .reused con hfound
    | none =>
        cases hnew : dbi.new (driver db) with
        | none => exact .unsupported _ hinit hfound hnew
        | some con =>
            have hoptions := setOptions_ok_iff dbi (driver db) con
              db.dbparams.entries
            simp only
            cases hset : setOptions dbi (driver db) con
                db.dbparams.entries with
            | error e =>
                refine .refused e con hinit hfound hnew fun haccepts => ?_
                rw [hoptions.mpr haccepts.1] at hset
                cases hset
            | ok done =>
                simp only
                split
                · next hconnect =>
                    exact .connected con hfound hnew
                      ⟨hoptions.mp hset, hconnect⟩
                · next hconnect =>
                    exact .refused _ con hinit hfound hnew fun haccepts =>
                      hconnect haccepts.2

theorem Grabbed.of_eq {dbi : Dbi H} {db : Database} {answer : Except Error H}
    {after : Pool H} (hgrab : grabdb dbi db s = (answer, after)) :
    Grabbed dbi db s answer after := by
  have hgrabbed := grabdb_grabbed dbi db s
  rwa [hgrab] at hgrabbed

theorem fresh_not_mem {dbi : Dbi H} {db : Database}
    (hfresh : fresh dbi db s = true)
    (hnew : dbi.new (driver db) = some con) :
    con ∉ (reuse dbi.ping s).2.opened := by
  simpa [fresh, hnew] using hfresh

/-- `grabdb` hands out a connection that was not in use, and only a free or a
new one. -/
theorem grabdb_spec (dbi : Dbi H) (db : Database) {s : Pool H}
    (hs : Exclusive s) (hfresh : fresh dbi db s = true) :
    Exclusive (grabdb dbi db s).2 ∧
      ∀ con, (grabdb dbi db s).1 = .ok con →
        s.used.contains con = false ∧
          (grabdb dbi db s).2.used.contains con = true := by
  obtain ⟨hpool, hreused, hsame⟩ := reuse_spec dbi.ping s hs
  rcases hgrab : grabdb dbi db s with ⟨answer, after⟩
  cases Grabbed.of_eq hgrab with
  | uninitialized e hinit => exact ⟨hs, nofun⟩
  | reused con hreuse =>
      refine ⟨hpool, ?_⟩
      rintro _ ⟨⟩
      exact hreused con hreuse
  | unsupported e hinit hreuse hnew => exact ⟨hpool, nofun⟩
  | refused e con hinit hreuse hnew haccepts => exact ⟨hpool.opens con, nofun⟩
  | connected con hreuse hnew haccepts =>
      have hnot := fresh_not_mem hfresh hnew
      refine ⟨hpool.connects hnot, ?_⟩
      rintro _ ⟨⟩
      rw [← hsame hreuse]
      exact ⟨hpool.not_used hnot, by simp [OrdMap.contains_insert]⟩

/-- A connection in use becomes a free one. -/
theorem Exclusive.returns (hs : Exclusive s)
    (hused : s.used.contains con = true) :
    Exclusive { s with
      free := s.free.insert con ()
      used := s.used.erase con } where
  disjoint := by
    intro other hother
    obtain ⟨hne, hold⟩ := (OrdMap.contains_erase s.used con other).mp hother
    by_contra hcontains
    simp only [Bool.not_eq_false, OrdMap.contains_insert] at hcontains
    rcases hcontains with heq | hfree
    · exact hne heq
    · rw [hs.disjoint other hold] at hfree
      cases hfree
  used_opened := by
    intro other hother
    exact hs.used_opened other
      ((OrdMap.contains_erase s.used con other).mp hother).2
  free_opened := by
    intro other hother
    simp only [OrdMap.contains_insert] at hother
    rcases hother with rfl | hfree
    · exact hs.used_opened other hused
    · exact hs.free_opened other hfree

theorem freedb_exclusive (db : Database) (con : H) {s : Pool H}
    (hs : Exclusive s) : Exclusive (freedb db con s).2 := by
  unfold freedb
  split
  · rename_i hused
    split
    · exact hs.closes hused
    · exact hs.returns hused
  · exact hs

theorem step_exclusive {db : Database} {s t : Pool H} {action : Action H}
    (hs : Exclusive s) (hstep : (machine H db).step s action = some t) :
    Exclusive t := by
  cases action with
  | grab dbi =>
      simp only [machine] at hstep
      split at hstep
      · rename_i hfresh
        cases hstep
        exact (grabdb_spec dbi db hs hfresh).1
      · cases hstep
  | free con =>
      cases hstep
      exact freedb_exclusive db con hs

theorem init_exclusive (db : Database) : Exclusive (machine H db).init := by
  constructor <;> simp [machine, OrdMap.contains, OrdMap.find]

theorem reachable_exclusive {db : Database} {s : Pool H}
    (hs : (machine H db).Reachable s) : Exclusive s :=
  hs.invariant (init_exclusive db) step_exclusive

/-- In every reachable state `_used` and `_free` are disjoint and have open
handles only, `grabdb` returns only an open handle that was not in use and is
so afterwards, and `freedb` of a handle not in use throws and changes
nothing. -/
theorem reachable_pool_exclusive {db : Database} {s : Pool H}
    (hs : (machine H db).Reachable s) :
    (∀ con, s.used.contains con = true → s.free.contains con = false) ∧
      (∀ con, s.used.contains con = true ∨ s.free.contains con = true →
        con ∈ s.opened) ∧
      (∀ dbi con, fresh dbi db s = true → (grabdb dbi db s).1 = .ok con →
        s.used.contains con = false ∧
          (grabdb dbi db s).2.used.contains con = true ∧
          con ∈ (grabdb dbi db s).2.opened) ∧
      ∀ con, s.used.contains con = false → freedb db con s =
        (.error (.logic_error
          "Freeing a db connection that isn't in use".toList), s) := by
  have hexclusive := reachable_exclusive hs
  refine ⟨hexclusive.disjoint, ?_, ?_, ?_⟩
  · rintro con (hused | hfree)
    · exact hexclusive.used_opened con hused
    · exact hexclusive.free_opened con hfree
  · intro dbi con hfresh hgrab
    obtain ⟨hafter, hspec⟩ := grabdb_spec dbi db hexclusive hfresh
    obtain ⟨hbefore, hused⟩ := hspec con hgrab
    exact ⟨hbefore, hused, hafter.used_opened con hused⟩
  · intro con hnot
    simp [freedb, hnot]

/-- Looking for a connection to use again leaves no more free ones. -/
theorem reuse_size_le (ping : H → Bool) (s : Pool H) :
    (reuse ping s).2.free.size ≤ s.free.size := by
  fun_induction reuse ping s with
  | case1 s hfree => exact Nat.le_refl _
  | case2 s con _ rest hfree erased hping =>
      exact Nat.le_of_lt (OrdMap.size_erase_lt hfree)
  | case3 s con _ rest hfree erased hping ih =>
      exact Nat.le_trans ih (Nat.le_of_lt (OrdMap.size_erase_lt hfree))

theorem grabdb_size_le (dbi : Dbi H) (db : Database) (s : Pool H) :
    (grabdb dbi db s).2.free.size ≤ s.free.size := by
  have hle := reuse_size_le dbi.ping s
  rcases hgrab : grabdb dbi db s with ⟨answer, after⟩
  cases Grabbed.of_eq hgrab with
  | uninitialized e hinit => exact Nat.le_refl _
  | reused con hreuse => exact hle
  | unsupported e hinit hreuse hnew => exact hle
  | refused e con hinit hreuse hnew haccepts => exact hle
  | connected con hreuse hnew haccepts => exact hle

/-- A connection given back comes to the free ones while they are not more
than the spare ones. -/
theorem freedb_size {db : Database} {con : H} {s : Pool H}
    (hs : Exclusive s) (hused : s.used.contains con = true)
    (hle : s.free.size ≤ db.spare) :
    (freedb db con s).2.free.size = s.free.size + 1 := by
  rw [freedb, if_pos hused]
  simp only [if_neg (Nat.not_lt.mpr hle)]
  exact OrdMap.size_insert (hs.disjoint con hused) ()

/-- No connection is given back while as many are free as may be spare. -/
def ReturnsBelow (db : Database) (s : Pool H) : Action H → Prop
  | .grab _ => True
  | .free con => s.used.contains con = true → s.free.size ≠ db.spare

theorem step_bounded_iff {db : Database} {s t : Pool H} {action : Action H}
    (hs : Exclusive s) (hle : s.free.size ≤ db.spare)
    (hstep : (machine H db).step s action = some t) :
    t.free.size ≤ db.spare ↔ ReturnsBelow db s action := by
  cases action with
  | grab dbi =>
      simp only [machine] at hstep
      split at hstep
      · cases hstep
        have hgrab := grabdb_size_le dbi db s
        exact ⟨fun _ => trivial, fun _ => Nat.le_trans hgrab hle⟩
      · cases hstep
  | free con =>
      cases hstep
      rw [ReturnsBelow]
      cases hused : s.used.contains con with
      | false =>
          simp only [freedb, hused, Bool.false_eq_true, ↓reduceIte,
            false_implies, iff_true]
          exact hle
      | true =>
          rw [freedb_size hs hused hle]
          simp only [forall_const]
          omega

/-- A run keeps at most the spare number of connections free exactly when no
connection is given back while as many are free already. -/
theorem idle_bounded_iff (db : Database) (actions : List (Action H)) :
    (machine H db).Along (fun _ _ t => t.free.size ≤ db.spare) actions
        (machine H db).init ↔
      (machine H db).Along (fun s action _ => ReturnsBelow db s action)
        actions (machine H db).init := by
  have hinit : Exclusive (machine H db).init ∧
      (machine H db).init.free.size ≤ db.spare :=
    ⟨init_exclusive db, Nat.zero_le db.spare⟩
  have hkeep : ∀ {s : Pool H} {action : Action H} {t : Pool H},
      (Exclusive s ∧ s.free.size ≤ db.spare) → ReturnsBelow db s action →
      (machine H db).step s action = some t →
      Exclusive t ∧ t.free.size ≤ db.spare := by
    rintro s action t ⟨hs, hle⟩ hbelow hstep
    exact ⟨step_exclusive hs hstep,
      (step_bounded_iff hs hle hstep).mpr hbelow⟩
  exact Machine.along_iff (fun hs hstep => step_bounded_iff hs.1 hs.2 hstep)
    hkeep actions hinit

namespace PoolWitness

/-- A library that answers every call and gives out one handle. -/
def answering (con : Nat) : Dbi Nat where
  initialized := 1
  ping _ := true
  new _ := some con
  setOption _ _ _ := true
  connect _ := true
  error _ := (0, [])

def localhost : Database where
  name := "db".toList
  dbparams := ⟨[("host".toList, "localhost".toList), ("type".toList, "mysql".toList)]⟩
  spare := 0

/-- One connection is in use and one is free. -/
def oneUsed : Pool Nat where
  used := ⟨[(2, ())]⟩
  free := ⟨[(1, ())]⟩
  opened := [2, 1]

theorem oneUsed_reachable : (machine Nat localhost).Reachable oneUsed :=
  ⟨[.grab (answering 1), .grab (answering 2), .free 1], by decide +kernel⟩

/-- The free connection is the next one to be handed out. -/
theorem oneUsed_exclusive :
    (grabdb (answering 3) localhost oneUsed).1 = .ok 1 ∧
      oneUsed.used.contains 1 = false ∧
      1 ∈ (grabdb (answering 3) localhost oneUsed).2.opened :=
  ⟨by decide +kernel,
    ((reachable_pool_exclusive oneUsed_reachable).2.2.1 (answering 3) 1
      (by decide +kernel) (by decide +kernel)).1,
    ((reachable_pool_exclusive oneUsed_reachable).2.2.1 (answering 3) 1
      (by decide +kernel) (by decide +kernel)).2.2⟩

/-- With no spare connections allowed the first one given back stays. -/
theorem one_idle_with_no_spare :
    localhost.spare = 0 ∧
      (machine Nat localhost).run [.grab (answering 1), .free 1] {} =
        some { free := ⟨[(1, ())]⟩, opened := [1] } :=
  ⟨rfl, by decide +kernel⟩

end PoolWitness

end DatabasePool

end GreylistServer
