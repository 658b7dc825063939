/-
An ordered map with the insertion rule of `std::map`: the entries are kept in
key order and inserting under a key that is already present changes nothing.
-/
import Mathlib

namespace GreylistServer

/-- Entries in key order, at most one for a key when built by `insert`. -/
structure OrdMap (κ ν : Type) where
  entries : List (κ × ν) := []
deriving Repr, DecidableEq

namespace OrdMap

variable {κ ν : Type} [DecidableEq κ]

def find (m : OrdMap κ ν) (key : κ) : Option ν :=
  m.entries.lookup key

def contains (m : OrdMap κ ν) (key : κ) : Bool :=
  (m.find key).isSome

def size (m : OrdMap κ ν) : Nat :=
  m.entries.length

def keys (m : OrdMap κ ν) : List κ :=
  m.entries.map Prod.fst

theorem mem_entries_of_find {m : OrdMap κ ν} {key : κ} {value : ν}
    (hfind : m.find key = some value) : (key, value) ∈ m.entries := by
  obtain ⟨before, after, heq, -⟩ := List.lookup_eq_some_iff.mp hfind
  rw [heq]
  simp

theorem mem_keys (m : OrdMap κ ν) (key : κ) :
    key ∈ m.keys ↔ ∃ value, m.find key = some value := by
  constructor
  · intro hmem
    obtain ⟨entry, hentry, rfl⟩ := List.mem_map.mp hmem
    cases hfind : m.find entry.1 with
    | some value => exact ⟨value, rfl⟩
    | none =>
        have hne := List.lookup_eq_none_iff.mp hfind entry hentry
        exact absurd rfl (bne_iff_ne.mp hne)
  · rintro ⟨value, hfind⟩
    exact List.mem_map.mpr ⟨_, mem_entries_of_find hfind, rfl⟩

/-- Every entry of one map is one of the other. -/
def Sub (m other : OrdMap κ ν) : Prop :=
  ∀ key value, m.find key = some value → other.find key = some value

variable [LT κ] [DecidableLT κ]

/-- Place an entry before the first entry with a greater key. -/
def place (key : κ) (value : ν) : List (κ × ν) → List (κ × ν)
  | [] => [(key, value)]
  | entry :: rest =>
      if key < entry.1 then (key, value) :: entry :: rest
      else entry :: place key value rest

/-- The first insertion under a key wins. -/
def insert (m : OrdMap κ ν) (key : κ) (value : ν) : OrdMap κ ν :=
  if m.contains key then m else ⟨place key value m.entries⟩

/-- Insert all entries of another map, as a range insertion does. -/
def insertAll (m other : OrdMap κ ν) : OrdMap κ ν :=
  other.entries.foldl (fun result entry => result.insert entry.1 entry.2) m

def erase (m : OrdMap κ ν) (key : κ) : OrdMap κ ν :=
  ⟨m.entries.filter (fun entry => entry.1 ≠ key)⟩

theorem lookup_place (entries : List (κ × ν)) (key other : κ) (value : ν)
    (habsent : entries.lookup key = none) :
    (place key value entries).lookup other =
      if other = key then some value else entries.lookup other := by
  induction entries with
  | nil =>
      by_cases heq : other = key
      · simp [place, heq]
      · simp [place, List.lookup, beq_eq_false_iff_ne.mpr heq, heq]
  | cons entry rest ih =>
      obtain ⟨first, stored⟩ := entry
      have hne : key ≠ first := by
        rintro rfl
        simp [List.lookup] at habsent
      have hrest : rest.lookup key = none := by
        simpa [List.lookup, beq_eq_false_iff_ne.mpr hne] using habsent
      by_cases hlt : key < first
      · by_cases heq : other = key
        · simp [place, hlt, heq]
        · simp [place, hlt, List.lookup, beq_eq_false_iff_ne.mpr heq, heq]
      · by_cases hfirst : other = first
        · subst hfirst
          simp [place, hlt, List.lookup, Ne.symm hne]
        · simp [place, hlt, List.lookup, beq_eq_false_iff_ne.mpr hfirst,
            ih hrest]

theorem find_insert (m : OrdMap κ ν) (key other : κ) (value : ν) :
    (m.insert key value).find other =
      if other = key then some ((m.find key).getD value) else m.find other := by
  unfold insert contains
  cases hfind : m.find key with
  | none =>
      simp only [Option.isSome_none, Bool.false_eq_true, ↓reduceIte,
        Option.getD_none]
      exact lookup_place m.entries key other value hfind
  | some stored =>
      simp only [Option.isSome_some, ↓reduceIte, Option.getD_some]
      split
      · next heq => rw [heq, hfind]
      · rfl

/-- Insertion under a new key. -/
theorem find_insert_of_none {m : OrdMap κ ν} {key : κ}
    (hnone : m.find key = none) (value : ν) (other : κ) :
    (m.insert key value).find other =
      if other = key then some value else m.find other := by
  rw [find_insert, hnone, Option.getD_none]

theorem Sub.insert {m other : OrdMap κ ν} (hsub : m.Sub other) {key : κ}
    (hnew : m.find key = none) (hother : other.find key = none) (value : ν) :
    (m.insert key value).Sub (other.insert key value) := by
  intro searched stored hfind
  rw [find_insert_of_none hnew] at hfind
  rw [find_insert_of_none hother]
  by_cases heq : searched = key
  · rw [if_pos heq] at hfind ⊢
    exact hfind
  · rw [if_neg heq] at hfind ⊢
    exact hsub searched stored hfind

theorem mem_keys_insert {m : OrdMap κ ν} {key : κ} (hnew : m.find key = none)
    (value : ν) (other : κ) :
    other ∈ (m.insert key value).keys ↔ other = key ∨ other ∈ m.keys := by
  simp only [mem_keys, find_insert_of_none hnew]
  by_cases heq : other = key
  · simp [heq]
  · simp [heq]

theorem contains_insert (m : OrdMap κ ν) (key other : κ) (value : ν) :
    (m.insert key value).contains other = true ↔
      other = key ∨ m.contains other = true := by
  simp only [contains, find_insert]
  by_cases heq : other = key
  · simp [heq]
  · simp [heq]

omit [DecidableEq κ] in
theorem length_place (key : κ) (value : ν) (entries : List (κ × ν)) :
    (place key value entries).length = entries.length + 1 := by
  induction entries with
  | nil => rfl
  | cons entry rest ih =>
      rw [place]
      split
      · rfl
      · rw [List.length_cons, ih, List.length_cons]

/-- A new key makes the map larger by one. -/
theorem size_insert {m : OrdMap κ ν} {key : κ}
    (hnew : m.contains key = false) (value : ν) :
    (m.insert key value).size = m.size + 1 := by
  rw [insert, hnew]
  exact length_place key value m.entries

theorem find_foldl_insert (entries : List (κ × ν)) (m : OrdMap κ ν)
    (key : κ) :
    (entries.foldl (fun result entry => result.insert entry.1 entry.2)
      m).find key = (m.find key).or (entries.lookup key) := by
  induction entries generalizing m with
  | nil => simp
  | cons entry rest ih =>
      rw [List.foldl_cons, ih, find_insert]
      by_cases heq : key = entry.1
      · subst heq
        cases m.find entry.1 <;> simp [List.lookup]
      · rw [if_neg heq, List.lookup, beq_eq_false_iff_ne.mpr heq]

/-- The entries of the first map win. -/
theorem find_insertAll (m other : OrdMap κ ν) (key : κ) :
    (m.insertAll other).find key = (m.find key).or (other.find key) :=
  find_foldl_insert other.entries m key

omit [LT κ] [DecidableLT κ] in
theorem find_erase (m : OrdMap κ ν) (key other : κ) :
    (m.erase key).find other = if other = key then none else m.find other := by
  obtain ⟨entries⟩ := m
  simp only [erase, find]
  induction entries with
  | nil => simp
  | cons entry rest ih =>
      simp only [List.filter_cons, List.lookup]
      by_cases hentry : entry.1 = key
      · simp only [hentry, ne_eq, not_true_eq_false, decide_false,
          Bool.false_eq_true, if_false, ih]
        by_cases heq : other = key
        · simp [heq]
        · simp [heq, beq_eq_false_iff_ne.mpr heq]
      · simp only [ne_eq, hentry, not_false_eq_true, decide_true, if_true,
          List.lookup, ih]
        by_cases heq : other = entry.1
        · simp [heq, hentry]
        · simp [beq_eq_false_iff_ne.mpr heq]

omit [LT κ] [DecidableLT κ] in
theorem contains_erase (m : OrdMap κ ν) (key other : κ) :
    (m.erase key).contains other = true ↔
      other ≠ key ∧ m.contains other = true := by
  simp only [contains, find_erase]
  by_cases heq : other = key
  · simp [heq]
  · simp [heq]

omit [LT κ] [DecidableLT κ] in
theorem contains_of_entries {m : OrdMap κ ν} {key : κ} {value : ν}
    {rest : List (κ × ν)} (hentries : m.entries = (key, value) :: rest) :
    m.contains key = true := by
  simp [contains, find, hentries]

omit [LT κ] [DecidableLT κ] in
/-- Erasing the first key makes the map smaller. -/
theorem size_erase_lt {m : OrdMap κ ν} {key : κ} {value : ν}
    {rest : List (κ × ν)} (hentries : m.entries = (key, value) :: rest) :
    (m.erase key).size < m.size := by
  have hle := List.length_filter_le (fun entry => entry.1 ≠ key) rest
  simp only [size, erase, hentries, List.filter_cons, List.length_cons]
  simp only [ne_eq, not_true_eq_false, decide_false, Bool.false_eq_true,
    if_false]
  exact Nat.lt_succ_of_le hle

end OrdMap

end GreylistServer
