/-
Processes that hold resources.  What the processes of a list hold is compared
up to order with a register of what is lent out, kept in a map by its keys.
-/
import GreylistServer.Lib.OrdMap

namespace GreylistServer

section Holders

variable {β γ : Type}

/-- Moving one process changes what all of them hold by what it gave up and
what it took. -/
theorem filterMap_set_perm (held : β → Option γ) {processes : List β}
    {i : Nat} {before : β} (after : β) (hget : processes[i]? = some before) :
    ((held before).toList ++ (processes.set i after).filterMap held).Perm
      ((held after).toList ++ processes.filterMap held) := by
  induction processes generalizing i with
  | nil => simp at hget
  | cons process rest ih =>
      have hcons : ∀ (first : β) (others : List β),
          (first :: others).filterMap held =
            (held first).toList ++ others.filterMap held := by
        intro first others
        cases hfirst : held first <;> simp [hfirst]
      cases i with
      | zero =>
          simp only [List.getElem?_cons_zero, Option.some.injEq] at hget
          subst hget
          rw [List.set_cons_zero, hcons, hcons, ← List.append_assoc,
            ← List.append_assoc]
          exact List.perm_append_comm.append_right _
      | succ i =>
          simp only [List.getElem?_cons_succ] at hget
          have hrest := (ih hget).append_left (held process).toList
          rw [List.set_cons_succ, hcons, hcons]
          calc (held before).toList ++
                ((held process).toList ++ (rest.set i after).filterMap held)
              _ = ((held before).toList ++ (held process).toList) ++
                  (rest.set i after).filterMap held := by
                rw [List.append_assoc]
              _ |>.Perm (((held process).toList ++ (held before).toList) ++
                  (rest.set i after).filterMap held) :=
                List.perm_append_comm.append_right _
              _ |>.Perm ((held process).toList ++
                  ((held after).toList ++ rest.filterMap held)) := by
                rw [List.append_assoc]
                exact hrest
              _ |>.Perm (((held after).toList ++ (held process).toList) ++
                  rest.filterMap held) := by
                rw [← List.append_assoc]
                exact List.perm_append_comm.append_right _
              _ = (held after).toList ++
                  ((held process).toList ++ rest.filterMap held) := by
                rw [List.append_assoc]

/-- Where all that is held is different, what is held has one holder. -/
theorem eq_of_nodup_filterMap {held : β → Option γ} {processes : List β}
    (hnodup : (processes.filterMap held).Nodup) {i j : Nat} {first second : β}
    {resource : γ} (hfirst : processes[i]? = some first)
    (hsecond : processes[j]? = some second)
    (hheld : held first = some resource)
    (hother : held second = some resource) : i = j := by
  have hpairs := List.pairwise_iff_getElem.mp
    (List.pairwise_filterMap.mp hnodup)
  obtain ⟨hi, hgeti⟩ := List.getElem?_eq_some_iff.mp hfirst
  obtain ⟨hj, hgetj⟩ := List.getElem?_eq_some_iff.mp hsecond
  rcases Nat.lt_trichotomy i j with hlt | heq | hlt
  · refine absurd rfl (hpairs i j hi hj hlt resource ?_ resource ?_)
    · rw [hgeti, hheld]
    · rw [hgetj, hother]
  · exact heq
  · refine absurd rfl (hpairs j i hj hi hlt resource ?_ resource ?_)
    · rw [hgetj, hother]
    · rw [hgeti, hheld]

end Holders

namespace OrdMap

variable {κ ν : Type}

theorem size_eq_length_keys (m : OrdMap κ ν) : m.size = m.keys.length :=
  (List.length_map _).symm

theorem contains_eq_true_iff [DecidableEq κ] (m : OrdMap κ ν) (key : κ) :
    m.contains key = true ↔ key ∈ m.keys := by
  rw [mem_keys, contains, Option.isSome_iff_exists]

section Insert

variable [LT κ] [DecidableLT κ]

theorem place_perm (key : κ) (value : ν) (entries : List (κ × ν)) :
    (place key value entries).Perm ((key, value) :: entries) := by
  induction entries with
  | nil => exact .refl _
  | cons entry rest ih =>
      rw [place]
      split
      · exact .refl _
      · exact (ih.cons entry).trans (.swap _ _ _)

/-- A new key joins the keys. -/
theorem keys_insert_perm [DecidableEq κ] {m : OrdMap κ ν} {key : κ}
    (hnew : m.contains key = false) (value : ν) :
    (m.insert key value).keys.Perm (key :: m.keys) := by
  rw [insert, hnew]
  exact (place_perm key value m.entries).map Prod.fst

end Insert

theorem keys_erase [DecidableEq κ] (m : OrdMap κ ν) (key : κ) :
    (m.erase key).keys = m.keys.filter (fun other => other ≠ key) := by
  rw [keys, keys, erase, List.filter_map]
  rfl

/-- A key leaves keys that have it once. -/
theorem keys_erase_perm [DecidableEq κ] {m : OrdMap κ ν} {key : κ}
    (hnodup : m.keys.Nodup) (hcontains : m.contains key = true) :
    (key :: (m.erase key).keys).Perm m.keys := by
  rw [keys_erase]
  have herase := hnodup.erase_eq_filter key
  have hfilter : m.keys.filter (fun other => other ≠ key) =
      m.keys.erase key := by
    rw [herase]
    apply List.filter_congr
    intro other _
    rw [Bool.eq_iff_iff]
    simp
  rw [hfilter]
  exact (List.perm_cons_erase ((contains_eq_true_iff m key).mp hcontains)).symm

end OrdMap

end GreylistServer
