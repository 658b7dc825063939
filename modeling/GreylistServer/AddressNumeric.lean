/-
The numeric components of an address.  Every component is cut off too far
behind, but its number ends at the next dot all the same, so the numbers are
those of the pieces between the dots.  Where nothing but blanks is left to the
stream, in the first and in the last piece, the number is never set.  They are
stored before their number is checked: a call after a failed one finds them and
does not fail again.
-/
import GreylistServer.Triplet

namespace GreylistServer

namespace IPAddress

/-- The number of a piece that is blank and the first or the last one is never
set. -/
def Unset (str : Str) (idx : Nat) : Prop :=
  ∃ piece, (str.splitOn '.')[idx]? = some piece ∧ isBlank piece = true ∧
    (idx = 0 ∨ idx = str.count '.')

/-- The text handed to the stream is the component, and behind the first one
also what follows it. -/
theorem extractUnsigned_substr {str piece : Str} {start : Nat}
    (hpiece : str.drop start =
      piece ++ '.' :: str.drop (start + piece.length + 1)) :
    extractUnsigned (substr str start (start + piece.length)) =
      if isBlank piece = true ∧ start = 0 then none
      else some (unsignedIn piece) := by
  have htake : substr str start (start + piece.length) =
      piece ++ ('.' :: str.drop (start + piece.length + 1)).take start := by
    rw [substr, hpiece, Nat.add_comm, List.take_length_add_append]
  rw [htake]
  cases start with
  | zero =>
      rw [List.take_zero, List.append_nil, extractUnsigned]
      simp only [and_true]
  | succ start =>
      rw [List.take_succ_cons, extractUnsigned_append_dot,
        if_neg fun hzero => Nat.succ_ne_zero start hzero.2]

theorem length_scanNumeric (str : Str) (start : Nat) :
    (scanNumeric str start).length =
      ((str.drop start).splitOn '.').length := by
  fun_induction scanNumeric str start with
  | case1 start hnone =>
      have hother : ∀ c ∈ str.drop start, ¬ c = '.' := by
        simpa [findFrom] using hnone
      have habsent : '.' ∉ str.drop start := fun hmem => hother '.' hmem rfl
      rw [List.splitOn_eq_singleton habsent]
      rfl
  | case2 start dotpos hdot ih =>
      obtain ⟨piece, hpiece, habsent, rfl⟩ := findFrom_split hdot
      rw [List.length_cons, ih]
      conv_rhs => rw [hpiece]
      rw [List.splitOn_append_cons_self_of_not_mem habsent, List.length_cons]

theorem scanNumeric_getElem? (str : Str) (start idx : Nat) {piece : Str}
    (hpiece : ((str.drop start).splitOn '.')[idx]? = some piece) :
    (scanNumeric str start)[idx]? =
      some (if isBlank piece = true ∧
          (start + idx = 0 ∨ idx = (str.drop start).count '.') then none
        else some (unsignedIn piece)) := by
  fun_induction scanNumeric str start generalizing idx with
  | case1 start hnone =>
      have hother : ∀ c ∈ str.drop start, ¬ c = '.' := by
        simpa [findFrom] using hnone
      have habsent : '.' ∉ str.drop start := fun hmem => hother '.' hmem rfl
      rw [List.splitOn_eq_singleton habsent] at hpiece
      obtain ⟨hidx, rfl⟩ : idx = 0 ∧ str.drop start = piece := by
        cases idx with
        | zero => exact ⟨rfl, Option.some.inj hpiece⟩
        | succ idx => cases hpiece
      subst hidx
      simp only [List.getElem?_cons_zero, extractUnsigned,
        List.count_eq_zero.mpr habsent, or_true, and_true]
  | case2 start dotpos hdot ih =>
      obtain ⟨first, hfirst, habsent, rfl⟩ := findFrom_split hdot
      have hcount : (str.drop start).count '.' =
          (str.drop (start + first.length + 1)).count '.' + 1 := by
        rw [hfirst, List.count_append, List.count_eq_zero.mpr habsent,
          List.count_cons_self, Nat.zero_add]
      have hsplit : (str.drop start).splitOn '.' =
          first :: (str.drop (start + first.length + 1)).splitOn '.' := by
        rw [hfirst, List.splitOn_append_cons_self_of_not_mem habsent]
      rw [hsplit] at hpiece
      rw [hcount]
      cases idx with
      | zero =>
          obtain rfl : first = piece := Option.some.inj hpiece
          rw [List.getElem?_cons_zero, extractUnsigned_substr hfirst]
          simp
      | succ idx =>
          rw [List.getElem?_cons_succ] at hpiece ⊢
          rw [ih idx hpiece]
          have hiff : (start + first.length + 1 + idx = 0 ∨
                idx = (str.drop (start + first.length + 1)).count '.') ↔
              (start + (idx + 1) = 0 ∨
                idx + 1 =
                  (str.drop (start + first.length + 1)).count '.' + 1) := by
            omega
          simp only [hiff]

theorem length_components (str : Str) :
    (components str).length = str.count '.' + 1 := by
  rw [components, length_scanNumeric, List.drop_zero, length_splitOn]

/-- A component is the number of its piece, or unset. -/
theorem components_getElem? {str piece : Str} {idx : Nat}
    (hpiece : (str.splitOn '.')[idx]? = some piece) :
    (¬ Unset str idx ∧
        (components str)[idx]? = some (some (unsignedIn piece))) ∨
      Unset str idx ∧ (components str)[idx]? = some none := by
  have hdrop : ((str.drop 0).splitOn '.')[idx]? = some piece := by
    rw [List.drop_zero]
    exact hpiece
  have hget := scanNumeric_getElem? str 0 idx hdrop
  rw [Nat.zero_add, List.drop_zero] at hget
  by_cases hblank : isBlank piece = true ∧
      (idx = 0 ∨ idx = str.count '.')
  · rw [if_pos hblank] at hget
    exact Or.inr ⟨⟨piece, hpiece, hblank⟩, hget⟩
  · rw [if_neg hblank] at hget
    refine Or.inl ⟨?_, hget⟩
    rintro ⟨other, hother, hunset⟩
    obtain rfl := Option.some.inj (hpiece.symm.trans hother)
    exact hblank hunset

/-- Every number of an address is set exactly when neither its first nor its
last piece is blank. -/
theorem none_mem_components_iff (str : Str) :
    none ∈ components str ↔ ∃ idx, Unset str idx := by
  constructor
  · intro hmem
    obtain ⟨idx, hidx, hnone⟩ := List.mem_iff_getElem.mp hmem
    have hlt : idx < (str.splitOn '.').length := by
      rw [length_splitOn, ← length_components]
      exact hidx
    rcases components_getElem? (List.getElem?_eq_getElem hlt) with
      ⟨-, hset⟩ | ⟨hunset, -⟩
    · rw [List.getElem?_eq_getElem hidx, hnone] at hset
      cases hset
    · exact ⟨idx, hunset⟩
  · rintro ⟨idx, piece, hpiece, hblank⟩
    rcases components_getElem? hpiece with ⟨hset, -⟩ | ⟨-, hnone⟩
    · exact absurd ⟨piece, hpiece, hblank⟩ hset
    · exact List.mem_of_getElem? hnone

theorem components_length_iff (str : Str) :
    (components str).length = default_length ↔ str.count '.' = 3 := by
  rw [length_components, default_length]
  omega

theorem components_ne_nil (str : Str) : components str ≠ [] := by
  intro hnil
  have hlength := length_components str
  rw [hnil] at hlength
  cases hlength

/-- The first call on an address with another number of dots. -/
theorem getNumericIdx_of_count {ip : IPAddress} (hempty : ip.numeric = [])
    (hcount : ip.str.count '.' ≠ 3) (idx : Nat) :
    (ip.getNumericIdx idx).1 = .error (.runtime_error
        (("Length of parsed IP address: " : Str) ++ ip.str)) ∧
      (ip.getNumericIdx idx).2.numeric = components ip.str := by
  have hlength : (components ip.str).length ≠ default_length :=
    mt (components_length_iff ip.str).mp hcount
  rw [getNumericIdx, if_pos hempty]
  simp only [ne_eq, hlength, not_false_eq_true, if_true, and_self]

/-- What a call reads from an address with three dots, whatever was called
before. -/
theorem getNumericIdx_of_pieces (ip : IPAddress)
    (hcount : ip.str.count '.' = 3) {idx : Nat} (hidx : idx < default_length) :
    ∃ piece, (ip.str.splitOn '.')[idx]? = some piece ∧
      ((¬ Unset ip.str idx ∧
          (ip.getNumericIdx idx).1 = .ok (unsignedIn piece)) ∨
        Unset ip.str idx ∧
          (ip.getNumericIdx idx).1 = .error .undefined) := by
  have hfour := (components_length_iff ip.str).mpr hcount
  have hlt : idx < (ip.str.splitOn '.').length := by
    rw [length_splitOn, hcount]
    exact hidx
  have hpiece := List.getElem?_eq_getElem hlt
  refine ⟨_, hpiece, ?_⟩
  rw [getNumericIdx_fst ip hfour]
  rcases components_getElem? hpiece with ⟨hset, hget⟩ | ⟨hunset, hget⟩
  · rw [hget]
    exact Or.inl ⟨hset, rfl⟩
  · rw [hget]
    exact Or.inr ⟨hunset, rfl⟩

/-- On an address of four decimal numbers separated by dots the first call
returns the number it is asked for; on an address with another number of dots
it throws. -/
theorem getNumericIdx_components (n cn : Str) :
    (∀ parts : List Str, parts.length = default_length →
      (∀ part ∈ parts, part ≠ [] ∧ (∀ d ∈ part, d.isDigit = true) ∧
        numberOf part < 2 ^ 32) →
      ∀ (idx : Nat) (hidx : idx < parts.length),
        ((new (("." : Str).intercalate parts) n cn).getNumericIdx idx).1 =
          .ok (numberOf (parts.get ⟨idx, hidx⟩))) ∧
    ∀ (str : Str) (idx : Nat), str.count '.' ≠ 3 →
      ((new str n cn).getNumericIdx idx).1 = .error (.runtime_error
        (("Length of parsed IP address: " : Str) ++ str)) := by
  constructor
  · intro parts hfour hparts idx hidx
    have hplain : ∀ part ∈ parts, '.' ∉ part := by
      intro part hpart hdot
      exact absurd ((hparts part hpart).2.1 '.' hdot) (by decide)
    have hne : parts ≠ [] := by
      rintro rfl
      cases hfour
    have hsplit : (("." : Str).intercalate parts).splitOn '.' = parts :=
      List.splitOn_intercalate '.' hplain hne
    have hcount : (("." : Str).intercalate parts).count '.' = 3 := by
      have hlength := length_splitOn '.' (("." : Str).intercalate parts)
      rw [hsplit, hfour, default_length] at hlength
      omega
    obtain ⟨piece, hpiece, hvalue⟩ := getNumericIdx_of_pieces
      (new (("." : Str).intercalate parts) n cn) hcount (hfour ▸ hidx)
    change ((("." : Str).intercalate parts).splitOn '.')[idx]? = _ at hpiece
    rw [hsplit, List.getElem?_eq_getElem hidx] at hpiece
    obtain ⟨hnonempty, hdigits, hrange⟩ :=
      hparts (parts.get ⟨idx, hidx⟩) (List.get_mem parts _)
    rcases hvalue with ⟨-, hvalue⟩ | ⟨⟨other, hother, hblank, -⟩, -⟩
    · rw [hvalue, ← Option.some.inj hpiece]
      exact congrArg Except.ok
        (unsignedIn_of_digits hnonempty hdigits hrange)
    · change ((("." : Str).intercalate parts).splitOn '.')[idx]? = _ at hother
      rw [hsplit, List.getElem?_eq_getElem hidx] at hother
      rw [← Option.some.inj hother] at hblank
      cases hblank.symm.trans (isBlank_of_digits hnonempty hdigits)
  · intro str idx hcount
    exact (getNumericIdx_of_count rfl hcount idx).1

/-- The object after some calls, exceptions caught in between. -/
def afterCalls (ip : IPAddress) (calls : List Nat) : IPAddress :=
  calls.foldl (fun ip idx => (ip.getNumericIdx idx).2) ip

theorem afterCalls_str (ip : IPAddress) (calls : List Nat) :
    (ip.afterCalls calls).str = ip.str := by
  induction calls generalizing ip with
  | nil => rfl
  | cons idx rest ih =>
      rw [afterCalls, List.foldl_cons, ← afterCalls, ih, getNumericIdx_str]

/-- What a sequence of calls should do: no call reads past the end of the
components or one that was never set, all of them throw or all return their
component, and a call that throws leaves the object as it was. -/
structure NumericSound (ip : IPAddress) (calls : List Nat) : Prop where
  inBounds : ∀ before idx, before ++ [idx] <+: calls →
    ((ip.afterCalls before).getNumericIdx idx).1 ≠ .error .undefined
  agree : (ip.str.count '.' ≠ 3 ∧ ∀ before idx, before ++ [idx] <+: calls →
      ∃ what, ((ip.afterCalls before).getNumericIdx idx).1 =
        .error (.runtime_error what)) ∨
    ∀ before idx, before ++ [idx] <+: calls →
      ∃ piece, (ip.str.splitOn '.')[idx]? = some piece ∧
        ((ip.afterCalls before).getNumericIdx idx).1 =
          .ok (unsignedIn piece)
  unchanged : ∀ before idx, before ++ [idx] <+: calls →
    (∃ e, ((ip.afterCalls before).getNumericIdx idx).1 = .error e) →
    ((ip.afterCalls before).getNumericIdx idx).2 = ip.afterCalls before

/-- A call that finds its number set returns it, and no other call returns. -/
theorem getNumericIdx_afterCalls {c : Str} (n cn : Str)
    (hcount : c.count '.' = 3) (before : List Nat) {idx : Nat}
    (hidx : idx < default_length) :
    ∃ piece, (c.splitOn '.')[idx]? = some piece ∧
      ((¬ Unset c idx ∧
          (((new c n cn).afterCalls before).getNumericIdx idx).1 =
            .ok (unsignedIn piece)) ∨
        Unset c idx ∧
          (((new c n cn).afterCalls before).getNumericIdx idx).1 =
            .error .undefined) := by
  have hstr := afterCalls_str (new c n cn) before
  have hpieces := getNumericIdx_of_pieces
    ((new c n cn).afterCalls before) (hstr.symm ▸ hcount) hidx
  rwa [hstr] at hpieces

/-- An address with another number of dots keeps what its first call has
stored. -/
theorem NumericSound.three_dots {c n cn : Str} {first : Nat} {rest : List Nat}
    (hsound : NumericSound (new c n cn) (first :: rest)) :
    c.count '.' = 3 := by
  by_contra hcount
  obtain ⟨hthrown, hstored⟩ := getNumericIdx_of_count
    (show (new c n cn).numeric = [] from rfl) hcount first
  have hsame := hsound.unchanged [] first (List.prefix_append [first] rest)
    ⟨_, hthrown⟩
  have hnumeric : components c = [] :=
    hstored.symm.trans (congrArg IPAddress.numeric hsame)
  exact components_ne_nil c hnumeric

/-- No call of a sound sequence asks for a number that is unset. -/
theorem NumericSound.not_unset {c n cn : Str} {calls : List Nat}
    (hsound : NumericSound (new c n cn) calls) (hcount : c.count '.' = 3)
    {idx : Nat} (hmem : idx ∈ calls) (hidx : idx < default_length) :
    ¬ Unset c idx := by
  intro hunset
  obtain ⟨before, after, rfl⟩ := List.append_of_mem hmem
  have hstart : before ++ [idx] <+: before ++ idx :: after :=
    ⟨after, by rw [List.append_assoc, List.singleton_append]⟩
  obtain ⟨piece, -, ⟨hset, -⟩ | ⟨-, hundefined⟩⟩ :=
    getNumericIdx_afterCalls n cn hcount before hidx
  · exact hset hunset
  · exact hsound.inBounds before idx hstart hundefined

theorem numericSound_nil (ip : IPAddress) : NumericSound ip [] := by
  have hnone : ∀ (before : List Nat) (idx : Nat),
      ¬ before ++ [idx] <+: [] := by
    intro before idx hstart
    simpa using List.prefix_nil.mp hstart
  exact ⟨fun before idx hstart => absurd hstart (hnone before idx),
    Or.inr fun before idx hstart => absurd hstart (hnone before idx),
    fun before idx hstart => absurd hstart (hnone before idx)⟩

/-- Calls that all return their numbers. -/
theorem numericSound_of_returns {ip : IPAddress} {calls : List Nat}
    (hreturns : ∀ before idx, before ++ [idx] <+: calls →
      ∃ piece, (ip.str.splitOn '.')[idx]? = some piece ∧
        ((ip.afterCalls before).getNumericIdx idx).1 =
          .ok (unsignedIn piece)) : NumericSound ip calls := by
  refine ⟨?_, Or.inr hreturns, ?_⟩
  · intro before idx hstart
    obtain ⟨piece, -, hvalue⟩ := hreturns before idx hstart
    rw [hvalue]
    nofun
  · rintro before idx hstart ⟨e, hthrown⟩
    obtain ⟨piece, -, hvalue⟩ := hreturns before idx hstart
    rw [hvalue] at hthrown
    cases hthrown

/-- A sequence of calls does so exactly when no call is made, or the address
has three dots and no number that is asked for is unset. -/
theorem numericSound_iff (c n cn : Str) {calls : List Nat}
    (hcalls : ∀ idx ∈ calls, idx < default_length) :
    NumericSound (new c n cn) calls ↔
      calls = [] ∨ c.count '.' = 3 ∧ ∀ idx ∈ calls, ¬ Unset c idx := by
  constructor
  · intro hsound
    cases calls with
    | nil => exact Or.inl rfl
    | cons first rest =>
        have hcount := hsound.three_dots
        exact Or.inr ⟨hcount, fun idx hmem =>
          hsound.not_unset hcount hmem (hcalls idx hmem)⟩
  · rintro (rfl | ⟨hcount, hset⟩)
    · exact numericSound_nil _
    · apply numericSound_of_returns
      intro before idx hstart
      have hmem : idx ∈ calls := hstart.subset (by simp)
      obtain ⟨piece, hpiece, ⟨-, hvalue⟩ | ⟨hunset, -⟩⟩ :=
        getNumericIdx_afterCalls n cn hcount before (hcalls idx hmem)
      · exact ⟨piece, hpiece, hvalue⟩
      · exact absurd hunset (hset idx hmem)

namespace NumericWitness

/-- The numbers may have leading zeros. -/
theorem padded_component :
    ((new "010.2.003.4".toList [] []).getNumericIdx 2).1 =
      .ok (numberOf "003".toList) :=
  (getNumericIdx_components [] []).1
    ["010".toList, "2".toList, "003".toList, "4".toList] rfl
    (by simp [numberOf, Nat.ofDigits_cons]) 2 (by decide)

/-- After a failed call on an address of two components the next one reads a
component, or past the end. -/
theorem second_call_reads_past_end :
    ¬ NumericSound (new "10.1".toList [] []) [0, 1, 3] ∧
      ((new "10.1".toList [] []).getNumericIdx 0).1 =
        .error (.runtime_error
          "Length of parsed IP address: 10.1".toList) ∧
      (((new "10.1".toList [] []).afterCalls [0]).getNumericIdx 1).1 =
        .ok 1 ∧
      (((new "10.1".toList [] []).afterCalls [0, 1]).getNumericIdx 3).1 =
        .error .undefined := by
  have hpast : (((new "10.1".toList [] []).afterCalls [0, 1]).getNumericIdx
      3).1 = .error .undefined := by
    decide +kernel
  refine ⟨?_, by decide +kernel, by decide +kernel, hpast⟩
  intro hsound
  exact hsound.inBounds [0, 1] 3 List.prefix_rfl hpast

theorem four_components_sound :
    NumericSound (new "10.0.0.1".toList [] []) [3, 0, 3] := by
  have hset : ∀ idx ∈ [3, 0, 3], ¬ Unset "10.0.0.1".toList idx := by
    rintro idx - hunset
    exact absurd ((none_mem_components_iff _).mpr ⟨idx, hunset⟩)
      (by decide +kernel)
  exact (numericSound_iff "10.0.0.1".toList [] []
    (show ∀ idx ∈ [3, 0, 3], idx < default_length by decide)).mpr
    (Or.inr ⟨by decide, hset⟩)

end NumericWitness

end IPAddress

end GreylistServer
