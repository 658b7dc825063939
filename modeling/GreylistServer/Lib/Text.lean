/-
Byte strings as the daemon handles them.  A string is the list of its
characters, lowercasing touches the ASCII letters only, and numbers are read
from text the way stream extraction reads them: blanks are skipped, one sign is
taken, then the longest run of decimal digits; a text without a number reads as
zero, a number out of range reads as the nearest bound, and blank text leaves
the variable as it was.
-/
import Mathlib

namespace GreylistServer

/-- A string of the program, character by character. -/
abbrev Str := List Char

instance : Coe String Str := ⟨String.toList⟩

instance : LawfulBEq Str := inferInstance

/-- ASCII lowercasing; characters outside `A`..`Z` are left alone. -/
def lowercase (text : Str) : Str :=
  text.map Char.toLower

@[simp] theorem lowercase_lowercase (text : Str) :
    lowercase (lowercase text) = lowercase text := by
  simp [lowercase, Function.comp_def]

theorem lowercase_drop (text : Str) (count : Nat) :
    lowercase (text.drop count) = (lowercase text).drop count := by
  simp [lowercase]

/-- Lowercasing makes no control character, blank or sign. -/
theorem toLower_eq_iff {c d : Char} (hd : d.val < 'A'.val) :
    c.toLower = d ↔ c = d := by
  unfold Char.toLower
  split
  · next hupper =>
      have hne : c ≠ d := by
        rintro rfl
        exact absurd hupper.1 (UInt32.not_le.mpr hd)
      constructor
      · intro heq
        have hval := congrArg (fun e : Char => e.val.toNat) heq
        simp only [UInt32.toNat_add] at hval
        have hlow : 65 ≤ c.val.toNat := hupper.1
        have hhigh : c.val.toNat ≤ 90 := hupper.2
        have hd' : d.val.toNat < 65 := hd
        have hshift : ('a'.val - 'A'.val).toNat = 32 := rfl
        rw [hshift] at hval
        omega
      · intro heq
        exact absurd heq hne
  · exact Iff.rfl

/-- The pieces of a sequence that are ended by a separator; what follows the
last separator is not one of them. -/
def terminated {α : Type} [DecidableEq α] (separator : α) (items : List α) :
    List (List α) :=
  (items.splitOn separator).dropLast

theorem terminated_append_cons {α : Type} [DecidableEq α] {separator : α}
    {piece : List α} (hpiece : separator ∉ piece) (rest : List α) :
    terminated separator (piece ++ separator :: rest) =
      piece :: terminated separator rest := by
  have hne := List.splitOn_ne_nil separator rest
  simp only [terminated]
  rw [List.splitOn_append_cons_self_of_not_mem hpiece,
    List.dropLast_cons_of_ne_nil hne]

theorem terminated_of_not_mem {α : Type} [DecidableEq α] {separator : α}
    {items : List α} (habsent : separator ∉ items) :
    terminated separator items = [] := by
  simp only [terminated]
  rw [List.splitOn_eq_singleton habsent]
  rfl

/-- Position of the first `c` at or after `start`. -/
def findFrom (text : Str) (c : Char) (start : Nat) : Option Nat :=
  ((text.drop start).findIdx? (· == c)).map (· + start)

theorem findFrom_bounds {text : Str} {c : Char} {start pos : Nat}
    (hfind : findFrom text c start = some pos) :
    start ≤ pos ∧ pos < text.length := by
  simp only [findFrom, Option.map_eq_some_iff] at hfind
  obtain ⟨offset, hoffset, rfl⟩ := hfind
  have hlt := (List.findIdx?_eq_some_iff_findIdx_eq.mp hoffset).1
  simp only [List.length_drop] at hlt
  omega

theorem findFrom_append_cons {left : Str} {c : Char} (hleft : c ∉ left)
    (right : Str) : findFrom (left ++ c :: right) c 0 = some left.length := by
  have hnone : left.findIdx? (· == c) = none := by
    rw [List.findIdx?_eq_none_iff]
    intro x hx
    exact beq_eq_false_iff_ne.mpr fun heq => hleft (heq ▸ hx)
  simp [findFrom, List.findIdx?_append, hnone, List.findIdx?_cons]

theorem findFrom_of_not_mem {text : Str} {c : Char} (habsent : c ∉ text) :
    findFrom text c 0 = none := by
  simp only [findFrom, List.drop_zero, Option.map_eq_none_iff,
    List.findIdx?_eq_none_iff]
  intro x hx
  exact beq_eq_false_iff_ne.mpr fun heq => habsent (heq ▸ hx)

/-- The text up to the position holds no `c`. -/
theorem findFrom_split {text : Str} {c : Char} {start pos : Nat}
    (hfind : findFrom text c start = some pos) :
    ∃ piece, text.drop start = piece ++ c :: text.drop (pos + 1) ∧
      c ∉ piece ∧ pos = start + piece.length := by
  simp only [findFrom, Option.map_eq_some_iff] at hfind
  obtain ⟨offset, hoffset, rfl⟩ := hfind
  obtain ⟨hlt, hc, hbefore⟩ := List.findIdx?_eq_some_iff_getElem.mp hoffset
  refine ⟨(text.drop start).take offset, ?_, ?_, ?_⟩
  · have hcons := List.drop_eq_getElem_cons hlt
    have hrest : text.drop (offset + start + 1) =
        (text.drop start).drop (offset + 1) := by
      rw [List.drop_drop, Nat.add_comm offset start, Nat.add_assoc]
    rw [beq_iff_eq.mp hc] at hcons
    rw [hrest, ← hcons, List.take_append_drop]
  · intro hmem
    obtain ⟨i, hi, heq⟩ := List.mem_take_iff_getElem.mp hmem
    have hne := hbefore i (by omega)
    rw [heq, beq_self_eq_true] at hne
    exact hne rfl
  · rw [List.length_take_of_le (Nat.le_of_lt hlt), Nat.add_comm]

theorem length_splitOn {α : Type} [DecidableEq α] (separator : α)
    (items : List α) :
    (items.splitOn separator).length = items.count separator + 1 := by
  induction items with
  | nil => rfl
  | cons item items ih =>
      rw [List.splitOn_cons_eq_if_modifyHead, List.count_cons]
      split
      · rw [List.length_cons, ih]
      · rw [List.length_modifyHead, ih, Nat.add_zero]

/-- `count` characters from position `start` on. -/
def substr (text : Str) (start count : Nat) : Str :=
  (text.drop start).take count

/-- The blanks stream extraction skips. -/
def isSpace (c : Char) : Bool :=
  c = ' ' || (9 ≤ c.toNat && c.toNat ≤ 13)

/-- The number written by the longest leading run of decimal digits. -/
def readDigits (text : Str) : Option Nat :=
  match text.takeWhile Char.isDigit with
  | [] => none
  | digits => some (digits.foldl (fun value d => 10 * value + (d.toNat - 48)) 0)

/-- `stream >> int`, with the value kept inside 32 bits. -/
def extractInt (text : Str) : Int :=
  match text.dropWhile isSpace with
  | '-' :: rest => max (-(2 ^ 31)) (-((readDigits rest).getD 0 : Int))
  | '+' :: rest => min (2 ^ 31 - 1) ((readDigits rest).getD 0 : Int)
  | rest => min (2 ^ 31 - 1) ((readDigits rest).getD 0 : Int)

/-- Text in which stream extraction finds nothing. -/
def isBlank (text : Str) : Bool :=
  text.all isSpace

/-- The number `stream >> unsigned` finds in a text that is not blank: a minus
sign is accepted and negates modulo `2 ^ 32`. -/
def unsignedIn (text : Str) : Nat :=
  match text.dropWhile isSpace with
  | '-' :: rest =>
      let value := (readDigits rest).getD 0
      if value < 2 ^ 32 then (2 ^ 32 - value) % 2 ^ 32 else 2 ^ 32 - 1
  | '+' :: rest => min (2 ^ 32 - 1) ((readDigits rest).getD 0)
  | rest => min (2 ^ 32 - 1) ((readDigits rest).getD 0)

/-- `stream >> unsigned`: at the end of the text the extraction gives up before
it stores anything. -/
def extractUnsigned (text : Str) : Option Nat :=
  if isBlank text then none else some (unsignedIn text)

theorem readDigits_append_stop {stop : Char} (hstop : stop.isDigit = false)
    (text rest : Str) :
    readDigits (text ++ stop :: rest) = readDigits text := by
  have htake : (text ++ stop :: rest).takeWhile Char.isDigit =
      text.takeWhile Char.isDigit := by
    induction text with
    | nil =>
        rw [List.nil_append, List.takeWhile_cons, hstop]
        rfl
    | cons c text ih =>
        rw [List.cons_append, List.takeWhile_cons, List.takeWhile_cons, ih]
  rw [readDigits, htake, readDigits]

/-- A dot ends the number. -/
theorem unsignedIn_append_dot (text rest : Str) :
    unsignedIn (text ++ '.' :: rest) = unsignedIn text := by
  have hstop : ∀ text rest : Str,
      readDigits (text ++ '.' :: rest) = readDigits text :=
    readDigits_append_stop rfl
  unfold unsignedIn
  rw [List.dropWhile_append]
  rcases text.dropWhile isSpace with _ | ⟨c, left⟩
  · have hnone : readDigits ('.' :: rest) = readDigits [] := hstop [] rest
    rw [if_pos List.isEmpty_nil, List.dropWhile_cons_of_neg (by decide)]
    change min (2 ^ 32 - 1) ((readDigits ('.' :: rest)).getD 0) = _
    rw [hnone]
  · rw [if_neg (by simp), List.cons_append]
    split
    · next heq =>
        obtain ⟨rfl, rfl⟩ := List.cons.inj heq
        simp only [hstop]
    · next heq =>
        obtain ⟨rfl, rfl⟩ := List.cons.inj heq
        simp only [hstop]
    · next hminus hplus =>
        rw [← List.cons_append, hstop]
        split
        · next heq => exact absurd (congrArg (· ++ '.' :: rest) heq) (hminus _)
        · next heq => exact absurd (congrArg (· ++ '.' :: rest) heq) (hplus _)
        · rfl

/-- With a dot behind it no text is blank. -/
theorem extractUnsigned_append_dot (text rest : Str) :
    extractUnsigned (text ++ '.' :: rest) = some (unsignedIn text) := by
  have hdot : isBlank (text ++ '.' :: rest) = false := by
    rw [Bool.eq_false_iff, isBlank, ne_eq, List.all_eq_true]
    intro hall
    exact absurd (hall '.' (List.mem_append_right text List.mem_cons_self))
      (by decide)
  rw [extractUnsigned, hdot, if_neg Bool.false_ne_true,
    unsignedIn_append_dot]

/-- The number a text of decimal digits stands for. -/
def numberOf (digits : Str) : Nat :=
  Nat.ofDigits 10 (digits.map fun d => d.toNat - 48).reverse

theorem readDigits_of_digits {digits : Str} (hne : digits ≠ [])
    (hdigits : ∀ d ∈ digits, d.isDigit = true) :
    readDigits digits = some (numberOf digits) := by
  have hvalue : digits.foldl (fun value d => 10 * value + (d.toNat - 48)) 0 =
      numberOf digits := by
    rw [numberOf, Nat.ofDigits_eq_foldr, List.foldr_reverse, List.foldl_map]
    congr 1
    funext value d
    rw [Nat.add_comm, Nat.cast_id]
  rw [readDigits, List.takeWhile_eq_self_iff.mpr hdigits]
  split
  · exact absurd rfl hne
  · rw [hvalue]

theorem not_isSpace_of_isDigit {d : Char} (hd : d.isDigit = true) :
    isSpace d = false := by
  rw [Bool.eq_false_iff]
  intro hspace
  simp only [isSpace, Char.isDigit, Bool.or_eq_true, Bool.and_eq_true,
    decide_eq_true_eq] at hspace hd
  rcases hspace with rfl | hspace
  · exact absurd hd.1 (by decide)
  · have hlow : 48 ≤ d.toNat := hd.1
    omega

theorem isBlank_of_digits {digits : Str} (hne : digits ≠ [])
    (hdigits : ∀ d ∈ digits, d.isDigit = true) : isBlank digits = false := by
  obtain ⟨d, rest, rfl⟩ := List.exists_cons_of_ne_nil hne
  rw [isBlank, List.all_cons,
    not_isSpace_of_isDigit (hdigits d List.mem_cons_self)]
  rfl

theorem unsignedIn_of_digits {digits : Str} (hne : digits ≠ [])
    (hdigits : ∀ d ∈ digits, d.isDigit = true)
    (hrange : numberOf digits < 2 ^ 32) :
    unsignedIn digits = numberOf digits := by
  have hread := readDigits_of_digits hne hdigits
  have hblank : digits.dropWhile isSpace = digits := by
    cases digits with
    | nil => rfl
    | cons d digits =>
        have hd := not_isSpace_of_isDigit (hdigits d List.mem_cons_self)
        exact List.dropWhile_cons_of_neg (by rw [hd]; exact Bool.false_ne_true)
  have hsign : ∀ sign rest, sign.isDigit = false → digits ≠ sign :: rest := by
    rintro sign rest hsign rfl
    rw [hdigits sign List.mem_cons_self] at hsign
    cases hsign
  unfold unsignedIn
  rw [hblank]
  split
  · exact absurd rfl (hsign '-' _ rfl)
  · exact absurd rfl (hsign '+' _ rfl)
  · rw [hread, Option.getD_some]
    omega

/-- Decimal text of a natural number. -/
def decimal (value : Nat) : Str :=
  Nat.toDigits 10 value

/-- Decimal text of a 32-bit word that is printed as an `int`. -/
def decimalInt (word : Nat) : Str :=
  if word < 2 ^ 31 then decimal word else '-' :: decimal (2 ^ 32 - word)

example : extractInt " -12abc".toList = -12 := by decide

example : extractUnsigned "171.54".toList = some 171 := by decide

end GreylistServer
