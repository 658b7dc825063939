/-
The reader of the configuration file.  One loop over the characters cuts
comments off, lowercases what stands before the first `=`, drops the blanks
there and keeps the length of the line by hand.  At the end of the file the
character variable still has its last value, and the loop takes that value for
one more character.
-/
import GreylistServer.Lib.Text

namespace GreylistServer

/-- How one pass of the loop ends. -/
inductive Flow where
  | next
  | leave
  | answer
deriving Repr, DecidableEq

/-- The variables of `getline`. -/
structure Scan where
  bBegin : Bool := true
  bComment : Bool := false
  cnt : Nat := 0
  c : Char := Char.ofNat 0
  str : Str := []
deriving Repr, DecidableEq

/-- The stream: the characters still to be read, and whether a read has met the
end.  Closing the stream does not change the latter. -/
structure ConfigFileReader where
  rest : Str
  eof : Bool := false
deriving Repr, DecidableEq

/-- An `unsigned` returned as `int`. -/
def toInt (cnt : Nat) : Int :=
  if cnt < 2 ^ 31 then cnt else (cnt : Int) - 2 ^ 32

namespace ConfigFileReader

/-- Erase the blanks at the end, each counted down. -/
def rtrim (line : Str) (cnt : Nat) : Str × Nat :=
  let trimmed := line.rdropWhile (· = ' ')
  (trimmed, (cnt + 2 ^ 32 - (line.length - trimmed.length) % 2 ^ 32) % 2 ^ 32)

/-- The body of the loop for the character `c`. -/
def step (s : Scan) (c : Char) : Flow × Scan :=
  if s.bComment then
    if c = '\n' then
      let trimmed := rtrim s.str s.cnt
      let s := { s with c := c, str := trimmed.1, cnt := trimmed.2 }
      if s.cnt > 0 then (.answer, s) else (.next, { s with bComment := false })
    else (.next, { s with c := c })
  else
    let small := if s.bBegin && c ≠ '=' then c.toLower else c
    let after := { s with bBegin := s.bBegin && c ≠ '=', c := small }
    if s.bBegin && small = ' ' then (.next, after)
    else if small = '#' then (.next, { after with bComment := true })
    else if small = '\n' then
      if s.cnt > 0 then (.leave, after) else (.next, after)
    else
      (.next, { after with
        str := s.str ++ [small]
        cnt := (s.cnt + 1) % 2 ^ 32 })

/-- The loop, and whether `getline` returned from inside it.  A read at the end
of the file leaves the variable as it is, and the body runs all the same. -/
def loop : Scan → Str → Bool × Scan × ConfigFileReader
  | s, [] => (decide ((step s s.c).1 = .answer), (step s s.c).2, ⟨[], true⟩)
  | s, c :: rest =>
      match step s c with
      | (.next, s) => loop s rest
      | (.leave, s) => (false, s, ⟨rest, false⟩)
      | (.answer, s) => (true, s, ⟨rest, false⟩)

/-- What `getline` does after the loop. -/
def finishLine : Bool × Scan × ConfigFileReader → Int × Str × ConfigFileReader
  | (true, s, after) => (toInt s.cnt, s.str, after)
  | (false, s, after) =>
      let trimmed := rtrim s.str s.cnt
      if after.eof && trimmed.2 > 0 then (toInt trimmed.2, trimmed.1, after)
      else if after.eof then (-1, trimmed.1, after)
      else (toInt trimmed.2, trimmed.1, after)

/-- The returned number and the line; at the end of the file the string is left
alone. -/
def getline (reader : ConfigFileReader) (str : Str) :
    Int × Str × ConfigFileReader :=
  if reader.eof then (-1, str, reader)
  else finishLine (loop {} reader.rest)

/-- What is left to read, the end itself counted. -/
def left (reader : ConfigFileReader) : Nat :=
  if reader.eof then 0 else reader.rest.length + 1

theorem loop_left (s : Scan) (text : Str) :
    (loop s text).2.2.left ≤ text.length := by
  induction text generalizing s with
  | nil => exact Nat.le_refl 0
  | cons c rest ih =>
      rw [loop]
      split
      · exact Nat.le_succ_of_le (ih _)
      · exact Nat.le_refl _
      · exact Nat.le_refl _

theorem finishLine_reader (read : Bool × Scan × ConfigFileReader) :
    (finishLine read).2.2 = read.2.2 := by
  obtain ⟨returned, s, after⟩ := read
  cases returned with
  | true => rfl
  | false =>
      simp only [finishLine]
      split
      · rfl
      · split <;> rfl

theorem getline_left {reader : ConfigFileReader} {str : Str}
    (hread : (reader.getline str).1 ≠ -1) :
    (reader.getline str).2.2.left < reader.left := by
  unfold getline at hread ⊢
  split at hread
  · exact absurd rfl hread
  · next heof =>
      rw [if_neg heof, finishLine_reader, left, left, if_neg heof]
      exact Nat.lt_succ_of_le (loop_left {} reader.rest)

/-- Call `getline` until it returns `-1`. -/
def lines (reader : ConfigFileReader) (str : Str) : List (Int × Str) :=
  if _hread : (reader.getline str).1 = -1 then []
  else
    ((reader.getline str).1, (reader.getline str).2.1) ::
      lines (reader.getline str).2.2 (reader.getline str).2.1
termination_by reader.left
decreasing_by exact getline_left _hread

end ConfigFileReader

/-- The reference: cut at the first `#`, lowercase what stands before the first
`=` and remove the blanks there, strip the blanks at the end. -/
def cleaned (line : Str) : Str :=
  let cut := line.takeWhile (· ≠ '#')
  let name := cut.takeWhile (· ≠ '=')
  let value := cut.dropWhile (· ≠ '=')
  (lowercase (name.filter (· ≠ ' ')) ++ value).rdropWhile (· = ' ')

/-- The physical lines that are not dropped. -/
def reference (content : Str) : List Str :=
  ((content.splitOn '\n').map cleaned).filter (· ≠ [])

end GreylistServer
