/-
The parser of `name=value` lines, shared by the policy protocol and the
configuration.  It reads lines until its reader reports the end of a block,
hands every known token to its writer, fills in defaults and complains about
required tokens that are still missing, unless the reader is at the end of its
input.
-/
import GreylistServer.Tokens

namespace GreylistServer

/-- What the parser needs of a reader: a line, or none where the block ends.
Every line it returns makes the remaining input smaller. -/
structure LineReader (ρ : Type) where
  getline : ρ → Except Error (Option Str) × ρ
  isEof : ρ → Bool
  size : ρ → Nat
  shrinks : ∀ reader line after,
    getline reader = (.ok (some line), after) → size after < size reader

/-- What the parser needs of a writer. -/
structure FieldWriter (ω : Type) where
  add : Nat → Str → ω → ω
  addVar : Str → Str → ω → ω

/-- A line split at its first `=`. -/
def splitField (line : Str) : Option (Str × Str) :=
  match findFrom line '=' 0 with
  | none => none
  | some eqpos => some (substr line 0 eqpos, line.drop (eqpos + 1))

namespace Parser

variable {ρ ω : Type} (R : LineReader ρ) (W : FieldWriter ω)
  (tokens : TokenList) (variablemode : Bool)

/-- What one line does to the required tokens and to the writer. -/
def parseLine (line : Str) (required : OrdMap Nat Bool) (writer : ω) :
    OrdMap Nat Bool × ω :=
  match splitField line with
  | none => (required, writer)
  | some (key, val) =>
      match tokens.parse key required with
      | (none, required) =>
          (required, if variablemode then W.addVar key val writer else writer)
      | (some tokenIdx, required) => (required, W.add tokenIdx val writer)

/-- The loop over the lines of a block. -/
def parseLines (required : OrdMap Nat Bool) (reader : ρ) (writer : ω) :
    Except Error (OrdMap Nat Bool) × ρ × ω :=
  match _hline : R.getline reader with
  | (.error e, reader) => (.error e, reader, writer)
  | (.ok none, reader) => (.ok required, reader, writer)
  | (.ok (some line), reader) =>
      let next := parseLine W tokens variablemode line required writer
      parseLines next.1 reader next.2
termination_by R.size reader
decreasing_by exact R.shrinks _ _ _ _hline

/-- The loop over the tokens still required: it stops at the first one without
a default. -/
def fillDefaults : List (Nat × Bool) → ω → List (Nat × Bool) × ω
  | [], writer => ([], writer)
  | entry :: rest, writer =>
      let val := tokens.getDefault entry.1
      if val = [] then (entry :: rest, writer)
      else fillDefaults rest (W.add entry.1 val writer)

/-- The message about missing tokens; an index without a name makes it fail. -/
def missing : List (Nat × Bool) → Except Error Str
  | [] => .ok []
  | entry :: rest =>
      match tokens.getToken entry.1 with
      | .error e => .error e
      | .ok token =>
          match missing rest with
          | .error e => .error e
          | .ok text => .ok ((" " : Str) ++ token ++ text)

/-- What happens after the last line of the block. -/
def finish (required : List (Nat × Bool)) (reader : ρ) (writer : ω) :
    Except Error Unit × ρ × ω :=
  if required = [] then (.ok (), reader, writer)
  else
    let filled :=
      if tokens.haveDefaults then fillDefaults W tokens required writer
      else (required, writer)
    if filled.1 = [] then (.ok (), reader, filled.2)
    else if R.isEof reader then (.ok (), reader, filled.2)
    else
      match missing tokens filled.1 with
      | .error e => (.error e, reader, filled.2)
      | .ok text =>
          (.error (.runtime_error (("Parser missing:" : Str) ++ text)), reader,
            filled.2)

def parse (reader : ρ) (writer : ω) : Except Error Unit × ρ × ω :=
  match parseLines R W tokens variablemode tokens.reqarr reader writer with
  | (.error e, reader, writer) => (.error e, reader, writer)
  | (.ok required, reader, writer) =>
      finish R W tokens required.entries reader writer

variable {R W tokens variablemode}

theorem parse_of_parseLines_ok {reader : ρ} {writer : ω}
    {required : OrdMap Nat Bool} {after : ρ} {written : ω}
    (hlines : parseLines R W tokens variablemode tokens.reqarr reader writer =
      (.ok required, after, written)) :
    parse R W tokens variablemode reader writer =
      finish R W tokens required.entries after written := by
  rw [parse, hlines]

theorem finish_reader (required : List (Nat × Bool)) (reader : ρ)
    (writer : ω) : (finish R W tokens required reader writer).2.1 = reader := by
  unfold finish
  simp only
  generalize (if tokens.haveDefaults then fillDefaults W tokens required writer
    else (required, writer)) = filled
  split
  · rfl
  · split
    · rfl
    · split
      · rfl
      · split <;> rfl

/-- A reader that never grows does not grow while a block is parsed. -/
theorem size_parseLines_le
    (hkeep : ∀ reader, R.size (R.getline reader).2 ≤ R.size reader)
    (required : OrdMap Nat Bool) (reader : ρ) (writer : ω) :
    R.size (parseLines R W tokens variablemode required reader writer).2.1 ≤
      R.size reader := by
  induction hsize : R.size reader using Nat.strong_induction_on
    generalizing required reader writer with
  | _ size ih =>
      subst hsize
      have hstep := hkeep reader
      rw [parseLines]
      split
      · next hline =>
          rw [hline] at hstep
          exact hstep
      · next hline =>
          rw [hline] at hstep
          exact hstep
      · next line after hline =>
          have hlt := R.shrinks _ _ _ hline
          exact Nat.le_trans (ih _ hlt _ after _ rfl) (Nat.le_of_lt hlt)

theorem size_parse_le
    (hkeep : ∀ reader, R.size (R.getline reader).2 ≤ R.size reader)
    (reader : ρ) (writer : ω) :
    R.size (parse R W tokens variablemode reader writer).2.1 ≤
      R.size reader := by
  have hlines : R.size (parseLines R W tokens variablemode tokens.reqarr reader
      writer).2.1 ≤ R.size reader :=
    size_parseLines_le hkeep tokens.reqarr reader writer
  unfold parse
  split
  · next hparsed =>
      rw [hparsed] at hlines
      exact hlines
  · next hparsed =>
      rw [hparsed] at hlines
      rw [finish_reader]
      exact hlines

end Parser

end GreylistServer
