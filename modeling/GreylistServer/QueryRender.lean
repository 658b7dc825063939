/-
What `executef` writes.  A format is a sequence of pieces: characters that are
copied, doubled percent signs and placeholders.  The placeholders take the
arguments by their position, and what is put in is not looked at again.
-/
import GreylistServer.DBQuery

namespace GreylistServer

/-- A piece of a format.  A percent sign at the very end begins a placeholder
that is not finished. -/
inductive Piece where
  | text (c : Char)
  | percent
  | placeholder (c : Char)
  | unfinished
deriving Repr, DecidableEq

namespace Piece

def isPlaceholder : Piece → Bool
  | .placeholder _ => true
  | _ => false

/-- The text of a piece with `k` placeholders before it. -/
def expand (quote : Str → Str) (args : List Str) (k : Nat) : Piece → Str
  | .text c => [c]
  | .percent => ['%']
  | .placeholder c =>
      if c = 's' then quote (args.getD k []) else args.getD k []
  | .unfinished => []

end Piece

def pieces : Str → List Piece
  | [] => []
  | [c] => if c = '%' then [.unfinished] else [.text c]
  | c :: d :: rest =>
      if c = '%' then
        (if d = '%' then .percent else .placeholder d) :: pieces rest
      else .text c :: pieces (d :: rest)

/-- The number of placeholders. -/
def placeholders (format : Str) : Nat :=
  (pieces format).countP Piece.isPlaceholder

/-- The text of the pieces when `k` placeholders come before them. -/
def expandFrom (quote : Str → Str) (args : List Str) : Nat → List Piece → Str
  | _, [] => []
  | k, piece :: rest =>
      piece.expand quote args k ++
        expandFrom quote args (if piece.isPlaceholder then k + 1 else k) rest

/-- Every piece of the format with its own argument. -/
def rendering (quote : Str → Str) (format : Str) (args : List Str) : Str :=
  expandFrom quote args 0 (pieces format)

/-- Not enough arguments. -/
def tooFew : Error :=
  .invalid_argument "executef: not enough arguments".toList

/-- The pieces take the arguments from the front. -/
def renderPieces (quote : Str → Option Str) :
    List Piece → List Str → Except Error Str
  | [], _ => .ok []
  | .text c :: rest, args => (renderPieces quote rest args).map (c :: ·)
  | .percent :: rest, args => (renderPieces quote rest args).map ('%' :: ·)
  | .unfinished :: rest, args => renderPieces quote rest args
  | .placeholder _ :: _, [] => .error tooFew
  | .placeholder c :: rest, arg :: args =>
      if c = 's' then
        match quote arg with
        | none => .error (.runtime_error
            (("dbi_driver_quote_string_copy " : Str) ++ arg))
        | some quoted => (renderPieces quote rest args).map (quoted ++ ·)
      else (renderPieces quote rest args).map (arg ++ ·)

theorem pieces_cons_text {c : Char} (hc : c ≠ '%') (rest : Str) :
    pieces (c :: rest) = .text c :: pieces rest := by
  cases rest with
  | nil => simp [pieces, hc]
  | cons d rest => simp [pieces, hc]

/-- A format that is not cut inside a placeholder. -/
theorem pieces_append {left : Str} (hleft : .unfinished ∉ pieces left)
    (right : Str) : pieces (left ++ right) = pieces left ++ pieces right := by
  induction left using pieces.induct with
  | case1 => rfl
  | case2 => simp [pieces] at hleft
  | case3 c hc =>
      rw [List.singleton_append, pieces_cons_text hc, pieces_cons_text hc]
      rfl
  | case4 d rest ih =>
      have hrest : .unfinished ∉ pieces rest := by
        intro hmem
        exact hleft (by simp [pieces, hmem])
      simp [pieces, ih hrest]
  | case5 c d rest hc ih =>
      rw [pieces_cons_text hc] at hleft ⊢
      have hrest : .unfinished ∉ pieces (d :: rest) := fun hmem =>
        hleft (List.mem_cons_of_mem _ hmem)
      rw [List.cons_append, pieces_cons_text hc, ih hrest]
      rfl

/-- The scanner takes the format apart as `pieces` does. -/
theorem executef_eq_renderPieces (quote : Str → Option Str) (format : Str)
    (args : List Str) :
    executef quote false format args =
      renderPieces quote (pieces format) args := by
  induction format using pieces.induct generalizing args with
  | case1 => rfl
  | case2 => rfl
  | case3 c hc => simp [executef, pieces, renderPieces, hc]
  | case4 d rest ih =>
      by_cases hd : d = '%'
      · subst hd
        simp [executef, pieces, renderPieces, ih]
      · cases args with
        | nil => simp [executef, pieces, renderPieces, hd, tooFew]
        | cons arg args =>
            by_cases hs : d = 's'
            · subst hs
              cases hquote : quote arg <;>
                simp [executef, pieces, renderPieces, hquote, ih]
            · simp [executef, pieces, renderPieces, hd, hs, ih]
  | case5 c d rest hc ih =>
      rw [pieces_cons_text hc, renderPieces, ← ih]
      simp [executef, hc]

section

variable {quote : Str → Option Str}

/-- Text in front of a rendering that two parts make. -/
theorem map_bind_append (front : Str) (left right : Except Error Str) :
    (left.bind fun text => right.map (text ++ ·)).map (front ++ ·) =
      (left.map (front ++ ·)).bind fun text => right.map (text ++ ·) := by
  cases left with
  | error e => rfl
  | ok text =>
      cases right with
      | error e => rfl
      | ok more => simp [Except.bind, Except.map]

theorem renderPieces_append {left right : List Piece} {args more : List Str}
    (hargs : left.countP Piece.isPlaceholder = args.length) :
    renderPieces quote (left ++ right) (args ++ more) =
      (renderPieces quote left args).bind fun text =>
        (renderPieces quote right more).map (text ++ ·) := by
  induction left generalizing args with
  | nil =>
      have hnil : args = [] := List.length_eq_zero_iff.mp hargs.symm
      subst hnil
      simp only [List.nil_append, renderPieces, Except.bind]
      cases renderPieces quote right more <;> rfl
  | cons piece left ih =>
      rw [List.countP_cons] at hargs
      cases piece with
      | text c =>
          rw [List.cons_append, renderPieces, ih hargs, renderPieces]
          exact map_bind_append [c] _ _
      | percent =>
          rw [List.cons_append, renderPieces, ih hargs, renderPieces]
          exact map_bind_append ['%'] _ _
      | unfinished => rw [List.cons_append, renderPieces, ih hargs, renderPieces]
      | placeholder c =>
          cases args with
          | nil => cases hargs
          | cons arg args =>
              have hleft := Nat.succ.inj hargs
              rw [List.cons_append, List.cons_append, renderPieces,
                ih hleft, renderPieces]
              by_cases hc : c = 's'
              · rw [if_pos hc, if_pos hc]
                cases quote arg with
                | none => rfl
                | some quoted => exact map_bind_append quoted _ _
              · rw [if_neg hc, if_neg hc]
                exact map_bind_append arg _ _

/-- Rendering is compositional. -/
theorem executef_compose {left : Str} (hleft : .unfinished ∉ pieces left)
    {args : List Str} (hargs : placeholders left = args.length)
    (right : Str) (more : List Str) :
    executef quote false (left ++ right) (args ++ more) =
      (executef quote false left args).bind fun text =>
        (executef quote false right more).map (text ++ ·) := by
  simp only [executef_eq_renderPieces, pieces_append hleft]
  exact renderPieces_append hargs

end

section

variable {copy : Str → Option Str} {quote : Str → Str}

/-- With enough arguments every placeholder finds its own. -/
theorem renderPieces_ok (hquote : ∀ text, copy text = some (quote text))
    (args : List Str) (list : List Piece) (k : Nat)
    (henough : k + list.countP Piece.isPlaceholder ≤ args.length) :
    renderPieces copy list (args.drop k) =
      .ok (expandFrom quote args k list) := by
  induction list generalizing k with
  | nil => rfl
  | cons piece rest ih =>
      rw [List.countP_cons] at henough
      cases piece with
      | text c =>
          rw [renderPieces, ih k henough]
          rfl
      | percent =>
          rw [renderPieces, ih k henough]
          rfl
      | unfinished =>
          rw [renderPieces, ih k henough]
          rfl
      | placeholder c =>
          have hrest : k + 1 + rest.countP Piece.isPlaceholder ≤
              args.length := by
            simp only [Piece.isPlaceholder, ↓reduceIte] at henough
            omega
          have hlt : k < args.length := by omega
          have hget : args.getD k [] = args[k] := by
            simp [List.getD, hlt]
          rw [List.drop_eq_getElem_cons hlt, renderPieces,
            ih (k + 1) hrest, expandFrom, Piece.expand, hget, hquote]
          split <;> rfl

/-- With too few arguments the first placeholder that finds none throws. -/
theorem renderPieces_tooFew (hquote : ∀ text, copy text = some (quote text))
    {list : List Piece} {args : List Str}
    (hfew : args.length < list.countP Piece.isPlaceholder) :
    renderPieces copy list args = .error tooFew := by
  induction list generalizing args with
  | nil => cases hfew
  | cons piece rest ih =>
      rw [List.countP_cons] at hfew
      cases piece with
      | text c =>
          rw [renderPieces, ih hfew]
          rfl
      | percent =>
          rw [renderPieces, ih hfew]
          rfl
      | unfinished => rw [renderPieces, ih hfew]
      | placeholder c =>
          cases args with
          | nil => rfl
          | cons arg args =>
              have hrest := Nat.lt_of_succ_lt_succ hfew
              rw [renderPieces, ih hrest, hquote]
              split <;> rfl

theorem executef_ok (hquote : ∀ text, copy text = some (quote text))
    {format : Str} {args : List Str}
    (henough : placeholders format ≤ args.length) :
    executef copy false format args =
      .ok (rendering quote format args) := by
  have hall : 0 + placeholders format ≤ args.length := by
    rw [Nat.zero_add]
    exact henough
  rw [executef_eq_renderPieces]
  exact renderPieces_ok hquote args (pieces format) 0 hall

theorem executef_tooFew (hquote : ∀ text, copy text = some (quote text))
    {format : Str} {args : List Str}
    (hfew : args.length < placeholders format) :
    executef copy false format args = .error tooFew := by
  rw [executef_eq_renderPieces]
  exact renderPieces_tooFew hquote hfew

end

namespace Query

section

variable {driver : Driver} {q : Query} {format : Str} {args : List Str}

/-- A statement that cannot be rendered is not sent. -/
theorem executef_of_error (hcon : q.con = true) (hres : q.res = false)
    {e : Error}
    (hrender : GreylistServer.executef driver.quote false format args =
      .error e) :
    q.executef driver format args =
      (.error e, { q with m_last_query := format }) := by
  simp [executef, hcon, hres, hrender]

/-- A statement that is rendered is sent, and an error is the server's. -/
theorem executef_of_ok (hcon : q.con = true) (hres : q.res = false)
    {text : Str}
    (hrender : GreylistServer.executef driver.quote false format args =
      .ok text) :
    (q.executef driver format args).2.sent = q.sent ++ [text] ∧
      ∀ what, (q.executef driver format args).1 ≠
        .error (.invalid_argument what) := by
  simp only [executef, hcon, hres, hrender]
  cases driver.query text with
  | error failure => exact ⟨rfl, nofun⟩
  | ok done => exact ⟨rfl, nofun⟩

theorem getResultf_sent (hcon : q.con = true) (hres : q.res = false) :
    (q.getResultf driver format args).2.sent =
      (q.executef driver format args).2.sent := by
  simp only [getResultf, hcon, hres]
  rcases q.executef driver format args with ⟨result, after⟩
  cases result <;> rfl

end

/-- On a free connection the statement sent is the format with every
placeholder replaced by its own argument; with too few arguments nothing is
sent.  Formats that are put together are rendered part by part. -/
theorem executef_renders (driver : Driver) {quote : Str → Str}
    (hquote : ∀ text, driver.quote text = some (quote text)) {q : Query}
    (hcon : q.con = true) (hres : q.res = false) (format : Str)
    (args : List Str) :
    (placeholders format ≤ args.length →
      (q.executef driver format args).2.sent =
        q.sent ++ [rendering quote format args]) ∧
    ((∃ what, (q.executef driver format args).1 =
        .error (.invalid_argument what)) ↔
      args.length < placeholders format) ∧
    (args.length < placeholders format →
      (q.executef driver format args).2.sent = q.sent) ∧
    ∀ (left right : Str) (first more : List Str),
      .unfinished ∉ pieces left → placeholders left = first.length →
      GreylistServer.executef driver.quote false (left ++ right)
          (first ++ more) =
        (GreylistServer.executef driver.quote false left first).bind
          fun text =>
            (GreylistServer.executef driver.quote false right more).map
              (text ++ ·) := by
  have henough : placeholders format ≤ args.length →
      (q.executef driver format args).2.sent =
          q.sent ++ [rendering quote format args] ∧
        ∀ what, (q.executef driver format args).1 ≠
          .error (.invalid_argument what) := fun hle =>
    executef_of_ok hcon hres (executef_ok hquote hle)
  have hfew : args.length < placeholders format →
      q.executef driver format args =
        (.error tooFew, { q with m_last_query := format }) := fun hlt =>
    executef_of_error hcon hres (executef_tooFew hquote hlt)
  refine ⟨fun hle => (henough hle).1, ?_, ?_, ?_⟩
  · constructor
    · rintro ⟨what, hthrown⟩
      by_contra hle
      exact (henough (Nat.le_of_not_lt hle)).2 what hthrown
    · intro hlt
      rw [hfew hlt]
      exact ⟨_, rfl⟩
  · intro hlt
    rw [hfew hlt]
  · intro left right first more hleft hfirst
    exact executef_compose hleft hfirst right more

end Query

namespace QueryWitness

/-- Quotes around the text, and every quote in it doubled. -/
def quote (text : Str) : Str :=
  ("'" : Str) ++
    (text.flatMap fun c => if [c] = "'".toList then [c, c] else [c]) ++
    ("'" : Str)

def driver : Driver where
  quote text := some (quote text)
  query _ := .ok ()

def idle : Query where
  con := true

/-- The argument holds a placeholder and quotes of its own. -/
theorem percent_not_scanned :
    (idle.executef driver "UPDATE t SET a=%s,b=%d WHERE 7%%2".toList
        ["%s'x".toList, "5".toList]).2.sent =
      ["UPDATE t SET a='%s''x',b=5 WHERE 7%2".toList] := by
  have hsent := (Query.executef_renders driver (fun text => rfl) (q := idle)
    rfl rfl "UPDATE t SET a=%s,b=%d WHERE 7%%2".toList
    ["%s'x".toList, "5".toList]).1 (by decide)
  rw [hsent]
  decide

end QueryWitness

end GreylistServer
