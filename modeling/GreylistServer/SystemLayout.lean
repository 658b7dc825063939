/-
Configurations laid out section by section: a header line with a name in
brackets, then lines that are neither empty nor begin with a bracket.  A known
section is read up to the next header and its creator gets the values of its
own lines.  Behind an unknown header every line is examined as a header again,
and there the brackets may stand anywhere, so that a line of an unknown section
can open a known one.
-/
import GreylistServer.SystemSections

namespace GreylistServer

namespace ConfigWriter

variable (tokens : TokenList)

/-- The value a line gives the token at position `u`. -/
def valueOf (line : Str) (u : Nat) : Option Str :=
  (splitField line).bind fun field =>
    if tokens.findToken field.1 = some u then some field.2 else none

/-- The value a line gives a key. -/
def varOf (line key : Str) : Option Str :=
  (splitField line).bind fun field =>
    if field.1 = key then some field.2 else none

def firstValue (body : List Str) (u : Nat) : Option Str :=
  body.findSome? fun line => valueOf tokens line u

def firstVar (body : List Str) (key : Str) : Option Str :=
  body.findSome? fun line => varOf line key

/-- The required tokens no line gives a value, in the order of their
positions. -/
def absent (body : List Str) : List Nat :=
  tokens.reqarr.keys.filter fun u => (firstValue tokens body u).isNone

/-- Defaults are added up to the first absent token that has none. -/
def defaulted (body : List Str) : List Nat :=
  (absent tokens body).takeWhile fun u => tokens.getDefault u ≠ []

/-- The contents of one body and of nothing else: for a known key the value of
its first line, for an unknown key the value of its first line as a variable,
and the defaults. -/
structure OwnContents (cfg : ConfigWriter) (body : List Str) : Prop where
  values : ∀ u, cfg.map.find u = (firstValue tokens body u).or
    (if u ∈ defaulted tokens body then some (tokens.getDefault u) else none)
  vars : ∀ key, cfg.vars.find key =
    if tokens.findToken key = none then firstVar body key else none

/-- The loop over the lines of a body. -/
def parseBody (body : List Str) (required : OrdMap Nat Bool)
    (writer : ConfigWriter) : OrdMap Nat Bool × ConfigWriter :=
  body.foldl (fun state line =>
    Parser.parseLine fieldWriter tokens true line state.1 state.2)
    (required, writer)

/-- The values of a section whose lines are `body`. -/
def sectionValues (body : List Str) : ConfigWriter :=
  let parsed := parseBody tokens body tokens.reqarr {}
  (Parser.fillDefaults fieldWriter tokens parsed.1.entries
    parsed.2).2

variable {tokens} {line : Str} {required : OrdMap Nat Bool}
  {writer : ConfigWriter}

/-- What one line does: nothing without a `=`, otherwise its key becomes a
variable or a value. -/
theorem parseLine_cases (tokens : TokenList) (line : Str)
    (required : OrdMap Nat Bool) (writer : ConfigWriter) :
    (splitField line = none ∧
      Parser.parseLine fieldWriter tokens true line required
        writer = (required, writer)) ∨
    (∃ key val, splitField line = some (key, val) ∧
      tokens.findToken key = none ∧
      Parser.parseLine fieldWriter tokens true line required
        writer = (required, { writer with
          vars := writer.vars.insert key val })) ∨
    (∃ key val u, splitField line = some (key, val) ∧
      tokens.findToken key = some u ∧
      Parser.parseLine fieldWriter tokens true line required
        writer = (required.erase u, { writer with
          map := writer.map.insert u val })) := by
  rw [Parser.parseLine]
  cases hsplit : splitField line with
  | none => exact Or.inl ⟨rfl, rfl⟩
  | some field =>
      obtain ⟨key, val⟩ := field
      cases htoken : tokens.findToken key with
      | none =>
          refine Or.inr (Or.inl ⟨key, val, rfl, htoken, ?_⟩)
          simp only [TokenList.parse, htoken]
          rfl
      | some u =>
          refine Or.inr (Or.inr ⟨key, val, u, rfl, htoken, ?_⟩)
          simp only [TokenList.parse, htoken]
          rfl

theorem parseLine_value (u : Nat) :
    (Parser.parseLine fieldWriter tokens true line required
      writer).2.map.find u =
      (writer.map.find u).or (valueOf tokens line u) := by
  rcases parseLine_cases tokens line required writer with ⟨hsplit, hline⟩ |
    ⟨key, val, hsplit, htoken, hline⟩ | ⟨key, val, v, hsplit, htoken, hline⟩
  · simp [hline, valueOf, hsplit]
  · simp [hline, valueOf, hsplit, htoken]
  · by_cases huv : u = v
    · subst huv
      simp only [hline, OrdMap.find_insert, valueOf, hsplit]
      cases writer.map.find u <;> simp [htoken]
    · simp [hline, OrdMap.find_insert, valueOf, hsplit, htoken, huv,
        Ne.symm huv]

theorem parseLine_var (key : Str) :
    (Parser.parseLine fieldWriter tokens true line required
      writer).2.vars.find key =
      (writer.vars.find key).or
        (if tokens.findToken key = none then varOf line key else none) := by
  rcases parseLine_cases tokens line required writer with ⟨hsplit, hline⟩ |
    ⟨found, val, hsplit, htoken, hline⟩ |
    ⟨found, val, u, hsplit, htoken, hline⟩
  · simp [hline, varOf, hsplit]
  · by_cases hkey : key = found
    · subst hkey
      simp only [hline, OrdMap.find_insert, varOf, hsplit, htoken]
      cases writer.vars.find key <;> simp
    · simp [hline, OrdMap.find_insert, varOf, hsplit, hkey, Ne.symm hkey]
  · by_cases hkey : found = key
    · subst hkey
      simp [hline, htoken]
    · simp [hline, varOf, hsplit, hkey]

theorem parseLine_required :
    (Parser.parseLine fieldWriter tokens true line required
      writer).1.entries =
      required.entries.filter fun entry =>
        (valueOf tokens line entry.1).isNone := by
  rcases parseLine_cases tokens line required writer with ⟨hsplit, hline⟩ |
    ⟨key, val, hsplit, htoken, hline⟩ | ⟨key, val, u, hsplit, htoken, hline⟩
  · simp [hline, valueOf, hsplit]
  · simp [hline, valueOf, hsplit, htoken]
  · rw [hline]
    apply List.filter_congr
    intro entry hentry
    by_cases hu : entry.1 = u
    · simp [hu, valueOf, hsplit, htoken]
    · simp [hu, valueOf, hsplit, htoken, Ne.symm hu]

theorem firstValue_cons (line : Str) (body : List Str) (u : Nat) :
    firstValue tokens (line :: body) u =
      (valueOf tokens line u).or (firstValue tokens body u) := by
  rw [firstValue, List.findSome?_cons]
  cases valueOf tokens line u <;> rfl

theorem firstVar_cons (line : Str) (body : List Str) (key : Str) :
    firstVar (line :: body) key =
      (varOf line key).or (firstVar body key) := by
  rw [firstVar, List.findSome?_cons]
  cases varOf line key <;> rfl

theorem parseBody_cons (line : Str) (body : List Str)
    (required : OrdMap Nat Bool) (writer : ConfigWriter) :
    parseBody tokens (line :: body) required writer =
      parseBody tokens body
        (Parser.parseLine fieldWriter tokens true line required
          writer).1
        (Parser.parseLine fieldWriter tokens true line required
          writer).2 :=
  rfl

theorem parseBody_value (body : List Str) (required : OrdMap Nat Bool)
    (writer : ConfigWriter) (u : Nat) :
    (parseBody tokens body required writer).2.map.find u =
      (writer.map.find u).or (firstValue tokens body u) := by
  induction body generalizing required writer with
  | nil => simp [parseBody, firstValue]
  | cons line body ih =>
      rw [parseBody_cons, ih, parseLine_value, firstValue_cons,
        Option.or_assoc]

theorem parseBody_var (body : List Str) (required : OrdMap Nat Bool)
    (writer : ConfigWriter) (key : Str) :
    (parseBody tokens body required writer).2.vars.find key =
      (writer.vars.find key).or
        (if tokens.findToken key = none then firstVar body key else none) := by
  induction body generalizing required writer with
  | nil => simp [parseBody, firstVar]
  | cons line body ih =>
      rw [parseBody_cons, ih, parseLine_var, firstVar_cons, Option.or_assoc]
      by_cases hkey : tokens.findToken key = none
      · rw [if_pos hkey, if_pos hkey, if_pos hkey]
      · rw [if_neg hkey, if_neg hkey, if_neg hkey, Option.or_none]

theorem parseBody_required (body : List Str) (required : OrdMap Nat Bool)
    (writer : ConfigWriter) :
    (parseBody tokens body required writer).1.entries =
      required.entries.filter fun entry =>
        (firstValue tokens body entry.1).isNone := by
  induction body generalizing required writer with
  | nil => simp [parseBody, firstValue]
  | cons line body ih =>
      rw [parseBody_cons, ih, parseLine_required, List.filter_filter]
      apply List.filter_congr
      intro entry hentry
      rw [firstValue_cons]
      cases valueOf tokens line entry.1 <;> simp

/-- Defaults are values for absent tokens; they never replace one. -/
theorem fillDefaults_value (entries : List (Nat × Bool))
    (writer : ConfigWriter) (u : Nat) :
    (Parser.fillDefaults fieldWriter tokens entries
      writer).2.map.find u =
      (writer.map.find u).or
        (if u ∈ (entries.map Prod.fst).takeWhile
            fun u => tokens.getDefault u ≠ [] then
          some (tokens.getDefault u) else none) := by
  induction entries generalizing writer with
  | nil => simp [Parser.fillDefaults]
  | cons entry rest ih =>
      by_cases hnone : tokens.getDefault entry.1 = []
      · simp [Parser.fillDefaults, hnone]
      · simp only [Parser.fillDefaults, hnone, ↓reduceIte]
        rw [ih]
        simp only [fieldWriter, OrdMap.find_insert, List.map_cons,
          List.takeWhile_cons, hnone, ne_eq, not_false_eq_true, decide_true,
          ↓reduceIte, List.mem_cons]
        by_cases hu : u = entry.1
        · subst hu
          cases writer.map.find entry.1 <;> simp
        · simp [hu]

theorem fillDefaults_vars (entries : List (Nat × Bool))
    (writer : ConfigWriter) :
    (Parser.fillDefaults fieldWriter tokens entries
      writer).2.vars = writer.vars := by
  induction entries generalizing writer with
  | nil => rfl
  | cons entry rest ih =>
      simp only [Parser.fillDefaults]
      split
      · rfl
      · exact ih _

theorem absent_eq (body : List Str) :
    (parseBody tokens body tokens.reqarr {}).1.entries.map Prod.fst =
      absent tokens body := by
  rw [parseBody_required, absent, OrdMap.keys, List.filter_map]
  rfl

theorem sectionValues_ownContents (tokens : TokenList) (body : List Str) :
    (sectionValues tokens body).OwnContents tokens body where
  values u := by
    rw [sectionValues, fillDefaults_value, parseBody_value, absent_eq]
    rfl
  vars key := by
    rw [sectionValues, fillDefaults_vars, parseBody_var]
    rfl

end ConfigWriter

namespace Parser

variable {ρ ω : Type} {R : LineReader ρ} {W : FieldWriter ω}
  {tokens : TokenList}

theorem fillDefaults_of_not_haveDefaults
    (hdefaults : tokens.haveDefaults = false) (required : List (Nat × Bool))
    (writer : ω) :
    fillDefaults W tokens required writer = (required, writer) := by
  have hentries : tokens.default.entries = [] := by
    simpa [TokenList.haveDefaults] using hdefaults
  cases required with
  | nil => rfl
  | cons entry rest =>
      have hnone : tokens.getDefault entry.1 = [] := by
        simp [TokenList.getDefault, OrdMap.find, hentries]
      simp [fillDefaults, hnone]

theorem filled_eq (required : List (Nat × Bool)) (writer : ω) :
    (if tokens.haveDefaults then fillDefaults W tokens required writer
      else (required, writer)) = fillDefaults W tokens required writer := by
  cases hdefaults : tokens.haveDefaults with
  | true => rfl
  | false =>
      rw [fillDefaults_of_not_haveDefaults hdefaults]
      rfl

/-- After the last line the block is rejected, or accepted with its
defaults. -/
theorem finish_cases (required : List (Nat × Bool)) (reader : ρ)
    (writer : ω) :
    (∃ e written, finish R W tokens required reader writer =
      (.error e, reader, written)) ∨
    finish R W tokens required reader writer =
      (.ok (), reader, (fillDefaults W tokens required writer).2) := by
  unfold finish
  simp only [filled_eq]
  split
  · next hempty =>
      subst hempty
      exact Or.inr rfl
  · split
    · exact Or.inr rfl
    · split
      · exact Or.inr rfl
      · split <;> exact Or.inl ⟨_, _, rfl⟩

end Parser

/-- A line of a body: not empty, and its first character no bracket. -/
def PlainLine : Str → Prop
  | [] => False
  | c :: _ => c ≠ '['

instance : DecidablePred PlainLine
  | [] => inferInstanceAs (Decidable False)
  | c :: _ => inferInstanceAs (Decidable (c ≠ '['))

/-- A section as it stands in a configuration. -/
structure SectionText where
  name : Str
  body : List Str
  name_bare : '[' ∉ name ∧ ']' ∉ name
  body_plain : ∀ line ∈ body, PlainLine line

namespace SectionText

def header (s : SectionText) : Str :=
  '[' :: (s.name ++ [']'])

def lines (s : SectionText) : List Str :=
  s.header :: s.body

/-- The section the header names; an unknown name has none. -/
def kind (s : SectionText) : Option SectionsTokensType :=
  (Tokens.configSectionsTokens.findToken s.name).bind SectionsTokensType.ofIdx

def isKnown (s : SectionText) : Bool :=
  s.kind.isSome

/-- The creator call that belongs to a known section. -/
def Describes (s : SectionText) (call : ParsedSection) : Prop :=
  s.kind = some call.stkid ∧
    call.cfg.OwnContents (Tokens.configTokens call.stkid) s.body

end SectionText

/-- The lines of a configuration laid out one section after the other. -/
def layoutLines (sections : List SectionText) : List Str :=
  sections.flatMap SectionText.lines

/-- The creators are called for exactly the known sections, in file order, each
with the contents of its own body. -/
def Segmented (sections : List SectionText) (calls : List ParsedSection) :
    Prop :=
  List.Forall₂ SectionText.Describes (sections.filter SectionText.isKnown)
    calls

/-- The lines begin with a header, or there are none. -/
def AtBoundary (lines : List Str) : Prop :=
  lines = [] ∨ ∃ header rest, lines = ('[' :: header) :: rest

theorem layoutLines_atBoundary (sections : List SectionText) :
    AtBoundary (layoutLines sections) := by
  cases sections with
  | nil => exact Or.inl rfl
  | cons s rest => exact Or.inr ⟨_, _, rfl⟩

namespace System

theorem sectionName_header (s : SectionText) :
    sectionName s.header = some s.name := by
  have hleft : findFrom s.header '[' 0 = some 0 :=
    findFrom_append_cons List.not_mem_nil (s.name ++ [']'])
  have hright : findFrom s.header ']' 0 = some (s.name.length + 1) := by
    have hname : ']' ∉ '[' :: s.name := by
      simp [s.name_bare.2]
    exact findFrom_append_cons hname []
  rw [sectionName, hleft, hright]
  simp [substr, SectionText.header]

theorem openedSection_header (s : SectionText) :
    openedSection s.header = s.kind := by
  rw [openedSection, sectionName_header]
  rfl

theorem getline_plain {line : Str} (hplain : PlainLine line)
    (rest : List Str) :
    ConfigReader.getline ⟨line :: rest, true⟩ =
      (.ok (some line), ⟨rest, true⟩) := by
  cases line with
  | nil => cases hplain
  | cons c tail =>
      have hc : c ≠ '[' := hplain
      simp [ConfigReader.getline, hc]

theorem getline_atBoundary {lines : List Str} (hboundary : AtBoundary lines) :
    ConfigReader.getline ⟨lines, true⟩ = (.ok none, ⟨lines, true⟩) := by
  rcases hboundary with rfl | ⟨header, rest, rfl⟩
  · rfl
  · rfl

/-- The lines of a body are read up to the boundary behind it. -/
theorem parseLines_body {tokens : TokenList} {body tail : List Str}
    (hbody : ∀ line ∈ body, PlainLine line) (htail : AtBoundary tail)
    (required : OrdMap Nat Bool) (writer : ConfigWriter) :
    Parser.parseLines ConfigReader.lineReader ConfigWriter.fieldWriter tokens
        true required ⟨body ++ tail, true⟩ writer =
      (.ok (ConfigWriter.parseBody tokens body required writer).1,
        ⟨tail, true⟩,
        (ConfigWriter.parseBody tokens body required writer).2) := by
  induction body generalizing required writer with
  | nil =>
      have hend : ConfigReader.lineReader.getline ⟨[] ++ tail, true⟩ =
          (.ok none, ⟨tail, true⟩) := getline_atBoundary htail
      rw [Parser.parseLines, hend]
      rfl
  | cons line body ih =>
      have hline : ConfigReader.lineReader.getline
          ⟨line :: body ++ tail, true⟩ =
          (.ok (some line), ⟨body ++ tail, true⟩) :=
        getline_plain (hbody line List.mem_cons_self) _
      have hrest : ∀ line ∈ body, PlainLine line := fun other hmem =>
        hbody other (List.mem_cons_of_mem line hmem)
      rw [Parser.parseLines, hline]
      exact ih hrest _ _

/-- A section whose parsing does not throw ends at the boundary and has the
values of its lines. -/
theorem parseSection_body (stkid : SectionsTokensType) {body tail : List Str}
    (hbody : ∀ line ∈ body, PlainLine line) (htail : AtBoundary tail)
    (mode : Bool) :
    (∃ e after written,
      parseSection stkid ⟨body ++ tail, mode⟩ = (.error e, after, written)) ∨
    parseSection stkid ⟨body ++ tail, mode⟩ =
      (.ok (), ⟨tail, true⟩,
        ConfigWriter.sectionValues (Tokens.configTokens stkid) body) := by
  have hparse : parseSection stkid ⟨body ++ tail, mode⟩ = _ :=
    Parser.parse_of_parseLines_ok (parseLines_body hbody htail _ _)
  rw [hparse]
  rcases Parser.finish_cases _ _ _ with ⟨e, written, hfinish⟩ | hfinish
  · exact Or.inl ⟨e, _, written, hfinish⟩
  · exact Or.inr hfinish

section

variable {line : Str} {rest : List Str} {mode : Bool} {after : ConfigReader}
  {stkid : SectionsTokensType} {cfg : ConfigWriter} {e : Error}

theorem readSections_nil : readSections ⟨[], mode⟩ = ([], none) := by
  rw [readSections]
  split <;> simp_all [ConfigReader.getline, ConfigReader.switchSectionMode]

theorem readSections_ignored (hopened : openedSection line = none) :
    readSections ⟨line :: rest, mode⟩ = readSections ⟨rest, false⟩ := by
  rw [readSections]
  split <;> simp_all [ConfigReader.getline, ConfigReader.switchSectionMode]

theorem readSections_unparsed (hopened : openedSection line = some stkid)
    (hparse : parseSection stkid ⟨rest, false⟩ = (.error e, after, cfg)) :
    readSections ⟨line :: rest, mode⟩ = ([], some e) := by
  have hline : (ConfigReader.switchSectionMode ⟨line :: rest, mode⟩
      false).getline = (.ok (some line), ⟨rest, false⟩) := rfl
  rw [readSections]
  split
  · simp_all
  · simp_all
  · next found body hfound =>
      rw [hline] at hfound
      cases hfound
      rw [hopened]
      simp only
      split <;> simp_all

theorem readSections_parsed (hopened : openedSection line = some stkid)
    (hparse : parseSection stkid ⟨rest, false⟩ = (.ok (), after, cfg)) :
    readSections ⟨line :: rest, mode⟩ =
      (⟨stkid, cfg⟩ :: (readSections after).1, (readSections after).2) := by
  have hline : (ConfigReader.switchSectionMode ⟨line :: rest, mode⟩
      false).getline = (.ok (some line), ⟨rest, false⟩) := rfl
  rw [readSections]
  split
  · simp_all
  · simp_all
  · next found body hfound =>
      rw [hline] at hfound
      cases hfound
      rw [hopened]
      simp only
      split <;> simp_all

end

/-- The creator calls an unknown section causes: its first line that opens a
section makes one of the lines behind it. -/
def strayCalls : List Str → List ParsedSection
  | [] => []
  | line :: rest =>
      match openedSection line with
      | none => strayCalls rest
      | some stkid =>
          [⟨stkid, ConfigWriter.sectionValues (Tokens.configTokens stkid) rest⟩]

/-- The creator calls the lines of a section cause. -/
def callsOf (s : SectionText) : List ParsedSection :=
  match s.kind with
  | none => strayCalls s.body
  | some stkid =>
      [⟨stkid, ConfigWriter.sectionValues (Tokens.configTokens stkid) s.body⟩]

/-- An opened section: if everything parses, it is one call and the reading
goes on at the boundary. -/
theorem readSections_opened {line : Str} {stkid : SectionsTokensType}
    {body tail : List Str} (hopened : openedSection line = some stkid)
    (hbody : ∀ line ∈ body, PlainLine line) (htail : AtBoundary tail)
    (mode : Bool)
    (hok : (readSections ⟨line :: (body ++ tail), mode⟩).2 = none) :
    (readSections ⟨line :: (body ++ tail), mode⟩).1 =
        ⟨stkid, ConfigWriter.sectionValues (Tokens.configTokens stkid) body⟩ ::
          (readSections ⟨tail, true⟩).1 ∧
      (readSections ⟨tail, true⟩).2 = none := by
  rcases parseSection_body stkid hbody htail false with
    ⟨e, after, written, hparse⟩ | hparse
  · rw [readSections_unparsed hopened hparse] at hok
    cases hok
  · rw [readSections_parsed hopened hparse] at hok ⊢
    exact ⟨rfl, hok⟩

theorem readSections_stray {body tail : List Str}
    (hbody : ∀ line ∈ body, PlainLine line) (htail : AtBoundary tail)
    (mode : Bool) (hok : (readSections ⟨body ++ tail, mode⟩).2 = none) :
    ∃ mode', (readSections ⟨body ++ tail, mode⟩).1 =
        strayCalls body ++ (readSections ⟨tail, mode'⟩).1 ∧
      (readSections ⟨tail, mode'⟩).2 = none := by
  induction body generalizing mode with
  | nil => exact ⟨mode, rfl, hok⟩
  | cons line body ih =>
      have hrest : ∀ line ∈ body, PlainLine line := fun other hmem =>
        hbody other (List.mem_cons_of_mem line hmem)
      rw [List.cons_append] at hok ⊢
      cases hopened : openedSection line with
      | none =>
          rw [readSections_ignored hopened] at hok ⊢
          rw [strayCalls, hopened]
          exact ih hrest false hok
      | some stkid =>
          rw [strayCalls, hopened]
          exact ⟨true, readSections_opened hopened hrest htail mode hok⟩

/-- The creator calls of a configuration that parses. -/
theorem readSections_layout (sections : List SectionText) (mode : Bool)
    (hok : (readSections ⟨layoutLines sections, mode⟩).2 = none) :
    (readSections ⟨layoutLines sections, mode⟩).1 =
      sections.flatMap callsOf := by
  induction sections generalizing mode with
  | nil =>
      rw [layoutLines, List.flatMap_nil, readSections_nil]
      rfl
  | cons s rest ih =>
      have htail := layoutLines_atBoundary rest
      have hlines : layoutLines (s :: rest) =
          s.header :: (s.body ++ layoutLines rest) := rfl
      rw [hlines] at hok ⊢
      rw [List.flatMap_cons, callsOf]
      cases hkind : s.kind with
      | none =>
          have hheader := (openedSection_header s).trans hkind
          rw [readSections_ignored hheader] at hok ⊢
          obtain ⟨mode', hcalls, hrest⟩ :=
            readSections_stray s.body_plain htail false hok
          rw [hcalls, ih mode' hrest]
      | some stkid =>
          have hheader := (openedSection_header s).trans hkind
          obtain ⟨hcalls, hrest⟩ :=
            readSections_opened hheader s.body_plain htail mode hok
          rw [hcalls, ih true hrest]
          rfl

theorem strayCalls_eq_nil_iff (body : List Str) :
    strayCalls body = [] ↔ ∀ line ∈ body, openedSection line = none := by
  induction body with
  | nil => simp [strayCalls]
  | cons line rest ih =>
      rw [strayCalls, List.forall_mem_cons]
      cases hopened : openedSection line with
      | none => simp [ih]
      | some stkid => simp

/-- No line of an unknown section is taken for the header of a known one. -/
def NoStrayHeader (sections : List SectionText) : Prop :=
  ∀ s ∈ sections, s.kind = none → ∀ line ∈ s.body, openedSection line = none

theorem segmented_of_noStrayHeader {sections : List SectionText}
    (hstray : NoStrayHeader sections) :
    Segmented sections (sections.flatMap callsOf) := by
  induction sections with
  | nil => exact List.Forall₂.nil
  | cons s rest ih =>
      have hrest := ih fun other hmem =>
        hstray other (List.mem_cons_of_mem s hmem)
      rw [Segmented, List.filter_cons, List.flatMap_cons, callsOf,
        SectionText.isKnown]
      cases hkind : s.kind with
      | none =>
          have hbody := hstray s List.mem_cons_self hkind
          have hnone := (strayCalls_eq_nil_iff s.body).mpr hbody
          simp only [hnone, List.nil_append]
          exact hrest
      | some stkid =>
          have hdescribes : s.Describes
              ⟨stkid, ConfigWriter.sectionValues (Tokens.configTokens stkid)
                s.body⟩ :=
            ⟨hkind, ConfigWriter.sectionValues_ownContents _ _⟩
          exact List.Forall₂.cons hdescribes hrest

/-- Every known section causes a call of its own, so that as many calls as
known sections leave none to the unknown ones. -/
theorem length_flatMap_callsOf (sections : List SectionText) :
    (sections.filter SectionText.isKnown).length ≤
        (sections.flatMap callsOf).length ∧
      ((sections.flatMap callsOf).length ≤
          (sections.filter SectionText.isKnown).length →
        NoStrayHeader sections) := by
  induction sections with
  | nil =>
      exact ⟨Nat.le_refl 0, fun _ s hmem => absurd hmem List.not_mem_nil⟩
  | cons s rest ih =>
      obtain ⟨hle, hnone⟩ := ih
      rw [List.filter_cons, List.flatMap_cons, List.length_append, callsOf,
        SectionText.isKnown, NoStrayHeader, List.forall_mem_cons]
      cases hkind : s.kind with
      | none =>
          simp only [Option.isSome_none, Bool.false_eq_true, ↓reduceIte]
          refine ⟨by omega, fun hlength => ?_⟩
          have hempty : strayCalls s.body = [] :=
            List.length_eq_zero_iff.mp (by omega)
          exact ⟨fun _ => (strayCalls_eq_nil_iff s.body).mp hempty,
            hnone (by omega)⟩
      | some stkid =>
          simp only [Option.isSome_some, ↓reduceIte, List.length_cons,
            List.length_nil]
          refine ⟨by omega, fun hlength => ⟨fun hcontra => ?_,
            hnone (by omega)⟩⟩
          cases hcontra

theorem segmented_iff (sections : List SectionText) :
    Segmented sections (sections.flatMap callsOf) ↔
      NoStrayHeader sections := by
  constructor
  · intro hsegmented
    have hlength := List.Forall₂.length_eq hsegmented
    exact (length_flatMap_callsOf sections).2 (Nat.le_of_eq hlength.symm)
  · exact segmented_of_noStrayHeader

/-- The creators of a configuration that loads are called section by section,
each with the contents of its own lines, exactly when no line of an unknown
section is taken for the header of a known one. -/
theorem sections_segmented_iff (sections : List SectionText) (mode : Bool)
    (load : Loading)
    (hok : (parseConfigurationSections ⟨layoutLines sections, mode⟩
      load).1 = .ok ()) :
    ∃ calls loaded, readSections ⟨layoutLines sections, mode⟩ =
        (calls, none) ∧
      createAll calls load = (.ok (), loaded) ∧
      parseConfigurationSections ⟨layoutLines sections, mode⟩ load =
        (.ok (), { loaded with system := {} }) ∧
      (Segmented sections calls ↔ NoStrayHeader sections) := by
  rcases hparsed : parseConfigurationSections ⟨layoutLines sections, mode⟩
    load with ⟨result, loaded⟩
  rw [hparsed] at hok
  obtain rfl : result = .ok () := hok
  obtain ⟨hread, created, hcreate, rfl⟩ :=
    parseConfigurationSections_ok hparsed
  have hsegmented : Segmented sections
      (readSections ⟨layoutLines sections, mode⟩).1 ↔
      NoStrayHeader sections := by
    rw [readSections_layout sections mode hread]
    exact segmented_iff sections
  exact ⟨_, created, Prod.ext rfl hread, hcreate, rfl, hsegmented⟩

end System

namespace SystemLayoutWitness

/-- A section the program does not know, with a remark about another one. -/
def notes : SectionText where
  name := "notes".toList
  body := ["see [server] below".toList, "port=25".toList]
  name_bare := by decide
  body_plain := by decide

/-- The remark opens a server section, and the next line sets its port. -/
theorem notes_set_port :
    (System.parseConfigurationSections ⟨layoutLines [notes], false⟩ {}).1 =
        .ok () ∧
      (System.parseConfigurationSections ⟨layoutLines [notes], false⟩
        {}).2.settings.value .port = "25".toList ∧
      ¬ Segmented [notes]
        (System.readSections ⟨layoutLines [notes], false⟩).1 := by
  refine ⟨by decide +kernel, by decide +kernel, ?_⟩
  intro hsegmented
  have hlength := List.Forall₂.length_eq hsegmented
  revert hlength
  decide +kernel

def database : SectionText where
  name := "database".toList
  body := ["name=greylistdb".toList, "type=mysql".toList, "host=[::1]".toList]
  name_bare := by decide
  body_plain := by decide

/-- The same remark with a name no section has. -/
def harmless : SectionText where
  name := "notes".toList
  body := ["see [below]".toList, "port=25".toList]
  name_bare := by decide
  body_plain := by decide

theorem harmless_segmented :
    ∃ calls, System.readSections ⟨layoutLines [harmless, database], false⟩ =
        (calls, none) ∧
      Segmented [harmless, database] calls := by
  obtain ⟨calls, loaded, hread, -, -, hiff⟩ :=
    System.sections_segmented_iff [harmless, database] false {}
      (by decide +kernel)
  refine ⟨calls, hread, hiff.mpr ?_⟩
  intro s hs hkind
  simp only [List.mem_cons, List.not_mem_nil, or_false] at hs
  rcases hs with rfl | rfl
  · decide +kernel
  · exact absurd hkind (by decide)

end SystemLayoutWitness

end GreylistServer
