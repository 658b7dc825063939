/-
Required tokens.  A section ends before the next line that begins with a
bracket.  When it has been read, every required token has a value or a default
or the parser throws, except behind the last line of the configuration, where
whatever is missing stays missing.
-/
import GreylistServer.SystemLayout

namespace GreylistServer

/-- The line opens the next section. -/
def isBoundary (line : Str) : Bool :=
  line.head? = some '['

/-- The lines of a section. -/
def sectionBody (lines : List Str) : List Str :=
  lines.takeWhile fun line => !isBoundary line

/-- The lines from the next section on. -/
def behindSection (lines : List Str) : List Str :=
  lines.dropWhile fun line => !isBoundary line

theorem sectionBody_append (lines : List Str) :
    sectionBody lines ++ behindSection lines = lines :=
  List.takeWhile_append_dropWhile

theorem behindSection_atBoundary (lines : List Str) :
    AtBoundary (behindSection lines) := by
  induction lines with
  | nil => exact Or.inl rfl
  | cons line rest ih =>
      rw [behindSection, List.dropWhile_cons]
      cases hline : isBoundary line with
      | false => exact ih
      | true =>
          cases line with
          | nil => cases hline
          | cons c tail =>
              have hc : c = '[' := by
                simpa [isBoundary] using hline
              subst hc
              exact Or.inr ⟨tail, rest, rfl⟩

theorem plainLine_iff (line : Str) :
    PlainLine line ↔ line ≠ [] ∧ isBoundary line = false := by
  cases line with
  | nil => simp [PlainLine]
  | cons c tail => simp [PlainLine, isBoundary]

theorem sectionBody_plain {lines : List Str}
    (hlines : ∀ line ∈ lines, line ≠ []) :
    ∀ line ∈ sectionBody lines, PlainLine line := by
  intro line hline
  have hmem : line ∈ lines := List.takeWhile_prefix _ |>.subset hline
  have hplain := List.mem_takeWhile_imp hline
  exact (plainLine_iff line).mpr ⟨hlines line hmem, by simpa using hplain⟩

namespace Parser

variable {ρ ω : Type} {R : LineReader ρ} {W : FieldWriter ω}
  {tokens : TokenList}

/-- What the defaults leave over. -/
theorem fillDefaults_rest (required : List (Nat × Bool)) (writer : ω) :
    (fillDefaults W tokens required writer).1 = [] ↔
      ∀ entry ∈ required, tokens.getDefault entry.1 ≠ [] := by
  induction required generalizing writer with
  | nil => simp [fillDefaults]
  | cons entry rest ih =>
      rw [fillDefaults, List.forall_mem_cons]
      by_cases hnone : tokens.getDefault entry.1 = []
      · simp [hnone]
      · simp only [hnone, ↓reduceIte, ne_eq, not_false_eq_true, true_and]
        exact ih _

/-- The block is accepted when the defaults leave nothing over, or at the end
of the input. -/
theorem finish_accepts_iff (required : List (Nat × Bool)) (reader : ρ)
    (writer : ω) :
    (finish R W tokens required reader writer).1 = .ok () ↔
      (∀ entry ∈ required, tokens.getDefault entry.1 ≠ []) ∨
        R.isEof reader = true := by
  rw [← fillDefaults_rest (W := W) required writer]
  unfold finish
  simp only [filled_eq]
  split
  · next hempty =>
      subst hempty
      simp [fillDefaults]
  · split
    · next hfilled => simp [hfilled]
    · next hleft =>
        split
        · next heof => simp [heof]
        · next heof => split <;> simp [hleft, heof]

end Parser

namespace ConfigWriter

variable {tokens : TokenList} {lines : List Str}

/-- The parser on a section, the reader in section mode. -/
def parseSectionOf (tokens : TokenList) (lines : List Str) :
    Except Error Unit × ConfigReader × ConfigWriter :=
  Parser.parse ConfigReader.lineReader fieldWriter tokens true ⟨lines, true⟩ {}

/-- The value of the first line of a required token, or else its default. -/
def requiredValue (tokens : TokenList) (body : List Str) (u : Nat) :
    Option Str :=
  (firstValue tokens body u).or (tokens.default.find u)

/-- Every required token that no line gives a value has a default. -/
def Supplied (tokens : TokenList) (body : List Str) : Prop :=
  ∀ u ∈ absent tokens body, tokens.getDefault u ≠ []

instance (tokens : TokenList) (body : List Str) :
    Decidable (Supplied tokens body) :=
  inferInstanceAs (Decidable (∀ u ∈ absent tokens body, _))

/-- Then no token stops the defaults. -/
theorem Supplied.defaulted_eq {body : List Str}
    (hsupplied : Supplied tokens body) :
    defaulted tokens body = absent tokens body := by
  rw [defaulted, List.takeWhile_eq_self_iff]
  intro u hu
  simpa using hsupplied u hu

theorem default_find {u : Nat} (hdefault : tokens.getDefault u ≠ []) :
    tokens.default.find u = some (tokens.getDefault u) := by
  rw [TokenList.getDefault] at hdefault ⊢
  cases hfind : tokens.default.find u with
  | none => simp [hfind] at hdefault
  | some value => rfl

/-- Non-empty lines are read up to the boundary, whatever happens then. -/
theorem parseSectionOf_eq (hlines : ∀ line ∈ lines, line ≠ []) :
    parseSectionOf tokens lines =
      Parser.finish ConfigReader.lineReader fieldWriter tokens
        (parseBody tokens (sectionBody lines) tokens.reqarr {}).1.entries
        ⟨behindSection lines, true⟩
        (parseBody tokens (sectionBody lines) tokens.reqarr {}).2 := by
  have hread : Parser.parseLines ConfigReader.lineReader fieldWriter tokens
      true tokens.reqarr ⟨sectionBody lines ++ behindSection lines, true⟩ {} =
      _ :=
    System.parseLines_body (sectionBody_plain hlines)
      (behindSection_atBoundary lines) tokens.reqarr {}
  rw [sectionBody_append] at hread
  exact Parser.parse_of_parseLines_ok hread

theorem parseSectionOf_accepts_iff (tokens : TokenList)
    (hlines : ∀ line ∈ lines, line ≠ []) :
    (parseSectionOf tokens lines).1 = .ok () ↔
      Supplied tokens (sectionBody lines) ∨ behindSection lines = [] := by
  have hsupplied : (∀ entry ∈ (parseBody tokens (sectionBody lines)
      tokens.reqarr {}).1.entries, tokens.getDefault entry.1 ≠ []) ↔
      Supplied tokens (sectionBody lines) := by
    rw [Supplied, ← absent_eq, List.forall_mem_map]
  have heof : ConfigReader.lineReader.isEof ⟨behindSection lines, true⟩ =
      true ↔ behindSection lines = [] := by
    simp [ConfigReader.lineReader, ConfigReader.isEof]
  rw [parseSectionOf_eq hlines, Parser.finish_accepts_iff, hsupplied, heof]

/-- An accepted section has the values of its lines and the defaults up to the
first token without one. -/
theorem parseSectionOf_value (hlines : ∀ line ∈ lines, line ≠ [])
    (hok : (parseSectionOf tokens lines).1 = .ok ()) (u : Nat) :
    (parseSectionOf tokens lines).2.2.map.find u =
      (firstValue tokens (sectionBody lines) u).or
        (if u ∈ defaulted tokens (sectionBody lines) then
          some (tokens.getDefault u) else none) := by
  have hcontents := sectionValues_ownContents tokens (sectionBody lines)
  rw [parseSectionOf_eq hlines] at hok ⊢
  rcases Parser.finish_cases _ _ _ with ⟨e, written, hfinish⟩ | hfinish
  · rw [hfinish] at hok
    cases hok
  · rw [hfinish]
    exact hcontents.values u

/-- The required tokens of an accepted section are complete exactly when
nothing was left over. -/
theorem complete_iff_supplied (hlines : ∀ line ∈ lines, line ≠ [])
    (hok : (parseSectionOf tokens lines).1 = .ok ()) :
    (∀ u ∈ tokens.reqarr.keys, ∃ value,
      requiredValue tokens (sectionBody lines) u = some value ∧
        (parseSectionOf tokens lines).2.2.map.find u = some value) ↔
      Supplied tokens (sectionBody lines) := by
  constructor
  · intro hcomplete u habsent hnone
    obtain ⟨hkey, hline⟩ := List.mem_filter.mp habsent
    obtain ⟨value, -, hfind⟩ := hcomplete u hkey
    have hnot : u ∉ defaulted tokens (sectionBody lines) := by
      intro hmem
      have hdefault := List.mem_takeWhile_imp hmem
      simp [hnone] at hdefault
    rw [parseSectionOf_value hlines hok, Option.isNone_iff_eq_none.mp hline,
      if_neg hnot] at hfind
    cases hfind
  · intro hsupplied u hkey
    rw [parseSectionOf_value hlines hok, requiredValue]
    cases hvalue : firstValue tokens (sectionBody lines) u with
    | some value => exact ⟨value, rfl, rfl⟩
    | none =>
        have habsent : u ∈ absent tokens (sectionBody lines) :=
          List.mem_filter.mpr ⟨hkey, by rw [hvalue]; rfl⟩
        refine ⟨tokens.getDefault u, ?_, ?_⟩
        · rw [Option.none_or]
          exact default_find (hsupplied u habsent)
        · rw [hsupplied.defaulted_eq, if_pos habsent]
          rfl

/-- The parser is complete for required tokens exactly when the section is not
the last one, or nothing required is left over. -/
theorem required_complete_iff (tokens : TokenList) {lines : List Str}
    (hlines : ∀ line ∈ lines, line ≠ []) :
    (((parseSectionOf tokens lines).1 = .ok () →
        ∀ u ∈ tokens.reqarr.keys, ∃ value,
          requiredValue tokens (sectionBody lines) u = some value ∧
            (parseSectionOf tokens lines).2.2.map.find u = some value) ∧
      ((∃ u ∈ tokens.reqarr.keys,
          requiredValue tokens (sectionBody lines) u = none) →
        ∃ e, (parseSectionOf tokens lines).1 = .error e)) ↔
    behindSection lines ≠ [] ∨ Supplied tokens (sectionBody lines) := by
  have haccepts := parseSectionOf_accepts_iff tokens hlines
  constructor
  · rintro ⟨hcomplete, -⟩
    by_cases hlast : behindSection lines = []
    · have hok := haccepts.mpr (Or.inr hlast)
      exact Or.inr ((complete_iff_supplied hlines hok).mp (hcomplete hok))
    · exact Or.inl hlast
  · intro hcondition
    have hsupplied : (parseSectionOf tokens lines).1 = .ok () →
        Supplied tokens (sectionBody lines) := by
      intro hok
      rcases haccepts.mp hok with hsupplied | hlast
      · exact hsupplied
      · exact hcondition.resolve_left fun hne => hne hlast
    refine ⟨fun hok => (complete_iff_supplied hlines hok).mpr
      (hsupplied hok), ?_⟩
    rintro ⟨u, hkey, hnone⟩
    cases hresult : (parseSectionOf tokens lines).1 with
    | error e => exact ⟨e, rfl⟩
    | ok done =>
        have hcomplete := (complete_iff_supplied hlines hresult).mpr
          (hsupplied hresult)
        obtain ⟨value, hvalue, -⟩ := hcomplete u hkey
        rw [hnone] at hvalue
        cases hvalue

end ConfigWriter

namespace RequiredWitness

/-- A section without a name as the last one of a configuration. -/
def unnamed : List Str :=
  ["type=all".toList]

theorem last_section_lacks_name :
    (∀ line ∈ unnamed, line ≠ []) ∧
      0 ∈ (Tokens.configTokens .match).reqarr.keys ∧
      ConfigWriter.requiredValue (Tokens.configTokens .match)
        (sectionBody unnamed) 0 = none ∧
      (ConfigWriter.parseSectionOf (Tokens.configTokens .match) unnamed).1 =
        .ok () ∧
      (ConfigWriter.parseSectionOf (Tokens.configTokens .match)
        unnamed).2.2.map.find 0 = none := by
  decide +kernel

/-- The same section in the middle. -/
theorem middle_section_rejected :
    ∃ e, (ConfigWriter.parseSectionOf (Tokens.configTokens .match)
      (unnamed ++ ["[server]".toList])).1 = .error e :=
  ((ConfigWriter.required_complete_iff (Tokens.configTokens .match)
    (by decide)).mpr (Or.inl (by decide))).2 ⟨0, by decide, by decide⟩

end RequiredWitness

end GreylistServer
