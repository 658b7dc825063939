/-
What earlier load attempts change.  A `System` clears its containers at the
normal end of a configuration only, so the names a failed attempt has entered
are still there when the next configuration is loaded.
-/
import GreylistServer.SystemSections

namespace GreylistServer

/-- One call of `compileConfig` with a fresh core and fresh settings: the
lines it reads and what opening the listening socket does. -/
structure Attempt where
  lines : List Str
  openListener : Listener

namespace Attempt

/-- The sections of the lines, and the error of the first that does not
parse. -/
def sections (c : Attempt) : List ParsedSection × Option Error :=
  System.readSections { rest := c.lines }

def settings (c : Attempt) : ServerSettings :=
  System.settingsAfter c.sections.1 {}

/-- The listening socket can be opened with the settings of the lines. -/
def CanListen (c : Attempt) : Prop :=
  c.openListener c.settings.params.host c.settings.params.port = .ok ()

/-- Every section parses and fits the names known before it. -/
def CompleteWith (c : Attempt) (known : List Name) : Prop :=
  c.sections.2 = none ∧ System.Complete known c.sections.1

instance (c : Attempt) (known : List Name) : Decidable (c.CompleteWith known) :=
  inferInstanceAs (Decidable (_ ∧ _))

/-- The names in the containers after the attempt, when `known` are there
before it. -/
def leaves (c : Attempt) (known : List Name) : List Name :=
  if c.CompleteWith known then [] else System.reached known c.sections.1

theorem CompleteWith.congr {known other : List Name}
    (hsame : ∀ name, name ∈ known ↔ name ∈ other) (c : Attempt) :
    c.CompleteWith known ↔ c.CompleteWith other := by
  rw [CompleteWith, CompleteWith, System.Complete.congr hsame]

theorem leaves_congr {known other : List Name}
    (hsame : ∀ name, name ∈ known ↔ name ∈ other) (c : Attempt)
    (name : Name) : name ∈ c.leaves known ↔ name ∈ c.leaves other := by
  have hcomplete := CompleteWith.congr hsame c
  rw [leaves, leaves]
  by_cases hknown : c.CompleteWith known
  · rw [if_pos hknown, if_pos (hcomplete.mp hknown)]
  · rw [if_neg hknown, if_neg (fun hother => hknown (hcomplete.mpr hother))]
    exact System.reached_congr hsame c.sections.1 name

/-- No section defines one of the names. -/
def DefinesNone (c : Attempt) (left : List Name) : Prop :=
  ∀ s ∈ c.sections.1, ∀ name ∈ s.defines, name ∉ left

end Attempt

namespace System

def load (sys : System) (c : Attempt) : Except Error ServerParams × Loading :=
  compileConfig c.openListener c.lines false { system := sys }

/-- Whether an attempt is accepted, and what it then produces. -/
def outcome (sys : System) (c : Attempt) :
    Option (ServerParams × Chain × ServerSettings) :=
  match sys.load c with
  | (.ok params, load) => some (params, load.core, load.settings)
  | (.error _, _) => none

/-- A freshly constructed system after a history of attempts. -/
def after (history : List Attempt) : System :=
  history.foldl (fun sys c => (sys.load c).2.system) {}

/-- The names a history leaves over. -/
def leftover (history : List Attempt) : List Name :=
  history.foldl (fun known c => c.leaves known) []

theorem load_eq (sys : System) (c : Attempt) :
    sys.load c =
      match finishSections c.sections.2
        (createAll c.sections.1 { system := sys }) with
      | (.error e, load) => (.error e, load)
      | (.ok (), load) => startServer c.openListener load := by
  rw [load, compileConfig, if_neg Bool.false_ne_true,
    parseConfigurationSections_eq]
  rfl

theorem startServer_system (openListener : Listener) (load : Loading) :
    (startServer openListener load).2.system = load.system := by
  unfold startServer
  split <;> rfl

/-- An attempt whose sections are all taken empties the containers, any other
leaves what it has entered so far. -/
theorem load_names (sys : System) (c : Attempt) (name : Name) :
    name ∈ (sys.load c).2.system.names ↔ name ∈ c.leaves sys.names := by
  have haccepts := createAll_accepts_iff c.sections.1 { system := sys }
  have hnames := createAll_names c.sections.1 { system := sys } name
  rw [load_eq, Attempt.leaves]
  rcases hall : createAll c.sections.1 { system := sys } with ⟨result, loaded⟩
  rw [hall] at haccepts hnames
  cases result with
  | error e =>
      rw [if_neg (fun hcomplete => nomatch haccepts.mpr hcomplete.2)]
      exact hnames
  | ok done =>
      cases hparsed : c.sections.2 with
      | some e =>
          have hbroken : ¬ c.CompleteWith sys.names := by
            rintro ⟨hnone, -⟩
            rw [hparsed] at hnone
            cases hnone
          rw [if_neg hbroken]
          exact hnames
      | none =>
          rw [if_pos ⟨hparsed, haccepts.mp rfl⟩]
          simp only [finishSections, startServer_system]
          exact Iff.rfl

/-- What an accepted attempt produces. -/
theorem outcome_of_complete {sys : System} {c : Attempt} (hlisten : c.CanListen)
    (hcomplete : c.CompleteWith sys.names) :
    sys.outcome c = some (c.settings.params,
      (createAll c.sections.1 { system := sys }).2.core,
      c.settings.compiled) := by
  obtain ⟨hparsed, hfits⟩ := hcomplete
  have haccepted :
      (createAll c.sections.1 { system := sys }).1 = .ok () :=
    (createAll_accepts_iff _ _).mpr hfits
  have hsettings :
      (createAll c.sections.1 { system := sys }).2.settings = c.settings :=
    createAll_settings _ _ haccepted
  rw [outcome, load_eq]
  rcases hall : createAll c.sections.1 { system := sys } with ⟨result, loaded⟩
  rw [hall] at haccepted hsettings
  obtain rfl : result = .ok () := haccepted
  have hopened : c.openListener loaded.settings.params.host
      loaded.settings.params.port = .ok () := hsettings ▸ hlisten
  simp only [hparsed, finishSections, startServer, hopened]
  rw [hsettings]

theorem outcome_of_not_accepted {sys : System} {c : Attempt}
    (hnot : ¬ (c.CanListen ∧ c.CompleteWith sys.names)) :
    sys.outcome c = none := by
  have haccepts := createAll_accepts_iff c.sections.1 { system := sys }
  have hsettings := createAll_settings c.sections.1 { system := sys }
  rw [outcome, load_eq]
  rcases hall : createAll c.sections.1 { system := sys } with ⟨result, loaded⟩
  rw [hall] at haccepts hsettings
  cases result with
  | error e => rfl
  | ok done =>
      cases hparsed : c.sections.2 with
      | some e => rfl
      | none =>
          have hcomplete : c.CompleteWith sys.names :=
            ⟨hparsed, haccepts.mp rfl⟩
          have hclosed : ¬ c.CanListen := fun hlisten =>
            hnot ⟨hlisten, hcomplete⟩
          have hloaded : loaded.settings = c.settings := hsettings rfl
          simp only [finishSections, startServer]
          rw [hloaded]
          cases hopened : c.openListener c.settings.params.host
              c.settings.params.port with
          | error e => rfl
          | ok done => exact absurd hopened hclosed

/-- Leftover names change nothing for an attempt: its socket cannot be opened
anyway, or it is complete by itself and defines none of them, or it is not
complete and they do not make it so. -/
def HistoryFree (c : Attempt) (left : List Name) : Prop :=
  ¬ c.CanListen ∨ c.CompleteWith [] ∧ c.DefinesNone left ∨
    ¬ c.CompleteWith [] ∧ ¬ c.CompleteWith left

theorem within_fresh (sys : System) :
    Within { system := {} } { system := sys } where
  databases _ _ hfind := nomatch hfind
  datasources _ _ hfind := nomatch hfind
  matchers _ _ hfind := nomatch hfind
  core := rfl
  settings := rfl

theorem completeWith_iff_definesNone {c : Attempt}
    (hcomplete : c.CompleteWith []) (left : List Name) :
    c.CompleteWith left ↔ c.DefinesNone left := by
  have hiff := complete_append_iff hcomplete.2 left
  rw [List.nil_append] at hiff
  exact ⟨fun hleft => hiff.mp hleft.2, fun hnone =>
    ⟨hcomplete.1, hiff.mpr hnone⟩⟩

/-- Where a fresh system and another one both accept, they produce the
same. -/
theorem outcome_eq_of_complete {sys : System} {c : Attempt}
    (hlisten : c.CanListen) (hfresh : c.CompleteWith [])
    (hcomplete : c.CompleteWith sys.names) :
    sys.outcome c = ({} : System).outcome c := by
  have hwithin := createAll_within (within_fresh sys)
    ((createAll_accepts_iff c.sections.1 _).mpr hfresh.2)
    ((createAll_accepts_iff c.sections.1 _).mpr hcomplete.2)
  have houtcome : ({} : System).outcome c = _ :=
    outcome_of_complete hlisten hfresh
  rw [houtcome, outcome_of_complete hlisten hcomplete, hwithin.core]

theorem outcome_eq_iff (sys : System) (c : Attempt) :
    sys.outcome c = ({} : System).outcome c ↔ HistoryFree c sys.names := by
  by_cases hlisten : c.CanListen
  · by_cases hfresh : c.CompleteWith []
    · have hsome : ({} : System).outcome c = _ :=
        outcome_of_complete hlisten hfresh
      by_cases hleft : c.CompleteWith sys.names
      · have hnone := (completeWith_iff_definesNone hfresh _).mp hleft
        exact iff_of_true (outcome_eq_of_complete hlisten hfresh hleft)
          (Or.inr (Or.inl ⟨hfresh, hnone⟩))
      · have hrejected : sys.outcome c = none :=
          outcome_of_not_accepted fun haccepted => hleft haccepted.2
        rw [hrejected, hsome]
        apply iff_of_false nofun
        rintro (hclosed | ⟨-, hnone⟩ | ⟨hbroken, -⟩)
        · exact hclosed hlisten
        · exact hleft ((completeWith_iff_definesNone hfresh _).mpr hnone)
        · exact hbroken hfresh
    · have hrejected : ({} : System).outcome c = none :=
        outcome_of_not_accepted fun haccepted => hfresh haccepted.2
      by_cases hleft : c.CompleteWith sys.names
      · rw [hrejected, outcome_of_complete hlisten hleft]
        apply iff_of_false nofun
        rintro (hclosed | ⟨hcomplete, -⟩ | ⟨-, hstill⟩)
        · exact hclosed hlisten
        · exact hfresh hcomplete
        · exact hstill hleft
      · have hstill : sys.outcome c = none :=
          outcome_of_not_accepted fun haccepted => hleft haccepted.2
        exact iff_of_true (hstill.trans hrejected.symm)
          (Or.inr (Or.inr ⟨hfresh, hleft⟩))
  · have hrejected : ({} : System).outcome c = none :=
      outcome_of_not_accepted fun haccepted => hlisten haccepted.1
    have hstill : sys.outcome c = none :=
      outcome_of_not_accepted fun haccepted => hlisten haccepted.1
    exact iff_of_true (hstill.trans hrejected.symm) (Or.inl hlisten)

theorem mem_leftover (history : List Attempt) (name : Name) :
    name ∈ (after history).names ↔ name ∈ leftover history := by
  induction history using List.reverseRecOn generalizing name with
  | nil => exact Iff.rfl
  | append_singleton history c ih =>
      rw [after, leftover, List.foldl_concat, List.foldl_concat]
      exact (load_names (after history) c name).trans
        (Attempt.leaves_congr ih c name)

theorem HistoryFree.congr {known other : List Name}
    (hsame : ∀ name, name ∈ known ↔ name ∈ other) (c : Attempt) :
    HistoryFree c known ↔ HistoryFree c other := by
  simp only [HistoryFree, Attempt.DefinesNone, hsame,
    Attempt.CompleteWith.congr hsame c]

/-- After any history an attempt is accepted as by a fresh system, with the
same chain and settings, exactly when the names the history leaves over change
nothing for it. -/
theorem outcome_after_history_iff (history : List Attempt) (c : Attempt) :
    (after history).outcome c = ({} : System).outcome c ↔
      HistoryFree c (leftover history) := by
  rw [outcome_eq_iff]
  exact HistoryFree.congr (mem_leftover history) c

end System

namespace SystemReloadWitness

def database : List String :=
  ["[database]", "name=greylistdb", "type=mysql"]

/-- A configuration with a slip in its last section. -/
def broken : Attempt where
  lines := (database ++ ["[policy]", "type=whitelst", "match=all"]).map
    String.toList
  openListener _ _ := .ok ()

/-- The same configuration with the slip mended. -/
def mended : Attempt where
  lines := (database ++ ["[match]", "name=all", "type=all", "[policy]",
    "type=whitelist", "match=all"]).map String.toList
  openListener _ _ := .ok ()

/-- A fresh system accepts the mended configuration; after the broken one it is
rejected, because its database is still there. -/
theorem mended_rejected_after_broken :
    (({} : System).outcome mended).isSome = true ∧
      ((System.after [broken]).outcome mended).isSome = false ∧
      (match ((System.after [broken]).load mended).1 with
        | .ok _ => []
        | .error e => e.what) =
        "database named 'greylistdb' already defined".toList ∧
      ¬ (System.after [broken]).outcome mended =
        ({} : System).outcome mended := by
  have hfresh : (({} : System).outcome mended).isSome = true := by
    decide +kernel
  have hafter : ((System.after [broken]).outcome mended).isSome = false := by
    decide +kernel
  refine ⟨hfresh, hafter, by decide +kernel, ?_⟩
  intro heq
  rw [heq, hfresh] at hafter
  cases hafter

end SystemReloadWitness

end GreylistServer
