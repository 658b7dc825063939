/-
The server settings.  They are copied section by section, the first value of a
token winning, and read with an access that makes up empty values; so without
any server section the defaults of the tokens are never applied.  Of the two
tests for the status in a response the second one overwrites the first.
-/
import GreylistServer.ParserRequired
import GreylistServer.SystemReload

namespace GreylistServer

namespace System

/-- The sections a configuration opens, each with its lines. -/
def sectionBodies : List Str → List (SectionsTokensType × List Str)
  | [] => []
  | line :: rest =>
      match openedSection line with
      | none => sectionBodies rest
      | some stkid =>
          (stkid, sectionBody rest) :: sectionBodies (behindSection rest)
termination_by lines => lines.length
decreasing_by
  · exact Nat.lt_succ_self rest.length
  · exact Nat.lt_succ_of_le (List.dropWhile_suffix _).length_le

/-- The lines of the first server section. -/
def firstServer (lines : List Str) : Option (List Str) :=
  (sectionBodies lines).findSome? fun entry =>
    if entry.1 = .server then some entry.2 else none

theorem sectionBody_cons (line : Str) (rest : List Str) :
    sectionBody (line :: rest) =
      if isBoundary line then [] else line :: sectionBody rest := by
  rw [sectionBody, List.takeWhile_cons]
  cases isBoundary line <;> rfl

/-- Lines that are read without an error up to the boundary are plain ones. -/
theorem sectionBody_plain_of_parseLines {tokens : TokenList}
    {lines : List Str} {required left : OrdMap Nat Bool}
    {writer written : ConfigWriter} {after : ConfigReader}
    (hread : Parser.parseLines ConfigReader.lineReader
      ConfigWriter.fieldWriter tokens true required ⟨lines, true⟩ writer =
      (.ok left, after, written)) :
    ∀ line ∈ sectionBody lines, PlainLine line := by
  induction lines generalizing required writer with
  | nil => simp [sectionBody]
  | cons line rest ih =>
      rw [sectionBody_cons]
      cases hboundary : isBoundary line with
      | true => simp
      | false =>
          rw [Parser.parseLines] at hread
          cases line with
          | nil =>
              have herror : ConfigReader.lineReader.getline
                  ⟨[] :: rest, true⟩ = (.error (.out_of_range
                    "basic_string::at".toList), ⟨[] :: rest, true⟩) := rfl
              rw [herror] at hread
              cases hread
          | cons c tail =>
              have hplain : PlainLine (c :: tail) :=
                (plainLine_iff _).mpr ⟨List.cons_ne_nil c tail, hboundary⟩
              have hline : ConfigReader.lineReader.getline
                  ⟨(c :: tail) :: rest, true⟩ =
                  (.ok (some (c :: tail)), ⟨rest, true⟩) :=
                getline_plain hplain rest
              rw [hline] at hread
              have hrest := ih hread
              simp only [Bool.false_eq_true, ↓reduceIte, List.forall_mem_cons]
              exact ⟨hplain, hrest⟩

theorem sectionBody_plain_of_parsed {stkid : SectionsTokensType}
    {lines : List Str} {mode : Bool} {after : ConfigReader}
    {cfg : ConfigWriter}
    (hparse : parseSection stkid ⟨lines, mode⟩ = (.ok (), after, cfg)) :
    ∀ line ∈ sectionBody lines, PlainLine line := by
  rw [parseSection, Parser.parse] at hparse
  split at hparse
  · cases hparse
  · next hread => exact sectionBody_plain_of_parseLines hread

/-- The creator calls of a configuration that parses: one for every section it
opens, with the values of the section's lines. -/
theorem readSections_eq (lines : List Str) (mode : Bool)
    (hok : (readSections ⟨lines, mode⟩).2 = none) :
    (readSections ⟨lines, mode⟩).1 = (sectionBodies lines).map fun entry =>
      ⟨entry.1, ConfigWriter.sectionValues (Tokens.configTokens entry.1)
        entry.2⟩ := by
  induction lines using sectionBodies.induct generalizing mode with
  | case1 => rw [readSections_nil, sectionBodies, List.map_nil]
  | case2 line rest hopened ih =>
      rw [readSections_ignored hopened] at hok ⊢
      rw [sectionBodies, hopened]
      exact ih false hok
  | case3 line rest stkid hopened ih =>
      rw [sectionBodies, hopened]
      cases hparse : parseSection stkid ⟨rest, false⟩ with
      | mk result parsed =>
          obtain ⟨after, cfg⟩ := parsed
          cases result with
          | error e =>
              rw [readSections_unparsed hopened hparse] at hok
              cases hok
          | ok done =>
              have hbody := sectionBody_plain_of_parsed hparse
              have htail := behindSection_atBoundary rest
              rw [← sectionBody_append rest] at hok ⊢
              obtain ⟨hcalls, hrest⟩ :=
                readSections_opened hopened hbody htail mode hok
              rw [sectionBody_append] at hcalls ⊢
              rw [hcalls, ih true hrest, List.map_cons]

/-- The value of a token in a server section: that of its first line, or else
its default. -/
def serverValue (body : List Str) (u : ServerTokensType) : Str :=
  (ConfigWriter.firstValue Tokens.serverTokens body u).getD
    (Tokens.serverTokens.getDefault u)

theorem serverTokens_supplied (body : List Str) :
    ConfigWriter.Supplied Tokens.serverTokens body := by
  have hdefaults : ∀ u ∈ Tokens.serverTokens.reqarr.keys,
      Tokens.serverTokens.getDefault u ≠ [] := by
    decide
  intro u habsent
  exact hdefaults u (List.mem_filter.mp habsent).1

/-- Every server section has a value for every token. -/
theorem sectionValues_server (body : List Str) (u : ServerTokensType) :
    (ConfigWriter.sectionValues (Tokens.configTokens .server)
      body).map.find u = some (serverValue body u) := by
  have hkey : ∀ u : ServerTokensType,
      (u : Nat) ∈ Tokens.serverTokens.reqarr.keys := by
    intro u
    cases u <;> decide
  have hvalues := (ConfigWriter.sectionValues_ownContents Tokens.serverTokens
    body).values u
  rw [(serverTokens_supplied body).defaulted_eq] at hvalues
  rw [serverValue, Tokens.configTokens, hvalues]
  cases hfirst : ConfigWriter.firstValue Tokens.serverTokens body u with
  | some value => rfl
  | none =>
      have habsent : (u : Nat) ∈
          ConfigWriter.absent Tokens.serverTokens body :=
        List.mem_filter.mpr ⟨hkey u, by rw [hfirst]; rfl⟩
      rw [if_pos habsent]
      rfl

/-- The first server section that has a value for a token sets it. -/
theorem settingsAfter_find (sections : List ParsedSection)
    (settings : ServerSettings) (u : Nat) :
    (settingsAfter sections settings).find u =
      (settings.find u).or (sections.findSome? fun s =>
        if s.stkid = .server then s.cfg.map.find u else none) := by
  induction sections generalizing settings with
  | nil => simp [settingsAfter]
  | cons s rest ih =>
      rw [settingsAfter, ih, List.findSome?_cons]
      by_cases hserver : s.stkid = .server
      · rw [if_pos hserver, if_pos hserver, OrdMap.find_insertAll,
          Option.or_assoc]
        cases s.cfg.map.find u <;> rfl
      · rw [if_neg hserver, if_neg hserver]

/-- The first server section among the sections with their lines. -/
theorem findSome?_server (bodies : List (SectionsTokensType × List Str))
    (u : ServerTokensType) :
    (bodies.findSome? fun entry =>
      if entry.1 = .server then
        (ConfigWriter.sectionValues (Tokens.configTokens entry.1)
          entry.2).map.find u
      else none) =
    (bodies.findSome? fun entry =>
      if entry.1 = .server then some entry.2 else none).map
        fun body => serverValue body u := by
  induction bodies with
  | nil => rfl
  | cons entry rest ih =>
      obtain ⟨stkid, body⟩ := entry
      rw [List.findSome?_cons, List.findSome?_cons]
      by_cases hserver : stkid = .server
      · subst hserver
        simp only [↓reduceIte, sectionValues_server, Option.map_some]
      · simp only [if_neg hserver]
        exact ih

/-- The settings of a configuration that is accepted are those of its first
server section. -/
theorem loaded_settings {lines : List Str} {sys : System} {loaded : Loading}
    (hok : parseConfigurationSections { rest := lines } { system := sys } =
      (.ok (), loaded)) (u : ServerTokensType) :
    loaded.settings.find u =
      (firstServer lines).map fun body => serverValue body u := by
  obtain ⟨hread, created, hcreate, rfl⟩ := parseConfigurationSections_ok hok
  have haccepted := congrArg Prod.fst hcreate
  have hsettings := createAll_settings _ _ haccepted
  rw [hcreate] at hsettings
  have hempty : (({} : ServerSettings).find (u : Nat)) = none := rfl
  rw [hsettings, settingsAfter_find, readSections_eq lines false hread,
    hempty, Option.none_or, List.findSome?_map]
  exact findSome?_server (sectionBodies lines) u

end System

namespace ServerSettings

theorem value_foldl_insert (settings : ServerSettings)
    (positions : List Nat) (u : ServerTokensType) :
    value (positions.foldl (fun result v => result.insert v []) settings) u =
      settings.value u := by
  induction positions generalizing settings with
  | nil => rfl
  | cons position positions ih =>
      have hinsert : value (settings.insert position []) u =
          settings.value u := by
        rw [value, value, OrdMap.find_insert]
        split
        · next heq => rw [Option.getD_some, heq]
        · rfl
      rw [List.foldl_cons]
      exact (ih _).trans hinsert

/-- Accesses make up empty values and change none. -/
theorem value_access (settings : ServerSettings)
    (keys : List ServerTokensType) (u : ServerTokensType) :
    (settings.access keys).value u = settings.value u := by
  have hkeys : settings.access keys =
      (keys.map ServerTokensType.ctorIdx).foldl
        (fun result v => result.insert v []) settings := by
    simp [access, List.map_eq_flatMap]
  rw [hkeys]
  exact value_foldl_insert settings _ u

theorem value_compiled (settings : ServerSettings) (u : ServerTokensType) :
    settings.compiled.value u = settings.value u := by
  rw [compiled, value_access, looked, value_access]

/-- The server is built from the values only. -/
theorem params_congr {settings other : ServerSettings}
    (hsame : ∀ u, settings.value u = other.value u) :
    settings.params = other.params := by
  simp only [params, number, deferwithstatus, loglevel, hsame]

end ServerSettings

namespace System

theorem compileConfig_ok {openListener : Listener} {lines : List Str}
    {load after : Loading} {params : ServerParams}
    (hok : compileConfig openListener lines false load =
      (.ok params, after)) :
    ∃ loaded, parseConfigurationSections { rest := lines } load =
        (.ok (), loaded) ∧
      params = loaded.settings.params ∧
      after.settings = loaded.settings.compiled := by
  rw [compileConfig, if_neg Bool.false_ne_true] at hok
  split at hok
  · cases hok
  · next loaded hparsed =>
      refine ⟨loaded, hparsed, ?_⟩
      unfold startServer at hok
      split at hok
      · injection hok with hresult
        cases hresult
      · injection hok with hresult hload
        injection hresult with hparams
        exact ⟨hparams.symm, by rw [← hload]⟩

end System

namespace Action

/-- The response of a decision carries the status. -/
def CarriesStatus (action : Action) (result : ActionType) (triplet : Triplet)
    (extra : Extra) : Prop :=
  ∃ text log, action.text result = some text ∧
    action.process result triplet extra =
      .ok (("action=" : Str) ++ text ++ ((" " : Str) ++ status extra) ++
        ("\n\n" : Str), log)

theorem isDefer_iff (text : Str) :
    isDefer text = true ↔ "defer_if_permit".toList <+: text := by
  rw [isDefer, decide_eq_true_iff, List.prefix_iff_eq_take]
  exact eq_comm

theorem carriesStatus_iff (action : Action) {result : ActionType}
    {text : Str} (htext : action.text result = some text) (triplet : Triplet)
    (extra : Extra) :
    action.CarriesStatus result triplet extra ↔
      action.deferwithstatus = true ∧ "defer_if_permit".toList <+: text := by
  rw [← isDefer_iff, CarriesStatus, process, htext]
  simp only
  by_cases hflag : (action.deferwithstatus && isDefer text) = true
  · rw [if_pos hflag]
    rw [Bool.and_eq_true] at hflag
    exact ⟨fun _ => hflag, fun _ => ⟨text, _, rfl, rfl⟩⟩
  · rw [if_neg hflag, ← Bool.and_eq_true]
    constructor
    · rintro ⟨found, log, hfound, hprocess⟩
      injection hfound with hsame
      subst hsame
      injection hprocess with hpair
      injection hpair with hresponse
      have hlength := congrArg List.length hresponse
      simp only [List.length_append, List.length_nil] at hlength
      have hblank : (" ".toList).length = 1 := rfl
      omega
    · intro hboth
      exact absurd hboth hflag

end Action

namespace ServerSettings

theorem findToken_dunno_iff (text : Str) :
    Tokens.postfixResponseTokens.findToken text = some 0 ↔
      text = "dunno".toList := by
  have honly : ∀ entry ∈ Tokens.postfixResponseTokens.map.entries,
      entry.2 = 0 → entry.1 = "dunno".toList := by
    decide
  constructor
  · intro hfind
    exact honly _ (OrdMap.mem_entries_of_find hfind) rfl
  · rintro rfl
    decide

/-- The configured flag does not reach the action. -/
theorem deferwithstatus_iff (settings : ServerSettings) :
    settings.deferwithstatus = true ↔
      settings.value .defer ≠ "dunno".toList := by
  rw [deferwithstatus, ne_eq, ← findToken_dunno_iff]
  by_cases hdunno : Tokens.postfixResponseTokens.findToken
      (settings.value .defer) = some 0
  · simp [hdunno]
  · simp [hdunno]

/-- The settings ask for the status in the response with a text. -/
def AsksStatus (settings : ServerSettings) (text : Str) : Prop :=
  settings.value .deferwithstatus ≠ "false".toList ∧
    settings.value .defer ≠ "dunno".toList ∧
    "defer_if_permit".toList <+: text

/-- A response carries the status exactly when the settings ask for it, unless
they switch it off for a text that asks the client to come again. -/
theorem status_as_asked_iff (settings : ServerSettings) {result : ActionType}
    {text : Str} (htext : settings.params.action.text result = some text)
    (triplet : Triplet) (extra : Extra) :
    (settings.params.action.CarriesStatus result triplet extra ↔
        settings.AsksStatus text) ↔
      (settings.value .deferwithstatus ≠ "false".toList ∨
        settings.value .defer = "dunno".toList ∨
        ¬ "defer_if_permit".toList <+: text) := by
  have hflag : settings.params.action.deferwithstatus = true ↔
      settings.value .defer ≠ "dunno".toList := deferwithstatus_iff settings
  rw [Action.carriesStatus_iff _ htext, hflag, AsksStatus]
  tauto

end ServerSettings

namespace SettingsWitness

/-- A listener that can be opened on every address. -/
def listener : Listener := fun _ _ => .ok ()

/-- The status is switched off and a deferred client gets it all the same. -/
def silenced : ServerSettings :=
  ⟨[(ServerTokensType.deferwithstatus, "false".toList),
    (ServerTokensType.defer, "defer_if_permit".toList)]⟩

theorem silenced_carries_status :
    silenced.value .deferwithstatus = "false".toList ∧
      (silenced.params.action.process .defer (Triplet.new [] [] [] [] [])
        { prefixText := "greylisted".toList, count := 1, diff := 0 }).map
          Prod.fst =
        .ok "action=defer_if_permit greylisted: (1, 0 secs)\n\n".toList := by
  decide

def deferring : ServerSettings :=
  ⟨[(ServerTokensType.defer, "defer_if_permit".toList)]⟩

theorem deferring_carries_status :
    deferring.params.action.CarriesStatus .defer (Triplet.new [] [] [] [] [])
      {} := by
  have htext : deferring.params.action.text .defer =
      some "defer_if_permit".toList := rfl
  have hiff := ServerSettings.status_as_asked_iff deferring htext
    (Triplet.new [] [] [] [] []) {}
  exact (hiff.mpr (Or.inl (by decide))).mpr
    ⟨by decide, by decide, List.prefix_refl _⟩

end SettingsWitness

end GreylistServer
