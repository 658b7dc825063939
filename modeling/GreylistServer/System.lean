/-
Loading a configuration.  The lines are read section by section, every section
goes to its creator, and the containers of named objects are cleared when the
last section has been taken.  An exception leaves them as they are.
-/
import GreylistServer.Creators
import GreylistServer.Server

namespace GreylistServer

/-- The lines still to be read.  In section mode a line that begins with a
bracket is the end of the input. -/
structure ConfigReader where
  rest : List Str
  sectionMode : Bool := false
deriving Repr, DecidableEq

namespace ConfigReader

/-- The first character of a line is looked at in section mode only, and an
empty line has none. -/
def getline (reader : ConfigReader) :
    Except Error (Option Str) × ConfigReader :=
  match reader.rest with
  | [] => (.ok none, reader)
  | line :: rest =>
      if reader.sectionMode then
        match line with
        | [] => (.error (.out_of_range "basic_string::at"), reader)
        | c :: _ =>
            if c = '[' then (.ok none, reader)
            else (.ok (some line), { reader with rest := rest })
      else (.ok (some line), { reader with rest := rest })

def isEof (reader : ConfigReader) : Bool :=
  reader.rest = []

def switchSectionMode (reader : ConfigReader) (b : Bool) : ConfigReader :=
  { reader with sectionMode := b }

/-- A call that returns a line takes it; every other call takes nothing. -/
theorem getline_cases (reader : ConfigReader) :
    (∃ line rest, reader.rest = line :: rest ∧
        reader.getline = (.ok (some line), { reader with rest := rest })) ∨
      reader.getline.2 = reader ∧ ∀ line, reader.getline.1 ≠ .ok (some line) := by
  unfold getline
  split
  · exact Or.inr ⟨rfl, by simp⟩
  · next line rest hrest =>
      split
      · split
        · exact Or.inr ⟨rfl, by simp⟩
        · split
          · exact Or.inr ⟨rfl, by simp⟩
          · exact Or.inl ⟨_, rest, hrest, rfl⟩
      · exact Or.inl ⟨line, rest, hrest, rfl⟩

theorem getline_length_le (reader : ConfigReader) :
    reader.getline.2.rest.length ≤ reader.rest.length := by
  rcases reader.getline_cases with ⟨line, rest, hrest, hline⟩ | ⟨hsame, -⟩
  · rw [hline, hrest]
    exact Nat.le_succ rest.length
  · rw [hsame]

theorem getline_length_lt {reader after : ConfigReader} {line : Str}
    (hline : reader.getline = (.ok (some line), after)) :
    after.rest.length < reader.rest.length := by
  rcases reader.getline_cases with ⟨first, rest, hrest, htaken⟩ | ⟨-, hnone⟩
  · rw [hline] at htaken
    obtain rfl : after = { reader with rest := rest } :=
      congrArg Prod.snd htaken
    rw [hrest]
    exact Nat.lt_succ_self rest.length
  · exact absurd (congrArg Prod.fst hline) (hnone line)

def lineReader : LineReader ConfigReader where
  getline := getline
  isEof := isEof
  size reader := reader.rest.length
  shrinks _ _ _ := getline_length_lt

end ConfigReader

namespace System

/-- The section a line opens.  With the brackets the wrong way round the length
passed to `substr` wraps around and the rest of the line is taken. -/
def sectionName (line : Str) : Option Str :=
  match findFrom line '[' 0, findFrom line ']' 0 with
  | some left, some right =>
      if left < right then some (substr line (left + 1) (right - left - 1))
      else some (line.drop (left + 1))
  | _, _ => none

/-- Lines without brackets and unknown sections are skipped. -/
def openedSection (line : Str) : Option SectionsTokensType :=
  (sectionName line).bind fun name =>
    (Tokens.configSectionsTokens.findToken name).bind SectionsTokensType.ofIdx

/-- Parse the lines of one section. -/
def parseSection (stkid : SectionsTokensType) (reader : ConfigReader) :
    Except Error Unit × ConfigReader × ConfigWriter :=
  Parser.parse ConfigReader.lineReader ConfigWriter.fieldWriter
    (Tokens.configTokens stkid) true (reader.switchSectionMode true) {}

theorem parseSection_length_le (stkid : SectionsTokensType)
    (reader : ConfigReader) :
    (parseSection stkid reader).2.1.rest.length ≤ reader.rest.length := by
  have hle : ConfigReader.lineReader.size (parseSection stkid reader).2.1 ≤
      ConfigReader.lineReader.size (reader.switchSectionMode true) :=
    Parser.size_parse_le ConfigReader.getline_length_le _ _
  exact hle

/-- The creator of a type; the last case is for a type without one. -/
def subSectionCreate (stkid : SectionsTokensType) (typeId : Nat)
    (cfg : ConfigWriter) (load : Loading) : Except Error Loading :=
  match stkid, typeId with
  | .datasource, 0 => DBDataSourceCreator.create cfg load
  | .match, 0 => MatchCreator.create .exact_match cfg load
  | .match, 1 => MatchCreator.create .pattern_match cfg load
  | .match, 2 => MatchCreator.create .cached_exact_match cfg load
  | .match, 3 => MatchCreator.create .cached_pattern_match cfg load
  | .match, 4 => MatchCreator.createAll cfg load
  | .policy, 0 => WhitelistCreator.create cfg load
  | .policy, 1 => GreylistCreator.create cfg load
  | _, _ => do
      let token ← Tokens.configSectionsTokens.getToken stkid.idx
      throw (.logic_error (("No sub section handler defined in section '" :
        Str) ++ token ++ ("' for type '" : Str) ++
        cfg.getVal DataSourceTokensType.type ++ ("'" : Str)))

/-- Sections with a type.  In each of them the type has the same position. -/
def createTyped (stkid : SectionsTokensType) (cfg : ConfigWriter)
    (load : Loading) : Except Error Loading :=
  let typeStr := cfg.getVal DataSourceTokensType.type
  if typeStr = [] then do
    let token ← Tokens.configSectionsTokens.getToken stkid.idx
    throw (.UnknownConfig (("Missing type in section [" : Str) ++ token ++
      ("]" : Str)))
  else
    match (Tokens.configTypeTokens stkid).findToken typeStr with
    | none => do
        let token ← Tokens.configSectionsTokens.getToken stkid.idx
        throw (.BadType (("Unknown type in section '" : Str) ++ token ++
          ("' '" : Str) ++ typeStr ++ ("'" : Str)))
    | some typeId => subSectionCreate stkid typeId cfg load

/-- What one section does. -/
def createSection (stkid : SectionsTokensType) (cfg : ConfigWriter)
    (load : Loading) : Except Error Loading :=
  match stkid with
  | .database => DatabaseCreator.create cfg load
  | .server => .ok (ServerCreator.create cfg load)
  | stkid => createTyped stkid cfg load

/-- The types of a match that look something up, in the order of their
texts. -/
def lookupTypes : List (Str × MatchTypeTokensType) :=
  [("cached exact match".toList, .cached_exact_match),
    ("cached pattern match".toList, .cached_pattern_match),
    ("exact match".toList, .exact_match),
    ("pattern match".toList, .pattern_match)]

theorem find_configTypeTokens (stkid : SectionsTokensType) :
    ∀ entry ∈ (Tokens.configTypeTokens stkid).map.entries,
      (Tokens.configTypeTokens stkid).findToken entry.1 = some entry.2 ∧
        entry.1 ≠ [] := by
  cases stkid <;> decide

theorem createTyped_eq_ok {stkid : SectionsTokensType} {cfg : ConfigWriter}
    {load next : Loading} :
    createTyped stkid cfg load = .ok next ↔
      ∃ entry ∈ (Tokens.configTypeTokens stkid).map.entries,
        cfg.getVal DataSourceTokensType.type = entry.1 ∧
          subSectionCreate stkid entry.2 cfg load = .ok next := by
  simp only [createTyped]
  constructor
  · intro hcreate
    split at hcreate
    · simp [bind_eq_ok, throw_eq_ok] at hcreate
    · split at hcreate
      · simp [bind_eq_ok, throw_eq_ok] at hcreate
      · next typeId hfind =>
          exact ⟨_, OrdMap.mem_entries_of_find hfind, rfl, hcreate⟩
  · rintro ⟨entry, hmem, htype, hcreate⟩
    obtain ⟨hfind, hne⟩ := find_configTypeTokens stkid entry hmem
    rw [htype, if_neg hne, hfind]
    exact hcreate

theorem createSection_datasource_eq_ok {cfg : ConfigWriter}
    {load next : Loading} :
    createSection .datasource cfg load = .ok next ↔
      cfg.getVal DataSourceTokensType.type = "db".toList ∧
        DBDataSourceCreator.create cfg load = .ok next := by
  have hentries : (Tokens.configTypeTokens .datasource).map.entries =
    [("db".toList, 0)] := rfl
  simp only [createSection, createTyped_eq_ok, hentries]
  simp [subSectionCreate]

theorem createSection_policy_eq_ok {cfg : ConfigWriter}
    {load next : Loading} :
    createSection .policy cfg load = .ok next ↔
      cfg.getVal PolicyTokensType.type = "greylist".toList ∧
          GreylistCreator.create cfg load = .ok next ∨
        cfg.getVal PolicyTokensType.type = "whitelist".toList ∧
          WhitelistCreator.create cfg load = .ok next := by
  have hentries : (Tokens.configTypeTokens .policy).map.entries =
    [("greylist".toList, 1), ("whitelist".toList, 0)] := rfl
  have hpos : (PolicyTokensType.type : Nat) = DataSourceTokensType.type := rfl
  simp only [createSection, createTyped_eq_ok, hentries, hpos]
  simp [subSectionCreate]

theorem createSection_match_eq_ok {cfg : ConfigWriter}
    {load next : Loading} :
    createSection .match cfg load = .ok next ↔
      cfg.getVal MatchTokensType.type = "all".toList ∧
          MatchCreator.createAll cfg load = .ok next ∨
        ∃ entry ∈ lookupTypes, cfg.getVal MatchTokensType.type = entry.1 ∧
          MatchCreator.create entry.2 cfg load = .ok next := by
  have hentries : (Tokens.configTypeTokens .match).map.entries =
    [("all".toList, 4), ("cached exact match".toList, 2),
      ("cached pattern match".toList, 3), ("exact match".toList, 0),
      ("pattern match".toList, 1)] := rfl
  have hpos : (MatchTokensType.type : Nat) = DataSourceTokensType.type := rfl
  simp only [createSection, createTyped_eq_ok, hentries, hpos, lookupTypes,
    List.mem_cons, List.not_mem_nil, or_false, exists_eq_or_imp,
    exists_eq_left, subSectionCreate]

/-- The loop over the sections. -/
def parseConfigurationSections (reader : ConfigReader) (load : Loading) :
    Except Error Unit × Loading :=
  match _hline : (reader.switchSectionMode false).getline with
  | (.error e, _) => (.error e, load)
  | (.ok none, _) => (.ok (), { load with system := {} })
  | (.ok (some line), body) =>
      match openedSection line with
      | none => parseConfigurationSections body load
      | some stkid =>
          match _hparse : parseSection stkid body with
          | (.error e, _, _) => (.error e, load)
          | (.ok (), after, cfgWriter) =>
              match createSection stkid cfgWriter load with
              | .error e => (.error e, load)
              | .ok load => parseConfigurationSections after load
termination_by reader.rest.length
decreasing_by
  · have hlt := ConfigReader.getline_length_lt _hline
    exact hlt
  · have hlt := ConfigReader.getline_length_lt _hline
    have hle := parseSection_length_le stkid body
    rw [_hparse] at hle
    exact Nat.lt_of_le_of_lt hle hlt

section

variable {reader body after : ConfigReader} {line : Str} {load : Loading}
  {stkid : SectionsTokensType} {cfgWriter : ConfigWriter} {e : Error}

theorem parseConfigurationSections_error
    (hline : (reader.switchSectionMode false).getline = (.error e, after)) :
    parseConfigurationSections reader load = (.error e, load) := by
  rw [parseConfigurationSections]
  split <;> simp_all

theorem parseConfigurationSections_end
    (hline : (reader.switchSectionMode false).getline = (.ok none, after)) :
    parseConfigurationSections reader load =
      (.ok (), { load with system := {} }) := by
  rw [parseConfigurationSections]
  split <;> simp_all

theorem parseConfigurationSections_ignored
    (hline : (reader.switchSectionMode false).getline =
      (.ok (some line), body))
    (hopened : openedSection line = none) :
    parseConfigurationSections reader load =
      parseConfigurationSections body load := by
  rw [parseConfigurationSections]
  split <;> simp_all

theorem parseConfigurationSections_unparsed
    (hline : (reader.switchSectionMode false).getline =
      (.ok (some line), body))
    (hopened : openedSection line = some stkid)
    (hparse : parseSection stkid body = (.error e, after, cfgWriter)) :
    parseConfigurationSections reader load = (.error e, load) := by
  rw [parseConfigurationSections]
  split
  · simp_all
  · simp_all
  · next found rest hfound =>
      rw [hline] at hfound
      cases hfound
      rw [hopened]
      simp only
      split <;> simp_all

theorem parseConfigurationSections_parsed
    (hline : (reader.switchSectionMode false).getline =
      (.ok (some line), body))
    (hopened : openedSection line = some stkid)
    (hparse : parseSection stkid body = (.ok (), after, cfgWriter)) :
    parseConfigurationSections reader load =
      match createSection stkid cfgWriter load with
      | .error e => (.error e, load)
      | .ok next => parseConfigurationSections after next := by
  rw [parseConfigurationSections]
  split
  · simp_all
  · simp_all
  · next found rest hfound =>
      rw [hline] at hfound
      cases hfound
      rw [hopened]
      simp only
      split <;> simp_all

end

end System

/-- What a server is constructed with besides its chain. -/
structure ServerParams where
  host : Str
  port : Str
  spare : Nat
  max : Nat
  monitorRefresh : Nat
  cacheRefresh : Nat
  maxRequests : Nat
  action : Action
  statsevery : Nat
deriving Repr, DecidableEq

/-- An `int` passed as `unsigned`. -/
def toUnsigned (value : Int) : Nat :=
  (value % 2 ^ 32).toNat

namespace ServerSettings

/-- `settings[u]` as a value. -/
def value (settings : ServerSettings) (u : ServerTokensType) : Str :=
  (settings.find u).getD []

/-- `settings[u]` as an access: a missing key is entered with an empty
value. -/
def access (settings : ServerSettings) (keys : List ServerTokensType) :
    ServerSettings :=
  keys.foldl (fun result u => result.insert u []) settings

def number (settings : ServerSettings) (u : ServerTokensType) : Nat :=
  toUnsigned (extractInt (settings.value u))

/-- The configured `deferwithstatus` is computed first and then overwritten by
the test of the defer text. -/
def deferwithstatus (settings : ServerSettings) : Bool :=
  let dws := Tokens.configBooleanTokens.findToken
    (settings.value .deferwithstatus)
  let _deferwithstatus := if dws = some 0 then false else true
  let defer := Tokens.postfixResponseTokens.findToken (settings.value .defer)
  if defer = some 0 then false else true

/-- An unknown log level is the full one. -/
def loglevel (settings : ServerSettings) : LogTokensType :=
  if Tokens.logTokens.findToken (settings.value .log) = some 0 then .minimal
  else .full

def params (settings : ServerSettings) : ServerParams where
  host := settings.value .listen
  port := settings.value .port
  spare := settings.number .sparethreads
  max := settings.number .maxthreads
  monitorRefresh := settings.number .poolrefresh
  cacheRefresh := settings.number .cacherefresh
  maxRequests := settings.number .maxrequests
  action :=
    { deferwithstatus := settings.deferwithstatus
      defer := settings.value .defer
      dunno := settings.value .dunno
      onerror := settings.value .onerror
      logLevel := settings.loglevel }
  statsevery := settings.number .statsevery

/-- The settings after the accesses up to the opening of the listener. -/
def looked (settings : ServerSettings) : ServerSettings :=
  settings.access [.deferwithstatus, .defer, .log, .listen, .port]

/-- The settings after all accesses. -/
def compiled (settings : ServerSettings) : ServerSettings :=
  settings.looked.access [.sparethreads, .maxthreads, .poolrefresh,
    .cacherefresh, .maxrequests, .defer, .dunno, .onerror, .statsevery]

end ServerSettings

/-- Opening a listening socket on a host and a port. -/
abbrev Listener := Str → Str → Except Error Unit

namespace System

/-- The part of `compileConfig` after the parsing. -/
def startServer (openListener : Listener) (load : Loading) :
    Except Error ServerParams × Loading :=
  match openListener load.settings.params.host load.settings.params.port with
  | .error e => (.error e, { load with settings := load.settings.looked })
  | .ok () =>
      (.ok load.settings.params,
        { load with settings := load.settings.compiled })

def compileConfig (openListener : Listener) (lines : List Str)
    (skipConfig : Bool) (load : Loading) : Except Error ServerParams × Loading :=
  if skipConfig then startServer openListener load
  else
    match parseConfigurationSections { rest := lines } load with
    | (.error e, load) => (.error e, load)
    | (.ok (), load) => startServer openListener load

end System

end GreylistServer
