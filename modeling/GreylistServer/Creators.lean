/-
The section creators.  Each takes the values of one section and either makes
the object the section describes, under its name or at the end of the policy
chain, or throws before anything has changed.
-/
import GreylistServer.Greylist
import GreylistServer.Parser

namespace GreylistServer

/-- The values of one section, the first of a token or variable winning. -/
structure ConfigWriter where
  map : OrdMap Nat Str := {}
  vars : OrdMap Str Str := {}
deriving Repr, DecidableEq

namespace ConfigWriter

def fieldWriter : FieldWriter ConfigWriter where
  add u str writer := { writer with map := writer.map.insert u str }
  addVar key str writer := { writer with vars := writer.vars.insert key str }

def getVal (cfg : ConfigWriter) (u : Nat) : Str :=
  (cfg.map.find u).getD []

end ConfigWriter

/-- A database with its connection parameters.  The objects made from sections
are shared by reference; the section's name tells them apart. -/
structure Database where
  name : Str
  dbparams : OrdMap Str Str
  spare : Nat
deriving Repr, DecidableEq

structure DBDataSource where
  name : Str
  db : Database
  table : Str
deriving Repr, DecidableEq

/-- A configured matcher; the one that matches everything has no data. -/
inductive ConfiguredMatcher where
  | lookup (type : MatchTypeTokensType) (ds : DBDataSource) (column : Str)
      (member : MemberType) (returnfield : Str)
  | all
deriving Repr, DecidableEq

/-- A configured policy; a whitelist keeps the name of its match. -/
inductive ConfiguredPolicy where
  | whitelist (name : Str)
  | greylist (ds : DBDataSource) (policy : Greylist)

/-- The modules of a `Core`, in the order of their sections. -/
abbrev Chain := List (ConfiguredMatcher × ConfiguredPolicy)

/-- Values by the positions of the server tokens. -/
abbrev ServerSettings := OrdMap Nat Str

/-- The three containers a `System` keeps between the sections. -/
structure System where
  databases : OrdMap Str Database := {}
  datasources : OrdMap Str DBDataSource := {}
  matchers : OrdMap Str ConfiguredMatcher := {}
deriving DecidableEq

/-- What the sections of one configuration are turned into. -/
structure Loading where
  system : System := {}
  core : Chain := []
  settings : ServerSettings := {}

/-- The enumerator of a triplet member; the conversion is unchecked. -/
def MemberType.ofIdx : Nat → MemberType
  | 0 => .client_address
  | 1 => .sender
  | 2 => .recipient
  | 3 => .reverse_client_name
  | 4 => .client_name
  | 5 => .short_reverse_client_name
  | 6 => .short_client_name
  | 7 => .triplet_string
  | 8 => .network
  | idx => .unknown idx

/-- The mode of a token position. -/
def ModeType.ofIdx : Nat → ModeType
  | 0 => .reverse
  | 1 => .weak
  | 2 => .normal
  | _ => .init

/-- The end of a message that names the section it is about. -/
def sectionNamed (tid : SectionsTokensType) (sn : Str) : Except Error Str := do
  let token ← Tokens.configSectionsTokens.getToken tid.idx
  return ("' in section [" : Str) ++ token ++ ("]" : Str) ++
    (if sn = [] then [] else (" named '" : Str) ++ sn ++ ("'" : Str))

def checkForToken (cfg : ConfigWriter) (tid : SectionsTokensType) (s : Nat)
    (sn : Str) : Except Error Unit := do
  if cfg.getVal s = [] then
    let token ← (Tokens.configTokens tid).getToken s
    let place ← sectionNamed tid sn
    throw (.MissingValue (("missing value for '" : Str) ++ token ++ place))

/-- The names of a container for a message. -/
def knownNames {α : Type} (container : OrdMap Str α) : Str :=
  (", ".toList).intercalate
    (container.keys.map fun name => ("'" : Str) ++ name ++ ("'" : Str))

def checkForRef {α : Type} (cfg : ConfigWriter) (container : OrdMap Str α)
    (sid tid : SectionsTokensType) (s : Nat) (sn : Str) : Except Error α := do
  checkForToken cfg tid s sn
  match container.find (cfg.getVal s) with
  | some object => return object
  | none =>
      let token ← Tokens.configSectionsTokens.getToken sid.idx
      let place ← sectionNamed tid sn
      let known := knownNames container
      throw (.UnknownReference (("unknown reference to " : Str) ++ token ++
        (" '" : Str) ++ cfg.getVal s ++ place ++ (", defined: " : Str) ++
        (if known = [] then "(none)".toList else known)))

/-- Enter an object under a name that must be new. -/
def enter {α : Type} (what : Str) (container : OrdMap Str α) (name : Str)
    (object : α) : Except Error (OrdMap Str α) :=
  if container.contains name then
    throw (.runtime_error (what ++ (" named '" : Str) ++ name ++
      ("' already defined" : Str)))
  else return container.insert name object

/-- The end of a message about a bad value. -/
def quoted (shown value : Str) : Str :=
  if shown = [] then [] else ("'" : Str) ++ value ++ ("'" : Str)

/-- The database object of a section. -/
def DatabaseCreator.database (cfg : ConfigWriter) : Except Error Database := do
  let type ← (Tokens.configTokens .database).getToken DatabaseTokensType.type
  let dbparams := cfg.vars.insert type (cfg.getVal DatabaseTokensType.type)
  let strSpare := cfg.getVal DatabaseTokensType.spareconnections
  let spare := extractInt strSpare
  if spare < 0 then
    throw (.BadValue (("bad value for 'spare' " : Str) ++
      quoted strSpare strSpare))
  else return ⟨cfg.getVal DatabaseTokensType.name, dbparams, spare.toNat⟩

def DatabaseCreator.create (cfg : ConfigWriter) (load : Loading) :
    Except Error Loading := do
  let db ← DatabaseCreator.database cfg
  let dbs ← enter "database" load.system.databases
    (cfg.getVal DatabaseTokensType.name) db
  return { load with system.databases := dbs }

def DBDataSourceCreator.create (cfg : ConfigWriter) (load : Loading) :
    Except Error Loading := do
  let name := cfg.getVal DataSourceTokensType.name
  let db ← checkForRef cfg load.system.databases .database .datasource
    DataSourceTokensType.database name
  checkForToken cfg .datasource DataSourceTokensType.table name
  let dss ← enter "datasource" load.system.datasources name
    ⟨name, db, cfg.getVal DataSourceTokensType.table⟩
  return { load with system.datasources := dss }

/-- The matcher of a section.  A member that is no column token is stored all
the same: its position `-1` is converted to an unsigned enumerator. -/
def MatchCreator.matcher (type : MatchTypeTokensType) (cfg : ConfigWriter)
    (ds : DBDataSource) : ConfiguredMatcher :=
  let m := (Tokens.configColumnTokens.findToken
    (cfg.getVal MatchTokensType.match)).getD (2 ^ 32 - 1)
  .lookup type ds (cfg.getVal MatchTokensType.lookup) (MemberType.ofIdx m)
    (cfg.getVal MatchTokensType.return)

def MatchCreator.create (type : MatchTypeTokensType) (cfg : ConfigWriter)
    (load : Loading) : Except Error Loading := do
  let name := cfg.getVal MatchTokensType.name
  let ds ← checkForRef cfg load.system.datasources .datasource .match
    MatchTokensType.datasource name
  checkForToken cfg .match MatchTokensType.lookup name
  checkForToken cfg .match MatchTokensType.match name
  let mts ← enter "match" load.system.matchers name
    (MatchCreator.matcher type cfg ds)
  return { load with system.matchers := mts }

/-- The specialisation for the matcher that needs no data source. -/
def MatchCreator.createAll (cfg : ConfigWriter) (load : Loading) :
    Except Error Loading := do
  let name := cfg.getVal MatchTokensType.name
  let mts ← enter "match" load.system.matchers name .all
  return { load with system.matchers := mts }

def WhitelistCreator.create (cfg : ConfigWriter) (load : Loading) :
    Except Error Loading := do
  let type ← (Tokens.configTypeTokens .policy).getToken
    PolicyTypeTokensType.whitelist.ctorIdx
  let matcher ← checkForRef cfg load.system.matchers .match .policy
    PolicyTokensType.match type
  return { load with core := load.core ++
    [(matcher, .whitelist (cfg.getVal PolicyTokensType.match))] }

/-- The number of address components a section asks for. -/
def GreylistCreator.weakbytes (cfg : ConfigWriter) : Int :=
  if cfg.getVal PolicyTokensType.weakbytes = [] then 3
  else extractInt (cfg.getVal PolicyTokensType.weakbytes)

/-- The position of the mode a section asks for. -/
def GreylistCreator.iMode (cfg : ConfigWriter) : Option Nat :=
  if cfg.getVal PolicyTokensType.mode = [] then some 0
  else Tokens.configGreylistTokens.findToken (cfg.getVal PolicyTokensType.mode)

theorem GreylistCreator.weakbytes_fits {cfg : ConfigWriter}
    (hweak : ¬ (GreylistCreator.weakbytes cfg < 0 ∨
      IPAddress.default_length < GreylistCreator.weakbytes cfg)) :
    (GreylistCreator.weakbytes cfg).toNat ≤ IPAddress.default_length := by
  omega

/-- The values a greylist policy is constructed with.  The message about a bad
`weakbytes` shows the value only when a timeout is given. -/
def GreylistCreator.policy (cfg : ConfigWriter) : Except Error Greylist :=
  let strTimeout := cfg.getVal PolicyTokensType.timeout
  let timeout := extractInt strTimeout
  let weakbytes := GreylistCreator.weakbytes cfg
  if timeout < 0 then
    throw (.BadValue (("bad value for 'timeout' " : Str) ++
      quoted strTimeout strTimeout))
  else if hweak : weakbytes < 0 ∨ IPAddress.default_length < weakbytes then
    throw (.BadValue (("bad value for 'weakbytes' " : Str) ++
      quoted strTimeout (cfg.getVal PolicyTokensType.weakbytes)))
  else
    match GreylistCreator.iMode cfg with
    | none =>
        throw (.BadValue (("unknown greylist mode '" : Str) ++
          cfg.getVal PolicyTokensType.mode ++ ("'" : Str)))
    | some mode =>
        return ⟨ModeType.ofIdx mode, true, timeout.toNat, weakbytes.toNat,
          GreylistCreator.weakbytes_fits hweak⟩

/-- The message about an unknown data source calls it a policy. -/
def GreylistCreator.create (cfg : ConfigWriter) (load : Loading) :
    Except Error Loading := do
  let type ← (Tokens.configTypeTokens .policy).getToken
    PolicyTypeTokensType.greylist.ctorIdx
  let ds ← checkForRef cfg load.system.datasources .policy .policy
    PolicyTokensType.datasource type
  let policy ← GreylistCreator.policy cfg
  let matcher ← checkForRef cfg load.system.matchers .match .policy
    PolicyTokensType.match type
  return { load with core := load.core ++ [(matcher, .greylist ds policy)] }

/-- Really just a copier. -/
def ServerCreator.create (cfg : ConfigWriter) (load : Loading) : Loading :=
  { load with settings := load.settings.insertAll cfg.map }

section

variable {ε α β : Type}

theorem bind_eq_ok {x : Except ε α} {f : α → Except ε β} {b : β} :
    (x >>= f) = .ok b ↔ ∃ a, x = .ok a ∧ f a = .ok b := by
  cases x with
  | error e => simp [bind, Except.bind]
  | ok a => simp [bind, Except.bind]

theorem throw_eq_ok {e : ε} {a : α} :
    (throw e : Except ε α) = .ok a ↔ False := by
  simp [throw, throwThe, MonadExceptOf.throw]

theorem pure_eq_ok {a b : α} : (pure a : Except ε α) = .ok b ↔ a = b := by
  simp [pure, Except.pure]

end

theorem checkForToken_eq_ok {cfg : ConfigWriter} {tid : SectionsTokensType}
    {s : Nat} {sn : Str} {done : Unit} :
    checkForToken cfg tid s sn = .ok done ↔ cfg.getVal s ≠ [] := by
  unfold checkForToken
  split
  · next hempty => simp [bind_eq_ok, throw_eq_ok, hempty]
  · next hvalue => simp [pure_eq_ok, hvalue]

theorem checkForRef_eq_ok {α : Type} {cfg : ConfigWriter}
    {container : OrdMap Str α} {sid tid : SectionsTokensType} {s : Nat}
    {sn : Str} {object : α} :
    checkForRef cfg container sid tid s sn = .ok object ↔
      cfg.getVal s ≠ [] ∧ container.find (cfg.getVal s) = some object := by
  unfold checkForRef
  simp only [bind_eq_ok, checkForToken_eq_ok]
  split
  · next hfind => simp [pure_eq_ok, hfind]
  · next hfind =>
      simp only [bind_eq_ok, throw_eq_ok, hfind, and_false, exists_false,
        reduceCtorEq]

theorem enter_eq_ok {α : Type} {what : Str} {container entered : OrdMap Str α}
    {name : Str} {object : α} :
    enter what container name object = .ok entered ↔
      container.find name = none ∧
        container.insert name object = entered := by
  unfold enter
  cases hfind : container.find name with
  | none => simp [OrdMap.contains, hfind, pure_eq_ok]
  | some stored => simp [OrdMap.contains, hfind, throw_eq_ok]

theorem DatabaseCreator.database_accepts_iff (cfg : ConfigWriter) :
    (∃ db, DatabaseCreator.database cfg = .ok db) ↔
      0 ≤ extractInt (cfg.getVal DatabaseTokensType.spareconnections) := by
  have htype : (Tokens.configTokens .database).getToken
      DatabaseTokensType.type = .ok "type".toList := rfl
  simp only [DatabaseCreator.database, bind_eq_ok, htype]
  split
  · next hneg => simp [throw_eq_ok, hneg]
  · next hpos =>
      simp only [not_lt] at hpos
      simp [pure_eq_ok, hpos]

theorem DatabaseCreator.create_eq_ok {cfg : ConfigWriter}
    {load next : Loading} :
    DatabaseCreator.create cfg load = .ok next ↔
      ∃ db, DatabaseCreator.database cfg = .ok db ∧
        load.system.databases.find (cfg.getVal DatabaseTokensType.name) =
          none ∧
        next = { load with
          system.databases := load.system.databases.insert
            (cfg.getVal DatabaseTokensType.name) db } := by
  simp only [DatabaseCreator.create, bind_eq_ok, enter_eq_ok, pure_eq_ok]
  constructor
  · rintro ⟨db, hdb, dbs, ⟨hnew, rfl⟩, rfl⟩
    exact ⟨db, hdb, hnew, rfl⟩
  · rintro ⟨db, hdb, hnew, rfl⟩
    exact ⟨db, hdb, _, ⟨hnew, rfl⟩, rfl⟩

theorem DBDataSourceCreator.create_eq_ok {cfg : ConfigWriter}
    {load next : Loading} :
    DBDataSourceCreator.create cfg load = .ok next ↔
      ∃ db, cfg.getVal DataSourceTokensType.database ≠ [] ∧
        load.system.databases.find
          (cfg.getVal DataSourceTokensType.database) = some db ∧
        cfg.getVal DataSourceTokensType.table ≠ [] ∧
        load.system.datasources.find (cfg.getVal DataSourceTokensType.name) =
          none ∧
        next = { load with
          system.datasources := load.system.datasources.insert
            (cfg.getVal DataSourceTokensType.name)
            ⟨cfg.getVal DataSourceTokensType.name, db,
              cfg.getVal DataSourceTokensType.table⟩ } := by
  simp only [DBDataSourceCreator.create, bind_eq_ok, checkForRef_eq_ok,
    checkForToken_eq_ok, enter_eq_ok, pure_eq_ok]
  constructor
  · rintro ⟨db, ⟨hdb, hfind⟩, -, htable, dss, ⟨hnew, rfl⟩, rfl⟩
    exact ⟨db, hdb, hfind, htable, hnew, rfl⟩
  · rintro ⟨db, hdb, hfind, htable, hnew, rfl⟩
    exact ⟨db, ⟨hdb, hfind⟩, (), htable, _, ⟨hnew, rfl⟩, rfl⟩

theorem MatchCreator.create_eq_ok {type : MatchTypeTokensType}
    {cfg : ConfigWriter} {load next : Loading} :
    MatchCreator.create type cfg load = .ok next ↔
      ∃ ds, cfg.getVal MatchTokensType.datasource ≠ [] ∧
        load.system.datasources.find (cfg.getVal MatchTokensType.datasource) =
          some ds ∧
        cfg.getVal MatchTokensType.lookup ≠ [] ∧
        cfg.getVal MatchTokensType.match ≠ [] ∧
        load.system.matchers.find (cfg.getVal MatchTokensType.name) = none ∧
        next = { load with
          system.matchers := load.system.matchers.insert
            (cfg.getVal MatchTokensType.name)
            (MatchCreator.matcher type cfg ds) } := by
  simp only [MatchCreator.create, bind_eq_ok, checkForRef_eq_ok,
    checkForToken_eq_ok, enter_eq_ok, pure_eq_ok]
  constructor
  · rintro ⟨ds, ⟨hds, hfind⟩, -, hlookup, -, hmatch, mts, ⟨hnew, rfl⟩, rfl⟩
    exact ⟨ds, hds, hfind, hlookup, hmatch, hnew, rfl⟩
  · rintro ⟨ds, hds, hfind, hlookup, hmatch, hnew, rfl⟩
    exact ⟨ds, ⟨hds, hfind⟩, (), hlookup, (), hmatch, _, ⟨hnew, rfl⟩, rfl⟩

theorem MatchCreator.createAll_eq_ok {cfg : ConfigWriter}
    {load next : Loading} :
    MatchCreator.createAll cfg load = .ok next ↔
      load.system.matchers.find (cfg.getVal MatchTokensType.name) = none ∧
        next = { load with
          system.matchers := load.system.matchers.insert
            (cfg.getVal MatchTokensType.name) .all } := by
  simp only [MatchCreator.createAll, bind_eq_ok, enter_eq_ok, pure_eq_ok]
  constructor
  · rintro ⟨mts, ⟨hnew, rfl⟩, rfl⟩
    exact ⟨hnew, rfl⟩
  · rintro ⟨hnew, rfl⟩
    exact ⟨_, ⟨hnew, rfl⟩, rfl⟩

theorem WhitelistCreator.create_eq_ok {cfg : ConfigWriter}
    {load next : Loading} :
    WhitelistCreator.create cfg load = .ok next ↔
      ∃ matcher, cfg.getVal PolicyTokensType.match ≠ [] ∧
        load.system.matchers.find (cfg.getVal PolicyTokensType.match) =
          some matcher ∧
        next = { load with
          core := load.core ++
            [(matcher, .whitelist (cfg.getVal PolicyTokensType.match))] } := by
  have htype : (Tokens.configTypeTokens .policy).getToken
      PolicyTypeTokensType.whitelist.ctorIdx = .ok "whitelist".toList := rfl
  simp only [WhitelistCreator.create, bind_eq_ok, htype, checkForRef_eq_ok,
    pure_eq_ok]
  constructor
  · rintro ⟨-, -, matcher, ⟨hmatch, hfind⟩, rfl⟩
    exact ⟨matcher, hmatch, hfind, rfl⟩
  · rintro ⟨matcher, hmatch, hfind, rfl⟩
    exact ⟨_, rfl, matcher, ⟨hmatch, hfind⟩, rfl⟩

theorem GreylistCreator.policy_accepts_iff (cfg : ConfigWriter) :
    (∃ policy, GreylistCreator.policy cfg = .ok policy) ↔
      0 ≤ extractInt (cfg.getVal PolicyTokensType.timeout) ∧
        0 ≤ GreylistCreator.weakbytes cfg ∧
        GreylistCreator.weakbytes cfg ≤ IPAddress.default_length ∧
        GreylistCreator.iMode cfg ≠ none := by
  simp only [GreylistCreator.policy]
  split
  · next hneg => simp [throw_eq_ok, hneg]
  · next hpos =>
      split
      · next hweak =>
          simp only [throw_eq_ok, exists_false, false_iff]
          omega
      · next hweak =>
          split
          · next hmode => simp [throw_eq_ok, hmode]
          · next mode hmode =>
              simp only [pure_eq_ok, exists_eq', true_iff, hmode]
              exact ⟨by omega, by omega, by omega, by simp⟩

theorem GreylistCreator.create_eq_ok {cfg : ConfigWriter}
    {load next : Loading} :
    GreylistCreator.create cfg load = .ok next ↔
      ∃ ds policy matcher, cfg.getVal PolicyTokensType.datasource ≠ [] ∧
        load.system.datasources.find
          (cfg.getVal PolicyTokensType.datasource) = some ds ∧
        GreylistCreator.policy cfg = .ok policy ∧
        cfg.getVal PolicyTokensType.match ≠ [] ∧
        load.system.matchers.find (cfg.getVal PolicyTokensType.match) =
          some matcher ∧
        next = { load with
          core := load.core ++ [(matcher, .greylist ds policy)] } := by
  have htype : (Tokens.configTypeTokens .policy).getToken
      PolicyTypeTokensType.greylist.ctorIdx = .ok "greylist".toList := rfl
  simp only [GreylistCreator.create, bind_eq_ok, htype, checkForRef_eq_ok,
    pure_eq_ok]
  constructor
  · rintro ⟨-, -, ds, ⟨hds, hfind⟩, policy, hpolicy, matcher,
      ⟨hmatch, hfound⟩, rfl⟩
    exact ⟨ds, policy, matcher, hds, hfind, hpolicy, hmatch, hfound, rfl⟩
  · rintro ⟨ds, policy, matcher, hds, hfind, hpolicy, hmatch, hfound, rfl⟩
    exact ⟨_, rfl, ds, ⟨hds, hfind⟩, policy, hpolicy, matcher,
      ⟨hmatch, hfound⟩, rfl⟩

end GreylistServer
