/-
Token lists: the attribute names of the policy protocol and of every section
of the configuration, with their positions, which of them are required and the
defaults of those that have one.
-/
import GreylistServer.Triplet
import GreylistServer.Lib.OrdMap

namespace GreylistServer

/-- Tokens by name, the required positions and their default values. -/
structure TokenList where
  map : OrdMap Str Nat := {}
  reqarr : OrdMap Nat Bool := {}
  default : OrdMap Nat Str := {}
deriving Repr, DecidableEq

namespace TokenList

def getToken (tokens : TokenList) (i : Nat) : Except Error Str :=
  match tokens.map.entries.find? (fun entry => entry.2 == i) with
  | some entry => .ok entry.1
  | none => .error (.out_of_range "TokenList getToken")

/-- Two overloads of the source: a default value is kept for a required token
only. -/
def addToken (tokens : TokenList) (t : Str) (b : Bool)
    (value : Option Str := none) : TokenList :=
  let ipos := tokens.map.size
  { map := tokens.map.insert t ipos
    reqarr := if b then tokens.reqarr.insert ipos true else tokens.reqarr
    default :=
      match value with
      | some text => if b then tokens.default.insert ipos text
          else tokens.default
      | none => tokens.default }

/-- The position of a token; an unknown one has none. -/
def findToken (tokens : TokenList) (t : Str) : Option Nat :=
  tokens.map.find t

/-- Look a token up and take it off the required ones. -/
def parse (tokens : TokenList) (t : Str) (container : OrdMap Nat Bool) :
    Option Nat × OrdMap Nat Bool :=
  match tokens.findToken t with
  | none => (none, container)
  | some ipos => (some ipos, container.erase ipos)

def haveDefaults (tokens : TokenList) : Bool :=
  tokens.default.entries ≠ []

def getDefault (tokens : TokenList) (i : Nat) : Str :=
  (tokens.default.find i).getD []

/-- A list of tokens none of which is required. -/
def ofNames (names : List String) : TokenList :=
  names.foldl (fun tokens name => tokens.addToken name.toList false) {}

end TokenList

/-- The attributes of a policy request, in the order of their tokens. -/
inductive PostfixTokensType where
  | client_address
  | sender
  | recipient
  | reverse_client_name
  | client_name
deriving Repr, DecidableEq

namespace PostfixTokensType

def idx : PostfixTokensType → Nat
  | .client_address => 0
  | .sender => 1
  | .recipient => 2
  | .reverse_client_name => 3
  | .client_name => 4

def token : PostfixTokensType → Str
  | .client_address => "client_address"
  | .sender => "sender"
  | .recipient => "recipient"
  | .reverse_client_name => "reverse_client_name"
  | .client_name => "client_name"

end PostfixTokensType

/-- The sections of a configuration, in the order of their tokens. -/
inductive SectionsTokensType where
  | database
  | datasource
  | match
  | policy
  | server
deriving Repr, DecidableEq

namespace SectionsTokensType

def idx : SectionsTokensType → Nat
  | .database => 0
  | .datasource => 1
  | .match => 2
  | .policy => 3
  | .server => 4

/-- The section of a token position. -/
def ofIdx : Nat → Option SectionsTokensType
  | 0 => some .database
  | 1 => some .datasource
  | 2 => some .match
  | 3 => some .policy
  | 4 => some .server
  | _ => none

end SectionsTokensType

/-- The tokens of a `[database]` section. -/
inductive DatabaseTokensType where
  | name
  | type
  | spareconnections
deriving Repr, DecidableEq

/-- The tokens of a `[datasource]` section. -/
inductive DataSourceTokensType where
  | name
  | type
  | table
  | database
deriving Repr, DecidableEq

/-- The tokens of a `[match]` section. -/
inductive MatchTokensType where
  | name
  | type
  | datasource
  | lookup
  | match
  | return
deriving Repr, DecidableEq

/-- The tokens of a `[policy]` section. -/
inductive PolicyTokensType where
  | name
  | type
  | match
  | datasource
  | mode
  | weakbytes
  | timeout
deriving Repr, DecidableEq

/-- The tokens of a `[server]` section. -/
inductive ServerTokensType where
  | port
  | listen
  | sparethreads
  | maxthreads
  | maxrequests
  | cacherefresh
  | poolrefresh
  | deferwithstatus
  | defer
  | dunno
  | onerror
  | log
  | statsevery
deriving Repr, DecidableEq

instance : Coe DatabaseTokensType Nat := ⟨DatabaseTokensType.ctorIdx⟩

instance : Coe DataSourceTokensType Nat := ⟨DataSourceTokensType.ctorIdx⟩

instance : Coe MatchTokensType Nat := ⟨MatchTokensType.ctorIdx⟩

instance : Coe PolicyTokensType Nat := ⟨PolicyTokensType.ctorIdx⟩

instance : Coe ServerTokensType Nat := ⟨ServerTokensType.ctorIdx⟩

/-- The types of a `[match]` section. -/
inductive MatchTypeTokensType where
  | exact_match
  | pattern_match
  | cached_exact_match
  | cached_pattern_match
  | all
deriving Repr, DecidableEq

/-- The types of a `[policy]` section. -/
inductive PolicyTypeTokensType where
  | whitelist
  | greylist
deriving Repr, DecidableEq

namespace Tokens

def postfixTokens : TokenList :=
  (((((({} : TokenList).addToken "client_address" true).addToken
    "sender" true).addToken "recipient" true).addToken
    "reverse_client_name" false).addToken "client_name" false)

def configColumnTokens : TokenList :=
  .ofNames ["client_address", "sender", "recipient", "reverse_client_name",
    "client_name", "short_reverse_client_name", "short_client_name",
    "triplet_string", "network"]

def configSectionsTokens : TokenList :=
  .ofNames ["database", "datasource", "match", "policy", "server"]

def configGreylistTokens : TokenList :=
  .ofNames ["reverse", "weak", "normal"]

def configBooleanTokens : TokenList :=
  .ofNames ["false", "true"]

def postfixResponseTokens : TokenList :=
  .ofNames ["dunno", "defer_if_permit"]

def logTokens : TokenList :=
  .ofNames ["minimal", "full"]

def serverTokens : TokenList :=
  [("port", "4096"), ("listen", "0.0.0.0"), ("sparethreads", "2"),
    ("maxthreads", "150"), ("maxrequests", "0"), ("cacherefresh", "600"),
    ("poolrefresh", "5"), ("deferwithstatus", "true"),
    ("defer", "defer_if_permit Service is unavailable"), ("dunno", "dunno"),
    ("onerror", "dunno"), ("log", "minimal"), ("stats", "120")].foldl
    (fun tokens entry =>
      tokens.addToken entry.1.toList true (some entry.2.toList)) {}

/-- The tokens of one section. -/
def configTokens : SectionsTokensType → TokenList
  | .database =>
      ((({} : TokenList).addToken "name" true).addToken "type" true).addToken
        "spareconnections" true (some "10".toList)
  | .datasource =>
      (((({} : TokenList).addToken "name" true).addToken "type" true).addToken
        "table" false).addToken "database" false
  | .match =>
      (((((({} : TokenList).addToken "name" true).addToken
        "type" true).addToken "datasource" false).addToken
        "lookup" false).addToken "match" false).addToken "return" false
  | .policy =>
      ((((((({} : TokenList).addToken "name" false).addToken
        "type" true).addToken "match" true).addToken
        "datasource" false).addToken "mode" true (some "reverse".toList)).addToken
        "weakbytes" true (some "4".toList)).addToken "timeout" false
  | .server => serverTokens

/-- The values of `type` in one section. -/
def configTypeTokens : SectionsTokensType → TokenList
  | .database => {}
  | .datasource => .ofNames ["db"]
  | .match =>
      .ofNames ["exact match", "pattern match", "cached exact match",
        "cached pattern match", "all"]
  | .policy => .ofNames ["whitelist", "greylist"]
  | .server => {}

/-- The enumerators of the protocol's attributes are the positions of its
tokens. -/
theorem findToken_postfixTokens (t : PostfixTokensType) :
    postfixTokens.findToken t.token = some t.idx := by
  cases t <;> decide

end Tokens

end GreylistServer
