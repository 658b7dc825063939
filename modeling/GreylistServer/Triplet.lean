/-
The subject of every decision: who sends to whom from which client.  The
client's address object fills its numeric components, its shortened names and
its resolved name lazily, so an accessor returns the object it leaves behind
together with the value.
-/
import GreylistServer.Lib.Text

namespace GreylistServer

/-- The exceptions the daemon throws, with their texts.  `undefined` stands
for what the language leaves undefined: a read past the end of a vector, or of
a number that was never set. -/
inductive Error where
  | runtime_error (what : Str)
  | out_of_range (what : Str)
  | logic_error (what : Str)
  | invalid_argument (what : Str)
  | DBIError (errno : Nat) (what : Str)
  | UnknownReference (what : Str)
  | MissingValue (what : Str)
  | BadType (what : Str)
  | BadValue (what : Str)
  | UnknownConfig (what : Str)
  | undefined
deriving Repr, DecidableEq

/-- What one call of `getnameinfo` does: it writes a name into the buffer, or
fails with a message and leaves the buffer as it happens to be. -/
inductive Resolution where
  | name (host : Str)
  | failure (message buffer : Str)
deriving Repr, DecidableEq

namespace IPAddress

def default_length : Nat := 4

theorem three_le_default_length : 3 ≤ default_length := by
  decide

/-- The loop of `initNumeric`.  The second argument of `substr` is the position
of the dot, not the length of the component.  The variable for a number has no
initial value, so one that the stream leaves alone is stored unset. -/
def scanNumeric (str : Str) (startpos : Nat) : List (Option Nat) :=
  match _hdot : findFrom str '.' startpos with
  | none => [extractUnsigned (str.drop startpos)]
  | some dotpos =>
      extractUnsigned (substr str startpos dotpos) ::
        scanNumeric str (dotpos + 1)
termination_by str.length - startpos
decreasing_by
  have hbounds := findFrom_bounds _hdot
  omega

/-- All numbers read from an address text. -/
def components (str : Str) : List (Option Nat) :=
  scanNumeric str 0

/-- The numbers of an address in which every number is set. -/
def numbers (str : Str) : List Nat :=
  (components str).map fun number => number.getD 0

@[simp] theorem length_numbers (str : Str) :
    (numbers str).length = (components str).length := by
  rw [numbers, List.length_map]

/-- The right-to-left loop of `getShortenedName`: the position where it stops
and the parts it has counted. -/
def shortenLoop (name : Str) : Nat → Nat → Nat × Nat
  | 0, parts => (0, parts)
  | pos + 1, parts =>
      if parts < 3 then
        if 0 < pos ∧ name[pos - 1]? = some '.' then
          shortenLoop name pos
            (if 7 ≤ name.length - pos then parts + 2 else parts + 1)
        else shortenLoop name pos parts
      else (pos + 1, parts)

/-- The registered part of a host name, or nothing when the name has no dot. -/
def getShortenedName (name : Str) : Str :=
  let stop := shortenLoop name name.length 0
  if stop.2 = 0 then [] else name.drop stop.1

@[simp] theorem getShortenedName_nil : getShortenedName [] = [] := rfl

theorem lowercase_getShortenedName {name : Str} (hlower : lowercase name = name) :
    lowercase (getShortenedName name) = getShortenedName name := by
  simp only [getShortenedName]
  split
  · rfl
  · rw [lowercase_drop, hlower]

end IPAddress

/-- A client's address with its lazily filled members.  The numeric components
are the ones read from `str` once they are there at all, and the shortened
client name is the one of `clientname`.  `lookups` counts the resolver calls
made so far. -/
structure IPAddress where
  str : Str
  numeric : List (Option Nat)
  reverse : Str
  clientname : Str
  resolve_error : Str
  short_reverse : Str
  network : Str
  short_clientname : Str
  lookups : Nat
  clientname_lower : lowercase clientname = clientname
  numeric_eq : numeric = [] ∨ numeric = IPAddress.components str
  short_clientname_eq : short_clientname = [] ∨
    short_clientname = IPAddress.getShortenedName clientname

namespace IPAddress

/-- The constructor: client address, reverse client name, client name. -/
def new (c n cn : Str) : IPAddress where
  str := c
  numeric := []
  reverse := lowercase n
  clientname := lowercase cn
  resolve_error := []
  short_reverse := []
  network := []
  short_clientname := []
  lookups := 0
  clientname_lower := lowercase_lowercase cn
  numeric_eq := Or.inl rfl
  short_clientname_eq := Or.inl rfl

/-- `_numeric[idx]`, unchecked. -/
def numericAt (ip : IPAddress) (idx : Nat) : Except Error Nat :=
  match ip.numeric[idx]? with
  | some (some value) => .ok value
  | some none => .error .undefined
  | none => .error .undefined

/-- The components are stored before their number is checked. -/
def getNumericIdx (ip : IPAddress) (idx : Nat) :
    Except Error Nat × IPAddress :=
  if ip.numeric = [] then
    let parsed : IPAddress :=
      { ip with numeric := components ip.str, numeric_eq := Or.inr rfl }
    if parsed.numeric.length ≠ default_length then
      (.error (.runtime_error
        (("Length of parsed IP address: " : Str) ++ ip.str)), parsed)
    else (parsed.numericAt idx, parsed)
  else (ip.numericAt idx, ip)

def getShortClientName (ip : IPAddress) : Str × IPAddress :=
  if ip.short_clientname ≠ [] then (ip.short_clientname, ip)
  else if ip.clientname = [] then (ip.clientname, ip)
  else
    (getShortenedName ip.clientname,
      { ip with
        short_clientname := getShortenedName ip.clientname
        short_clientname_eq := Or.inr rfl })

/-- The resolver's buffer becomes the reverse name whether or not the call
succeeded. -/
def resolve (dns : Nat → Resolution) (ip : IPAddress) : IPAddress :=
  match dns ip.lookups with
  | .name host =>
      { ip with reverse := lowercase host, lookups := ip.lookups + 1 }
  | .failure message buffer =>
      { ip with
        resolve_error := ("resolve " : Str) ++ ip.str ++ (": " : Str) ++ message
        reverse := lowercase buffer
        lookups := ip.lookups + 1 }

def getReverseName (dns : Nat → Resolution) (ip : IPAddress) :
    Str × IPAddress :=
  if ip.resolve_error ≠ [] then (ip.reverse, ip)
  else if ip.reverse ≠ [] then (ip.reverse, ip)
  else ((ip.resolve dns).reverse, ip.resolve dns)

def getShortReverseName (dns : Nat → Resolution) (ip : IPAddress) :
    Str × IPAddress :=
  if ip.short_reverse ≠ [] then (ip.short_reverse, ip)
  else if ip.resolve_error ≠ [] then (ip.short_reverse, ip)
  else
    let resolved := if ip.reverse = [] then ip.resolve dns else ip
    if resolved.reverse = [] then (resolved.short_reverse, resolved)
    else
      (getShortenedName resolved.reverse,
        { resolved with short_reverse := getShortenedName resolved.reverse })

/-- Everything up to and including the last dot, or the whole address. -/
def networkOf (str : Str) : Str :=
  match str.reverse.findIdx? (· == '.') with
  | none => str
  | some fromEnd => str.take (str.length - fromEnd)

def getNetwork (ip : IPAddress) : Str × IPAddress :=
  if ip.network ≠ [] then (ip.network, ip)
  else (networkOf ip.str, { ip with network := networkOf ip.str })

@[simp] theorem getShortClientName_fst (ip : IPAddress) :
    ip.getShortClientName.1 = getShortenedName ip.clientname := by
  unfold getShortClientName
  split
  · next hset =>
      rcases ip.short_clientname_eq with hempty | heq
      · exact absurd hempty hset
      · exact heq
  · split
    · next hnone => simp [hnone]
    · rfl

@[simp] theorem getShortClientName_str (ip : IPAddress) :
    ip.getShortClientName.2.str = ip.str := by
  unfold getShortClientName
  split
  · rfl
  · split <;> rfl

@[simp] theorem getShortClientName_clientname (ip : IPAddress) :
    ip.getShortClientName.2.clientname = ip.clientname := by
  unfold getShortClientName
  split
  · rfl
  · split <;> rfl

@[simp] theorem getNumericIdx_str (ip : IPAddress) (idx : Nat) :
    (ip.getNumericIdx idx).2.str = ip.str := by
  unfold getNumericIdx
  split
  · simp only
    split <;> rfl
  · rfl

@[simp] theorem getNumericIdx_clientname (ip : IPAddress) (idx : Nat) :
    (ip.getNumericIdx idx).2.clientname = ip.clientname := by
  unfold getNumericIdx
  split
  · simp only
    split <;> rfl
  · rfl

/-- On an address of four components every accessor call reads its component,
whatever was called before. -/
theorem getNumericIdx_fst (ip : IPAddress)
    (hfour : (components ip.str).length = default_length) (idx : Nat) :
    (ip.getNumericIdx idx).1 =
      match (components ip.str)[idx]? with
      | some (some value) => .ok value
      | some none => .error .undefined
      | none => .error .undefined := by
  unfold getNumericIdx
  split
  · simp only [hfour, ne_eq, not_true_eq_false, ↓reduceIte, numericAt]
  · next hset =>
      rcases ip.numeric_eq with hempty | heq
      · exact absurd hempty hset
      · simp only [numericAt, heq]

end IPAddress

/-- The members a matcher may look at.  The cast that builds one from a token
index is unchecked, so a value outside the enumerators is possible. -/
inductive MemberType where
  | client_address
  | sender
  | recipient
  | reverse_client_name
  | client_name
  | short_reverse_client_name
  | short_client_name
  | triplet_string
  | network
  | unknown (idx : Nat)
deriving Repr, DecidableEq

/-- Sender, recipient and client; the first two are lowercased on
construction. -/
structure Triplet where
  sender : Str
  recipient : Str
  tripletstring : Str
  client_address : IPAddress
  sender_lower : lowercase sender = sender
  recipient_lower : lowercase recipient = recipient

namespace Triplet

/-- Client address, sender, recipient, reverse client name, client name. -/
def new (c s r n cn : Str) : Triplet where
  sender := lowercase s
  recipient := lowercase r
  tripletstring := []
  client_address := IPAddress.new c n cn
  sender_lower := lowercase_lowercase s
  recipient_lower := lowercase_lowercase r

def getClientAddressNumericIdx (t : Triplet) (idx : Nat) :
    Except Error Nat × Triplet :=
  let result := t.client_address.getNumericIdx idx
  (result.1, { t with client_address := result.2 })

def getShortClientName (t : Triplet) : Str × Triplet :=
  let result := t.client_address.getShortClientName
  (result.1, { t with client_address := result.2 })

def getReverseClientName (dns : Nat → Resolution) (t : Triplet) :
    Str × Triplet :=
  let result := t.client_address.getReverseName dns
  (result.1, { t with client_address := result.2 })

def getShortReverseClientName (dns : Nat → Resolution) (t : Triplet) :
    Str × Triplet :=
  let result := t.client_address.getShortReverseName dns
  (result.1, { t with client_address := result.2 })

def getNetwork (t : Triplet) : Str × Triplet :=
  let result := t.client_address.getNetwork
  (result.1, { t with client_address := result.2 })

def getClientName (t : Triplet) : Str :=
  t.client_address.clientname

def getClientAddress (t : Triplet) : Str :=
  t.client_address.str

def getTripletString (t : Triplet) : Str × Triplet :=
  if t.tripletstring ≠ [] then (t.tripletstring, t)
  else
    let text : Str := ("s=" : Str) ++ t.sender ++ ("\n" : Str) ++
      ("r=" : Str) ++ t.recipient ++ ("\n" : Str) ++
      ("c=" : Str) ++ t.getClientAddress ++ ("\n" : Str) ++
      ("h=" : Str) ++ t.getClientName ++ ("\n" : Str)
    (text, { t with tripletstring := text })

/-- A value outside the enumerators falls out of the switch; the message shows
it as a signed number. -/
def getMember (dns : Nat → Resolution) (t : Triplet) :
    MemberType → Except Error Str × Triplet
  | .client_address => (.ok t.getClientAddress, t)
  | .sender => (.ok t.sender, t)
  | .recipient => (.ok t.recipient, t)
  | .reverse_client_name =>
      let result := t.getReverseClientName dns
      (.ok result.1, result.2)
  | .client_name => (.ok t.getClientName, t)
  | .short_reverse_client_name =>
      let result := t.getShortReverseClientName dns
      (.ok result.1, result.2)
  | .short_client_name => (.ok t.getShortClientName.1, t.getShortClientName.2)
  | .triplet_string => (.ok t.getTripletString.1, t.getTripletString.2)
  | .network => (.ok t.getNetwork.1, t.getNetwork.2)
  | .unknown idx =>
      (.error (.out_of_range
        (("unknown triplet member index: " : Str) ++ decimalInt idx)), t)

/-- The shortened client name, computed. -/
def shortName (t : Triplet) : Str :=
  IPAddress.getShortenedName t.client_address.clientname

@[simp] theorem getShortClientName_fst (t : Triplet) :
    t.getShortClientName.1 = t.shortName := by
  simp [getShortClientName, shortName]

theorem lowercase_shortName (t : Triplet) :
    lowercase t.shortName = t.shortName :=
  IPAddress.lowercase_getShortenedName t.client_address.clientname_lower

end Triplet

/-- The attributes of one request as the client sent them. -/
structure Request where
  client_address : Str
  sender : Str
  recipient : Str
  reverse_client_name : Str := []
  client_name : Str := []
deriving Repr, DecidableEq

def Request.triplet (r : Request) : Triplet :=
  Triplet.new r.client_address r.sender r.recipient r.reverse_client_name
    r.client_name

namespace TripletWitness

example : IPAddress.components "198.51.100.171".toList =
    [some 198, some 51, some 100, some 171] := by
  decide +kernel

example : IPAddress.components "1.2.3.".toList =
    [some 1, some 2, some 3, none] := by
  decide +kernel

example : IPAddress.getShortenedName "mrout1.example.org".toList =
    "example.org".toList := by
  decide

end TripletWitness

end GreylistServer
