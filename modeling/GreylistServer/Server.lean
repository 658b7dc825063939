/-
The handler of one connection.  It parses one block of attributes after the
other from the socket, has the policy chain decide on each and writes the
response, until the stream ends, a block lacks an attribute, a write fails or
the connection has had its number of requests.
-/
import GreylistServer.Core
import GreylistServer.Parser

namespace GreylistServer

/-- The position of a verdict among the enumerators. -/
def ActionType.idx : ActionType → Nat
  | .dunno => 0
  | .defer => 1
  | .cont => 2
  | .error => 3

inductive LogTokensType where
  | minimal
  | full
deriving Repr, DecidableEq

/-- The configured response texts. -/
structure Action where
  deferwithstatus : Bool
  defer : Str
  dunno : Str
  onerror : Str
  logLevel : LogTokensType
deriving Repr, DecidableEq

namespace Action

/-- The response text of a verdict; `cont` has none. -/
def text (action : Action) : ActionType → Option Str
  | .dunno => some action.dunno
  | .defer => some action.defer
  | .error => some action.onerror
  | .cont => none

/-- A text that asks the client to come again. -/
def isDefer (response : Str) : Bool :=
  response.take ("defer_if_permit" : Str).length = "defer_if_permit".toList

def status (extra : Extra) : Str :=
  extra.prefixText ++ (": (" : Str) ++ decimal extra.count ++ (", " : Str) ++
    decimal extra.diff ++ (" secs)" : Str)

/-- The line of the full log. -/
def logLine (triplet : Triplet) (extra : Extra) : Str :=
  let client := if triplet.getClientName = "unknown".toList then
    triplet.getClientAddress else triplet.getClientName
  let comment := if extra.comment = [] then [] else (": " : Str) ++ extra.comment
  extra.prefixText ++ (": " : Str) ++ triplet.sender ++ (" -> " : Str) ++
    triplet.recipient ++ (", " : Str) ++ client ++ (" (" : Str) ++
    decimal extra.count ++ (", " : Str) ++ decimal extra.diff ++
    (" secs)" : Str) ++ comment

/-- The response and what is logged with it. -/
def process (action : Action) (result : ActionType) (triplet : Triplet)
    (extra : Extra) : Except Error (Str × Option Str) :=
  match action.text result with
  | none => .error (.logic_error
      (("Unexpected Action idx=" : Str) ++ decimal result.idx))
  | some response =>
      let str := ("action=" : Str) ++ response ++
        (if action.deferwithstatus && isDefer response then
          (" " : Str) ++ status extra else []) ++ ("\n\n" : Str)
      .ok (str, if action.logLevel = .full then some (logLine triplet extra)
        else none)

end Action

/-- The text of an exception. -/
def Error.what : Error → Str
  | .runtime_error what => what
  | .out_of_range what => what
  | .logic_error what => what
  | .invalid_argument what => what
  | .DBIError _ what => what
  | .UnknownReference what => what
  | .MissingValue what => what
  | .BadType what => what
  | .BadValue what => what
  | .UnknownConfig what => what
  | .undefined => []

/-- The attributes of one block; the first value of an attribute is kept. -/
structure TripletWriter where
  map : OrdMap Nat Str := {}
deriving Repr, DecidableEq

namespace TripletWriter

/-- Unknown attributes are dropped. -/
def fieldWriter : FieldWriter TripletWriter where
  add idx str writer := ⟨writer.map.insert idx str⟩
  addVar _ _ writer := writer

def member (writer : TripletWriter) (t : PostfixTokensType) : Str :=
  (writer.map.find t.idx).getD []

/-- The triplet of the attributes read. -/
def triplet (writer : TripletWriter) : Triplet :=
  Triplet.new (writer.member .client_address) (writer.member .sender)
    (writer.member .recipient) (writer.member .reverse_client_name)
    (writer.member .client_name)

end TripletWriter

/-- The bytes still to come from the client, and whether its end was seen. -/
structure SocketReader where
  rest : Str
  eof : Bool := false
deriving Repr, DecidableEq

namespace SocketReader

/-- Read up to a newline: the bytes before it, and what follows it unless the
stream ended first. -/
def readLine : Str → Str × Option Str
  | [] => ([], none)
  | c :: rest =>
      if c = '\n' then ([], some rest)
      else (c :: (readLine rest).1, (readLine rest).2)

/-- An empty line and an end without further bytes both report no line. -/
def getline (reader : SocketReader) : Option Str × SocketReader :=
  match readLine reader.rest with
  | (str, some rest) =>
      (if str = [] then none else some str, { reader with rest := rest })
  | (str, none) =>
      (if str = [] then none else some str, { rest := [], eof := true })

theorem readLine_append {str : Str} (hstr : '\n' ∉ str) (rest : Str) :
    readLine (str ++ '\n' :: rest) = (str, some rest) := by
  induction str with
  | nil => simp [readLine]
  | cons c str ih =>
      have hne : ¬ c = '\n' := fun heq => hstr (heq ▸ List.mem_cons_self)
      have htail := ih fun hmem => hstr (List.mem_cons_of_mem c hmem)
      simp only [List.cons_append, readLine, if_neg hne, htail]

theorem readLine_of_not_mem {str : Str} (hstr : '\n' ∉ str) :
    readLine str = (str, none) := by
  induction str with
  | nil => rfl
  | cons c str ih =>
      have hne : ¬ c = '\n' := fun heq => hstr (heq ▸ List.mem_cons_self)
      have htail := ih fun hmem => hstr (List.mem_cons_of_mem c hmem)
      simp only [readLine, if_neg hne, htail]

/-- Every stream is read as a line and the rest behind its newline, or as one
last piece without a newline. -/
theorem readLine_cases (text : Str) :
    (∃ str rest, '\n' ∉ str ∧ text = str ++ '\n' :: rest) ∨ '\n' ∉ text := by
  by_cases hmem : '\n' ∈ text
  · obtain ⟨str, rest, heq, hstr⟩ := List.eq_append_cons_of_mem hmem
    exact Or.inl ⟨str, rest, hstr, heq⟩
  · exact Or.inr hmem

/-- Without the end of the stream every call makes the rest shorter, and so
does every call that returns a line. -/
theorem getline_shorter (reader : SocketReader) :
    ((reader.getline.2.eof = true ∧ reader.getline.2.rest = []) ∨
        reader.getline.2.rest.length < reader.rest.length) ∧
      (reader.getline.1 ≠ none →
        reader.getline.2.rest.length < reader.rest.length) := by
  rcases readLine_cases reader.rest with ⟨str, rest, hstr, heq⟩ | hnone
  · have hread : readLine reader.rest = (str, some rest) := by
      rw [heq, readLine_append hstr]
    have hlength : rest.length < reader.rest.length := by
      rw [heq, List.length_append, List.length_cons]
      omega
    simp only [getline, hread]
    exact ⟨Or.inr hlength, fun _ => hlength⟩
  · have hread := readLine_of_not_mem hnone
    simp only [getline, hread]
    constructor
    · exact Or.inl ⟨trivial, trivial⟩
    · intro hsome
      by_cases hempty : reader.rest = []
      · simp [hempty] at hsome
      · exact List.length_pos_iff.mpr hempty

def lineReader : LineReader SocketReader where
  getline reader := (.ok reader.getline.1, reader.getline.2)
  isEof reader := reader.eof
  size reader := reader.rest.length
  shrinks := by
    intro reader line after hline
    have hshorter := reader.getline_shorter.2
    simp only [Prod.mk.injEq, Except.ok.injEq] at hline
    rw [hline.1, hline.2] at hshorter
    exact hshorter (by simp)

end SocketReader

/-- What one call of `write` returned, with the error it left. -/
structure WriteResult where
  nwritten : Int
  errno : Nat := 0
  message : Str := []
deriving Repr, DecidableEq

/-- What a handler does to the outside, in order. -/
inductive Event where
  | process (triplet : Triplet)
  | write (response : Str)
  | syslog (line : Str)
  | shutdown

/-- The parts of a server that a handler uses.  The policy chain is a function
of a state of its own (the database, the caches), `write` answers the numbered
calls of one connection. -/
structure Server (σ : Type) where
  core : σ → Triplet → Extra → Outcome × σ
  action : Action
  maxRequests : Nat
  signal : Bool
  write : Nat → Str → WriteResult

namespace Server

variable {σ : Type}

/-- The inner try block: a verdict becomes a response, and an exception of the
chain or of its verdict becomes the response for errors. -/
def respond (srv : Server σ) (outcome : Outcome) :
    Except Error (Str × Option Str) :=
  let decided : Except Error (Str × Option Str) :=
    match outcome.action with
    | .error e => .error e
    | .ok result =>
        srv.action.process result outcome.triplet outcome.extra
  match decided with
  | .ok response => .ok response
  | .error e =>
      srv.action.process .error outcome.triplet (outcome.extra.setComment
        (("Error: caught exception in core: " : Str) ++ e.what))

/-- What a failed write leaves in the log. -/
def writeError (srv : Server σ) (result : WriteResult) : List Event :=
  if srv.signal then []
  else [.syslog (("Error: in write: " : Str) ++ result.message ++
    (" (" : Str) ++ decimal result.errno ++ (")" : Str))]

/-- Parse one block from the socket. -/
def readBlock (reader : SocketReader) :
    Except Error Unit × SocketReader × TripletWriter :=
  Parser.parse SocketReader.lineReader TripletWriter.fieldWriter
    Tokens.postfixTokens false reader {}

theorem parseLines_shorter (required : OrdMap Nat Bool) (reader : SocketReader)
    (writer : TripletWriter) :
    (Parser.parseLines SocketReader.lineReader TripletWriter.fieldWriter
        Tokens.postfixTokens false required reader writer).2.1.eof = true ∨
      (Parser.parseLines SocketReader.lineReader TripletWriter.fieldWriter
        Tokens.postfixTokens false required reader writer).2.1.rest.length <
        reader.rest.length := by
  induction hsize : reader.rest.length using Nat.strong_induction_on
    generalizing required reader writer with
  | _ size ih =>
      subst hsize
      rw [Parser.parseLines]
      have hshorter := reader.getline_shorter
      split
      · next e after hline => cases hline
      · next after hline =>
          obtain rfl : reader.getline.2 = after := congrArg Prod.snd hline
          rcases hshorter.1 with ⟨heof, -⟩ | hlt
          · exact Or.inl heof
          · exact Or.inr hlt
      · next line after hline =>
          obtain rfl : reader.getline.2 = after := congrArg Prod.snd hline
          have hlt := SocketReader.lineReader.shrinks _ _ _ hline
          rcases ih _ hlt _ reader.getline.2 _ rfl with heof | hnext
          · exact Or.inl heof
          · exact Or.inr (Nat.lt_trans hnext hlt)

/-- Parsing a block reaches the end of the stream or makes the rest shorter. -/
theorem readBlock_shorter (reader : SocketReader) :
    (readBlock reader).2.1.eof = true ∨
      (readBlock reader).2.1.rest.length < reader.rest.length := by
  have hshorter := parseLines_shorter Tokens.postfixTokens.reqarr reader {}
  unfold readBlock Parser.parse
  rcases hlines : Parser.parseLines SocketReader.lineReader
    TripletWriter.fieldWriter Tokens.postfixTokens false
    Tokens.postfixTokens.reqarr reader {} with ⟨result, after, writer⟩
  rw [hlines] at hshorter
  cases result with
  | error e => exact hshorter
  | ok required =>
      simp only [Parser.finish_reader]
      exact hshorter

/-- The loop of `handle`.  Worker threads are never interrupted, so the test
for an interruption does not appear. -/
def handleLoop (srv : Server σ) (reader : SocketReader) (handled : Nat)
    (state : σ) : List Event × σ :=
  if reader.eof then ([], state)
  else
    match _hblock : readBlock reader with
    | (.error e, _, _) =>
        ([.syslog (("Error: getting triplet input: " : Str) ++ e.what),
          .shutdown], state)
    | (.ok (), after, writer) =>
        if _heof : after.eof = true then ([], state)
        else
          let decided := srv.core state writer.triplet {}
          match srv.respond decided.1 with
          | .error e =>
              ([.process writer.triplet,
                .syslog (("Error: in handler: " : Str) ++ e.what), .shutdown],
                decided.2)
          | .ok (response, logged) =>
              let result := srv.write handled response
              let events := .process writer.triplet ::
                (logged.toList.map Event.syslog ++ [.write response])
              if result.nwritten ≤ 0 then
                (events ++ srv.writeError result ++ [.shutdown], decided.2)
              else if 0 < srv.maxRequests ∧ handled + 1 = srv.maxRequests then
                (events, decided.2)
              else
                let rest := srv.handleLoop after (handled + 1) decided.2
                (events ++ rest.1, rest.2)
termination_by reader.rest.length
decreasing_by
  have hshorter := readBlock_shorter reader
  rw [_hblock] at hshorter
  exact hshorter.resolve_left _heof

/-- Handle one connection whose client sends `stream`. -/
def handle (srv : Server σ) (stream : Str) (state : σ) : List Event × σ :=
  srv.handleLoop { rest := stream } 0 state

end Server

end GreylistServer
