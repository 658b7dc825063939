/-
The framing of the policy protocol.  A stream is a sequence of blocks, each a
list of lines ended by an empty line.  The handler answers exactly the leading
blocks that carry the three required attributes, each from its own lines, up to
the number of requests a connection may have.
-/
import GreylistServer.Server

namespace GreylistServer

/-- The blocks of a stream that are ended by an empty line. -/
def blocks (stream : Str) : List (List Str) :=
  terminated [] (terminated '\n' stream)

/-- The value of an attribute if the line sets it. -/
def valueOf (name line : Str) : Option Str :=
  if (name ++ ['=']).isPrefixOf line then some (line.drop (name.length + 1))
  else none

/-- The first value a block gives an attribute. -/
def attributeOf (block : List Str) (t : PostfixTokensType) : Option Str :=
  block.findSome? (valueOf t.token)

/-- The block names client address, sender and recipient. -/
def complete (block : List Str) : Bool :=
  (attributeOf block .client_address).isSome &&
    (attributeOf block .sender).isSome && (attributeOf block .recipient).isSome

/-- The request a block stands for; attributes it does not set are empty. -/
def requestOf (block : List Str) : Request where
  client_address := (attributeOf block .client_address).getD []
  sender := (attributeOf block .sender).getD []
  recipient := (attributeOf block .recipient).getD []
  reverse_client_name := (attributeOf block .reverse_client_name).getD []
  client_name := (attributeOf block .client_name).getD []

/-- The blocks that are answered: the longest prefix of complete ones, cut at
the number of requests a connection may have, where zero means no limit. -/
def served (maxRequests : Nat) (stream : Str) : List (List Str) :=
  let answered := (blocks stream).takeWhile complete
  if maxRequests = 0 then answered else answered.take maxRequests

namespace PostfixTokensType

theorem token_no_equals (t : PostfixTokensType) : '=' ∉ t.token := by
  cases t <;> decide

end PostfixTokensType

/-- A line is split into what stands before and behind its first `=`. -/
theorem splitField_append {key : Str} (hkey : '=' ∉ key) (val : Str) :
    splitField (key ++ '=' :: val) = some (key, val) := by
  rw [splitField, findFrom_append_cons hkey]
  simp [substr]

theorem splitField_cases (line : Str) :
    (∃ key val, '=' ∉ key ∧ line = key ++ '=' :: val ∧
      splitField line = some (key, val)) ∨
      ('=' ∉ line ∧ splitField line = none) := by
  by_cases hmem : '=' ∈ line
  · obtain ⟨key, val, rfl, hkey⟩ := List.eq_append_cons_of_mem hmem
    exact Or.inl ⟨key, val, hkey, rfl, splitField_append hkey val⟩
  · refine Or.inr ⟨hmem, ?_⟩
    rw [splitField, findFrom_of_not_mem hmem]

/-- A line sets an attribute exactly when its key is the attribute's name. -/
theorem valueOf_token (t : PostfixTokensType) (line : Str) :
    valueOf t.token line =
      match splitField line with
      | some (key, val) => if key = t.token then some val else none
      | none => none := by
  rcases splitField_cases line with ⟨key, val, hkey, rfl, hsplit⟩ | ⟨hno, hsplit⟩
  · rw [hsplit]
    by_cases heq : key = t.token
    · subst heq
      have hprefix : (t.token ++ ['=']).isPrefixOf (t.token ++ '=' :: val) =
          true := by
        rw [List.isPrefixOf_iff_prefix]
        exact ⟨val, by simp⟩
      simp only [valueOf, hprefix, ↓reduceIte]
      simp
    · have hprefix : ¬ (t.token ++ ['=']).isPrefixOf (key ++ '=' :: val) =
          true := by
        rw [List.isPrefixOf_iff_prefix]
        rintro ⟨rest, hrest⟩
        rw [List.append_assoc, List.singleton_append] at hrest
        have hsame := splitField_append t.token_no_equals rest
        rw [hrest, hsplit] at hsame
        simp only [Option.some.injEq, Prod.mk.injEq] at hsame
        exact heq hsame.1
      simp only [valueOf, if_neg hprefix, if_neg heq]
  · rw [hsplit]
    have hprefix : ¬ (t.token ++ ['=']).isPrefixOf line = true := by
      rw [List.isPrefixOf_iff_prefix]
      rintro ⟨rest, rfl⟩
      exact hno (by simp)
    simp only [valueOf, if_neg hprefix]

/-- Only the names of attributes are tokens. -/
theorem findToken_eq_some {key : Str} {i : Nat}
    (hfind : Tokens.postfixTokens.findToken key = some i) :
    ∃ t : PostfixTokensType, key = t.token ∧ i = t.idx := by
  have hentries : Tokens.postfixTokens.map.entries =
      [("client_address".toList, 0), ("client_name".toList, 4),
        ("recipient".toList, 2), ("reverse_client_name".toList, 3),
        ("sender".toList, 1)] := by
    decide
  have hmem := OrdMap.mem_entries_of_find hfind
  rw [hentries] at hmem
  simp only [List.mem_cons, Prod.mk.injEq, List.not_mem_nil, or_false] at hmem
  rcases hmem with ⟨rfl, rfl⟩ | ⟨rfl, rfl⟩ | ⟨rfl, rfl⟩ | ⟨rfl, rfl⟩ |
    ⟨rfl, rfl⟩
  · exact ⟨.client_address, rfl, rfl⟩
  · exact ⟨.client_name, rfl, rfl⟩
  · exact ⟨.recipient, rfl, rfl⟩
  · exact ⟨.reverse_client_name, rfl, rfl⟩
  · exact ⟨.sender, rfl, rfl⟩

theorem PostfixTokensType.idx_injective {s t : PostfixTokensType}
    (heq : s.idx = t.idx) : s = t := by
  cases s <;> cases t <;> first | rfl | cases heq

namespace Server

/-- What the lines of a block do to the required tokens and the attributes. -/
def readLines (block : List Str) (required : OrdMap Nat Bool)
    (writer : TripletWriter) : OrdMap Nat Bool × TripletWriter :=
  block.foldl (fun state line => Parser.parseLine TripletWriter.fieldWriter
    Tokens.postfixTokens false line state.1 state.2) (required, writer)

theorem readLines_cons (line : Str) (rest : List Str)
    (required : OrdMap Nat Bool) (writer : TripletWriter) :
    readLines (line :: rest) required writer =
      readLines rest
        (Parser.parseLine TripletWriter.fieldWriter Tokens.postfixTokens false
          line required writer).1
        (Parser.parseLine TripletWriter.fieldWriter Tokens.postfixTokens false
          line required writer).2 := rfl

/-- One line writes the attributes it sets and no others, and an attribute that
is already there keeps its value. -/
theorem parseLine_writer (line : Str) (required : OrdMap Nat Bool)
    (writer : TripletWriter) (t : PostfixTokensType) :
    (Parser.parseLine TripletWriter.fieldWriter Tokens.postfixTokens false
        line required writer).2.map.find t.idx =
      (writer.map.find t.idx).or (valueOf t.token line) := by
  rw [valueOf_token, Parser.parseLine]
  rcases splitField line with _ | ⟨key, val⟩
  · simp
  · rcases hfind : Tokens.postfixTokens.findToken key with _ | i
    · have hne : key ≠ t.token := by
        rintro rfl
        rw [Tokens.findToken_postfixTokens] at hfind
        cases hfind
      simp [TokenList.parse, hfind, hne]
    · obtain ⟨s, rfl, rfl⟩ := findToken_eq_some hfind
      simp only [TokenList.parse, hfind, TripletWriter.fieldWriter,
        OrdMap.find_insert]
      by_cases hst : t = s
      · subst hst
        cases writer.map.find t.idx <;> simp
      · have hidx : t.idx ≠ s.idx :=
          fun heq => hst (PostfixTokensType.idx_injective heq)
        have htoken : s.token ≠ t.token := by
          intro heq
          have hsame := Tokens.findToken_postfixTokens t
          rw [← heq, Tokens.findToken_postfixTokens s] at hsame
          exact hidx (Option.some.inj hsame).symm
        simp [hidx, htoken]

/-- One line takes the attributes it sets off the required ones. -/
theorem parseLine_required (line : Str) (required : OrdMap Nat Bool)
    (writer : TripletWriter) (entry : Nat × Bool) :
    entry ∈ (Parser.parseLine TripletWriter.fieldWriter Tokens.postfixTokens
        false line required writer).1.entries ↔
      entry ∈ required.entries ∧ ∀ t : PostfixTokensType, t.idx = entry.1 →
        valueOf t.token line = none := by
  simp only [valueOf_token]
  rw [Parser.parseLine]
  rcases splitField line with _ | ⟨key, val⟩
  · simp
  · rcases hfind : Tokens.postfixTokens.findToken key with _ | i
    · have hne : ∀ t : PostfixTokensType, key ≠ t.token := by
        rintro t rfl
        rw [Tokens.findToken_postfixTokens] at hfind
        cases hfind
      simp [TokenList.parse, hfind, hne]
    · obtain ⟨s, rfl, rfl⟩ := findToken_eq_some hfind
      simp only [TokenList.parse, hfind, OrdMap.erase, List.mem_filter,
        decide_not, Bool.not_eq_eq_eq_not, Bool.not_true,
        decide_eq_false_iff_not]
      refine and_congr_right fun _ => ?_
      constructor
      · intro hne t hidx
        have htoken : s.token ≠ t.token := by
          intro heq
          have hsame := Tokens.findToken_postfixTokens t
          rw [← heq, Tokens.findToken_postfixTokens s] at hsame
          exact hne ((Option.some.inj hsame).trans hidx).symm
        rw [if_neg htoken]
      · intro hall heq
        have hnone := hall s heq.symm
        rw [if_pos rfl] at hnone
        cases hnone

/-- After a block the writer holds the first value of every attribute. -/
theorem readLines_writer (block : List Str) (required : OrdMap Nat Bool)
    (writer : TripletWriter) (t : PostfixTokensType) :
    (readLines block required writer).2.map.find t.idx =
      (writer.map.find t.idx).or (attributeOf block t) := by
  induction block generalizing required writer with
  | nil => simp [readLines, attributeOf]
  | cons line rest ih =>
      have hstep := parseLine_writer line required writer t
      rw [readLines_cons, ih, hstep, Option.or_assoc]
      simp only [attributeOf, List.findSome?_cons]
      cases valueOf t.token line <;> rfl

/-- After a block the tokens still required are the ones it does not set. -/
theorem readLines_required (block : List Str) (required : OrdMap Nat Bool)
    (writer : TripletWriter) (entry : Nat × Bool) :
    entry ∈ (readLines block required writer).1.entries ↔
      entry ∈ required.entries ∧ ∀ t : PostfixTokensType, t.idx = entry.1 →
        attributeOf block t = none := by
  induction block generalizing required writer with
  | nil => simp [readLines, attributeOf]
  | cons line rest ih =>
      have hstep := parseLine_required line required writer entry
      rw [readLines_cons, ih, hstep, and_assoc]
      refine and_congr_right fun _ => ?_
      simp only [attributeOf, List.findSome?_cons]
      constructor
      · rintro ⟨hline, htail⟩ t hidx
        rw [hline t hidx]
        exact htail t hidx
      · intro hall
        constructor
        · intro t hidx
          have hnone := hall t hidx
          cases hvalue : valueOf t.token line with
          | none => rfl
          | some val =>
              rw [hvalue] at hnone
              cases hnone
        · intro t hidx
          have hnone := hall t hidx
          cases hvalue : valueOf t.token line with
          | none =>
              rw [hvalue] at hnone
              exact hnone
          | some val =>
              rw [hvalue] at hnone
              cases hnone

/-- Nothing is missing after a block exactly when it is complete. -/
theorem readLines_required_eq_nil_iff (block : List Str)
    (writer : TripletWriter) :
    (readLines block Tokens.postfixTokens.reqarr writer).1.entries = [] ↔
      complete block = true := by
  have hrequired : Tokens.postfixTokens.reqarr.entries =
      [(0, true), (1, true), (2, true)] := by
    decide
  have hentry := readLines_required block Tokens.postfixTokens.reqarr writer
  rw [hrequired] at hentry
  simp only [complete, Bool.and_eq_true, ← Option.ne_none_iff_isSome]
  constructor
  · intro hempty
    rw [hempty] at hentry
    refine ⟨⟨?_, ?_⟩, ?_⟩
    · intro hnone
      refine (List.not_mem_nil : (0, true) ∉ []) ((hentry (0, true)).mpr
        ⟨by simp, ?_⟩)
      intro t hidx
      rw [PostfixTokensType.idx_injective (t := .client_address) hidx, hnone]
    · intro hnone
      refine (List.not_mem_nil : (1, true) ∉ []) ((hentry (1, true)).mpr
        ⟨by simp, ?_⟩)
      intro t hidx
      rw [PostfixTokensType.idx_injective (t := .sender) hidx, hnone]
    · intro hnone
      refine (List.not_mem_nil : (2, true) ∉ []) ((hentry (2, true)).mpr
        ⟨by simp, ?_⟩)
      intro t hidx
      rw [PostfixTokensType.idx_injective (t := .recipient) hidx, hnone]
  · rintro ⟨⟨hclient, hsender⟩, hrecipient⟩
    rw [List.eq_nil_iff_forall_not_mem]
    intro entry hmem
    obtain ⟨hthree, hnone⟩ := (hentry entry).mp hmem
    simp only [List.mem_cons, List.not_mem_nil, or_false] at hthree
    rcases hthree with rfl | rfl | rfl
    · exact hclient (hnone .client_address rfl)
    · exact hsender (hnone .sender rfl)
    · exact hrecipient (hnone .recipient rfl)

/-- Lines that neither end a block nor contain a newline. -/
def PlainLines (block : List Str) : Prop :=
  ∀ line ∈ block, line ≠ [] ∧ '\n' ∉ line

/-- The bytes of a block without the empty line that ends it. -/
def blockText (block : List Str) : Str :=
  block.flatMap (· ++ ['\n'])

theorem blockText_cons (line : Str) (block : List Str) (rest : Str) :
    blockText (line :: block) ++ rest =
      line ++ '\n' :: (blockText block ++ rest) := by
  simp [blockText]

/-- Every stream starts with a finished block or is an unfinished one. -/
theorem stream_cases (stream : Str) :
    (∃ block rest, PlainLines block ∧
      stream = blockText block ++ '\n' :: rest) ∨
    ∃ block tail, PlainLines block ∧ '\n' ∉ tail ∧
      stream = blockText block ++ tail := by
  induction hsize : stream.length using Nat.strong_induction_on
    generalizing stream with
  | _ size ih =>
      subst hsize
      rcases SocketReader.readLine_cases stream with
        ⟨str, rest, hstr, rfl⟩ | hnone
      · by_cases hempty : str = []
        · subst hempty
          exact Or.inl ⟨[], rest, by simp [PlainLines], rfl⟩
        · have hplain : ∀ block, PlainLines block → PlainLines (str :: block) := by
            intro block hblock line hline
            rcases List.mem_cons.mp hline with rfl | hrest
            · exact ⟨hempty, hstr⟩
            · exact hblock line hrest
          have hlt : rest.length < (str ++ '\n' :: rest).length := by
            rw [List.length_append, List.length_cons]
            omega
          rcases ih _ hlt rest rfl with
            ⟨block, after, hblock, rfl⟩ | ⟨block, tail, hblock, htail, rfl⟩
          · exact Or.inl ⟨str :: block, after, hplain block hblock,
              (blockText_cons _ _ _).symm⟩
          · exact Or.inr ⟨str :: block, tail, hplain block hblock, htail,
              (blockText_cons _ _ _).symm⟩
      · exact Or.inr ⟨[], stream, by simp [PlainLines], hnone, rfl⟩

theorem terminated_blockText {block : List Str} (hblock : PlainLines block)
    (rest : Str) :
    terminated '\n' (blockText block ++ rest) =
      block ++ terminated '\n' rest := by
  induction block with
  | nil => rfl
  | cons line block ih =>
      have hline := hblock line List.mem_cons_self
      have hrest := ih fun other hother =>
        hblock other (List.mem_cons_of_mem line hother)
      rw [blockText_cons, terminated_append_cons hline.2, hrest]
      rfl

theorem PlainLines.nil_not_mem {block : List Str} (hblock : PlainLines block) :
    ([] : Str) ∉ block :=
  fun hmem => (hblock [] hmem).1 rfl

theorem blocks_of_finished {block : List Str} (hblock : PlainLines block)
    (rest : Str) :
    blocks (blockText block ++ '\n' :: rest) = block :: blocks rest := by
  have hempty : terminated '\n' ('\n' :: rest) = [] :: terminated '\n' rest :=
    terminated_append_cons (List.not_mem_nil) rest
  rw [blocks, terminated_blockText hblock, hempty,
    terminated_append_cons hblock.nil_not_mem]
  rfl

theorem blocks_of_unfinished {block : List Str} (hblock : PlainLines block)
    {tail : Str} (htail : '\n' ∉ tail) :
    blocks (blockText block ++ tail) = [] := by
  rw [blocks, terminated_blockText hblock, terminated_of_not_mem htail,
    List.append_nil, terminated_of_not_mem hblock.nil_not_mem]

/-- Reading a line of a block. -/
theorem parseLines_line {line : Str} (hne : line ≠ []) (hline : '\n' ∉ line)
    (rest : Str) (required : OrdMap Nat Bool) (writer : TripletWriter) :
    Parser.parseLines SocketReader.lineReader TripletWriter.fieldWriter
        Tokens.postfixTokens false required
        { rest := line ++ '\n' :: rest } writer =
      Parser.parseLines SocketReader.lineReader TripletWriter.fieldWriter
        Tokens.postfixTokens false
        (Parser.parseLine TripletWriter.fieldWriter Tokens.postfixTokens false
          line required writer).1 { rest := rest }
        (Parser.parseLine TripletWriter.fieldWriter Tokens.postfixTokens false
          line required writer).2 := by
  have hget : SocketReader.lineReader.getline
      { rest := line ++ '\n' :: rest } =
      (.ok (some line), { rest := rest }) := by
    simp only [SocketReader.lineReader, SocketReader.getline,
      SocketReader.readLine_append hline, if_neg hne]
  rw [Parser.parseLines, hget]

/-- Reading the lines of a block, whatever follows them. -/
theorem parseLines_blockText {block : List Str} (hblock : PlainLines block)
    (rest : Str) (required : OrdMap Nat Bool) (writer : TripletWriter) :
    Parser.parseLines SocketReader.lineReader TripletWriter.fieldWriter
        Tokens.postfixTokens false required
        { rest := blockText block ++ rest } writer =
      Parser.parseLines SocketReader.lineReader TripletWriter.fieldWriter
        Tokens.postfixTokens false (readLines block required writer).1
        { rest := rest } (readLines block required writer).2 := by
  induction block generalizing required writer with
  | nil => rfl
  | cons line block ih =>
      have hline := hblock line List.mem_cons_self
      rw [blockText_cons, parseLines_line hline.1 hline.2, readLines_cons]
      apply ih
      intro other hother
      exact hblock other (List.mem_cons_of_mem line hother)

/-- At an empty line the block ends and the stream goes on behind it. -/
theorem parseLines_empty (rest : Str) (required : OrdMap Nat Bool)
    (writer : TripletWriter) :
    Parser.parseLines SocketReader.lineReader TripletWriter.fieldWriter
        Tokens.postfixTokens false required { rest := '\n' :: rest } writer =
      (.ok required, { rest := rest }, writer) := by
  have hget : SocketReader.lineReader.getline { rest := '\n' :: rest } =
      (.ok none, { rest := rest }) := by
    simp [SocketReader.lineReader, SocketReader.getline,
      SocketReader.readLine]
  rw [Parser.parseLines, hget]

/-- At the end of the stream a last piece without a newline is still read. -/
theorem parseLines_tail {tail : Str} (htail : '\n' ∉ tail)
    (required : OrdMap Nat Bool) (writer : TripletWriter) :
    ∃ required' writer',
      Parser.parseLines SocketReader.lineReader TripletWriter.fieldWriter
        Tokens.postfixTokens false required { rest := tail } writer =
      (.ok required', { rest := [], eof := true }, writer') := by
  have hread := SocketReader.readLine_of_not_mem htail
  by_cases hempty : tail = []
  · have hget : SocketReader.lineReader.getline { rest := tail } =
        (.ok none, { rest := [], eof := true }) := by
      simp only [SocketReader.lineReader, SocketReader.getline, hread,
        if_pos hempty]
    refine ⟨required, writer, ?_⟩
    rw [Parser.parseLines, hget]
  · have hget : SocketReader.lineReader.getline { rest := tail } =
        (.ok (some tail), { rest := [], eof := true }) := by
      simp only [SocketReader.lineReader, SocketReader.getline, hread,
        if_neg hempty]
    have hend : SocketReader.lineReader.getline { rest := [], eof := true } =
        (.ok none, { rest := [], eof := true }) := rfl
    refine ⟨(Parser.parseLine TripletWriter.fieldWriter Tokens.postfixTokens
      false tail required writer).1, (Parser.parseLine
      TripletWriter.fieldWriter Tokens.postfixTokens false tail required
      writer).2, ?_⟩
    rw [Parser.parseLines, hget]
    simp only
    rw [Parser.parseLines, hend]

theorem triplet_readLines (block : List Str) (required : OrdMap Nat Bool) :
    (readLines block required {}).2.triplet = (requestOf block).triplet := by
  have hmember : ∀ t : PostfixTokensType,
      (readLines block required {}).2.member t =
        (attributeOf block t).getD [] := by
    intro t
    rw [TripletWriter.member, readLines_writer]
    rfl
  simp only [TripletWriter.triplet, hmember]
  rfl

/-- A finished block is read from its own lines; it fails when an attribute is
missing, and the stream goes on behind it. -/
theorem readBlock_finished {block : List Str} (hblock : PlainLines block)
    (rest : Str) :
    ∃ result writer,
      readBlock { rest := blockText block ++ '\n' :: rest } =
        (result, { rest := rest }, writer) ∧
      writer.triplet = (requestOf block).triplet ∧
      (complete block = true → result = .ok ()) ∧
      (complete block = false → ∃ e, result = .error e) := by
  have hlines := (parseLines_blockText hblock ('\n' :: rest)
    Tokens.postfixTokens.reqarr {}).trans (parseLines_empty rest _ _)
  have hparse : readBlock { rest := blockText block ++ '\n' :: rest } = _ :=
    Parser.parse_of_parseLines_ok hlines
  have hrequired := readLines_required_eq_nil_iff block {}
  have hdefaults : Tokens.postfixTokens.haveDefaults = false := by decide
  cases hcomplete : complete block with
  | true =>
      refine ⟨.ok (), (readLines block Tokens.postfixTokens.reqarr {}).2, ?_,
        triplet_readLines block _, fun _ => rfl, nofun⟩
      rw [hparse, Parser.finish, if_pos (hrequired.mpr hcomplete)]
  | false =>
      have hmissing : ¬ (readLines block Tokens.postfixTokens.reqarr
          {}).1.entries = [] := by
        intro hnil
        rw [hrequired.mp hnil] at hcomplete
        cases hcomplete
      rw [hparse, Parser.finish, if_neg hmissing]
      simp only [hdefaults, Bool.false_eq_true, ↓reduceIte, if_neg hmissing,
        SocketReader.lineReader]
      cases Parser.missing Tokens.postfixTokens
        (readLines block Tokens.postfixTokens.reqarr {}).1.entries with
      | error e =>
          exact ⟨_, _, rfl, triplet_readLines block _, nofun,
            fun _ => ⟨e, rfl⟩⟩
      | ok text =>
          exact ⟨_, _, rfl, triplet_readLines block _, nofun,
            fun _ => ⟨_, rfl⟩⟩

/-- An unfinished block is read without complaint up to the end. -/
theorem readBlock_unfinished {block : List Str} (hblock : PlainLines block)
    {tail : Str} (htail : '\n' ∉ tail) :
    ∃ writer, readBlock { rest := blockText block ++ tail } =
      (.ok (), { rest := [], eof := true }, writer) := by
  have hdefaults : Tokens.postfixTokens.haveDefaults = false := by decide
  obtain ⟨required, writer, htaillines⟩ := parseLines_tail htail
    (readLines block Tokens.postfixTokens.reqarr {}).1
    (readLines block Tokens.postfixTokens.reqarr {}).2
  have hlines := (parseLines_blockText hblock tail
    Tokens.postfixTokens.reqarr {}).trans htaillines
  refine ⟨writer, ?_⟩
  have hparse : readBlock { rest := blockText block ++ tail } = _ :=
    Parser.parse_of_parseLines_ok hlines
  rw [hparse, Parser.finish]
  by_cases hnil : required.entries = []
  · rw [if_pos hnil]
  · simp [hnil, hdefaults, SocketReader.lineReader]

variable {σ : Type}

/-- Every verdict and every exception of the chain gets a response, and no
response is empty. -/
theorem respond_ok (srv : Server σ) (outcome : Outcome) :
    ∃ response logged, srv.respond outcome = .ok (response, logged) ∧
      response ≠ [] := by
  have hprocess : ∀ result t extra, srv.action.text result ≠ none →
      ∃ response logged, srv.action.process result t extra =
        .ok (response, logged) ∧ response ≠ [] := by
    intro result t extra htext
    obtain ⟨text, htext⟩ := Option.ne_none_iff_exists'.mp htext
    rw [Action.process, htext]
    exact ⟨_, _, rfl, nofun⟩
  have herror : ∀ t extra, ∃ response logged,
      srv.action.process .error t extra = .ok (response, logged) ∧
        response ≠ [] :=
    fun t extra => hprocess .error t extra nofun
  rw [respond]
  rcases outcome.action with e | result
  · exact herror _ _
  · rcases htext : srv.action.text result with _ | text
    · simp only [Action.process, htext]
      exact herror _ _
    · obtain ⟨response, logged, hok, hne⟩ := hprocess result outcome.triplet
        outcome.extra (by simp [htext])
      simp only [hok]
      exact ⟨response, logged, rfl, hne⟩

/-- The response to an outcome. -/
def responseTo (srv : Server σ) (outcome : Outcome) : Str :=
  match srv.respond outcome with
  | .ok (response, _) => response
  | .error _ => []

/-- What a connection is for: every block is decided on and answered before
the next one is looked at. -/
def exchanges (srv : Server σ) : List (List Str) → σ → List Event × σ
  | [], state => ([], state)
  | block :: rest, state =>
      let t := (requestOf block).triplet
      let decided := srv.core state t {}
      let after := srv.exchanges rest decided.2
      (.process t :: .write (srv.responseTo decided.1) :: after.1, after.2)

end Server

/-- A decision or a response, as opposed to log lines and the shutdown. -/
def Event.isExchange : Event → Bool
  | .process _ => true
  | .write _ => true
  | .syslog _ => false
  | .shutdown => false

namespace Server

variable {σ : Type}

theorem filter_logged (logged : Option Str) :
    (logged.toList.map Event.syslog).filter Event.isExchange = [] := by
  cases logged <;> rfl

/-- One round of the loop on a complete block: it is decided on and answered,
and the loop goes on behind it unless the limit is reached. -/
theorem handleLoop_complete (srv : Server σ)
    (hwrite : ∀ call text, (srv.write call text).nwritten = text.length)
    {block : List Str} (hblock : PlainLines block)
    (hcomplete : complete block = true) (rest : Str) (handled : Nat)
    (state : σ) :
    let decided := srv.core state (requestOf block).triplet {}
    let after : List Event × σ :=
      if 0 < srv.maxRequests ∧ handled + 1 = srv.maxRequests then
        ([], decided.2)
      else srv.handleLoop { rest := rest } (handled + 1) decided.2
    ((srv.handleLoop { rest := blockText block ++ '\n' :: rest } handled
          state).1.filter Event.isExchange,
        (srv.handleLoop { rest := blockText block ++ '\n' :: rest } handled
          state).2) =
      (.process (requestOf block).triplet ::
        .write (srv.responseTo decided.1) ::
          after.1.filter Event.isExchange, after.2) := by
  obtain ⟨result, writer, hread, htriplet, hok, -⟩ :=
    readBlock_finished hblock rest
  obtain rfl := hok hcomplete
  obtain ⟨response, logged, hrespond, hne⟩ := srv.respond_ok
    (srv.core state (requestOf block).triplet {}).1
  have hpos : ¬ ((response.length : Int) ≤ 0) := by
    have hlength := List.length_pos_iff.mpr hne
    omega
  have hresponse : srv.responseTo
      (srv.core state (requestOf block).triplet {}).1 = response := by
    rw [responseTo, hrespond]
  rw [handleLoop, hread]
  simp only [Bool.false_eq_true, ↓reduceIte, ↓reduceDIte, htriplet, hrespond,
    hresponse, hwrite, if_neg hpos]
  split
  · simp only [List.filter_cons, List.filter_append, filter_logged,
      Event.isExchange, ↓reduceIte, List.filter_nil, List.nil_append]
  · simp only [List.filter_cons, List.filter_append, filter_logged,
      Event.isExchange, ↓reduceIte, List.filter_nil, List.nil_append,
      List.cons_append]

/-- The loop from any point of the connection on: `handled` blocks are done
and the limit is not reached. -/
theorem handleLoop_exchanges (srv : Server σ)
    (hwrite : ∀ call text, (srv.write call text).nwritten = text.length)
    (stream : Str) (handled : Nat) (state : σ)
    (hlimit : srv.maxRequests = 0 ∨ handled < srv.maxRequests) :
    ((srv.handleLoop { rest := stream } handled state).1.filter
        Event.isExchange,
      (srv.handleLoop { rest := stream } handled state).2) =
      srv.exchanges
        (if srv.maxRequests = 0 then (blocks stream).takeWhile complete
          else ((blocks stream).takeWhile complete).take
            (srv.maxRequests - handled)) state := by
  induction hsize : stream.length using Nat.strong_induction_on
    generalizing stream handled state with
  | _ size ih =>
      subst hsize
      rcases stream_cases stream with
        ⟨block, rest, hblock, rfl⟩ | ⟨block, tail, hblock, htail, rfl⟩
      · rw [blocks_of_finished hblock]
        cases hcomplete : complete block with
        | false =>
            obtain ⟨result, writer, hread, -, -, hfail⟩ :=
              readBlock_finished hblock rest
            obtain ⟨e, rfl⟩ := hfail hcomplete
            rw [handleLoop, hread]
            simp [hcomplete, exchanges, Event.isExchange]
        | true =>
            rw [srv.handleLoop_complete hwrite hblock hcomplete,
              List.takeWhile_cons_of_pos hcomplete]
            by_cases hlast : 0 < srv.maxRequests ∧
                handled + 1 = srv.maxRequests
            · have hone : srv.maxRequests - handled = 1 := by omega
              rw [if_pos hlast, if_neg (Nat.ne_of_gt hlast.1), hone]
              rfl
            · have hlt : rest.length <
                  (blockText block ++ '\n' :: rest).length := by
                rw [List.length_append, List.length_cons]
                omega
              have hrest := ih _ hlt rest (handled + 1)
                (srv.core state (requestOf block).triplet {}).2 (by omega) rfl
              rw [if_neg hlast]
              by_cases hzero : srv.maxRequests = 0
              · rw [if_pos hzero, exchanges]
                rw [if_pos hzero] at hrest
                rw [← hrest]
              · have hstep : srv.maxRequests - handled =
                    srv.maxRequests - (handled + 1) + 1 := by
                  omega
                rw [if_neg hzero, hstep, List.take_succ_cons, exchanges]
                rw [if_neg hzero] at hrest
                rw [← hrest]
      · obtain ⟨writer, hread⟩ := readBlock_unfinished hblock htail
        rw [blocks_of_unfinished hblock htail, handleLoop, hread]
        simp [exchanges]

/-- The handler decides on and answers precisely the served blocks, one after
the other and each from its own lines. -/
theorem handle_exchanges (srv : Server σ)
    (hwrite : ∀ call text, (srv.write call text).nwritten = text.length)
    (stream : Str) (state : σ) :
    ((srv.handle stream state).1.filter Event.isExchange,
      (srv.handle stream state).2) =
      srv.exchanges (served srv.maxRequests stream) state := by
  have hlimit : srv.maxRequests = 0 ∨ 0 < srv.maxRequests := by omega
  exact srv.handleLoop_exchanges hwrite stream 0 state hlimit

end Server

namespace ServerFramingWitness

/-- A chain that counts its calls and never defers, on a socket that takes
everything. -/
def srv : Server Nat where
  core state t extra := (⟨.ok .dunno, extra, t⟩, state + 1)
  action :=
    { deferwithstatus := true
      defer := "defer_if_permit Service is unavailable".toList
      dunno := "dunno".toList
      onerror := "dunno".toList
      logLevel := .full }
  maxRequests := 0
  signal := false
  write _ text := { nwritten := text.length }

/-- A finished block, a block without a recipient and a third one. -/
def stream : Str :=
  ("client_address=192.0.2.7\nsender=a=b\nsender=c\nrecipient=d\n\n" ++
    "client_address=192.0.2.7\nsender=a\n\n" ++
    "client_address=192.0.2.7\nsender=a\nrecipient=b\n\n").toList

def request : Request :=
  { client_address := "192.0.2.7".toList
    sender := "a=b".toList
    recipient := "d".toList }

theorem handle_stream :
    ((srv.handle stream 0).1.filter Event.isExchange,
      (srv.handle stream 0).2) =
      ([.process request.triplet, .write "action=dunno\n\n".toList], 1) := by
  have hserved : served 0 stream =
      [["client_address=192.0.2.7".toList, "sender=a=b".toList,
        "sender=c".toList, "recipient=d".toList]] := by
    decide +kernel
  rw [srv.handle_exchanges (fun _ _ => rfl) stream 0]
  change srv.exchanges (served 0 stream) 0 = _
  rw [hserved]
  rfl

end ServerFramingWitness

end GreylistServer
