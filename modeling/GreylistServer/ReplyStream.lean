/-
The replies on the wire.  A response is one line and an empty line behind it,
because neither the texts of a configuration file nor the remarks of the
policies contain a newline.  So the client that reads the replies of a
connection block by block gets one block for every request it is served.
-/
import GreylistServer.ConfigText
import GreylistServer.PolicyService
import GreylistServer.SystemSettings

namespace GreylistServer

/-- A text without a newline. -/
def OneLine (text : Str) : Prop :=
  '\n' ∉ text

instance : DecidablePred OneLine :=
  fun text => inferInstanceAs (Decidable ('\n' ∉ text))

theorem OneLine.append {first second : Str} (hfirst : OneLine first)
    (hsecond : OneLine second) : OneLine (first ++ second) := by
  intro hmem
  rcases List.mem_append.mp hmem with hleft | hright
  · exact hfirst hleft
  · exact hsecond hright

theorem oneLine_nil : OneLine [] :=
  List.not_mem_nil

theorem oneLine_decimal (value : Nat) : OneLine (decimal value) := by
  intro hmem
  have hdigit := Nat.isDigit_of_mem_toDigits (by decide) (by decide) hmem
  exact absurd hdigit (by decide)

/-- The whitelists of a chain have names of one line. -/
def NamedOnOneLine (chain : Chain) : Prop :=
  ∀ entry ∈ chain, ∀ name, entry.2 = .whitelist name → OneLine name

theorem NamedOnOneLine.concat {chain : Chain} (hchain : NamedOnOneLine chain)
    (matcher : ConfiguredMatcher) {policy : ConfiguredPolicy}
    (hname : ∀ name, policy = .whitelist name → OneLine name) :
    NamedOnOneLine (chain ++ [(matcher, policy)]) := by
  intro entry hentry
  rcases List.mem_append.mp hentry with hold | hnew
  · exact hchain entry hold
  · obtain rfl := List.mem_singleton.mp hnew
    exact hname

/-- The response texts are of one line. -/
structure Action.OnOneLine (action : Action) : Prop where
  defer : OneLine action.defer
  dunno : OneLine action.dunno
  onerror : OneLine action.onerror

namespace ConfigWriter

variable {tokens : TokenList}

theorem oneLine_valueOf {line value : Str} {u : Nat} (hline : OneLine line)
    (hvalue : valueOf tokens line u = some value) : OneLine value := by
  rw [valueOf] at hvalue
  rcases splitField_cases line with ⟨key, val, -, rfl, hsplit⟩ | ⟨-, hsplit⟩
  · rw [hsplit, Option.bind_some] at hvalue
    split at hvalue
    · obtain rfl := Option.some.inj hvalue
      intro hmem
      exact hline (List.mem_append_right key (List.mem_cons_of_mem '=' hmem))
    · cases hvalue
  · rw [hsplit] at hvalue
    cases hvalue

theorem oneLine_firstValue {body : List Str} {value : Str} {u : Nat}
    (hbody : ∀ line ∈ body, OneLine line)
    (hvalue : firstValue tokens body u = some value) : OneLine value := by
  obtain ⟨line, hline, hfound⟩ := List.exists_of_findSome?_eq_some hvalue
  exact oneLine_valueOf (hbody line hline) hfound

theorem oneLine_getDefault (stkid : SectionsTokensType) (u : Nat) :
    OneLine ((Tokens.configTokens stkid).getDefault u) := by
  have hentries : ∀ entry ∈ (Tokens.configTokens stkid).default.entries,
      '\n' ∉ entry.2 := by
    cases stkid <;> decide
  rw [TokenList.getDefault]
  cases hfind : (Tokens.configTokens stkid).default.find u with
  | none => exact oneLine_nil
  | some text => exact hentries _ (OrdMap.mem_entries_of_find hfind)

/-- The values of a section are pieces of its lines, or defaults. -/
theorem oneLine_sectionValues (stkid : SectionsTokensType) {body : List Str}
    (hbody : ∀ line ∈ body, OneLine line) (u : Nat) :
    OneLine ((sectionValues (Tokens.configTokens stkid) body).getVal u) := by
  have hvalues := (sectionValues_ownContents (Tokens.configTokens stkid)
    body).values u
  rw [getVal, hvalues]
  cases hfirst : firstValue (Tokens.configTokens stkid) body u with
  | some value => exact oneLine_firstValue hbody hfirst
  | none =>
      rw [Option.none_or]
      split
      · exact oneLine_getDefault stkid u
      · exact oneLine_nil

end ConfigWriter

namespace System

theorem mem_of_mem_sectionBodies (lines : List Str) :
    ∀ entry ∈ sectionBodies lines, ∀ line ∈ entry.2, line ∈ lines := by
  induction lines using sectionBodies.induct with
  | case1 =>
      rw [sectionBodies]
      exact List.forall_mem_nil _
  | case2 first rest hopened ih =>
      intro entry hentry line hline
      rw [sectionBodies, hopened] at hentry
      exact List.mem_cons_of_mem first (ih entry hentry line hline)
  | case3 first rest stkid hopened ih =>
      intro entry hentry line hline
      rw [sectionBodies, hopened] at hentry
      apply List.mem_cons_of_mem
      rcases List.mem_cons.mp hentry with rfl | hlater
      · exact (List.takeWhile_sublist _).subset hline
      · exact (List.dropWhile_sublist _).subset (ih entry hlater line hline)

section

variable {lines : List Str} (hlines : ∀ line ∈ lines, OneLine line)

include hlines

theorem oneLine_readSections (hread : (readSections ⟨lines, false⟩).2 = none) :
    ∀ s ∈ (readSections ⟨lines, false⟩).1, ∀ u, OneLine (s.cfg.getVal u) := by
  intro s hs u
  rw [readSections_eq lines false hread] at hs
  obtain ⟨entry, hentry, rfl⟩ := List.mem_map.mp hs
  exact ConfigWriter.oneLine_sectionValues entry.1 (fun line hline =>
    hlines line (mem_of_mem_sectionBodies lines entry hentry line hline)) u

theorem oneLine_serverValue {body : List Str}
    (hserver : firstServer lines = some body) (u : ServerTokensType) :
    OneLine (serverValue body u) := by
  obtain ⟨entry, hentry, hfound⟩ := List.exists_of_findSome?_eq_some hserver
  split at hfound
  · obtain rfl := Option.some.inj hfound
    rw [serverValue]
    cases hfirst : ConfigWriter.firstValue Tokens.serverTokens entry.2 u with
    | some value =>
        exact ConfigWriter.oneLine_firstValue (fun line hline => hlines line
          (mem_of_mem_sectionBodies lines entry hentry line hline)) hfirst
    | none => exact ConfigWriter.oneLine_getDefault .server u
  · cases hfound

end

theorem Created.namedOnOneLine {s : ParsedSection} {load next : Loading}
    (hcreated : Created s load next) (hvalues : ∀ u, OneLine (s.cfg.getVal u))
    (hchain : NamedOnOneLine load.core) : NamedOnOneLine next.core := by
  cases hcreated with
  | database => exact hchain
  | datasource => exact hchain
  | matchAll => exact hchain
  | lookup => exact hchain
  | @greylist _ _ _ _ matcher =>
      refine hchain.concat matcher ?_
      intro name hname
      cases hname
  | @whitelist _ _ matcher =>
      refine hchain.concat matcher ?_
      intro name hname
      cases hname
      exact hvalues _
  | server => exact hchain

theorem createAll_namedOnOneLine {sections : List ParsedSection}
    {load created : Loading}
    (hvalues : ∀ s ∈ sections, ∀ u, OneLine (s.cfg.getVal u))
    (hchain : NamedOnOneLine load.core)
    (hcreate : createAll sections load = (.ok (), created)) :
    NamedOnOneLine created.core := by
  induction sections generalizing load with
  | nil =>
      obtain rfl := congrArg Prod.snd hcreate
      exact hchain
  | cons s rest ih =>
      rw [createAll] at hcreate
      cases hfirst : create s load with
      | error e =>
          rw [hfirst] at hcreate
          cases hcreate
      | ok next =>
          rw [hfirst] at hcreate
          have hnext := (Created.of_create hfirst).namedOnOneLine
            (hvalues s List.mem_cons_self) hchain
          exact ih (fun s hs => hvalues s (List.mem_cons_of_mem _ hs)) hnext
            hcreate

/-- What is made of a file has neither a response text nor the name of a
whitelist that goes over one line. -/
theorem compileConfig_oneLine {openListener : Listener} {text : Str}
    {sys : System} {params : ServerParams} {after : Loading}
    (hok : compileConfig openListener (ConfigFileReader.fileLines text) false
      { system := sys } = (.ok params, after)) :
    Action.OnOneLine params.action ∧ NamedOnOneLine after.core := by
  have hlines : ∀ line ∈ ConfigFileReader.fileLines text, OneLine line :=
    fun line hline => (ConfigFileReader.fileLines_usable text line hline).2
  obtain ⟨loaded, hparsed, hparams, -⟩ := compileConfig_ok hok
  have hsettings : ∀ u, OneLine (loaded.settings.value u) := by
    intro u
    rw [ServerSettings.value, loaded_settings hparsed]
    cases hserver : firstServer (ConfigFileReader.fileLines text) with
    | none => exact oneLine_nil
    | some body => exact oneLine_serverValue hlines hserver u
  have hcore : after.core = loaded.core := by
    rw [compileConfig, if_neg Bool.false_ne_true, hparsed] at hok
    simp only [startServer] at hok
    split at hok
    · cases hok
    · cases hok
      rfl
  obtain ⟨hread, created, hcreate, rfl⟩ := parseConfigurationSections_ok hparsed
  constructor
  · rw [hparams]
    exact ⟨hsettings .defer, hsettings .dunno, hsettings .onerror⟩
  · have hempty : NamedOnOneLine ({ system := sys } : Loading).core :=
      List.forall_mem_nil _
    have hnamed := createAll_namedOnOneLine
      (oneLine_readSections hlines hread) hempty hcreate
    rw [hcore]
    exact hnamed

end System

/-- The remarks of a greylist are fixed words. -/
theorem Greylist.decide_returns_oneLine (g : Greylist) (t : Triplet)
    {extra : Extra} (hextra : OneLine extra.prefixText) :
    (g.decide t extra).Returns fun outcome =>
      OneLine outcome.extra.prefixText := by
  have hnew : OneLine ("new" : Str) := by decide
  have hok : OneLine ("ok" : Str) := by decide
  have hwait : OneLine ("wait" : Str) := by decide
  apply Greylist.findTriplet_returns
  intro found t
  split
  · exact hextra
  · apply Greylist.insertTriplet_returns
    intro result t
    split
    · exact hextra
    · exact hnew
  · intro now
    beta_reduce
    split
    · intro result
      beta_reduce
      split
      · exact hextra
      · exact hok
    · exact hwait

namespace Core.Outside

variable (out : Outside)

theorem decide_oneLine {policy : ConfiguredPolicy} {c : Context World}
    (hname : ∀ name, policy = .whitelist name → OneLine name)
    (hextra : OneLine c.extra.prefixText) :
    OneLine (out.decide policy c).2.extra.prefixText := by
  cases policy with
  | whitelist name =>
      have hwl : OneLine ("wl " : Str) := by decide
      exact hwl.append (hname name rfl)
  | greylist ds policy =>
      exact (policy.decide_returns_oneLine c.triplet hextra).eval _ _

theorem match_oneLine (matcher : ConfiguredMatcher) {c : Context World}
    (hextra : OneLine c.extra.prefixText) :
    OneLine (out.match matcher c).2.extra.prefixText := by
  rcases (out.match_spec matcher c).2 with hsame | ⟨-, text, hcomment⟩
  · rw [hsame]
    exact hextra
  · rw [hcomment]
    exact hextra

/-- A walk along the chain leaves a remark of one line. -/
theorem process_oneLine {chain : Chain} (hchain : NamedOnOneLine chain)
    {c : Context World} (hextra : OneLine c.extra.prefixText) :
    OneLine (process (out.modules (out.configured chain))
      c).2.extra.prefixText := by
  induction chain generalizing c with
  | nil => exact hextra
  | cons entry rest ih =>
      obtain ⟨matcher, policy⟩ := entry
      have hrest : NamedOnOneLine rest :=
        fun entry hentry => hchain entry (List.mem_cons_of_mem _ hentry)
      have hmatch := out.match_oneLine matcher hextra
      simp only [configured, List.map_cons, modules, process]
      rcases hmatched : out.match matcher c with ⟨answer, accepted⟩
      rw [hmatched] at hmatch
      rcases answer with e | answer
      · exact hmatch
      · cases answer with
        | false => exact ih hrest hmatch
        | true =>
            have hdecide := out.decide_oneLine
              (fun name hname => hchain _ List.mem_cons_self name hname)
              hmatch
            rcases hdecided : out.decide policy accepted with ⟨verdict, next⟩
            rw [hdecided] at hdecide
            simp only [hdecided]
            rcases verdict with e | action
            · exact hdecide
            · simp only
              split
              · exact hdecide
              · exact ih hrest hdecide

end Core.Outside

/-- A line that names an action. -/
def IsActionLine (line : Str) : Prop :=
  ("action=" : Str) <+: line ∧ OneLine line

/-- A reply of the policy protocol: the line and an empty line behind it. -/
def frame (line : Str) : Str :=
  line ++ ("\n\n" : Str)

theorem Action.process_frame {action : Action} (haction : action.OnOneLine)
    {verdict : ActionType} {t : Triplet} {extra : Extra}
    (hextra : OneLine extra.prefixText) {response : Str}
    {logged : Option Str}
    (hprocess : action.process verdict t extra = .ok (response, logged)) :
    ∃ line, IsActionLine line ∧ frame line = response := by
  have hname : OneLine ("action=" : Str) := by decide
  have hspace : OneLine (" " : Str) := by decide
  have hopen : OneLine (": (" : Str) := by decide
  have hcomma : OneLine (", " : Str) := by decide
  have hclose : OneLine (" secs)" : Str) := by decide
  have hstatus : OneLine (Action.status extra) :=
    (((hextra.append hopen).append (oneLine_decimal _)).append hcomma).append
      (oneLine_decimal _) |>.append hclose
  rw [Action.process] at hprocess
  cases htext : action.text verdict with
  | none =>
      rw [htext] at hprocess
      cases hprocess
  | some text =>
      have htextLine : OneLine text := by
        cases verdict with
        | dunno => exact Option.some.inj htext ▸ haction.dunno
        | defer => exact Option.some.inj htext ▸ haction.defer
        | error => exact Option.some.inj htext ▸ haction.onerror
        | cont => cases htext
      rw [htext] at hprocess
      cases hprocess
      refine ⟨_, ⟨?_, ?_⟩, rfl⟩
      · rw [List.append_assoc]
        exact List.prefix_append _ _
      · refine (hname.append htextLine).append ?_
        split
        · exact hspace.append hstatus
        · exact oneLine_nil

namespace Server

variable {σ : Type}

/-- Whatever the chain answers or throws, the response is one line and the
empty line behind it. -/
theorem responseTo_frame (srv : Server σ) (haction : srv.action.OnOneLine)
    {outcome : Outcome} (hextra : OneLine outcome.extra.prefixText) :
    ∃ line, IsActionLine line ∧ frame line = srv.responseTo outcome := by
  obtain ⟨response, logged, hrespond, -⟩ := srv.respond_ok outcome
  have hreply : srv.responseTo outcome = response := by
    rw [responseTo, hrespond]
  rw [hreply]
  rw [respond] at hrespond
  split at hrespond
  · next answered hdecided =>
      cases hrespond
      split at hdecided
      · cases hdecided
      · exact Action.process_frame haction hextra hdecided
  · next e hdecided =>
      have hcomment : OneLine (outcome.extra.setComment
          (("Error: caught exception in core: " : Str) ++
            e.what)).prefixText := hextra
      exact Action.process_frame haction hcomment hrespond

theorem exists_frames {replies : List Str}
    (hreplies : ∀ response ∈ replies,
      ∃ line, IsActionLine line ∧ frame line = response) :
    ∃ lines : List Str, (∀ line ∈ lines, IsActionLine line) ∧
      lines.map frame = replies := by
  induction replies with
  | nil => exact ⟨[], List.forall_mem_nil _, rfl⟩
  | cons response rest ih =>
      obtain ⟨hfirst, hrest⟩ := List.forall_mem_cons.mp hreplies
      obtain ⟨line, hline, rfl⟩ := hfirst
      obtain ⟨lines, hlines, rfl⟩ := ih hrest
      exact ⟨line :: lines, List.forall_mem_cons.mpr ⟨hline, hlines⟩, rfl⟩

/-- A client that cuts what it receives at the empty lines gets back the
replies. -/
theorem blocks_frames {lines : List Str}
    (hlines : ∀ line ∈ lines, IsActionLine line) :
    blocks (lines.map frame).flatten = lines.map fun line => [line] := by
  induction lines with
  | nil => rfl
  | cons line rest ih =>
      obtain ⟨⟨hname, honeLine⟩, hrest⟩ := List.forall_mem_cons.mp hlines
      have hne : line ≠ [] := by
        rintro rfl
        exact absurd (List.prefix_nil.mp hname) (by decide)
      have hplain : PlainLines [line] :=
        List.forall_mem_singleton.mpr ⟨hne, honeLine⟩
      have hstream : ((line :: rest).map frame).flatten =
          blockText [line] ++ '\n' :: (rest.map frame).flatten := by
        simp [frame, blockText]
      rw [hstream, blocks_of_finished hplain, ih hrest, List.map_cons]

end Server

namespace Core.Outside

variable {out : Outside}

/-- A connection to the server of a configuration file is written one reply
for every request it is served, each a line that names an action; cut at its
empty lines, what was written is these replies again. -/
theorem replies_read_back {openListener : Listener} {text : Str}
    {sys : System} {params : ServerParams} {after : Loading}
    (hloaded : System.compileConfig openListener
      (ConfigFileReader.fileLines text) false { system := sys } =
      (.ok params, after))
    {srv : Server World} (haction : srv.action = params.action)
    (hcore : srv.core = out.core after.core)
    (hwrite : ∀ call text, (srv.write call text).nwritten = text.length)
    (stream : Str) (world : World) :
    ∃ lines : List Str, (∀ line ∈ lines, IsActionLine line) ∧
      lines.length = (served srv.maxRequests stream).length ∧
      (srv.handle stream world).1.filterMap Event.written =
        lines.map frame ∧
      blocks ((srv.handle stream world).1.filterMap Event.written).flatten =
        lines.map fun line => [line] := by
  obtain ⟨honeLine, hnamed⟩ := System.compileConfig_oneLine hloaded
  rw [← haction] at honeLine
  have hreply : ∀ world block, ∃ line, IsActionLine line ∧
      frame line = (srv.reply world block).1 := by
    intro world block
    apply srv.responseTo_frame honeLine
    rw [hcore]
    exact out.process_oneLine hnamed oneLine_nil
  rw [(srv.handle_reply hwrite stream world).1]
  obtain ⟨lines, hlines, hframes⟩ := Server.exists_frames
    (srv.reply.forall_run hreply (served srv.maxRequests stream) world)
  refine ⟨lines, hlines, ?_, hframes.symm, ?_⟩
  · rw [← srv.reply.length_run (served srv.maxRequests stream) world,
      ← hframes, List.length_map]
  · rw [← hframes]
    exact Server.blocks_frames hlines

end Core.Outside

namespace ReplyStreamWitness

open GreylistServer.Core

/-- A configuration that whitelists everything. -/
def text : Str :=
  ("[match]\nname=every\ntype=all\n\n[policy] # no greylist\n" ++
    "type=whitelist\nmatch=every\n\n[server]\nmaxrequests=2\n").toList

def listener : Listener := fun _ _ => .ok ()

def loaded : Except Error ServerParams × Loading :=
  System.compileConfig listener (ConfigFileReader.fileLines text) false {}

def params : ServerParams where
  host := "0.0.0.0".toList
  port := "4096".toList
  spare := 2
  max := 150
  monitorRefresh := 5
  cacheRefresh := 600
  maxRequests := 2
  action :=
    { deferwithstatus := true
      defer := "defer_if_permit Service is unavailable".toList
      dunno := "dunno".toList
      onerror := "dunno".toList
      logLevel := .minimal }
  statsevery := 120

def srv : Server World where
  core := CoreWitness.out.core loaded.2.core
  action := params.action
  maxRequests := params.maxRequests
  signal := false
  write _ text := { nwritten := text.length }

/-- Three requests, one more than the connection may have. -/
def stream : Str :=
  ("client_address=192.0.2.7\nsender=a\nrecipient=b\n\n" ++
    "client_address=192.0.2.7\nsender=c\nrecipient=d\n\n" ++
    "client_address=192.0.2.7\nsender=e\nrecipient=f\n\n").toList

/-- The client reads two replies. -/
theorem two_replies_read_back :
    loaded.1 = .ok params ∧ ∃ lines : List Str, lines.length = 2 ∧
      blocks ((srv.handle stream CoreWitness.start.world).1.filterMap
        Event.written).flatten = lines.map fun line => [line] := by
  have hloaded : loaded.1 = .ok params := by decide +kernel
  have hserved : (served srv.maxRequests stream).length = 2 := by
    decide +kernel
  obtain ⟨lines, -, hlength, -, hread⟩ := Outside.replies_read_back
    (show System.compileConfig listener (ConfigFileReader.fileLines text)
      false {} = (.ok params, loaded.2) from Prod.ext hloaded rfl)
    (show srv.action = params.action from rfl) rfl (fun _ _ => rfl) stream
    CoreWitness.start.world
  exact ⟨hloaded, lines, hlength.trans hserved, hread⟩

end ReplyStreamWitness

end GreylistServer
