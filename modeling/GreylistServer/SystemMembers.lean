/-
The members of the configured matchers.  A match section may name any text as
the member it looks up; a text that is no column is stored as an index outside
the enumerators and found out by the first request.  So an accepted chain reads
its members without an error exactly when the matchers its policies refer to
name columns.
-/
import GreylistServer.SystemLayout

namespace GreylistServer

namespace ConfiguredMatcher

/-- The matcher's member can be read from every triplet. -/
def Readable : ConfiguredMatcher → Prop
  | .all => True
  | .lookup _ _ _ member _ =>
      ∀ (dns : Nat → Resolution) (triplet : Triplet) (what : Str),
        (triplet.getMember dns member).1 ≠ .error (.out_of_range what)

end ConfiguredMatcher

namespace ParsedSection

/-- The member of a match section is a column. -/
def NamesColumn (s : ParsedSection) : Prop :=
  s.cfg.getVal MatchTokensType.type = "all".toList ∨
    Tokens.configColumnTokens.findToken (s.cfg.getVal MatchTokensType.match) ≠
      none

instance : DecidablePred NamesColumn := fun _ =>
  inferInstanceAs (Decidable (_ ∨ _))

end ParsedSection

theorem getMember_ne_out_of_range {member : MemberType}
    (hknown : ∀ idx, member ≠ .unknown idx) (dns : Nat → Resolution)
    (triplet : Triplet) (what : Str) :
    (triplet.getMember dns member).1 ≠ .error (.out_of_range what) := by
  cases member with
  | unknown idx => exact absurd rfl (hknown idx)
  | _ => exact nofun

theorem matcher_readable_iff (type : MatchTypeTokensType) (cfg : ConfigWriter)
    (ds : DBDataSource) :
    (MatchCreator.matcher type cfg ds).Readable ↔
      Tokens.configColumnTokens.findToken
        (cfg.getVal MatchTokensType.match) ≠ none := by
  have hcolumns : ∀ entry ∈ Tokens.configColumnTokens.map.entries,
      entry.2 < 9 := by
    decide
  rw [MatchCreator.matcher, ConfiguredMatcher.Readable]
  cases hfind : Tokens.configColumnTokens.findToken
      (cfg.getVal MatchTokensType.match) with
  | none =>
      simp only [Option.getD_none, ne_eq, not_true_eq_false, iff_false]
      intro hreadable
      exact hreadable (fun _ => .name []) (Triplet.new [] [] [] [] []) _ rfl
  | some idx =>
      simp only [Option.getD_some, ne_eq, reduceCtorEq, not_false_eq_true,
        iff_true]
      have hlt := hcolumns _ (OrdMap.mem_entries_of_find hfind)
      apply getMember_ne_out_of_range
      intro other
      simp only at hlt
      interval_cases idx <;> exact nofun

namespace System

/-- Every matcher a policy section refers to has a member that can be read: one
that was there before, or one of a match section. -/
def MembersNamed (sections : List ParsedSection)
    (matchers : OrdMap Str ConfiguredMatcher) : Prop :=
  ∀ p ∈ sections, p.stkid = .policy →
    (∀ matcher, matchers.find (p.cfg.getVal PolicyTokensType.match) =
      some matcher → matcher.Readable) ∧
    ∀ m ∈ sections, m.stkid = .match →
      m.cfg.getVal MatchTokensType.name = p.cfg.getVal PolicyTokensType.match →
      m.NamesColumn

section

variable {s : ParsedSection} {rest : List ParsedSection}
  {matchers : OrdMap Str ConfiguredMatcher} {matcher : ConfiguredMatcher}

theorem membersNamed_cons_other (hpolicy : s.stkid ≠ .policy)
    (hmatch : s.stkid ≠ .match) :
    MembersNamed (s :: rest) matchers ↔ MembersNamed rest matchers := by
  rw [MembersNamed, MembersNamed, List.forall_mem_cons]
  constructor
  · rintro ⟨-, hrest⟩ p hp hkind
    obtain ⟨hleft, hsections⟩ := hrest p hp hkind
    exact ⟨hleft, (List.forall_mem_cons.mp hsections).2⟩
  · intro hrest
    refine ⟨fun hkind => absurd hkind hpolicy, fun p hp hkind => ?_⟩
    obtain ⟨hleft, hsections⟩ := hrest p hp hkind
    exact ⟨hleft, List.forall_mem_cons.mpr
      ⟨fun hkind => absurd hkind hmatch, hsections⟩⟩

theorem membersNamed_cons_match (hkind : s.stkid = .match)
    (hnew : matchers.find (s.cfg.getVal MatchTokensType.name) = none)
    (hmatcher : matcher.Readable ↔ s.NamesColumn) :
    MembersNamed (s :: rest) matchers ↔
      MembersNamed rest
        (matchers.insert (s.cfg.getVal MatchTokensType.name) matcher) := by
  have hnot : s.stkid ≠ .policy := by
    rw [hkind]
    exact nofun
  rw [MembersNamed, MembersNamed, List.forall_mem_cons]
  constructor
  · rintro ⟨-, hrest⟩ p hp hpolicy
    obtain ⟨hleft, hsections⟩ := hrest p hp hpolicy
    obtain ⟨hfirst, hothers⟩ := List.forall_mem_cons.mp hsections
    refine ⟨?_, hothers⟩
    intro found hfound
    rw [OrdMap.find_insert_of_none hnew] at hfound
    split at hfound
    · next heq =>
        cases hfound
        exact hmatcher.mpr (hfirst hkind heq.symm)
    · exact hleft found hfound
  · intro hrest
    refine ⟨fun hpolicy => absurd hpolicy hnot, fun p hp hpolicy => ?_⟩
    obtain ⟨hleft, hothers⟩ := hrest p hp hpolicy
    refine ⟨?_, List.forall_mem_cons.mpr ⟨?_, hothers⟩⟩
    · intro found hfound
      apply hleft found
      have hne : p.cfg.getVal PolicyTokensType.match ≠
          s.cfg.getVal MatchTokensType.name := by
        intro heq
        rw [heq, hnew] at hfound
        cases hfound
      rw [OrdMap.find_insert_of_none hnew, if_neg hne]
      exact hfound
    · intro _ hname
      apply hmatcher.mp
      apply hleft matcher
      rw [OrdMap.find_insert_of_none hnew, if_pos hname.symm]

theorem membersNamed_cons_policy (hkind : s.stkid = .policy)
    (hfound : matchers.find (s.cfg.getVal PolicyTokensType.match) =
      some matcher)
    (hfresh : ∀ m ∈ rest, m.stkid = .match →
      m.cfg.getVal MatchTokensType.name ≠
        s.cfg.getVal PolicyTokensType.match) :
    MembersNamed (s :: rest) matchers ↔
      matcher.Readable ∧ MembersNamed rest matchers := by
  have hnot : s.stkid ≠ .match := by
    rw [hkind]
    exact nofun
  rw [MembersNamed, MembersNamed, List.forall_mem_cons]
  constructor
  · rintro ⟨hfirst, hrest⟩
    refine ⟨(hfirst hkind).1 matcher hfound, fun p hp hpolicy => ?_⟩
    obtain ⟨hleft, hsections⟩ := hrest p hp hpolicy
    exact ⟨hleft, (List.forall_mem_cons.mp hsections).2⟩
  · rintro ⟨hreadable, hrest⟩
    refine ⟨fun _ => ⟨?_, List.forall_mem_cons.mpr
      ⟨fun hmatch => absurd hmatch hnot, ?_⟩⟩, fun p hp hpolicy => ?_⟩
    · intro other hother
      rw [hfound] at hother
      cases hother
      exact hreadable
    · intro m hm hmatch hname
      exact absurd hname (hfresh m hm hmatch)
    · obtain ⟨hleft, hothers⟩ := hrest p hp hpolicy
      exact ⟨hleft, List.forall_mem_cons.mpr
        ⟨fun hmatch => absurd hmatch hnot, hothers⟩⟩

end

/-- The sections of an accepted configuration define only new names. -/
theorem Complete.defines_new {known : List Name}
    {sections : List ParsedSection} (hcomplete : Complete known sections) :
    ∀ s ∈ sections, ∀ name ∈ s.defines, name ∉ known := by
  induction sections generalizing known with
  | nil => simp
  | cons s rest ih =>
      obtain ⟨⟨-, hnew, -⟩, hrest⟩ := hcomplete
      rw [List.forall_mem_cons]
      refine ⟨hnew, fun other hother name hname hknown => ?_⟩
      exact ih hrest other hother name hname
        (List.mem_append_right s.defines hknown)

/-- A policy section puts the matcher it refers to into the chain, and no later
section defines another one of that name. -/
theorem policy_readable_iff {cfg : ConfigWriter} {load : Loading}
    {matcher : ConfiguredMatcher}
    (hfound : load.system.matchers.find
      (cfg.getVal PolicyTokensType.match) = some matcher)
    (policy : ConfiguredPolicy) {rest : List ParsedSection}
    (hrest : Complete load.system.names rest) :
    ((∀ entry ∈ load.core, entry.1.Readable) ∧
        MembersNamed (⟨.policy, cfg⟩ :: rest) load.system.matchers) ↔
      (∀ entry ∈ load.core ++ [(matcher, policy)], entry.1.Readable) ∧
        MembersNamed rest load.system.matchers := by
  have hfresh : ∀ m ∈ rest, m.stkid = .match →
      m.cfg.getVal MatchTokensType.name ≠
        cfg.getVal PolicyTokensType.match := by
    rintro ⟨stkid, other⟩ hm hkind hname
    obtain rfl : stkid = .match := hkind
    apply hrest.defines_new _ hm _ (List.mem_singleton_self _)
    exact (mem_names_match _ _).mpr ⟨matcher, by rw [hname]; exact hfound⟩
  have hpolicy : MembersNamed (⟨.policy, cfg⟩ :: rest) load.system.matchers ↔
      matcher.Readable ∧ MembersNamed rest load.system.matchers :=
    membersNamed_cons_policy rfl hfound hfresh
  rw [hpolicy, List.forall_mem_append, List.forall_mem_singleton, and_assoc]

/-- The matchers of the chain after one section. -/
theorem Created.readable_iff {s : ParsedSection} {load next : Loading}
    (hcreated : Created s load next) {rest : List ParsedSection}
    (hrest : Complete next.system.names rest) :
    ((∀ entry ∈ load.core, entry.1.Readable) ∧
        MembersNamed (s :: rest) load.system.matchers) ↔
      (∀ entry ∈ next.core, entry.1.Readable) ∧
        MembersNamed rest next.system.matchers := by
  cases hcreated with
  | database hdb hnone =>
      rw [membersNamed_cons_other (by simp) (by simp)]
  | datasource htype hdb hfind htable hnone =>
      rw [membersNamed_cons_other (by simp) (by simp)]
  | server =>
      rw [membersNamed_cons_other (by simp) (by simp)]
      rfl
  | matchAll htype hnone =>
      have hmatcher : ConfiguredMatcher.all.Readable ↔
          ParsedSection.NamesColumn ⟨.match, _⟩ :=
        ⟨fun _ => Or.inl htype, fun _ => trivial⟩
      rw [membersNamed_cons_match rfl hnone hmatcher]
  | @lookup cfg load ds entry hentry htype hds hfind hlookup hmatch hnone =>
      have hnotAll : cfg.getVal MatchTokensType.type ≠ "all".toList := by
        rw [htype]
        exact all_not_lookupType hentry
      have hmatcher : (MatchCreator.matcher entry.2 cfg ds).Readable ↔
          ParsedSection.NamesColumn ⟨.match, cfg⟩ := by
        rw [matcher_readable_iff]
        exact ⟨Or.inr, fun hcolumn => hcolumn.resolve_left hnotAll⟩
      rw [membersNamed_cons_match rfl hnone hmatcher]
  | greylist htype hds hfind hpolicy hmatch hfound =>
      exact policy_readable_iff hfound _ hrest
  | whitelist htype hmatch hfound =>
      exact policy_readable_iff hfound _ hrest

/-- The chain of a configuration all of whose sections are taken. -/
theorem createAll_readable_iff {sections : List ParsedSection}
    {load final : Loading} (hok : createAll sections load = (.ok (), final)) :
    (∀ entry ∈ final.core, entry.1.Readable) ↔
      (∀ entry ∈ load.core, entry.1.Readable) ∧
        MembersNamed sections load.system.matchers := by
  induction sections generalizing load with
  | nil =>
      obtain rfl : load = final := congrArg Prod.snd hok
      have hnone : MembersNamed [] load.system.matchers := by
        intro p hp
        cases hp
      exact ⟨fun hall => ⟨hall, hnone⟩, And.left⟩
  | cons s rest ih =>
      rw [createAll] at hok
      cases hcreate : create s load with
      | error e => simp [hcreate] at hok
      | ok next =>
          rw [hcreate] at hok
          have haccepted := congrArg Prod.fst hok
          have hrest := (createAll_accepts_iff rest next).mp haccepted
          rw [(Created.of_create hcreate).readable_iff hrest]
          exact ih hok

/-- The members of an accepted chain can be read from every triplet exactly
when the matchers its policies refer to name columns. -/
theorem chain_readable_iff {reader : ConfigReader} {sys : System}
    {loaded : Loading}
    (hok : parseConfigurationSections reader { system := sys } =
      (.ok (), loaded)) :
    (∀ entry ∈ loaded.core, entry.1.Readable) ↔
      MembersNamed (readSections reader).1 sys.matchers := by
  obtain ⟨-, created, hcreate, rfl⟩ := parseConfigurationSections_ok hok
  rw [createAll_readable_iff hcreate]
  exact and_iff_right fun entry hentry => absurd hentry List.not_mem_nil

end System

namespace MembersWitness

def before : List Str :=
  ["[database]".toList, "name=db".toList, "type=mysql".toList,
    "[datasource]".toList, "name=ds".toList, "type=db".toList,
    "table=t".toList, "database=db".toList,
    "[match]".toList, "name=m".toList, "type=exact match".toList,
    "datasource=ds".toList, "lookup=address".toList]

def policy : List Str :=
  ["[policy]".toList, "type=whitelist".toList, "match=m".toList]

/-- The matcher the sections make. -/
def matcher (member : MemberType) : ConfiguredMatcher :=
  .lookup .exact_match
    ⟨"ds".toList, ⟨"db".toList, ⟨[("type".toList, "mysql".toList)]⟩, 10⟩,
      "t".toList⟩ "address".toList member []

/-- The member is misspelt. -/
def misspelt : ConfigReader where
  rest := before ++ ["match=sendr".toList] ++ policy

theorem misspelt_accepted :
    (System.parseConfigurationSections misspelt {}).1 = .ok () ∧
      (System.parseConfigurationSections misspelt {}).2.core.map
          (fun entry => entry.1) = [matcher (.unknown 4294967295)] ∧
      (Triplet.getMember (fun _ => .name []) (Triplet.new [] [] [] [] [])
        (.unknown 4294967295)).1 =
          .error (.out_of_range
            "unknown triplet member index: -1".toList) := by
  refine ⟨by decide +kernel, by decide +kernel, by decide +kernel⟩

def wellSpelt : ConfigReader where
  rest := before ++ ["match=sender".toList] ++ policy

theorem wellSpelt_readable : (matcher .sender).Readable := by
  have hok : System.parseConfigurationSections wellSpelt {} =
      (.ok (), (System.parseConfigurationSections wellSpelt {}).2) :=
    Prod.ext (by decide +kernel) rfl
  have hcolumns : ∀ m ∈ (System.readSections wellSpelt).1,
      m.stkid = .match → m.NamesColumn := by
    decide +kernel
  have hnamed : System.MembersNamed (System.readSections wellSpelt).1 {} := by
    intro p hp hpolicy
    constructor
    · intro matcher hfind
      cases hfind
    · intro m hm hmatch hname
      exact hcolumns m hm hmatch
  have hchain : (System.parseConfigurationSections wellSpelt {}).2.core.map
      (fun entry => entry.1) = [matcher .sender] := by
    decide +kernel
  have hmem : matcher .sender ∈
      (System.parseConfigurationSections wellSpelt {}).2.core.map
        fun entry => entry.1 := by
    rw [hchain]
    exact List.mem_singleton_self _
  obtain ⟨entry, hentry, heq⟩ := List.mem_map.mp hmem
  rw [← heq]
  exact (System.chain_readable_iff hok).mpr hnamed entry hentry

end MembersWitness

end GreylistServer
