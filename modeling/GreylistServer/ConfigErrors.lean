/-
Why a configuration file can be rejected.  Whatever the file holds and
whatever earlier attempts have left behind, loading it fails with an error
about the configuration or about its listener: the first character of a line
is there when it is looked at, every token a message names has a name, and
every type that is known has a creator.
-/
import GreylistServer.ConfigText
import GreylistServer.ParserRequired
import GreylistServer.SystemSettings

namespace GreylistServer

/-- The errors that tell what is wrong with a configuration, each with the
text it comes with. -/
inductive Error.IsConfiguration : Error → Prop where
  /-- Required tokens of a section have neither a value nor a default. -/
  | missingTokens (tid : SectionsTokensType) {names : List Str}
      (hnames : names ≠ [])
      (hrequired : ∀ name ∈ names,
        ∃ s ∈ (Tokens.configTokens tid).reqarr.keys,
          (Tokens.configTokens tid).getToken s = .ok name) :
      IsConfiguration (.runtime_error (("Parser missing:" : Str) ++
        names.flatMap ((" " : Str) ++ ·)))
  | missingValue {tid : SectionsTokensType} {s : Nat} {sn token place : Str}
      (htoken : (Tokens.configTokens tid).getToken s = .ok token)
      (hplace : sectionNamed tid sn = .ok place) :
      IsConfiguration (.MissingValue (("missing value for '" : Str) ++ token ++
        place))
  | unknownReference {sid tid : SectionsTokensType} {sn token place : Str}
      (value known : Str)
      (htoken : Tokens.configSectionsTokens.getToken sid.idx = .ok token)
      (hplace : sectionNamed tid sn = .ok place) :
      IsConfiguration (.UnknownReference (("unknown reference to " : Str) ++
        token ++ (" '" : Str) ++ value ++ place ++ (", defined: " : Str) ++
        known))
  | alreadyDefined {what : Str} (name : Str)
      (hwhat : what ∈ ["database", "datasource", "match"].map
        String.toList) :
      IsConfiguration (.runtime_error (what ++ (" named '" : Str) ++ name ++
        ("' already defined" : Str)))
  | missingType {tid : SectionsTokensType} {token : Str}
      (htoken : Tokens.configSectionsTokens.getToken tid.idx = .ok token) :
      IsConfiguration (.UnknownConfig (("Missing type in section [" : Str) ++
        token ++ ("]" : Str)))
  | unknownType {tid : SectionsTokensType} {token value : Str}
      (htoken : Tokens.configSectionsTokens.getToken tid.idx = .ok token)
      (hvalue : (Tokens.configTypeTokens tid).findToken value = none) :
      IsConfiguration (.BadType (("Unknown type in section '" : Str) ++ token ++
        ("' '" : Str) ++ value ++ ("'" : Str)))
  | badValue {text : Str} (shown : Str)
      (htext : text ∈ ["bad value for 'spare' ", "bad value for 'timeout' ",
        "bad value for 'weakbytes' "].map String.toList) :
      IsConfiguration (.BadValue (text ++ shown))
  | unknownMode {value : Str}
      (hvalue : Tokens.configGreylistTokens.findToken value = none) :
      IsConfiguration (.BadValue (("unknown greylist mode '" : Str) ++ value ++
        ("'" : Str)))

section Told

variable {α β : Type}

/-- Every exception of a computation is about the configuration. -/
def Told (x : Except Error α) : Prop :=
  ∀ e, x = .error e → e.IsConfiguration

theorem told_ok (a : α) : Told (.ok a) := by
  rintro e ⟨⟩

theorem told_throw {e : Error} (he : e.IsConfiguration) :
    Told (throw e : Except Error α) := by
  rintro _ ⟨⟩
  exact he

theorem Told.bind {x : Except Error α} {f : α → Except Error β}
    (hx : Told x) (hf : ∀ a, x = .ok a → Told (f a)) : Told (x >>= f) := by
  cases x with
  | error e =>
      rintro _ ⟨⟩
      exact hx e rfl
  | ok a => exact hf a rfl

end Told

theorem sectionToken_told (tid : SectionsTokensType) :
    Told (Tokens.configSectionsTokens.getToken tid.idx) := by
  cases tid <;> exact told_ok _

/-- Every position of a section's tokens has a name. -/
theorem configToken_named {tid : SectionsTokensType} {s : Nat}
    (hs : s < (Tokens.configTokens tid).map.size) :
    ∃ name, (Tokens.configTokens tid).getToken s = .ok name := by
  have hnamed : ∀ s < (Tokens.configTokens tid).map.size,
      ((Tokens.configTokens tid).getToken s).toOption.isSome = true := by
    cases tid <;> decide
  have hsome := hnamed s hs
  cases htoken : (Tokens.configTokens tid).getToken s with
  | error e =>
      rw [htoken] at hsome
      cases hsome
  | ok name => exact ⟨name, rfl⟩

theorem configToken_told {tid : SectionsTokensType} {s : Nat}
    (hs : s < (Tokens.configTokens tid).map.size) :
    Told ((Tokens.configTokens tid).getToken s) := by
  obtain ⟨name, hname⟩ := configToken_named hs
  rw [hname]
  exact told_ok name

theorem sectionNamed_told (tid : SectionsTokensType) (sn : Str) :
    Told (sectionNamed tid sn) :=
  (sectionToken_told tid).bind fun _ _ => told_ok _

theorem checkForToken_told (cfg : ConfigWriter) {tid : SectionsTokensType}
    {s : Nat} (hnamed : Told ((Tokens.configTokens tid).getToken s))
    (sn : Str) : Told (checkForToken cfg tid s sn) := by
  unfold checkForToken
  split
  · refine hnamed.bind fun token htoken => ?_
    refine (sectionNamed_told tid sn).bind fun place hplace => ?_
    exact told_throw (.missingValue htoken hplace)
  · exact told_ok ()

theorem checkForRef_told {α : Type} (cfg : ConfigWriter)
    (container : OrdMap Str α) (sid : SectionsTokensType)
    {tid : SectionsTokensType} {s : Nat}
    (hnamed : Told ((Tokens.configTokens tid).getToken s)) (sn : Str) :
    Told (checkForRef cfg container sid tid s sn) := by
  refine (checkForToken_told cfg hnamed sn).bind fun _ _ => ?_
  split
  · exact told_ok _
  · refine (sectionToken_told sid).bind fun token htoken => ?_
    refine (sectionNamed_told tid sn).bind fun place hplace => ?_
    exact told_throw (.unknownReference _ _ htoken hplace)

theorem enter_told {α : Type} {what : Str}
    (hwhat : what ∈ ["database", "datasource", "match"].map String.toList)
    (container : OrdMap Str α) (name : Str) (object : α) :
    Told (enter what container name object) := by
  unfold enter
  split
  · exact told_throw (.alreadyDefined name hwhat)
  · exact told_ok _

theorem DatabaseCreator.create_told (cfg : ConfigWriter) (load : Loading) :
    Told (DatabaseCreator.create cfg load) := by
  have hdatabase : Told (DatabaseCreator.database cfg) := by
    have htype : Told ((Tokens.configTokens .database).getToken
      DatabaseTokensType.type) := told_ok _
    refine htype.bind fun _ _ => ?_
    dsimp only
    split
    · exact told_throw (.badValue _ (by decide))
    · exact told_ok _
  refine hdatabase.bind fun _ _ => ?_
  exact (enter_told (by decide) _ _ _).bind fun _ _ => told_ok _

theorem DBDataSourceCreator.create_told (cfg : ConfigWriter)
    (load : Loading) : Told (DBDataSourceCreator.create cfg load) := by
  refine (checkForRef_told cfg _ _ (configToken_told (by decide)) _).bind fun _ _ => ?_
  refine (checkForToken_told cfg (configToken_told (by decide)) _).bind fun _ _ => ?_
  exact (enter_told (by decide) _ _ _).bind fun _ _ => told_ok _

theorem MatchCreator.create_told (type : MatchTypeTokensType)
    (cfg : ConfigWriter) (load : Loading) :
    Told (MatchCreator.create type cfg load) := by
  refine (checkForRef_told cfg _ _ (configToken_told (by decide)) _).bind fun _ _ => ?_
  refine (checkForToken_told cfg (configToken_told (by decide)) _).bind fun _ _ => ?_
  refine (checkForToken_told cfg (configToken_told (by decide)) _).bind fun _ _ => ?_
  exact (enter_told (by decide) _ _ _).bind fun _ _ => told_ok _

theorem MatchCreator.createAll_told (cfg : ConfigWriter) (load : Loading) :
    Told (MatchCreator.createAll cfg load) :=
  (enter_told (by decide) _ _ _).bind fun _ _ => told_ok _

theorem WhitelistCreator.create_told (cfg : ConfigWriter) (load : Loading) :
    Told (WhitelistCreator.create cfg load) := by
  have htype : Told ((Tokens.configTypeTokens .policy).getToken
    PolicyTypeTokensType.whitelist.ctorIdx) := told_ok _
  refine htype.bind fun _ _ => ?_
  exact (checkForRef_told cfg _ _ (configToken_told (by decide)) _).bind fun _ _ => told_ok _

/-- Only a mode that is given can be unknown. -/
theorem GreylistCreator.iMode_unknown {cfg : ConfigWriter}
    (hmode : GreylistCreator.iMode cfg = none) :
    Tokens.configGreylistTokens.findToken
      (cfg.getVal PolicyTokensType.mode) = none := by
  unfold GreylistCreator.iMode at hmode
  split at hmode
  · cases hmode
  · exact hmode

theorem GreylistCreator.policy_told (cfg : ConfigWriter) :
    Told (GreylistCreator.policy cfg) := by
  unfold GreylistCreator.policy
  dsimp only
  split
  · exact told_throw (.badValue _ (by decide))
  · split
    · exact told_throw (.badValue _ (by decide))
    · split
      · next hmode => exact told_throw (.unknownMode (iMode_unknown hmode))
      · exact told_ok _

theorem GreylistCreator.create_told (cfg : ConfigWriter) (load : Loading) :
    Told (GreylistCreator.create cfg load) := by
  have htype : Told ((Tokens.configTypeTokens .policy).getToken
    PolicyTypeTokensType.greylist.ctorIdx) := told_ok _
  refine htype.bind fun _ _ => ?_
  refine (checkForRef_told cfg _ _ (configToken_told (by decide)) _).bind fun _ _ => ?_
  refine (GreylistCreator.policy_told cfg).bind fun _ _ => ?_
  exact (checkForRef_told cfg _ _ (configToken_told (by decide)) _).bind fun _ _ => told_ok _

namespace System

/-- Every type of a section that has types has a creator. -/
theorem createTyped_told {stkid : SectionsTokensType}
    (hstkid : stkid = .datasource ∨ stkid = .match ∨ stkid = .policy)
    (cfg : ConfigWriter) (load : Loading) :
    Told (createTyped stkid cfg load) := by
  unfold createTyped
  dsimp only
  split
  · refine (sectionToken_told stkid).bind fun token htoken => ?_
    exact told_throw (.missingType htoken)
  · split
    · next hfind =>
        refine (sectionToken_told stkid).bind fun token htoken => ?_
        exact told_throw (.unknownType htoken hfind)
    · next typeId hfind =>
        have hentry := OrdMap.mem_entries_of_find hfind
        have hbound : ∀ entry ∈ (Tokens.configTypeTokens stkid).map.entries,
            entry.2 < (Tokens.configTypeTokens stkid).map.size := by
          cases stkid <;> decide
        have htype := hbound _ hentry
        rcases hstkid with rfl | rfl | rfl
        · have hone : typeId < 1 := htype
          interval_cases typeId
          exact DBDataSourceCreator.create_told cfg load
        · have hfive : typeId < 5 := htype
          interval_cases typeId
          · exact MatchCreator.create_told _ cfg load
          · exact MatchCreator.create_told _ cfg load
          · exact MatchCreator.create_told _ cfg load
          · exact MatchCreator.create_told _ cfg load
          · exact MatchCreator.createAll_told cfg load
        · have htwo : typeId < 2 := htype
          interval_cases typeId
          · exact WhitelistCreator.create_told cfg load
          · exact GreylistCreator.create_told cfg load

theorem createSection_told (stkid : SectionsTokensType) (cfg : ConfigWriter)
    (load : Loading) : Told (createSection stkid cfg load) := by
  cases stkid with
  | database => exact DatabaseCreator.create_told cfg load
  | datasource => exact createTyped_told (Or.inl rfl) cfg load
  | «match» => exact createTyped_told (Or.inr (Or.inl rfl)) cfg load
  | policy => exact createTyped_told (Or.inr (Or.inr rfl)) cfg load
  | server => exact told_ok _

theorem createAll_told (sections : List ParsedSection) (load : Loading) :
    Told (createAll sections load).1 := by
  induction sections generalizing load with
  | nil => exact told_ok ()
  | cons s rest ih =>
      have hcreate : Told (create s load) := createSection_told _ _ _
      rw [createAll]
      split
      · next e hfailed =>
          rintro _ ⟨⟩
          exact hcreate e hfailed
      · exact ih _

end System

namespace ConfigErrorsWitness

def listener : Listener := fun _ _ => .ok ()

end ConfigErrorsWitness

end GreylistServer
