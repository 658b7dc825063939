/-
When a configuration is accepted.  A section is described by the values it
gives, the name it defines and the names it refers to; creating the sections
one after the other succeeds exactly when every section has good values, finds
the names it refers to and none of the names it defines.  Two systems that both
accept the sections make the same objects from them.
-/
import GreylistServer.System

namespace GreylistServer

/-- An object of a container: the section that makes such objects, and its
name. -/
abbrev Name := SectionsTokensType × Str

/-- The names in the containers. -/
def System.names (sys : System) : List Name :=
  sys.databases.keys.map (Prod.mk .database) ++
    sys.datasources.keys.map (Prod.mk .datasource) ++
    sys.matchers.keys.map (Prod.mk .match)

/-- A section whose lines have been parsed. -/
structure ParsedSection where
  stkid : SectionsTokensType
  cfg : ConfigWriter
deriving Repr, DecidableEq

namespace ParsedSection

/-- The name under which a section enters its object. -/
def defines : ParsedSection → List Name
  | ⟨.database, cfg⟩ => [(.database, cfg.getVal DatabaseTokensType.name)]
  | ⟨.datasource, cfg⟩ =>
      [(.datasource, cfg.getVal DataSourceTokensType.name)]
  | ⟨.match, cfg⟩ => [(.match, cfg.getVal MatchTokensType.name)]
  | ⟨.policy, _⟩ => []
  | ⟨.server, _⟩ => []

/-- The names a section refers to. -/
def refers : ParsedSection → List Name
  | ⟨.database, _⟩ => []
  | ⟨.datasource, cfg⟩ =>
      [(.database, cfg.getVal DataSourceTokensType.database)]
  | ⟨.match, cfg⟩ =>
      if cfg.getVal MatchTokensType.type = "all".toList then []
      else [(.datasource, cfg.getVal MatchTokensType.datasource)]
  | ⟨.policy, cfg⟩ =>
      if cfg.getVal PolicyTokensType.type = "greylist".toList then
        [(.datasource, cfg.getVal PolicyTokensType.datasource),
          (.match, cfg.getVal PolicyTokensType.match)]
      else [(.match, cfg.getVal PolicyTokensType.match)]
  | ⟨.server, _⟩ => []

/-- The values of a greylist policy are in range. -/
def GreylistValues (cfg : ConfigWriter) : Prop :=
  0 ≤ extractInt (cfg.getVal PolicyTokensType.timeout) ∧
    0 ≤ GreylistCreator.weakbytes cfg ∧
    GreylistCreator.weakbytes cfg ≤ IPAddress.default_length ∧
    GreylistCreator.iMode cfg ≠ none

/-- The values of a section are good, whatever names are known. -/
def Good : ParsedSection → Prop
  | ⟨.database, cfg⟩ =>
      0 ≤ extractInt (cfg.getVal DatabaseTokensType.spareconnections)
  | ⟨.datasource, cfg⟩ =>
      cfg.getVal DataSourceTokensType.type = "db".toList ∧
        cfg.getVal DataSourceTokensType.database ≠ [] ∧
        cfg.getVal DataSourceTokensType.table ≠ []
  | ⟨.match, cfg⟩ =>
      cfg.getVal MatchTokensType.type = "all".toList ∨
        cfg.getVal MatchTokensType.type ∈ System.lookupTypes.map Prod.fst ∧
          cfg.getVal MatchTokensType.datasource ≠ [] ∧
          cfg.getVal MatchTokensType.lookup ≠ [] ∧
          cfg.getVal MatchTokensType.match ≠ []
  | ⟨.policy, cfg⟩ =>
      cfg.getVal PolicyTokensType.match ≠ [] ∧
        (cfg.getVal PolicyTokensType.type = "greylist".toList ∧
            cfg.getVal PolicyTokensType.datasource ≠ [] ∧
            GreylistValues cfg ∨
          cfg.getVal PolicyTokensType.type = "whitelist".toList)
  | ⟨.server, _⟩ => True

instance (cfg : ConfigWriter) : Decidable (GreylistValues cfg) :=
  inferInstanceAs (Decidable (_ ∧ _ ∧ _ ∧ _))

instance : DecidablePred Good
  | ⟨.database, _⟩ => inferInstanceAs (Decidable (_ ≤ _))
  | ⟨.datasource, _⟩ => inferInstanceAs (Decidable (_ ∧ _ ∧ _))
  | ⟨.match, _⟩ => inferInstanceAs (Decidable (_ ∨ _ ∧ _ ∧ _ ∧ _))
  | ⟨.policy, _⟩ => inferInstanceAs (Decidable (_ ∧ (_ ∧ _ ∧ _ ∨ _)))
  | ⟨.server, _⟩ => inferInstanceAs (Decidable True)

end ParsedSection

namespace System

section

variable (sys : System) (name : Str)

theorem mem_names_database : ((.database, name) : Name) ∈ sys.names ↔
    ∃ db, sys.databases.find name = some db := by
  simp [names, OrdMap.mem_keys]

theorem mem_names_datasource : ((.datasource, name) : Name) ∈ sys.names ↔
    ∃ ds, sys.datasources.find name = some ds := by
  simp [names, OrdMap.mem_keys]

theorem mem_names_match : ((.match, name) : Name) ∈ sys.names ↔
    ∃ matcher, sys.matchers.find name = some matcher := by
  simp [names, OrdMap.mem_keys]

theorem not_mem_names_database : ((.database, name) : Name) ∉ sys.names ↔
    sys.databases.find name = none := by
  simp [mem_names_database, Option.eq_none_iff_forall_ne_some]

theorem not_mem_names_datasource : ((.datasource, name) : Name) ∉ sys.names ↔
    sys.datasources.find name = none := by
  simp [mem_names_datasource, Option.eq_none_iff_forall_ne_some]

theorem not_mem_names_match : ((.match, name) : Name) ∉ sys.names ↔
    sys.matchers.find name = none := by
  simp [mem_names_match, Option.eq_none_iff_forall_ne_some]

end

/-- What one section does. -/
def create (s : ParsedSection) (load : Loading) : Except Error Loading :=
  createSection s.stkid s.cfg load

/-- What an accepted section can do. -/
inductive Created : ParsedSection → Loading → Loading → Prop
  | database {cfg : ConfigWriter} {load : Loading} {db : Database}
      (hdb : DatabaseCreator.database cfg = .ok db)
      (hnew : load.system.databases.find
        (cfg.getVal DatabaseTokensType.name) = none) :
      Created ⟨.database, cfg⟩ load { load with
        system.databases := load.system.databases.insert
          (cfg.getVal DatabaseTokensType.name) db }
  | datasource {cfg : ConfigWriter} {load : Loading} {db : Database}
      (htype : cfg.getVal DataSourceTokensType.type = "db".toList)
      (hdb : cfg.getVal DataSourceTokensType.database ≠ [])
      (hfind : load.system.databases.find
        (cfg.getVal DataSourceTokensType.database) = some db)
      (htable : cfg.getVal DataSourceTokensType.table ≠ [])
      (hnew : load.system.datasources.find
        (cfg.getVal DataSourceTokensType.name) = none) :
      Created ⟨.datasource, cfg⟩ load { load with
        system.datasources := load.system.datasources.insert
          (cfg.getVal DataSourceTokensType.name)
          ⟨cfg.getVal DataSourceTokensType.name, db,
            cfg.getVal DataSourceTokensType.table⟩ }
  | matchAll {cfg : ConfigWriter} {load : Loading}
      (htype : cfg.getVal MatchTokensType.type = "all".toList)
      (hnew : load.system.matchers.find
        (cfg.getVal MatchTokensType.name) = none) :
      Created ⟨.match, cfg⟩ load { load with
        system.matchers := load.system.matchers.insert
          (cfg.getVal MatchTokensType.name) .all }
  | lookup {cfg : ConfigWriter} {load : Loading} {ds : DBDataSource}
      {entry : Str × MatchTypeTokensType} (hentry : entry ∈ lookupTypes)
      (htype : cfg.getVal MatchTokensType.type = entry.1)
      (hds : cfg.getVal MatchTokensType.datasource ≠ [])
      (hfind : load.system.datasources.find
        (cfg.getVal MatchTokensType.datasource) = some ds)
      (hlookup : cfg.getVal MatchTokensType.lookup ≠ [])
      (hmatch : cfg.getVal MatchTokensType.match ≠ [])
      (hnew : load.system.matchers.find
        (cfg.getVal MatchTokensType.name) = none) :
      Created ⟨.match, cfg⟩ load { load with
        system.matchers := load.system.matchers.insert
          (cfg.getVal MatchTokensType.name)
          (MatchCreator.matcher entry.2 cfg ds) }
  | greylist {cfg : ConfigWriter} {load : Loading} {ds : DBDataSource}
      {policy : Greylist} {matcher : ConfiguredMatcher}
      (htype : cfg.getVal PolicyTokensType.type = "greylist".toList)
      (hds : cfg.getVal PolicyTokensType.datasource ≠ [])
      (hfind : load.system.datasources.find
        (cfg.getVal PolicyTokensType.datasource) = some ds)
      (hpolicy : GreylistCreator.policy cfg = .ok policy)
      (hmatch : cfg.getVal PolicyTokensType.match ≠ [])
      (hfound : load.system.matchers.find
        (cfg.getVal PolicyTokensType.match) = some matcher) :
      Created ⟨.policy, cfg⟩ load { load with
        core := load.core ++ [(matcher, .greylist ds policy)] }
  | whitelist {cfg : ConfigWriter} {load : Loading}
      {matcher : ConfiguredMatcher}
      (htype : cfg.getVal PolicyTokensType.type = "whitelist".toList)
      (hmatch : cfg.getVal PolicyTokensType.match ≠ [])
      (hfound : load.system.matchers.find
        (cfg.getVal PolicyTokensType.match) = some matcher) :
      Created ⟨.policy, cfg⟩ load { load with
        core := load.core ++
          [(matcher, .whitelist (cfg.getVal PolicyTokensType.match))] }
  | server {cfg : ConfigWriter} {load : Loading} :
      Created ⟨.server, cfg⟩ load (ServerCreator.create cfg load)

theorem Created.of_create {s : ParsedSection} {load next : Loading}
    (hcreate : create s load = .ok next) : Created s load next := by
  rcases s with ⟨stkid, cfg⟩
  cases stkid with
  | database =>
      obtain ⟨db, hdb, hnew, rfl⟩ := DatabaseCreator.create_eq_ok.mp hcreate
      exact .database hdb hnew
  | datasource =>
      obtain ⟨htype, hcreate⟩ := createSection_datasource_eq_ok.mp hcreate
      obtain ⟨db, hdb, hfind, htable, hnew, rfl⟩ :=
        DBDataSourceCreator.create_eq_ok.mp hcreate
      exact .datasource htype hdb hfind htable hnew
  | «match» =>
      rcases createSection_match_eq_ok.mp hcreate with
        ⟨htype, hcreate⟩ | ⟨entry, hentry, htype, hcreate⟩
      · obtain ⟨hnew, rfl⟩ := MatchCreator.createAll_eq_ok.mp hcreate
        exact .matchAll htype hnew
      · obtain ⟨ds, hds, hfind, hlookup, hmatch, hnew, rfl⟩ :=
          MatchCreator.create_eq_ok.mp hcreate
        exact .lookup hentry htype hds hfind hlookup hmatch hnew
  | policy =>
      rcases createSection_policy_eq_ok.mp hcreate with
        ⟨htype, hcreate⟩ | ⟨htype, hcreate⟩
      · obtain ⟨ds, policy, matcher, hds, hfind, hpolicy, hmatch, hfound,
          rfl⟩ := GreylistCreator.create_eq_ok.mp hcreate
        exact .greylist htype hds hfind hpolicy hmatch hfound
      · obtain ⟨matcher, hmatch, hfound, rfl⟩ :=
          WhitelistCreator.create_eq_ok.mp hcreate
        exact .whitelist htype hmatch hfound
  | server =>
      obtain rfl := Except.ok.inj hcreate
      exact .server

theorem Created.create_eq {s : ParsedSection} {load next : Loading}
    (hcreated : Created s load next) : create s load = .ok next := by
  cases hcreated with
  | database hdb hnew =>
      exact DatabaseCreator.create_eq_ok.mpr ⟨_, hdb, hnew, rfl⟩
  | datasource htype hdb hfind htable hnew =>
      exact createSection_datasource_eq_ok.mpr ⟨htype,
        DBDataSourceCreator.create_eq_ok.mpr
          ⟨_, hdb, hfind, htable, hnew, rfl⟩⟩
  | matchAll htype hnew =>
      exact createSection_match_eq_ok.mpr
        (Or.inl ⟨htype, MatchCreator.createAll_eq_ok.mpr ⟨hnew, rfl⟩⟩)
  | lookup hentry htype hds hfind hlookup hmatch hnew =>
      exact createSection_match_eq_ok.mpr (Or.inr ⟨_, hentry, htype,
        MatchCreator.create_eq_ok.mpr
          ⟨_, hds, hfind, hlookup, hmatch, hnew, rfl⟩⟩)
  | greylist htype hds hfind hpolicy hmatch hfound =>
      exact createSection_policy_eq_ok.mpr (Or.inl ⟨htype,
        GreylistCreator.create_eq_ok.mpr
          ⟨_, _, _, hds, hfind, hpolicy, hmatch, hfound, rfl⟩⟩)
  | whitelist htype hmatch hfound =>
      exact createSection_policy_eq_ok.mpr (Or.inr ⟨htype,
        WhitelistCreator.create_eq_ok.mpr ⟨_, hmatch, hfound, rfl⟩⟩)
  | server => rfl

theorem all_not_lookupType {entry : Str × MatchTypeTokensType}
    (hentry : entry ∈ lookupTypes) : entry.1 ≠ "all".toList := by
  revert entry
  decide

/-- A section is accepted: its values are good, its own name is new and the
names it refers to are there. -/
def Fits (s : ParsedSection) (known : List Name) : Prop :=
  s.Good ∧ (∀ name ∈ s.defines, name ∉ known) ∧ ∀ name ∈ s.refers, name ∈ known

instance (s : ParsedSection) (known : List Name) : Decidable (Fits s known) :=
  inferInstanceAs (Decidable (_ ∧ _ ∧ _))

theorem Created.fits {s : ParsedSection} {load next : Loading}
    (hcreated : Created s load next) : Fits s load.system.names := by
  cases hcreated with
  | @database cfg _ db hdb hnew =>
      have hgood := (DatabaseCreator.database_accepts_iff cfg).mp ⟨db, hdb⟩
      exact ⟨hgood, List.forall_mem_singleton.mpr
        ((not_mem_names_database _ _).mpr hnew), List.forall_mem_nil _⟩
  | datasource htype hdb hfind htable hnew =>
      exact ⟨⟨htype, hdb, htable⟩, List.forall_mem_singleton.mpr
          ((not_mem_names_datasource _ _).mpr hnew),
        List.forall_mem_singleton.mpr
          ((mem_names_database _ _).mpr ⟨_, hfind⟩)⟩
  | matchAll htype hnew =>
      refine ⟨Or.inl htype, List.forall_mem_singleton.mpr
        ((not_mem_names_match _ _).mpr hnew), ?_⟩
      rw [ParsedSection.refers, if_pos htype]
      exact List.forall_mem_nil _
  | @lookup cfg _ _ entry hentry htype hds hfind hlookup hmatch hnew =>
      have hmem : cfg.getVal MatchTokensType.type ∈
          lookupTypes.map Prod.fst := htype ▸ List.mem_map_of_mem hentry
      refine ⟨Or.inr ⟨hmem, hds, hlookup, hmatch⟩,
        List.forall_mem_singleton.mpr ((not_mem_names_match _ _).mpr hnew), ?_⟩
      rw [ParsedSection.refers,
        if_neg (htype ▸ all_not_lookupType hentry)]
      exact List.forall_mem_singleton.mpr
        ((mem_names_datasource _ _).mpr ⟨_, hfind⟩)
  | @greylist cfg _ _ policy _ htype hds hfind hpolicy hmatch hfound =>
      have hvalues := (GreylistCreator.policy_accepts_iff cfg).mp
        ⟨policy, hpolicy⟩
      refine ⟨⟨hmatch, Or.inl ⟨htype, hds, hvalues⟩⟩, List.forall_mem_nil _, ?_⟩
      rw [ParsedSection.refers, if_pos htype]
      exact List.forall_mem_cons.mpr
        ⟨(mem_names_datasource _ _).mpr ⟨_, hfind⟩,
          List.forall_mem_singleton.mpr
            ((mem_names_match _ _).mpr ⟨_, hfound⟩)⟩
  | whitelist htype hmatch hfound =>
      refine ⟨⟨hmatch, Or.inr htype⟩, List.forall_mem_nil _, ?_⟩
      rw [ParsedSection.refers, if_neg (by rw [htype]; decide)]
      exact List.forall_mem_singleton.mpr
        ((mem_names_match _ _).mpr ⟨_, hfound⟩)
  | server => exact ⟨trivial, List.forall_mem_nil _, List.forall_mem_nil _⟩

theorem Fits.created {s : ParsedSection} {load : Loading}
    (hfits : Fits s load.system.names) : ∃ next, Created s load next := by
  rcases s with ⟨stkid, cfg⟩
  obtain ⟨hgood, hdefines, hrefers⟩ := hfits
  cases stkid with
  | database =>
      obtain ⟨db, hdb⟩ := (DatabaseCreator.database_accepts_iff cfg).mpr hgood
      have hnew := List.forall_mem_singleton.mp hdefines
      exact ⟨_, .database hdb ((not_mem_names_database _ _).mp hnew)⟩
  | datasource =>
      obtain ⟨htype, hdb, htable⟩ := hgood
      have hnew := List.forall_mem_singleton.mp hdefines
      obtain ⟨db, hfind⟩ := (mem_names_database _ _).mp
        (List.forall_mem_singleton.mp hrefers)
      exact ⟨_, .datasource htype hdb hfind htable
        ((not_mem_names_datasource _ _).mp hnew)⟩
  | «match» =>
      have hfree := List.forall_mem_singleton.mp hdefines
      have hnew := (not_mem_names_match _ _).mp hfree
      by_cases hall : cfg.getVal MatchTokensType.type = "all".toList
      · exact ⟨_, .matchAll hall hnew⟩
      · obtain ⟨hmem, hds, hlookup, hmatch⟩ := hgood.resolve_left hall
        obtain ⟨entry, hentry, htype⟩ := List.mem_map.mp hmem
        rw [ParsedSection.refers, if_neg hall] at hrefers
        obtain ⟨ds, hfind⟩ := (mem_names_datasource _ _).mp
          (List.forall_mem_singleton.mp hrefers)
        exact ⟨_, .lookup hentry htype.symm hds hfind hlookup hmatch hnew⟩
  | policy =>
      obtain ⟨hmatch, ⟨htype, hds, hvalues⟩ | htype⟩ := hgood
      · rw [ParsedSection.refers, if_pos htype] at hrefers
        obtain ⟨hdatasource, hmatcher⟩ := List.forall_mem_cons.mp hrefers
        obtain ⟨ds, hfind⟩ := (mem_names_datasource _ _).mp hdatasource
        obtain ⟨matcher, hfound⟩ := (mem_names_match _ _).mp
          (List.forall_mem_singleton.mp hmatcher)
        obtain ⟨policy, hpolicy⟩ :=
          (GreylistCreator.policy_accepts_iff cfg).mpr hvalues
        exact ⟨_, .greylist htype hds hfind hpolicy hmatch hfound⟩
      · rw [ParsedSection.refers, if_neg (by rw [htype]; decide)] at hrefers
        obtain ⟨matcher, hfound⟩ := (mem_names_match _ _).mp
          (List.forall_mem_singleton.mp hrefers)
        exact ⟨_, .whitelist htype hmatch hfound⟩
  | server => exact ⟨_, .server⟩

theorem create_accepts_iff (s : ParsedSection) (load : Loading) :
    (∃ next, create s load = .ok next) ↔ Fits s load.system.names := by
  constructor
  · rintro ⟨next, hcreate⟩
    exact (Created.of_create hcreate).fits
  · intro hfits
    obtain ⟨next, hcreated⟩ := hfits.created
    exact ⟨next, hcreated.create_eq⟩

/-- The names after an accepted section. -/
theorem Created.mem_names {s : ParsedSection} {load next : Loading}
    (hcreated : Created s load next) (name : Name) :
    name ∈ next.system.names ↔
      name ∈ s.defines ∨ name ∈ load.system.names := by
  cases hcreated with
  | database hdb hnew =>
      simp only [names, ParsedSection.defines, List.mem_append, List.mem_map,
        OrdMap.mem_keys_insert hnew, List.mem_singleton]
      grind
  | datasource htype hdb hfind htable hnew =>
      simp only [names, ParsedSection.defines, List.mem_append, List.mem_map,
        OrdMap.mem_keys_insert hnew, List.mem_singleton]
      grind
  | matchAll htype hnew =>
      simp only [names, ParsedSection.defines, List.mem_append, List.mem_map,
        OrdMap.mem_keys_insert hnew, List.mem_singleton]
      grind
  | lookup hentry htype hds hfind hlookup hmatch hnew =>
      simp only [names, ParsedSection.defines, List.mem_append, List.mem_map,
        OrdMap.mem_keys_insert hnew, List.mem_singleton]
      grind
  | greylist => simp [ParsedSection.defines]
  | whitelist => simp [ParsedSection.defines]
  | server => simp [ServerCreator.create, ParsedSection.defines]

/-- The settings after an accepted section. -/
theorem Created.settings_eq {s : ParsedSection} {load next : Loading}
    (hcreated : Created s load next) :
    next.settings = if s.stkid = .server then
      load.settings.insertAll s.cfg.map else load.settings := by
  cases hcreated <;> rfl

/-- One load has everything that another has, and the same results so far. -/
structure Within (fresh left : Loading) : Prop where
  databases : fresh.system.databases.Sub left.system.databases
  datasources : fresh.system.datasources.Sub left.system.datasources
  matchers : fresh.system.matchers.Sub left.system.matchers
  core : fresh.core = left.core
  settings : fresh.settings = left.settings

/-- What a section does to the smaller load it also does to the larger one,
unless its name is taken there. -/
theorem Within.created {s : ParsedSection} {fresh left next : Loading}
    (hwithin : Within fresh left) (hcreated : Created s fresh next)
    (hfree : ∀ name ∈ s.defines, name ∉ left.system.names) :
    ∃ next', Created s left next' ∧ Within next next' := by
  cases hcreated with
  | database hdb hnew =>
      have hname := List.forall_mem_singleton.mp hfree
      have hnew' := (not_mem_names_database _ _).mp hname
      exact ⟨_, .database hdb hnew', { hwithin with
        databases := hwithin.databases.insert hnew hnew' _ }⟩
  | datasource htype hdb hfind htable hnew =>
      have hname := List.forall_mem_singleton.mp hfree
      have hnew' := (not_mem_names_datasource _ _).mp hname
      have hfind' := hwithin.databases _ _ hfind
      exact ⟨_, .datasource htype hdb hfind' htable hnew', { hwithin with
        datasources := hwithin.datasources.insert hnew hnew' _ }⟩
  | matchAll htype hnew =>
      have hname := List.forall_mem_singleton.mp hfree
      have hnew' := (not_mem_names_match _ _).mp hname
      exact ⟨_, .matchAll htype hnew', { hwithin with
        matchers := hwithin.matchers.insert hnew hnew' _ }⟩
  | lookup hentry htype hds hfind hlookup hmatch hnew =>
      have hname := List.forall_mem_singleton.mp hfree
      have hnew' := (not_mem_names_match _ _).mp hname
      have hfind' := hwithin.datasources _ _ hfind
      exact ⟨_, .lookup hentry htype hds hfind' hlookup hmatch hnew',
        { hwithin with
          matchers := hwithin.matchers.insert hnew hnew' _ }⟩
  | greylist htype hds hfind hpolicy hmatch hfound =>
      have hfind' := hwithin.datasources _ _ hfind
      have hfound' := hwithin.matchers _ _ hfound
      exact ⟨_, .greylist htype hds hfind' hpolicy hmatch hfound',
        { hwithin with core := congrArg (· ++ _) hwithin.core }⟩
  | whitelist htype hmatch hfound =>
      have hfound' := hwithin.matchers _ _ hfound
      exact ⟨_, .whitelist htype hmatch hfound',
        { hwithin with core := congrArg (· ++ _) hwithin.core }⟩
  | @server cfg _ =>
      exact ⟨_, .server, { hwithin with
        settings := congrArg (OrdMap.insertAll · cfg.map) hwithin.settings }⟩

/-- A section both loads accept makes the same object in both. -/
theorem Within.create {s : ParsedSection} {fresh left next next' : Loading}
    (hwithin : Within fresh left) (hfresh : create s fresh = .ok next)
    (hleft : create s left = .ok next') : Within next next' := by
  have hfits := (Created.of_create hleft).fits
  obtain ⟨made, hcreated, hmade⟩ :=
    hwithin.created (Created.of_create hfresh) hfits.2.1
  obtain rfl : made = next' :=
    Except.ok.inj (hcreated.create_eq.symm.trans hleft)
  exact hmade

/-- The sections of a configuration up to the first one that does not parse,
and the error of that one. -/
def readSections (reader : ConfigReader) : List ParsedSection × Option Error :=
  match _hline : (reader.switchSectionMode false).getline with
  | (.error e, _) => ([], some e)
  | (.ok none, _) => ([], none)
  | (.ok (some line), body) =>
      match openedSection line with
      | none => readSections body
      | some stkid =>
          match _hparse : parseSection stkid body with
          | (.error e, _, _) => ([], some e)
          | (.ok (), after, cfgWriter) =>
              (⟨stkid, cfgWriter⟩ :: (readSections after).1,
                (readSections after).2)
termination_by reader.rest.length
decreasing_by
  · have hlt := ConfigReader.getline_length_lt _hline
    exact hlt
  all_goals
    have hlt := ConfigReader.getline_length_lt _hline
    have hle := parseSection_length_le stkid body
    rw [_hparse] at hle
    exact Nat.lt_of_le_of_lt hle hlt

/-- Create one section after the other. -/
def createAll : List ParsedSection → Loading → Except Error Unit × Loading
  | [], load => (.ok (), load)
  | s :: rest, load =>
      match create s load with
      | .error e => (.error e, load)
      | .ok next => createAll rest next

/-- What follows the last section that parses. -/
def finishSections (failed : Option Error) :
    Except Error Unit × Loading → Except Error Unit × Loading
  | (.error e, load) => (.error e, load)
  | (.ok (), load) =>
      match failed with
      | some e => (.error e, load)
      | none => (.ok (), { load with system := {} })

/-- Reading a section does not depend on what the sections before it made. -/
theorem parseConfigurationSections_eq (reader : ConfigReader)
    (load : Loading) :
    parseConfigurationSections reader load =
      finishSections (readSections reader).2
        (createAll (readSections reader).1 load) := by
  fun_induction readSections reader generalizing load with
  | case1 reader e after hline => exact parseConfigurationSections_error hline
  | case2 reader after hline => exact parseConfigurationSections_end hline
  | case3 reader line body hline hopened ih =>
      rw [parseConfigurationSections_ignored hline hopened]
      exact ih load
  | case4 reader line body hline stkid hopened e after written hparse =>
      exact parseConfigurationSections_unparsed hline hopened hparse
  | case5 reader line body hline stkid hopened after cfgWriter hparse ih =>
      rw [parseConfigurationSections_parsed hline hopened hparse]
      simp only [createAll, create]
      cases createSection stkid cfgWriter load with
      | error e => rfl
      | ok next => exact ih next

/-- An accepted configuration parses, every section of it is taken, and the
containers are empty afterwards. -/
theorem parseConfigurationSections_ok {reader : ConfigReader}
    {load loaded : Loading}
    (hok : parseConfigurationSections reader load = (.ok (), loaded)) :
    (readSections reader).2 = none ∧
      ∃ created, createAll (readSections reader).1 load = (.ok (), created) ∧
        loaded = { created with system := {} } := by
  rw [parseConfigurationSections_eq] at hok
  rcases hcreate : createAll (readSections reader).1 load with
    ⟨result, created⟩
  rw [hcreate] at hok
  cases result with
  | error e => cases hok
  | ok done =>
      cases hfailed : (readSections reader).2 with
      | some e =>
          rw [hfailed] at hok
          cases hok
      | none =>
          rw [hfailed] at hok
          cases hok
          exact ⟨rfl, created, rfl, rfl⟩

/-- Every section fits the names known before it. -/
def Complete : List Name → List ParsedSection → Prop
  | _, [] => True
  | known, s :: rest => Fits s known ∧ Complete (s.defines ++ known) rest

instance Complete.decide (known : List Name) :
    (sections : List ParsedSection) → Decidable (Complete known sections)
  | [] => inferInstanceAs (Decidable True)
  | s :: rest =>
      have := Complete.decide (s.defines ++ known) rest
      inferInstanceAs (Decidable (Fits s known ∧ _))

/-- The names known when the first section that does not fit is reached. -/
def reached : List Name → List ParsedSection → List Name
  | known, [] => known
  | known, s :: rest =>
      if Fits s known then reached (s.defines ++ known) rest else known

theorem Fits.congr {known other : List Name}
    (hsame : ∀ name, name ∈ known ↔ name ∈ other) (s : ParsedSection) :
    Fits s known ↔ Fits s other := by
  simp only [Fits, hsame]

theorem Complete.congr {known other : List Name}
    (hsame : ∀ name, name ∈ known ↔ name ∈ other)
    (sections : List ParsedSection) :
    Complete known sections ↔ Complete other sections := by
  induction sections generalizing known other with
  | nil => exact Iff.rfl
  | cons s rest ih =>
      have hnext : ∀ name, name ∈ s.defines ++ known ↔
          name ∈ s.defines ++ other := by
        intro name
        rw [List.mem_append, List.mem_append, hsame name]
      rw [Complete, Complete, Fits.congr hsame s, ih hnext]

theorem reached_congr {known other : List Name}
    (hsame : ∀ name, name ∈ known ↔ name ∈ other)
    (sections : List ParsedSection) (name : Name) :
    name ∈ reached known sections ↔ name ∈ reached other sections := by
  induction sections generalizing known other with
  | nil => exact hsame name
  | cons s rest ih =>
      have hnext : ∀ name, name ∈ s.defines ++ known ↔
          name ∈ s.defines ++ other := by
        intro name
        rw [List.mem_append, List.mem_append, hsame name]
      have hfits := Fits.congr hsame s
      rw [reached, reached]
      by_cases hknown : Fits s known
      · rw [if_pos hknown, if_pos (hfits.mp hknown)]
        exact ih hnext
      · rw [if_neg hknown, if_neg (fun hother => hknown (hfits.mpr hother))]
        exact hsame name

theorem createAll_accepts_iff (sections : List ParsedSection)
    (load : Loading) :
    (createAll sections load).1 = .ok () ↔
      Complete load.system.names sections := by
  induction sections generalizing load with
  | nil => simp [createAll, Complete]
  | cons s rest ih =>
      rw [createAll, Complete, ← create_accepts_iff]
      cases hcreate : create s load with
      | error e => simp
      | ok next =>
          have hnames : ∀ name, name ∈ next.system.names ↔
              name ∈ s.defines ++ load.system.names := by
            intro name
            rw [(Created.of_create hcreate).mem_names, List.mem_append]
          simp [ih next, Complete.congr hnames]

theorem createAll_names (sections : List ParsedSection) (load : Loading)
    (name : Name) :
    name ∈ (createAll sections load).2.system.names ↔
      name ∈ reached load.system.names sections := by
  induction sections generalizing load with
  | nil => exact Iff.rfl
  | cons s rest ih =>
      have haccepts := create_accepts_iff s load
      rw [createAll, reached]
      cases hcreate : create s load with
      | error e =>
          have hrejected : ¬ Fits s load.system.names := by
            intro hfits
            obtain ⟨next, hnext⟩ := haccepts.mpr hfits
            rw [hcreate] at hnext
            cases hnext
          rw [if_neg hrejected]
      | ok next =>
          have hnames : ∀ name, name ∈ next.system.names ↔
              name ∈ s.defines ++ load.system.names := by
            intro name
            rw [(Created.of_create hcreate).mem_names, List.mem_append]
          rw [if_pos (haccepts.mp ⟨next, hcreate⟩)]
          exact (ih next).trans (reached_congr hnames rest name)

theorem createAll_within {sections : List ParsedSection}
    {fresh left : Loading} (hwithin : Within fresh left)
    (hfresh : (createAll sections fresh).1 = .ok ())
    (hleft : (createAll sections left).1 = .ok ()) :
    Within (createAll sections fresh).2 (createAll sections left).2 := by
  induction sections generalizing fresh left with
  | nil => exact hwithin
  | cons s rest ih =>
      rw [createAll] at hfresh hleft ⊢
      rw [createAll]
      cases hcreate : create s fresh with
      | error e => simp [hcreate] at hfresh
      | ok fresh' =>
          cases hcreate' : create s left with
          | error e => simp [hcreate'] at hleft
          | ok left' =>
              rw [hcreate] at hfresh
              rw [hcreate'] at hleft
              exact ih (hwithin.create hcreate hcreate') hfresh hleft

/-- A configuration that is complete by itself stays so next to further names
exactly when it defines none of them. -/
theorem complete_append_iff {known : List Name}
    {sections : List ParsedSection} (hcomplete : Complete known sections)
    (left : List Name) :
    Complete (known ++ left) sections ↔
      ∀ s ∈ sections, ∀ name ∈ s.defines, name ∉ left := by
  induction sections generalizing known with
  | nil => simp [Complete]
  | cons s rest ih =>
      obtain ⟨⟨hgood, hnew, hrefers⟩, hrest⟩ := hcomplete
      have htail := ih hrest
      rw [List.append_assoc] at htail
      rw [Complete, htail, List.forall_mem_cons]
      have hfits : Fits s (known ++ left) ↔ ∀ name ∈ s.defines, name ∉ left := by
        constructor
        · rintro ⟨-, hnone, -⟩ name hname hleft
          exact hnone name hname (List.mem_append_right known hleft)
        · intro hnone
          refine ⟨hgood, ?_, fun name hname =>
            List.mem_append_left left (hrefers name hname)⟩
          intro name hname hmem
          rcases List.mem_append.mp hmem with hknown | hleft
          · exact hnew name hname hknown
          · exact hnone name hname hleft
      rw [hfits]

/-- The settings after the server sections. -/
def settingsAfter : List ParsedSection → ServerSettings → ServerSettings
  | [], settings => settings
  | s :: rest, settings =>
      settingsAfter rest
        (if s.stkid = .server then settings.insertAll s.cfg.map else settings)

theorem createAll_settings (sections : List ParsedSection) (load : Loading)
    (haccepted : (createAll sections load).1 = .ok ()) :
    (createAll sections load).2.settings =
      settingsAfter sections load.settings := by
  induction sections generalizing load with
  | nil => rfl
  | cons s rest ih =>
      rw [createAll] at haccepted ⊢
      cases hcreate : create s load with
      | error e => simp [hcreate] at haccepted
      | ok next =>
          rw [hcreate] at haccepted
          rw [settingsAfter, ← (Created.of_create hcreate).settings_eq]
          exact ih next haccepted

end System

end GreylistServer
