/-
Matches and refreshes side by side.  A match looks for a cache under the shared
lock and, when there is none, takes the exclusive lock, looks again and fills
one from the table, which may change at any time; a refresh takes the exclusive
lock and drops all caches.  A match never uses rows read before the last
refresh that preceded its first look, and between two refreshes at most one
cache is built for a data source.
-/
import GreylistServer.Matchers
import GreylistServer.Lib.Interleaving

namespace GreylistServer

namespace CacheHandler

/-- A cache with the number of refreshes completed when its rows were read. -/
structure Installed (C : Type) where
  cache : C
  readAt : Nat
deriving Repr, DecidableEq

/-- The atomic steps of matches and refreshes. -/
inductive Op (C : Type) where
  | get (ds : Nat)
  | enter (ds : Nat)
  | lookup (ds : Nat)
  | install (ds : Nat) (cache : C)
  | abandon
  | clear

/-- `T` is the content of a table. -/
def Op.Answer (T : Type) {C : Type} : Op C → Type
  | .get _ => Option (Installed C)
  | .enter _ => Option (Installed C)
  | .lookup _ => Except Error T
  | .install _ _ => Installed C
  | .abandon => Unit
  | .clear => Unit

/-- What a call is for. -/
inductive Use where
  | match (ds : Nat)
  | clear
deriving Repr, DecidableEq

/-- How a call ends: with the cache the match goes on with or an exception of
the factory, or with the caches dropped. -/
inductive Used (C : Type) where
  | matched (cache : Except Error (Installed C))
  | cleared

variable {T C : Type}

/-- The calls that reach the handler.  The factory runs between `enter` and
`install`, under the exclusive lock; when it throws the lock is released. -/
def body (factory : Nat → T → Except Error C) :
    Use → Prog (Op C) (Op.Answer T) (Used C)
  | .match ds =>
      .call (.get ds) fun (found : Option (Installed C)) =>
        match found with
        | some cache => .ret (.matched (.ok cache))
        | none =>
            .call (.enter ds) fun (found : Option (Installed C)) =>
              match found with
              | some cache => .ret (.matched (.ok cache))
              | none =>
                  .call (.lookup ds) fun (rows : Except Error T) =>
                    match rows.bind (factory ds) with
                    | .error e =>
                        .call .abandon fun _ => .ret (.matched (.error e))
                    | .ok cache =>
                        .call (.install ds cache)
                          fun (installed : Installed C) =>
                            .ret (.matched (.ok installed))
  | .clear => .call .clear fun _ => .ret .cleared

/-- The handler with its lock, the tables, and what happened: the refreshes
completed, for every call the number of them at its first look, at its entry
into `create` and when it read the table, and the caches built. -/
structure Shared (T C : Type) where
  handler : CacheHandler (Installed C)
  holder : Option Nat
  tables : Nat → T
  clears : Nat
  getAt : Nat → Nat
  createAt : Nat → Option Nat
  readAt : Nat → Nat
  built : List (Nat × Installed C)

namespace Shared

def initial (tables : Nat → T) : Shared T C :=
  ⟨{}, none, tables, 0, fun _ => 0, fun _ => none, fun _ => 0, []⟩

/-- When a step can be taken: nobody, or the caller itself, holds the exclusive
lock. -/
def Enabled (i : Nat) (w : Shared T C) : Op C → Prop
  | .get _ => w.holder = none
  | .enter _ => w.holder = none
  | .lookup _ => w.holder = some i
  | .install _ _ => w.holder = some i
  | .abandon => w.holder = some i
  | .clear => w.holder = none

/-- What a step of call `i` answers and does. -/
def perform (i : Nat) (w : Shared T C) :
    (op : Op C) → Op.Answer T op × Shared T C
  | .get ds =>
      (w.handler.get ds,
        { w with
          getAt := Function.update w.getAt i w.clears
          createAt := Function.update w.createAt i none })
  | .enter ds =>
      (w.handler.get ds,
        { w with
          createAt := Function.update w.createAt i (some w.clears)
          holder := if (w.handler.get ds).isSome then none else some i })
  | .lookup ds =>
      (.ok (w.tables ds),
        { w with readAt := Function.update w.readAt i w.clears })
  | .install ds cache =>
      (⟨cache, w.readAt i⟩,
        { w with
          handler := ⟨w.handler.caches.insert ds ⟨cache, w.readAt i⟩⟩
          holder := none
          built := (ds, ⟨cache, w.readAt i⟩) :: w.built })
  | .abandon => ((), { w with holder := none })
  | .clear =>
      ((), { w with handler := w.handler.clear, clears := w.clears + 1 })

end Shared

/-- Steps are taken when they are enabled; reading the table may fail.  Tables
change at any time. -/
def semantics : Semantics (Op C) (Op.Answer T) (Shared T C) where
  exec i op w answer after :=
    w.Enabled i op ∧ after = (w.perform i op).2 ∧
      (answer = (w.perform i op).1 ∨
        match op, answer with
        | .lookup _, .error _ => True
        | _, _ => False)
  env w after := ∃ tables, after = { w with tables := tables }

/-- The caches held are the ones built since the last refresh, one for a data
source. -/
structure Good (w : Shared T C) : Prop where
  held : ∀ ds cache, w.handler.get ds = some cache →
    cache.readAt = w.clears ∧ (ds, cache) ∈ w.built
  kept : ∀ ds cache, (ds, cache) ∈ w.built → cache.readAt = w.clears →
    w.handler.get ds = some cache
  past : ∀ ds cache, (ds, cache) ∈ w.built → cache.readAt ≤ w.clears
  once : w.built.Pairwise fun left right =>
    ¬ (left.1 = right.1 ∧ left.2.readAt = right.2.readAt)

/-- What call `i` may count on while the others run. -/
structure Tolerates (i : Nat) (w after : Shared T C) : Prop where
  clears : w.clears ≤ after.clears
  getAt : after.getAt i = w.getAt i
  createAt : after.createAt i = w.createAt i
  readAt : after.readAt i = w.readAt i
  built : ∀ entry ∈ w.built, entry ∈ after.built
  locked : w.holder = some i → after.holder = some i ∧
    after.clears = w.clears ∧ after.handler = w.handler

theorem Tolerates.refl (i : Nat) (w : Shared T C) : Tolerates i w w :=
  ⟨Nat.le_refl _, rfl, rfl, rfl, fun _ hmem => hmem,
    fun hheld => ⟨hheld, rfl, rfl⟩⟩

theorem Tolerates.trans {i : Nat} {a b c : Shared T C}
    (hab : Tolerates i a b) (hbc : Tolerates i b c) : Tolerates i a c where
  clears := Nat.le_trans hab.clears hbc.clears
  getAt := hbc.getAt.trans hab.getAt
  createAt := hbc.createAt.trans hab.createAt
  readAt := hbc.readAt.trans hab.readAt
  built := fun entry hmem => hbc.built entry (hab.built entry hmem)
  locked := by
    intro hheld
    obtain ⟨hholder, hclears, hhandler⟩ := hab.locked hheld
    obtain ⟨hholder', hclears', hhandler'⟩ := hbc.locked hholder
    exact ⟨hholder', hclears'.trans hclears, hhandler'.trans hhandler⟩

def protocol : Protocol (Shared T C) where
  inv := Good
  evolves := Tolerates
  refl := Tolerates.refl
  trans := fun _ => Tolerates.trans

/-- What holds of a match that has its cache: the cache was built from rows
read when the step that delivered it was taken, and not before the first
look. -/
def UsesBuilt (i : Nat) (use : Use) (used : Used C) (w : Shared T C) : Prop :=
  ∀ ds cache, use = .match ds → used = .matched (.ok cache) →
    w.getAt i ≤ cache.readAt ∧ (ds, cache) ∈ w.built ∧
      cache.readAt = (w.createAt i).getD (w.getAt i)

/-- No step of one call disturbs what another one counts on: while a call holds
the lock the others only wait. -/
theorem perform_tolerates {w : Shared T C} {i j : Nat} (hij : j ≠ i)
    {op : Op C} (henabled : w.Enabled i op) :
    Tolerates j w (w.perform i op).2 := by
  have hfree : w.holder = none ∨ w.holder = some i := by
    cases op with
    | get ds => exact Or.inl henabled
    | enter ds => exact Or.inl henabled
    | lookup ds => exact Or.inr henabled
    | install ds cache => exact Or.inr henabled
    | abandon => exact Or.inr henabled
    | clear => exact Or.inl henabled
  have hnot : w.holder ≠ some j := by
    rcases hfree with hnone | hsome
    · simp [hnone]
    · simp [hsome, Ne.symm hij]
  cases op with
  | get ds =>
      exact ⟨Nat.le_refl _, Function.update_of_ne hij _ _,
        Function.update_of_ne hij _ _, rfl, fun _ hmem => hmem,
        fun hheld => absurd hheld hnot⟩
  | enter ds =>
      exact ⟨Nat.le_refl _, rfl, Function.update_of_ne hij _ _, rfl,
        fun _ hmem => hmem, fun hheld => absurd hheld hnot⟩
  | lookup ds =>
      exact ⟨Nat.le_refl _, rfl, rfl, Function.update_of_ne hij _ _,
        fun _ hmem => hmem, fun hheld => absurd hheld hnot⟩
  | install ds cache =>
      exact ⟨Nat.le_refl _, rfl, rfl, rfl,
        fun _ hmem => List.mem_cons_of_mem _ hmem,
        fun hheld => absurd hheld hnot⟩
  | abandon =>
      exact ⟨Nat.le_refl _, rfl, rfl, rfl, fun _ hmem => hmem,
        fun hheld => absurd hheld hnot⟩
  | clear =>
      exact ⟨Nat.le_succ _, rfl, rfl, rfl, fun _ hmem => hmem,
        fun hheld => absurd hheld hnot⟩

theorem Good.clear {w : Shared T C} (hgood : Good w) (i : Nat) :
    Good (w.perform i .clear).2 where
  held := by
    intro ds cache hget
    cases hget
  kept := by
    intro ds cache hmem hread
    have hpast := hgood.past ds cache hmem
    have hnow : cache.readAt = w.clears + 1 := hread
    omega
  past := fun ds cache hmem => Nat.le_succ_of_le (hgood.past ds cache hmem)
  once := hgood.once

/-- Installing a cache keeps the invariant when there was none and its rows
were read since the last refresh. -/
theorem Good.install {w : Shared T C} (hgood : Good w) {i ds : Nat}
    (hnone : w.handler.get ds = none) (hread : w.readAt i = w.clears)
    (cache : C) : Good (w.perform i (.install ds cache)).2 := by
  have hfind : w.handler.caches.find ds = none := hnone
  have hget : ∀ other, (w.perform i (.install ds cache)).2.handler.get other =
      if other = ds then some ⟨cache, w.readAt i⟩
      else w.handler.get other := by
    intro other
    simp only [Shared.perform, get, OrdMap.find_insert, hfind,
      Option.getD_none]
  refine ⟨?_, ?_, ?_, ?_⟩
  · intro other found hfound
    rw [hget] at hfound
    split at hfound
    · next heq =>
        obtain rfl := Option.some.inj hfound
        exact ⟨hread, heq ▸ List.mem_cons_self⟩
    · obtain ⟨hat, hmem⟩ := hgood.held other found hfound
      exact ⟨hat, List.mem_cons_of_mem _ hmem⟩
  · intro other found hmem hat
    rw [hget]
    rcases List.mem_cons.mp hmem with heq | hold
    · obtain ⟨rfl, rfl⟩ := Prod.mk.inj heq
      rw [if_pos rfl]
    · have hheld := hgood.kept other found hold hat
      by_cases heq : other = ds
      · rw [heq, hnone] at hheld
        cases hheld
      · rw [if_neg heq]
        exact hheld
  · intro other found hmem
    rcases List.mem_cons.mp hmem with heq | hold
    · obtain ⟨rfl, rfl⟩ := Prod.mk.inj heq
      exact Nat.le_of_eq hread
    · exact hgood.past other found hold
  · refine List.Pairwise.cons ?_ hgood.once
    rintro ⟨other, found⟩ hmem ⟨heq, hat⟩
    have hheld := hgood.kept other found hmem (hat.symm.trans hread)
    rw [← show ds = other from heq, hnone] at hheld
    cases hheld

section Safety

variable (factory : Nat → T → Except Error C) (i ds : Nat)

/-- The part of a match behind the entry into `create` with no cache there. -/
theorem fill_safe {w : Shared T C} (hheld : w.holder = some i)
    (hnone : w.handler.get ds = none)
    (hcreate : w.createAt i = some w.clears) (hget : w.getAt i ≤ w.clears) :
    protocol.Safe semantics i (UsesBuilt (T := T) i (.match ds))
      (.call (.lookup ds) fun (rows : Except Error T) =>
        match rows.bind (factory ds) with
        | .error e => .call .abandon fun _ => .ret (.matched (.error e))
        | .ok cache =>
            .call (.install ds cache) fun (installed : Installed C) =>
              .ret (.matched (.ok installed))) w := by
  rintro reading hreading hgood rows read ⟨henabled, rfl, -⟩
  have hlocked := hreading.locked hheld
  refine ⟨⟨hgood.held, hgood.kept, hgood.past, hgood.once⟩,
    fun j hij => perform_tolerates hij henabled, ?_⟩
  cases hresult : Except.bind rows (factory ds) with
  | error e =>
      simp only [hresult]
      rintro leaving hleaving hgood' answer left ⟨henabled', rfl, -⟩
      refine ⟨⟨hgood'.held, hgood'.kept, hgood'.past, hgood'.once⟩,
        fun j hij => perform_tolerates hij henabled', ?_⟩
      intro other cache _ hused
      cases hused
  | ok cache =>
      simp only [hresult]
      rintro before hbefore hgood' answer after ⟨henabled', rfl, hanswer⟩
      have hread : (reading.perform i (.lookup ds)).2.readAt i =
          reading.clears := Function.update_self i _ _
      have hstill := hbefore.locked hlocked.1
      have hclears : before.clears = w.clears :=
        hstill.2.1.trans hlocked.2.1
      have hmiss : before.handler.get ds = none := by
        rw [hstill.2.2]
        change reading.handler.get ds = none
        rw [hlocked.2.2]
        exact hnone
      have hfresh : before.readAt i = before.clears := by
        rw [hbefore.readAt, hread, hclears]
        exact hlocked.2.1
      refine ⟨hgood'.install hmiss hfresh cache,
        fun j hij => perform_tolerates hij henabled', ?_⟩
      intro other found huse hused
      obtain rfl := Use.match.inj huse
      obtain rfl : answer = ⟨cache, before.readAt i⟩ := by
        rcases hanswer with hanswer | hanswer
        · exact hanswer
        · cases hanswer
      obtain rfl := Except.ok.inj (Used.matched.inj hused)
      have hgetAt : before.getAt i = w.getAt i :=
        hbefore.getAt.trans hreading.getAt
      have hcreateAt : before.createAt i = w.createAt i :=
        hbefore.createAt.trans hreading.createAt
      refine ⟨?_, List.mem_cons_self, ?_⟩
      · change before.getAt i ≤ before.readAt i
        omega
      · change before.readAt i = (before.createAt i).getD (before.getAt i)
        rw [hcreateAt, hcreate, hfresh, hclears]
        rfl

theorem match_safe (w : Shared T C) :
    protocol.Safe semantics i (UsesBuilt (T := T) i (.match ds))
      (body factory (.match ds)) w := by
  rintro looking - hgood found looked ⟨henabled, rfl, hanswer⟩
  obtain rfl : found = looking.handler.get ds := by
    rcases hanswer with hanswer | hanswer
    · exact hanswer
    · cases hanswer
  refine ⟨⟨hgood.held, hgood.kept, hgood.past, hgood.once⟩,
    fun j hij => perform_tolerates hij henabled, ?_⟩
  have hgetAt : (looking.perform i (.get ds)).2.getAt i = looking.clears :=
    Function.update_self i _ _
  cases hget : looking.handler.get ds with
  | some cache =>
      intro other used huse hused
      obtain rfl := Use.match.inj huse
      obtain rfl := Except.ok.inj (Used.matched.inj hused)
      obtain ⟨hat, hmem⟩ := hgood.held ds cache hget
      have hcreateAt : (looking.perform i (.get ds)).2.createAt i = none :=
        Function.update_self i _ _
      refine ⟨?_, hmem, ?_⟩
      · rw [hgetAt, hat]
      · rw [hcreateAt, hgetAt, hat]
        rfl
  | none =>
      rintro entering hentering hgood' again entered ⟨henabled', rfl, hanswer'⟩
      obtain rfl : again = entering.handler.get ds := by
        rcases hanswer' with hanswer' | hanswer'
        · exact hanswer'
        · cases hanswer'
      have hle : entering.getAt i ≤ entering.clears := by
        rw [hentering.getAt, hgetAt]
        exact hentering.clears
      refine ⟨⟨hgood'.held, hgood'.kept, hgood'.past, hgood'.once⟩,
        fun j hij => perform_tolerates hij henabled', ?_⟩
      have hcreateAt : (entering.perform i (.enter ds)).2.createAt i =
          some entering.clears := Function.update_self i _ _
      cases hagain : entering.handler.get ds with
      | some cache =>
          intro other used huse hused
          obtain rfl := Use.match.inj huse
          obtain rfl := Except.ok.inj (Used.matched.inj hused)
          obtain ⟨hat, hmem⟩ := hgood'.held ds cache hagain
          refine ⟨?_, hmem, ?_⟩
          · rw [hat]
            exact hle
          · rw [hcreateAt, hat]
            rfl
      | none =>
          refine fill_safe factory i ds ?_ hagain hcreateAt hle
          simp [Shared.perform, hagain]

theorem clear_safe (w : Shared T C) :
    protocol.Safe semantics i (UsesBuilt (T := T) i .clear)
      (body factory .clear) w := by
  rintro before - hgood answer after ⟨henabled, rfl, -⟩
  refine ⟨hgood.clear i, fun j hij => perform_tolerates hij henabled, ?_⟩
  intro ds cache huse
  cases huse

end Safety

theorem UsesBuilt.mono {i : Nat} {use : Use} {used : Used C}
    {w after : Shared T C} (hmove : Tolerates i w after)
    (hpost : UsesBuilt i use used w) : UsesBuilt i use used after := by
  intro ds cache huse hused
  obtain ⟨hget, hmem, hread⟩ := hpost ds cache huse hused
  rw [hmove.getAt, hmove.createAt]
  exact ⟨hget, hmove.built _ hmem, hread⟩

theorem initial_good (tables : Nat → T) :
    Good (Shared.initial tables : Shared T C) := by
  refine ⟨?_, ?_, ?_, List.Pairwise.nil⟩
  · intro ds cache hget
    cases hget
  · intro ds cache hmem
    cases hmem
  · intro ds cache hmem
    cases hmem

/-- In every state of every interleaving the caches built are the good ones,
and every match uses one of them as it should. -/
theorem reachable_good (factory : Nat → T → Except Error C)
    (tables : Nat → T)
    {s : Interleaved (Op C) (Op.Answer T) (Used C) (Shared T C) Use}
    (hreach : Reachable semantics (body factory) (Shared.initial tables) s) :
    Good s.world ∧ ∀ i use used,
      s.calls[i]? = some (use, .ret used) → UsesBuilt i use used s.world := by
  have hsafe : Good s.world ∧ ∀ i use p, s.calls[i]? = some (use, p) →
      protocol.Safe semantics i (UsesBuilt i use) p s.world := by
    refine Protocol.reachable_safe (P := protocol) ?_ (initial_good tables)
      ?_ ?_ hreach
    · intro i use used w after hmove hpost
      exact hpost.mono hmove
    · intro i use w _
      cases use with
      | «match» ds => exact match_safe factory i ds w
      | clear => exact clear_safe factory i w
    · rintro w after hgood ⟨tables', rfl⟩
      exact ⟨⟨hgood.held, hgood.kept, hgood.past, hgood.once⟩,
        fun i => ⟨Nat.le_refl _, rfl, rfl, rfl, fun _ hmem => hmem,
          fun hheld => ⟨hheld, rfl, rfl⟩⟩⟩
  exact ⟨hsafe.1, fun i use used hreturned => hsafe.2 i use _ hreturned⟩

/-- Two caches built for a data source between the same refreshes are one. -/
theorem Good.unique {w : Shared T C} (hgood : Good w) {ds : Nat}
    {left right : Installed C} (hleft : (ds, left) ∈ w.built)
    (hright : (ds, right) ∈ w.built) (hread : left.readAt = right.readAt) :
    left = right := by
  by_contra hne
  have hsymm : Std.Symm fun left right : Nat × Installed C =>
      ¬ (left.1 = right.1 ∧ left.2.readAt = right.2.readAt) :=
    ⟨fun _ _ hnot hsame => hnot ⟨hsame.1.symm, hsame.2.symm⟩⟩
  have hdiffer := hgood.once.forall hleft hright
    fun heq => hne (Prod.mk.inj heq).2
  exact hdiffer ⟨rfl, hread⟩

/-- Under every interleaving: between two refreshes at most one cache is built
for a data source; a match uses a cache whose rows were not read before the
last refresh that preceded its first look; and it uses the cache built between
the refreshes around the step that delivered it, which is the first look if
that finds a cache and the entry into `create` otherwise. -/
theorem reachable_cache_use (factory : Nat → T → Except Error C)
    (tables : Nat → T)
    (s : Interleaved (Op C) (Op.Answer T) (Used C) (Shared T C) Use)
    (hreach : Reachable semantics (body factory) (Shared.initial tables) s) :
    (s.world.built.Pairwise fun left right =>
      ¬ (left.1 = right.1 ∧ left.2.readAt = right.2.readAt)) ∧
    (∀ i ds cache,
      s.calls[i]? = some (.match ds, .ret (.matched (.ok cache))) →
        s.world.getAt i ≤ cache.readAt ∧ (ds, cache) ∈ s.world.built ∧
          cache.readAt = (s.world.createAt i).getD (s.world.getAt i)) ∧
    ∀ i j ds left right,
      s.calls[i]? = some (.match ds, .ret (.matched (.ok left))) →
      s.calls[j]? = some (.match ds, .ret (.matched (.ok right))) →
      (s.world.createAt i).getD (s.world.getAt i) =
        (s.world.createAt j).getD (s.world.getAt j) → left = right := by
  obtain ⟨hgood, huses⟩ := reachable_good factory tables hreach
  have huse : ∀ i ds cache,
      s.calls[i]? = some (.match ds, .ret (.matched (.ok cache))) →
        s.world.getAt i ≤ cache.readAt ∧ (ds, cache) ∈ s.world.built ∧
          cache.readAt = (s.world.createAt i).getD (s.world.getAt i) :=
    fun i ds cache hcall => huses i _ _ hcall ds cache rfl rfl
  refine ⟨hgood.once, huse, ?_⟩
  intro i j ds left right hleft hright hsame
  obtain ⟨-, hleftmem, hleftread⟩ := huse i ds left hleft
  obtain ⟨-, hrightmem, hrightread⟩ := huse j ds right hright
  exact hgood.unique hleftmem hrightmem
    (hleftread.trans (hsame.trans hrightread.symm))

end CacheHandler

namespace CacheConcurrentWitness

open CacheHandler

abbrev State :=
  Interleaved (Op Nat) (Op.Answer Nat) (Used Nat) (Shared Nat Nat) Use

/-- A cache is the content of the table. -/
def factory : Nat → Nat → Except Error Nat := fun _ rows => .ok rows

def started (s : State) (use : Use) : State :=
  ⟨s.world, s.calls ++ [(use, body factory use)]⟩

/-- Call `i` takes its next step. -/
def advance (s : State) (i : Nat) : State :=
  match s.calls[i]? with
  | some (use, .call op next) =>
      ⟨(s.world.perform i op).2,
        s.calls.set i (use, next (s.world.perform i op).1)⟩
  | _ => s

/-- The next step of call `i` is enabled. -/
def Ready (s : State) (i : Nat) : Prop :=
  match s.calls[i]? with
  | some (_, .call op _) => s.world.Enabled i op
  | _ => True

theorem advance_reachable {init : Shared Nat Nat} {s : State} {i : Nat}
    (hreach : Reachable semantics (body factory) init s) (hready : Ready s i) :
    Reachable semantics (body factory) init (advance s i) := by
  rw [Ready] at hready
  rw [advance]
  split
  · next use op next hcall =>
      rw [hcall] at hready
      exact hreach.tail (Step.call s i use op next _ _ hcall
        ⟨hready, rfl, Or.inl rfl⟩)
  · exact hreach

/-- Calls 1 and 2 look for a cache between the refreshes 0 and 3.  Call 2
builds one before the second refresh, call 1 builds another one after it. -/
def overtaken : State :=
  let start : State := ⟨Shared.initial fun _ => 7, []⟩
  let s := [Use.clear, .match 5, .match 5, .clear].foldl started start
  [0, 1, 2, 2, 2, 2, 3, 1, 1, 1].foldl advance s

theorem overtaken_reachable :
    Reachable semantics (body factory) (Shared.initial fun _ => 7)
      overtaken := by
  have hstart : Reachable semantics (body factory)
      (Shared.initial fun _ => 7) ⟨Shared.initial fun _ => 7, []⟩ :=
    Relation.ReflTransGen.refl
  have hbegun := (((hstart.tail (Step.start _ .clear)).tail
    (Step.start _ (.match 5))).tail (Step.start _ (.match 5))).tail
    (Step.start _ .clear)
  have hcleared := advance_reachable (i := 0) hbegun rfl
  have hlooked := advance_reachable (i := 2) (advance_reachable (i := 1)
    hcleared rfl) rfl
  have hbuilt := advance_reachable (i := 2) (advance_reachable (i := 2)
    (advance_reachable (i := 2) hlooked rfl) rfl) rfl
  have hagain := advance_reachable (i := 3) hbuilt rfl
  exact advance_reachable (i := 1) (advance_reachable (i := 1)
    (advance_reachable (i := 1) hagain rfl) rfl) rfl

/-- Both first looks lie between the same two refreshes, and the matches use
different caches. -/
theorem overtaken_uses_newer_cache :
    Reachable semantics (body factory) (Shared.initial fun _ => 7) overtaken ∧
      overtaken.world.clears = 2 ∧ overtaken.world.getAt 1 = 1 ∧
      overtaken.world.getAt 2 = 1 ∧
      overtaken.calls[1]? =
        some (.match 5, .ret (.matched (.ok ⟨7, 2⟩))) ∧
      overtaken.calls[2]? =
        some (.match 5, .ret (.matched (.ok ⟨7, 1⟩))) :=
  ⟨overtaken_reachable, rfl, rfl, rfl, rfl, rfl⟩

theorem overtaken_cache_use :
    overtaken.world.getAt 1 ≤ 2 ∧
      2 = (overtaken.world.createAt 1).getD (overtaken.world.getAt 1) := by
  obtain ⟨-, huse, -⟩ := reachable_cache_use factory (fun _ => 7) overtaken
    overtaken_reachable
  obtain ⟨hget, -, hread⟩ := huse 1 5 ⟨7, 2⟩ rfl
  exact ⟨hget, hread⟩

end CacheConcurrentWitness

end GreylistServer
