/-
Caches across configurations.  A reload makes new data sources and then lets
go of the old ones, but leaves the caches alone; a later data source may be
given the address of one that is gone.  Every match is answered from the
running configuration exactly when no load puts a cached matcher at an address
that still has a cache.
-/
import GreylistServer.Matchers

namespace GreylistServer

/-- The two classes of cached matchers, each with a handler of its own. -/
inductive MatcherClass where
  | exactMatch
  | patternMatch
deriving Repr, DecidableEq

/-- A cached matcher of a configuration: its class and the address of its data
source. -/
structure CachedMatcher where
  kind : MatcherClass
  ds : Nat
deriving Repr, DecidableEq

/-- A cache with the number of the load its data source belongs to.  Within a
load the address tells data sources apart. -/
structure BuiltFrom (C : Type) where
  generation : Nat
  cache : C
deriving Repr, DecidableEq

/-- The handlers and the cached matchers of the running configuration. -/
structure Reloading (C : Type) where
  handlers : MatcherClass → CacheHandler (BuiltFrom C)
  matchers : List CachedMatcher
  generation : Nat

/-- What happens in the life of the daemon: a configuration is loaded, a
cached matcher is asked and its factory would make `built`, the caches are
refreshed. -/
inductive ReloadEvent (C : Type) where
  | load (matchers : List CachedMatcher)
  | match (m : CachedMatcher) (built : Except Error C)
  | refresh

namespace Reloading

variable {C : Type}

/-- Before the first load. -/
def initial : Reloading C := ⟨fun _ => {}, [], 0⟩

/-- What a factory of the running configuration makes. -/
def tagged (s : Reloading C) (built : Except Error C) :
    Except Error (BuiltFrom C) :=
  built.map (BuiltFrom.mk s.generation)

/-- The cache a match consults, and what it leaves in its handler. -/
def consult (s : Reloading C) (m : CachedMatcher) (built : Except Error C) :
    Except Error (BuiltFrom C) × CacheHandler (BuiltFrom C) :=
  (s.handlers m.kind).consult m.ds (s.tagged built)

/-- One event; a load does not touch the handlers. -/
def step (s : Reloading C) : ReloadEvent C → Reloading C
  | .load matchers =>
      { s with matchers := matchers, generation := s.generation + 1 }
  | .match m built =>
      { s with
        handlers := Function.update s.handlers m.kind (s.consult m built).2 }
  | .refresh => { s with handlers := fun kind => (s.handlers kind).clear }

def after (run : List (ReloadEvent C)) : Reloading C :=
  run.foldl step initial

/-- What can happen next.  No two cached matchers of a configuration share a
data source, new data sources are not placed where the running ones are, and
only matchers of the running configuration are asked. -/
def Allowed (s : Reloading C) : ReloadEvent C → Prop
  | .load matchers =>
      (matchers.map CachedMatcher.ds).Nodup ∧
        ∀ m ∈ matchers, m.ds ∉ s.matchers.map CachedMatcher.ds
  | .match m _ => m ∈ s.matchers
  | .refresh => True

/-- Every event of the run is allowed where it happens. -/
def Valid (s : Reloading C) : List (ReloadEvent C) → Prop
  | [] => True
  | event :: rest => s.Allowed event ∧ (s.step event).Valid rest

/-- Whatever matcher of the running configuration is asked now, it consults a
cache of the running configuration. -/
def Current (s : Reloading C) : Prop :=
  ∀ m ∈ s.matchers, ∀ built cache,
    (s.consult m built).1 = .ok cache → cache.generation = s.generation

/-- Every match that can be made in the course of the run consults a cache of
the configuration that runs at that time. -/
def AlwaysCurrent (run : List (ReloadEvent C)) : Prop :=
  ∀ pre, pre <+: run → (after pre).Current

/-- No load puts a cached matcher at an address under which the handler of its
class holds a cache. -/
def FreshAddresses (run : List (ReloadEvent C)) : Prop :=
  ∀ pre matchers, pre ++ [.load matchers] <+: run →
    ∀ m ∈ matchers, ((after pre).handlers m.kind).get m.ds = none

theorem after_append_singleton (run : List (ReloadEvent C))
    (event : ReloadEvent C) :
    after (run ++ [event]) = (after run).step event := by
  simp [after]

/-- A match consults what its handler holds at its address, or makes a cache
of the running configuration. -/
theorem current_iff (s : Reloading C) :
    s.Current ↔ ∀ m ∈ s.matchers, ∀ cache,
      (s.handlers m.kind).get m.ds = some cache →
        cache.generation = s.generation := by
  constructor
  · intro hcurrent m hm cache hget
    refine hcurrent m hm (.error .undefined) cache ?_
    rw [consult, CacheHandler.consult_of_get hget]
  · intro hheld m hm built cache hconsult
    rw [consult] at hconsult
    cases hget : (s.handlers m.kind).get m.ds with
    | some held =>
        rw [CacheHandler.consult_of_get hget] at hconsult
        exact Except.ok.inj hconsult ▸ hheld m hm held hget
    | none =>
        rw [CacheHandler.consult_of_miss hget] at hconsult
        cases built with
        | error e => cases hconsult
        | ok made =>
            obtain rfl := Except.ok.inj hconsult
            rfl

/-- What one match adds to the handlers. -/
theorem get_step_match (s : Reloading C) (m : CachedMatcher)
    (built : Except Error C) (kind : MatcherClass) (ds : Nat)
    {cache : BuiltFrom C}
    (hget : ((s.step (.match m built)).handlers kind).get ds = some cache) :
    (s.handlers kind).get ds = some cache ∨
      cache.generation = s.generation := by
  simp only [step] at hget
  by_cases hkind : kind = m.kind
  · subst hkind
    rw [Function.update_self] at hget
    rcases (s.handlers m.kind).get_consult m.ds ds (s.tagged built) with
      hsame | ⟨rfl, -, made, hmade, hnew⟩
    · rw [consult, hsame] at hget
      exact Or.inl hget
    · rw [consult, hnew] at hget
      obtain rfl := Option.some.inj hget
      cases built with
      | error e => cases hmade
      | ok content =>
          obtain rfl := Except.ok.inj hmade
          exact Or.inr rfl
  · rw [Function.update_of_ne hkind] at hget
    exact Or.inl hget

/-- No cache is from the future. -/
theorem after_generation_le (run : List (ReloadEvent C)) (kind : MatcherClass)
    (ds : Nat) {cache : BuiltFrom C}
    (hget : ((after run).handlers kind).get ds = some cache) :
    cache.generation ≤ (after run).generation := by
  induction run using List.reverseRecOn with
  | nil => cases hget
  | append_singleton run event ih =>
      rw [after_append_singleton] at hget ⊢
      cases event with
      | load matchers => exact Nat.le_succ_of_le (ih hget)
      | refresh => cases hget
      | «match» m built =>
          rcases get_step_match _ m built kind ds hget with hold | hnew
          · exact ih hold
          · exact Nat.le_of_eq hnew

/-- In a run whose loads all use fresh addresses every match is answered from
the running configuration, and right after any other load one is not. -/
theorem alwaysCurrent_iff_freshAddresses (run : List (ReloadEvent C)) :
    AlwaysCurrent run ↔ FreshAddresses run := by
  constructor
  · intro hcurrent pre matchers hprefix m hm
    have hafter := (current_iff _).mp (hcurrent _ hprefix)
    rw [after_append_singleton] at hafter
    cases hget : ((after pre).handlers m.kind).get m.ds with
    | none => rfl
    | some cache =>
        have hgeneration : cache.generation = (after pre).generation + 1 :=
          hafter m hm cache hget
        have hle := after_generation_le pre m.kind m.ds hget
        omega
  · intro hfresh pre hprefix
    rw [current_iff]
    induction pre using List.reverseRecOn with
    | nil =>
        intro m hm
        cases hm
    | append_singleton pre event ih =>
        have hpre := ih ((List.prefix_append pre [event]).trans hprefix)
        rw [after_append_singleton]
        intro m hm cache hget
        cases event with
        | load matchers =>
            have hnone := hfresh pre matchers hprefix m hm
            rw [show ((after pre).handlers m.kind).get m.ds = some cache
              from hget] at hnone
            cases hnone
        | refresh => cases hget
        | «match» asked built =>
            rcases get_step_match _ asked built m.kind m.ds hget with
              hold | hnew
            · exact hpre m hm cache hold
            · exact hnew

end Reloading

namespace CacheReloadWitness

def atFirst : CachedMatcher := ⟨.exactMatch, 100⟩

def elsewhere : CachedMatcher := ⟨.exactMatch, 200⟩

/-- The third configuration gets the address of the first one back. -/
def run : List (ReloadEvent Unit) :=
  [.load [atFirst], .match atFirst (.ok ()), .load [elsewhere],
    .load [atFirst]]

/-- A run the daemon can have, after which a match consults the cache that was
built for the first of three configurations. -/
theorem stale_cache_consulted :
    Reloading.initial.Valid run ∧ atFirst ∈ (Reloading.after run).matchers ∧
      (Reloading.after run).generation = 3 ∧
      ((Reloading.after run).consult atFirst (.ok ())).1 = .ok ⟨1, ()⟩ := by
  refine ⟨⟨⟨?_, ?_⟩, ?_, ⟨?_, ?_⟩, ⟨?_, ?_⟩, trivial⟩, ?_, rfl, ?_⟩
  · decide
  · decide
  · exact List.mem_singleton_self atFirst
  · decide
  · decide
  · decide
  · decide
  · exact List.mem_singleton_self atFirst
  · decide

end CacheReloadWitness

end GreylistServer
