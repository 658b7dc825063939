/-
The policy chain.  Its modules are asked in order: one whose matcher declines
or whose policy wants to continue is passed over, the first other one ends the
walk.  Matchers and policies may do anything to the database, the triplet and
the remarks, and what they have done stays done when they throw.
-/
import GreylistServer.Core

namespace GreylistServer

namespace Core

/-- Everything a matcher or a policy can read and change. -/
structure Context (σ : Type) where
  world : σ
  triplet : Triplet
  extra : Extra

/-- `Matcher::match`. -/
abbrev MatchFn (σ : Type) := Context σ → Except Error Bool × Context σ

/-- `Policy::decide`. -/
abbrev DecideFn (σ : Type) := Context σ → Except Error ActionType × Context σ

structure Module (σ : Type) where
  matcher : MatchFn σ
  policy : DecideFn σ

variable {σ : Type}

def process : List (Module σ) → DecideFn σ
  | [], c => (.ok .dunno, c)
  | m :: rest, c =>
      match m.matcher c with
      | (.error e, c) => (.error e, c)
      | (.ok false, c) => process rest c
      | (.ok true, c) =>
          match m.policy c with
          | (.error e, c) => (.error e, c)
          | (.ok action, c) =>
              if action ≠ .cont then (.ok action, c) else process rest c

namespace Module

/-- The matcher declines, or it accepts and the policy answers `cont`. -/
def PassesOn (m : Module σ) (c next : Context σ) : Prop :=
  m.matcher c = (.ok false, next) ∨
    ∃ accepted, m.matcher c = (.ok true, accepted) ∧
      m.policy accepted = (.ok .cont, next)

/-- The matcher accepts and the policy answers something else. -/
def Decides (m : Module σ) (c : Context σ) (action : ActionType)
    (next : Context σ) : Prop :=
  action ≠ .cont ∧
    ∃ accepted, m.matcher c = (.ok true, accepted) ∧
      m.policy accepted = (.ok action, next)

/-- The matcher throws, or it accepts and the policy throws. -/
def Throws (m : Module σ) (c : Context σ) (e : Error) (next : Context σ) :
    Prop :=
  m.matcher c = (.error e, next) ∨
    ∃ accepted, m.matcher c = (.ok true, accepted) ∧
      m.policy accepted = (.error e, next)

/-- The module ends the walk. -/
def Ends (m : Module σ) (c : Context σ) :
    Except Error ActionType → Context σ → Prop
  | .ok action, next => m.Decides c action next
  | .error e, next => m.Throws c e next

theorem passesOn_or_ends (m : Module σ) (c : Context σ) :
    (∃ next, m.PassesOn c next) ∨ ∃ result next, m.Ends c result next := by
  rcases hmatch : m.matcher c with ⟨answer, accepted⟩
  rcases answer with e | answer
  · exact Or.inr ⟨.error e, accepted, Or.inl hmatch⟩
  · cases answer with
    | false => exact Or.inl ⟨accepted, Or.inl hmatch⟩
    | true =>
        rcases hdecide : m.policy accepted with ⟨verdict, next⟩
        rcases verdict with e | action
        · exact Or.inr ⟨.error e, next, Or.inr ⟨accepted, hmatch, hdecide⟩⟩
        · by_cases hcont : action = .cont
          · subst hcont
            exact Or.inl ⟨next, Or.inr ⟨accepted, hmatch, hdecide⟩⟩
          · exact Or.inr ⟨.ok action, next, hcont, accepted, hmatch, hdecide⟩

end Module

/-- The modules are passed over one after the other. -/
def PassedOver : List (Module σ) → Context σ → Context σ → Prop
  | [], c, next => next = c
  | m :: rest, c, next => ∃ mid, m.PassesOn c mid ∧ PassedOver rest mid next

theorem process_cons_of_passesOn {m : Module σ} {c next : Context σ}
    (hpass : m.PassesOn c next) (rest : List (Module σ)) :
    process (m :: rest) c = process rest next := by
  rcases hpass with hmatch | ⟨accepted, hmatch, hdecide⟩
  · rw [process, hmatch]
  · rw [process, hmatch]
    simp only [hdecide]
    rfl

theorem process_cons_of_ends {m : Module σ} {c next : Context σ}
    {result : Except Error ActionType} (hends : m.Ends c result next)
    (rest : List (Module σ)) :
    process (m :: rest) c = (result, next) := by
  cases result with
  | error e =>
      rcases hends with hmatch | ⟨accepted, hmatch, hdecide⟩
      · rw [process, hmatch]
      · rw [process, hmatch]
        simp only [hdecide]
  | ok action =>
      obtain ⟨hcont, accepted, hmatch, hdecide⟩ := hends
      rw [process, hmatch]
      simp only [hdecide]
      rw [if_pos hcont]

theorem process_append_of_passedOver {before : List (Module σ)}
    {c next : Context σ} (hpassed : PassedOver before c next)
    (rest : List (Module σ)) :
    process (before ++ rest) c = process rest next := by
  induction before generalizing c with
  | nil =>
      cases hpassed
      rfl
  | cons m before ih =>
      obtain ⟨mid, hpass, hbefore⟩ := hpassed
      rw [List.cons_append, process_cons_of_passesOn hpass]
      exact ih hbefore

/-- How a walk through the chain can come out: a module ends it after those in
front have been passed over, or all are passed over. -/
def FirstDecision (chain : List (Module σ)) (c : Context σ)
    (result : Except Error ActionType) (next : Context σ) : Prop :=
  (∃ before m after reached, chain = before ++ m :: after ∧
    PassedOver before c reached ∧ m.Ends reached result next) ∨
  (PassedOver chain c next ∧ result = .ok .dunno)

theorem FirstDecision.cons {m : Module σ} {rest : List (Module σ)}
    {c mid next : Context σ} {result : Except Error ActionType}
    (hpass : m.PassesOn c mid) (hrest : FirstDecision rest mid result next) :
    FirstDecision (m :: rest) c result next := by
  rcases hrest with ⟨before, last, after, reached, rfl, hbefore, hends⟩ |
    ⟨hall, hdunno⟩
  · exact Or.inl ⟨m :: before, last, after, reached, rfl,
      ⟨mid, hpass, hbefore⟩, hends⟩
  · exact Or.inr ⟨⟨mid, hpass, hall⟩, hdunno⟩

theorem process_firstDecision (chain : List (Module σ)) (c : Context σ) :
    FirstDecision chain c (process chain c).1 (process chain c).2 := by
  induction chain generalizing c with
  | nil => exact Or.inr ⟨rfl, rfl⟩
  | cons m rest ih =>
      rcases m.passesOn_or_ends c with ⟨mid, hpass⟩ | ⟨result, next, hends⟩
      · rw [process_cons_of_passesOn hpass]
        exact (ih mid).cons hpass
      · rw [process_cons_of_ends hends]
        exact Or.inl ⟨[], m, rest, c, rfl, rfl, hends⟩

/-- The walk comes out in exactly one way. -/
theorem process_eq_iff (chain : List (Module σ)) (c : Context σ)
    (result : Except Error ActionType) (next : Context σ) :
    process chain c = (result, next) ↔ FirstDecision chain c result next := by
  constructor
  · intro heq
    have hfirst := process_firstDecision chain c
    rw [heq] at hfirst
    exact hfirst
  · intro hfirst
    rcases hfirst with ⟨before, m, after, reached, rfl, hbefore, hends⟩ |
      ⟨hall, rfl⟩
    · rw [process_append_of_passedOver hbefore, process_cons_of_ends hends]
    · have hend := process_append_of_passedOver hall []
      rw [List.append_nil] at hend
      rw [hend, process]

section Trace

/-- A call the walk makes, with the position of its module. -/
inductive ModuleCall where
  | matcher (position : Nat)
  | policy (position : Nat)
deriving Repr, DecidableEq

def ModuleCall.position : ModuleCall → Nat
  | .matcher position => position
  | .policy position => position

/-- The context without the log kept beside the world. -/
def Context.bare (c : Context (σ × List ModuleCall)) : Context σ :=
  ⟨c.world.1, c.triplet, c.extra⟩

def Context.withLog (c : Context σ) (log : List ModuleCall) :
    Context (σ × List ModuleCall) :=
  ⟨(c.world, log), c.triplet, c.extra⟩

/-- The same call, entered into the log. -/
def logged {α : Type} (call : ModuleCall)
    (f : Context σ → Except Error α × Context σ)
    (c : Context (σ × List ModuleCall)) :
    Except Error α × Context (σ × List ModuleCall) :=
  ((f c.bare).1, (f c.bare).2.withLog (c.world.2 ++ [call]))

/-- The module with both its calls logged. -/
def Module.traced (m : Module σ) (position : Nat) :
    Module (σ × List ModuleCall) where
  matcher := logged (.matcher position) m.matcher
  policy := logged (.policy position) m.policy

/-- The chain with every call logged; its first module has position `start`. -/
def traced : Nat → List (Module σ) → List (Module (σ × List ModuleCall))
  | _, [] => []
  | start, m :: rest => m.traced start :: traced (start + 1) rest

/-- The positions of the matchers in a log. -/
def matchersAsked (log : List ModuleCall) : List Nat :=
  log.filterMap fun call =>
    match call with
    | .matcher position => some position
    | .policy _ => none

theorem matchersAsked_append (log more : List ModuleCall) :
    matchersAsked (log ++ more) = matchersAsked log ++ matchersAsked more :=
  List.filterMap_append

theorem logged_eq {α : Type} {call : ModuleCall}
    {f : Context σ → Except Error α × Context σ} {c next : Context σ}
    {answer : Except Error α} (hcall : f c = (answer, next))
    (log : List ModuleCall) :
    logged call f (c.withLog log) = (answer, next.withLog (log ++ [call])) := by
  have hbare : (c.withLog log).bare = c := rfl
  simp only [logged, hbare, hcall]
  rfl

/-- The calls one module receives: its matcher, and its policy at most. -/
def CallsOf (position : Nat) (calls : List ModuleCall) : Prop :=
  calls = [.matcher position] ∨
    calls = [.matcher position, .policy position]

theorem CallsOf.matchersAsked_eq {position : Nat} {calls : List ModuleCall}
    (hcalls : CallsOf position calls) :
    matchersAsked calls = [position] := by
  rcases hcalls with rfl | rfl <;> rfl

theorem CallsOf.position_eq {position : Nat} {calls : List ModuleCall}
    (hcalls : CallsOf position calls) {call : ModuleCall}
    (hmem : call ∈ calls) : call.position = position := by
  rcases hcalls with rfl | rfl
  · cases List.mem_singleton.mp hmem
    rfl
  · simp only [List.mem_cons, List.not_mem_nil, or_false] at hmem
    rcases hmem with rfl | rfl <;> rfl

theorem traced_policy {m : Module σ} {accepted next : Context σ}
    {verdict : Except Error ActionType}
    (hdecide : m.policy accepted = (verdict, next)) (position : Nat)
    (log : List ModuleCall) :
    (m.traced position).policy
        (accepted.withLog (log ++ [.matcher position])) =
      (verdict,
        next.withLog (log ++ [.matcher position, .policy position])) := by
  refine (logged_eq hdecide (log ++ [.matcher position])).trans ?_
  rw [List.append_assoc]
  rfl

theorem traced_passesOn {m : Module σ} {c next : Context σ}
    (hpass : m.PassesOn c next) (position : Nat) (log : List ModuleCall) :
    ∃ calls, CallsOf position calls ∧
      (m.traced position).PassesOn (c.withLog log)
        (next.withLog (log ++ calls)) := by
  rcases hpass with hmatch | ⟨accepted, hmatch, hdecide⟩
  · exact ⟨_, Or.inl rfl, Or.inl (logged_eq hmatch log)⟩
  · exact ⟨_, Or.inr rfl, Or.inr ⟨_, logged_eq hmatch log,
      traced_policy hdecide position log⟩⟩

theorem traced_ends {m : Module σ} {c next : Context σ}
    {result : Except Error ActionType} (hends : m.Ends c result next)
    (position : Nat) (log : List ModuleCall) :
    ∃ calls, CallsOf position calls ∧
      (m.traced position).Ends (c.withLog log) result
        (next.withLog (log ++ calls)) := by
  cases result with
  | error e =>
      rcases hends with hmatch | ⟨accepted, hmatch, hdecide⟩
      · exact ⟨_, Or.inl rfl, Or.inl (logged_eq hmatch log)⟩
      · exact ⟨_, Or.inr rfl, Or.inr ⟨_, logged_eq hmatch log,
          traced_policy hdecide position log⟩⟩
  | ok action =>
      obtain ⟨hcont, accepted, hmatch, hdecide⟩ := hends
      exact ⟨_, Or.inr rfl, hcont, _, logged_eq hmatch log,
        traced_policy hdecide position log⟩

/-- The calls of a whole walk: of every module in turn, up to the one that
ends it. -/
structure WalkCalls (start asked : Nat) (calls : List ModuleCall) : Prop where
  matchers : matchersAsked calls = List.range' start asked
  positions : ∀ call ∈ calls, call.position < start + asked

theorem WalkCalls.nil (start : Nat) : WalkCalls start 0 [] :=
  ⟨rfl, fun _ hmem => absurd hmem List.not_mem_nil⟩

theorem WalkCalls.cons {start asked : Nat} {first calls : List ModuleCall}
    (hfirst : CallsOf start first) (hcalls : WalkCalls (start + 1) asked calls) :
    WalkCalls start (asked + 1) (first ++ calls) := by
  constructor
  · rw [matchersAsked_append, hfirst.matchersAsked_eq, hcalls.matchers]
    rfl
  · intro call hmem
    rcases List.mem_append.mp hmem with hmem | hmem
    · rw [hfirst.position_eq hmem]
      omega
    · have hlt := hcalls.positions call hmem
      omega

theorem process_traced_of_ends {before : List (Module σ)} {m : Module σ}
    {c reached next : Context σ} {result : Except Error ActionType}
    (hbefore : PassedOver before c reached) (hends : m.Ends reached result next)
    (after : List (Module σ)) (start : Nat) (log : List ModuleCall) :
    ∃ calls, WalkCalls start (before.length + 1) calls ∧
      process (traced start (before ++ m :: after)) (c.withLog log) =
        (result, next.withLog (log ++ calls)) := by
  induction before generalizing c start log with
  | nil =>
      cases hbefore
      obtain ⟨calls, hcalls, htraced⟩ := traced_ends hends start log
      refine ⟨calls, ?_, process_cons_of_ends htraced _⟩
      have hwalk := WalkCalls.cons hcalls (WalkCalls.nil (start + 1))
      rwa [List.append_nil] at hwalk
  | cons first before ih =>
      obtain ⟨mid, hpass, hrest⟩ := hbefore
      obtain ⟨calls, hcalls, htraced⟩ := traced_passesOn hpass start log
      obtain ⟨more, hmore, hprocess⟩ := ih hrest (start + 1) (log ++ calls)
      refine ⟨calls ++ more, WalkCalls.cons hcalls hmore, ?_⟩
      rw [List.cons_append, traced, process_cons_of_passesOn htraced, hprocess,
        List.append_assoc]

end Trace

end Core

end GreylistServer
