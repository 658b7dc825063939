/-
Programs that talk to a shared world through atomic operations, run one after
the other or interleaved operation by operation.  The interleaved runs come
with a rely-guarantee rule: a program is safe when each of its operations keeps
the invariant and moves the world only as the other programs tolerate.
-/
import Mathlib

namespace GreylistServer

/-- A program: it returns a value, or issues an operation and goes on with the
answer. -/
inductive Prog (Op : Type) (Resp : Op → Type) (α : Type) where
  | ret (value : α)
  | call (op : Op) (next : Resp op → Prog Op Resp α)

variable {Op : Type} {Resp : Op → Type} {α World Label : Type}

/-- Run a program to its end with nothing in between its operations. -/
def Prog.eval (handler : (op : Op) → World → Resp op × World) :
    Prog Op Resp α → World → α × World
  | .ret value, world => (value, world)
  | .call op next, world =>
      (next (handler op world).1).eval handler (handler op world).2

/-- Whatever its operations answer, the program returns a value in `P`. -/
def Prog.Returns (P : α → Prop) : Prog Op Resp α → Prop
  | .ret value => P value
  | .call _ next => ∀ answer, (next answer).Returns P

theorem Prog.Returns.eval {P : α → Prop} {p : Prog Op Resp α}
    (hreturns : p.Returns P)
    (handler : (op : Op) → World → Resp op × World) (world : World) :
    P (p.eval handler world).1 := by
  induction p generalizing world with
  | ret value => exact hreturns
  | call op next ih => exact ih _ (hreturns _) _

/-- What the operations of caller `i` may do, and how the world moves on its
own. -/
structure Semantics (Op : Type) (Resp : Op → Type) (World : Type) where
  exec : Nat → (op : Op) → World → Resp op → World → Prop
  env : World → World → Prop

/-- The world and the calls started so far, each with what it was called on
and what is left of it. -/
structure Interleaved (Op : Type) (Resp : Op → Type) (α World Label : Type) where
  world : World
  calls : List (Label × Prog Op Resp α)

/-- One atomic step: a call starts, the world moves, or one call executes its
next operation. -/
inductive Step (sem : Semantics Op Resp World)
    (body : Label → Prog Op Resp α) :
    Interleaved Op Resp α World Label →
      Interleaved Op Resp α World Label → Prop
  | start (s : Interleaved Op Resp α World Label) (label : Label) :
      Step sem body s ⟨s.world, s.calls ++ [(label, body label)]⟩
  | env (s : Interleaved Op Resp α World Label) (world : World)
      (hmove : sem.env s.world world) :
      Step sem body s ⟨world, s.calls⟩
  | call (s : Interleaved Op Resp α World Label) (i : Nat) (label : Label)
      (op : Op) (next : Resp op → Prog Op Resp α) (answer : Resp op)
      (world : World) (hcall : s.calls[i]? = some (label, .call op next))
      (hexec : sem.exec i op s.world answer world) :
      Step sem body s ⟨world, s.calls.set i (label, next answer)⟩

/-- The states of the runs from `world` with no call started. -/
def Reachable (sem : Semantics Op Resp World) (body : Label → Prog Op Resp α)
    (world : World) (s : Interleaved Op Resp α World Label) : Prop :=
  Relation.ReflTransGen (Step sem body) ⟨world, []⟩ s

/-- A call that runs to its end with nothing in between is one of the
interleaved runs. -/
theorem reachable_eval {sem : Semantics Op Resp World}
    {body : Label → Prog Op Resp α} {init : World} {i : Nat}
    (handler : (op : Op) → World → Resp op × World)
    (hexec : ∀ op world,
      sem.exec i op world (handler op world).1 (handler op world).2)
    (p : Prog Op Resp α) {s : Interleaved Op Resp α World Label}
    {label : Label} (hcall : s.calls[i]? = some (label, p))
    (hreach : Reachable sem body init s) :
    Reachable sem body init
      ⟨(p.eval handler s.world).2,
        s.calls.set i (label, .ret (p.eval handler s.world).1)⟩ := by
  induction p generalizing s with
  | ret value =>
      have hsame : s.calls.set i (label, .ret value) = s.calls := by
        obtain ⟨hlt, hget⟩ := List.getElem?_eq_some_iff.mp hcall
        rw [← hget, List.set_getElem_self]
      simp only [Prog.eval, hsame]
      exact hreach
  | call op next ih =>
      have hstep := hreach.tail (Step.call s i label op next _ _ hcall
        (hexec op s.world))
      have hlt : i < s.calls.length :=
        (List.getElem?_eq_some_iff.mp hcall).1
      have hnext := ih (handler op s.world).1
        (by simp [hlt]) hstep
      simpa only [Prog.eval, List.set_set] using hnext

/-- An invariant, and for every caller the moves of the world it tolerates
from the others. -/
structure Protocol (World : Type) where
  inv : World → Prop
  evolves : Nat → World → World → Prop
  refl : ∀ i world, evolves i world world
  trans : ∀ i {a b c}, evolves i a b → evolves i b c → evolves i a c

namespace Protocol

variable (P : Protocol World) (sem : Semantics Op Resp World)

/-- Started by caller `i` in `world`, the program keeps the protocol and ends
in `post`, whatever the others do between its operations. -/
def Safe (i : Nat) (post : α → World → Prop) :
    Prog Op Resp α → World → Prop
  | .ret value, world => post value world
  | .call op next, world =>
      ∀ before, P.evolves i world before → P.inv before →
        ∀ answer after, sem.exec i op before answer after →
          P.inv after ∧ (∀ j, j ≠ i → P.evolves j before after) ∧
            Safe i post (next answer) after

variable {P sem}

theorem Safe.mono {i : Nat} {post : α → World → Prop}
    (hpost : ∀ value {world after}, P.evolves i world after →
      post value world → post value after)
    {p : Prog Op Resp α} {world after : World}
    (hsafe : P.Safe sem i post p world) (hmove : P.evolves i world after) :
    P.Safe sem i post p after := by
  cases p with
  | ret value => exact hpost value hmove hsafe
  | call op next =>
      intro before hbefore
      exact hsafe before (P.trans i hmove hbefore)

/-- The rely-guarantee rule: if every call is safe from every good world that
only the others have moved since the beginning, and the world's own moves are
tolerated, then every reachable state is good, every call is safe where it
stands, and those not started yet have moved nothing. -/
theorem reachable_safe_from {body : Label → Prog Op Resp α}
    {post : Nat → Label → α → World → Prop} {init : World}
    (hpost : ∀ i label value {world after}, P.evolves i world after →
      post i label value world → post i label value after)
    (hinit : P.inv init)
    (hbody : ∀ i label world, P.inv world → P.evolves i init world →
      P.Safe sem i (post i label) (body label) world)
    (henv : ∀ world after, P.inv world → sem.env world after →
      P.inv after ∧ ∀ i, P.evolves i world after)
    {s : Interleaved Op Resp α World Label}
    (hreach : Reachable sem body init s) :
    P.inv s.world ∧
      (∀ i label p, s.calls[i]? = some (label, p) →
        P.Safe sem i (post i label) p s.world) ∧
      ∀ i, s.calls.length ≤ i → P.evolves i init s.world := by
  induction hreach with
  | refl => exact ⟨hinit, by simp, fun i _ => P.refl i init⟩
  | tail _ hstep ih =>
      obtain ⟨hinv, hcalls, hlater⟩ := ih
      cases hstep with
      | start label =>
          refine ⟨hinv, ?_, fun i hi => hlater i (by simp at hi; omega)⟩
          intro i other p hget
          rw [List.getElem?_append] at hget
          split at hget
          · exact hcalls i other p hget
          · rename_i hnew
            obtain ⟨rfl, rfl⟩ : label = other ∧ body label = p := by
              rw [List.getElem?_singleton] at hget
              split at hget
              · simpa using hget
              · simp at hget
            exact hbody i label _ hinv (hlater i (not_lt.mp hnew))
      | env world hmove =>
          obtain ⟨hafter, htolerated⟩ := henv _ world hinv hmove
          refine ⟨hafter, ?_, fun i hi => P.trans i (hlater i hi) (htolerated i)⟩
          intro i label p hget
          exact (hcalls i label p hget).mono (hpost i label) (htolerated i)
      | call i label op next answer world hcall hexec =>
          have hlt := (List.getElem?_eq_some_iff.mp hcall).1
          obtain ⟨hafter, hothers, hnext⟩ :=
            hcalls i label _ hcall _ (P.refl i _) hinv answer world hexec
          refine ⟨hafter, ?_, ?_⟩
          · intro j other p hget
            rw [List.getElem?_set] at hget
            by_cases hij : i = j
            · subst hij
              rw [if_pos rfl, if_pos hlt] at hget
              obtain ⟨rfl, rfl⟩ : label = other ∧ next answer = p := by
                simpa using hget
              exact hnext
            · rw [if_neg hij] at hget
              exact (hcalls j other p hget).mono (hpost j other)
                (hothers j (Ne.symm hij))
          · intro j hj
            rw [List.length_set] at hj
            exact P.trans j (hlater j hj) (hothers j (by omega))

/-- The rule for calls that are safe from every good world. -/
theorem reachable_safe {body : Label → Prog Op Resp α}
    {post : Nat → Label → α → World → Prop} {init : World}
    (hpost : ∀ i label value {world after}, P.evolves i world after →
      post i label value world → post i label value after)
    (hinit : P.inv init)
    (hbody : ∀ i label world, P.inv world →
      P.Safe sem i (post i label) (body label) world)
    (henv : ∀ world after, P.inv world → sem.env world after →
      P.inv after ∧ ∀ i, P.evolves i world after)
    {s : Interleaved Op Resp α World Label}
    (hreach : Reachable sem body init s) :
    P.inv s.world ∧ ∀ i label p, s.calls[i]? = some (label, p) →
      P.Safe sem i (post i label) p s.world := by
  obtain ⟨hinv, hcalls, -⟩ := reachable_safe_from hpost hinit
    (fun i label world hworld _ => hbody i label world hworld) henv hreach
  exact ⟨hinv, hcalls⟩

end Protocol

end GreylistServer
