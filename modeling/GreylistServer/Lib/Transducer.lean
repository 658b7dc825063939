/-
Machines that answer every input, and the rule by which the answers of one of
them are those of a more abstract one.  The abstract machine gets its input
from what the other one meets, its state and its input.
-/
import Mathlib

namespace GreylistServer

/-- The answer to an input, and the next state. -/
abbrev Transducer (σ ι ο : Type) := σ → ι → ο × σ

namespace Transducer

variable {σ τ ι κ θ ο ω : Type}

/-- Answer the inputs one after the other. -/
def run (T : Transducer σ ι ο) : List ι → σ → List ο × σ
  | [], s => ([], s)
  | input :: rest, s =>
      let after := T.run rest (T s input).2
      ((T s input).1 :: after.1, after.2)

/-- What is seen of the inputs in the states they meet. -/
def met (T : Transducer σ ι ο) (view : σ → ι → κ) : List ι → σ → List κ
  | [], _ => []
  | input :: rest, s => view s input :: T.met view rest (T s input).2

theorem run_append (T : Transducer σ ι ο) (first second : List ι) (s : σ) :
    T.run (first ++ second) s =
      ((T.run first s).1 ++ (T.run second (T.run first s).2).1,
        (T.run second (T.run first s).2).2) := by
  induction first generalizing s with
  | nil => rfl
  | cons input rest ih => simp only [List.cons_append, run, ih]

theorem length_run (T : Transducer σ ι ο) (inputs : List ι) (s : σ) :
    (T.run inputs s).1.length = inputs.length := by
  induction inputs generalizing s with
  | nil => rfl
  | cons input rest ih => simp only [run, List.length_cons, ih]

/-- What holds of every single answer holds of all answers of a run. -/
theorem forall_run (T : Transducer σ ι ο) {P : ο → Prop}
    (hstep : ∀ s input, P (T s input).1) (inputs : List ι) (s : σ) :
    ∀ answer ∈ (T.run inputs s).1, P answer := by
  induction inputs generalizing s with
  | nil => exact List.forall_mem_nil _
  | cons input rest ih =>
      exact List.forall_mem_cons.mpr ⟨hstep s input, ih (T s input).2⟩

/-- Where the answer to every input of a run agrees with what is seen of it and
the states stay related, all answers of the run do. -/
theorem refines {T : Transducer σ ι ο} {A : Transducer τ κ ω}
    {view : σ → ι → κ} (look : σ → ι → θ) (Related : τ → σ → Prop)
    {Agree : θ × ω → ο → Prop} (inputs : List ι)
    (hstep : ∀ a s, ∀ input ∈ inputs, Related a s →
      Agree (look s input, (A a (view s input)).1) (T s input).1 ∧
        Related (A a (view s input)).2 (T s input).2)
    {a : τ} {s : σ} (hrelated : Related a s) :
    List.Forall₂ Agree
        ((T.met look inputs s).zip (A.run (T.met view inputs s) a).1)
        (T.run inputs s).1 ∧
      Related (A.run (T.met view inputs s) a).2 (T.run inputs s).2 := by
  induction inputs generalizing a s with
  | nil => exact ⟨.nil, hrelated⟩
  | cons input rest ih =>
      obtain ⟨hagree, hnext⟩ :=
        hstep a s input List.mem_cons_self hrelated
      obtain ⟨hrest, hlast⟩ := ih
        (fun a s input hmem => hstep a s input (List.mem_cons_of_mem _ hmem))
        hnext
      exact ⟨.cons hagree hrest, hlast⟩

end Transducer

end GreylistServer
