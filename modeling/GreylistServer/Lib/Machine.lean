/-
Machines given by a partial step function, their runs, and the rules by which
a property of one step becomes a property of every run.  The last section
counts the processes of a list that are in one region of their code.
-/
import Mathlib

namespace GreylistServer

/-- A first state, and what one action does where it is possible. -/
structure Machine (σ α : Type) where
  init : σ
  step : σ → α → Option σ

namespace Machine

variable {σ α : Type} (M : Machine σ α)

/-- Perform the actions one after the other. -/
def run : List α → σ → Option σ
  | [], s => some s
  | action :: rest, s => (M.step s action).bind (run rest)

/-- Every step of the run from `s` meets `P`. -/
def Along (P : σ → α → σ → Prop) : List α → σ → Prop
  | [], _ => True
  | action :: rest, s =>
      ∀ next, M.step s action = some next →
        P s action next ∧ Along P rest next

/-- The states of all runs. -/
def Reachable (s : σ) : Prop :=
  ∃ actions, M.run actions M.init = some s

variable {M}

theorem run_cons {action : α} {rest : List α} {s t : σ}
    (hrun : M.run (action :: rest) s = some t) :
    ∃ next, M.step s action = some next ∧ M.run rest next = some t :=
  Option.bind_eq_some_iff.mp hrun

theorem run_append {before after : List α} {s mid t : σ}
    (hbefore : M.run before s = some mid) (hafter : M.run after mid = some t) :
    M.run (before ++ after) s = some t := by
  induction before generalizing s with
  | nil =>
      cases hbefore
      exact hafter
  | cons action rest ih =>
      obtain ⟨next, hstep, hrest⟩ := run_cons hbefore
      simp only [List.cons_append, run, hstep, Option.bind_some]
      exact ih hrest

theorem reachable_init : M.Reachable M.init :=
  ⟨[], rfl⟩

theorem Reachable.step {s t : σ} {action : α} (hs : M.Reachable s)
    (hstep : M.step s action = some t) : M.Reachable t := by
  obtain ⟨actions, hrun⟩ := hs
  refine ⟨actions ++ [action], run_append hrun ?_⟩
  simp [run, hstep]

/-- What every step allowed by `ok` preserves holds at the end of a run of
such steps. -/
theorem run_preserves_along (inv : σ → Prop) {ok : σ → α → Prop}
    (hpreserves : ∀ {s action t}, inv s → ok s action →
      M.step s action = some t → inv t)
    {actions : List α} {s t : σ} (hinv : inv s)
    (halong : M.Along (fun s action _ => ok s action) actions s)
    (hrun : M.run actions s = some t) : inv t := by
  induction actions generalizing s with
  | nil =>
      cases hrun
      exact hinv
  | cons action rest ih =>
      obtain ⟨next, hstep, hrest⟩ := run_cons hrun
      obtain ⟨hok, hnext⟩ := halong next hstep
      exact ih (hpreserves hinv hok hstep) hnext hrest

/-- What every step preserves holds at the end of a run. -/
theorem run_preserves (inv : σ → Prop)
    (hpreserves : ∀ {s action t}, inv s → M.step s action = some t → inv t)
    {actions : List α} {s t : σ} (hinv : inv s)
    (hrun : M.run actions s = some t) : inv t := by
  induction actions generalizing s with
  | nil =>
      cases hrun
      exact hinv
  | cons action rest ih =>
      obtain ⟨next, hstep, hrest⟩ := run_cons hrun
      exact ih (hpreserves hinv hstep) hrest

/-- What holds in the first state and is kept by every step from a reachable
state holds in every reachable state. -/
theorem Reachable.induction {inv : σ → Prop} (hinit : inv M.init)
    (hpreserves : ∀ {s action t}, M.Reachable s → inv s →
      M.step s action = some t → inv t)
    {s : σ} (hs : M.Reachable s) : inv s := by
  obtain ⟨actions, hrun⟩ := hs
  have hboth := run_preserves (fun s => M.Reachable s ∧ inv s)
    (fun hs hstep => ⟨hs.1.step hstep, hpreserves hs.1 hs.2 hstep⟩)
    ⟨reachable_init, hinit⟩ hrun
  exact hboth.2

/-- An invariant of the first state and of every step holds in every reachable
state. -/
theorem Reachable.invariant {inv : σ → Prop} (hinit : inv M.init)
    (hpreserves : ∀ {s action t}, inv s → M.step s action = some t → inv t)
    {s : σ} (hs : M.Reachable s) : inv s :=
  hs.induction hinit (fun _ => hpreserves)

/-- Where a step of a good run is good exactly when it meets `ok`, all steps of
a run are good exactly when all meet `ok`. -/
theorem along_iff {inv : σ → Prop} {ok : σ → α → Prop}
    {good : σ → α → σ → Prop}
    (hexact : ∀ {s action t}, inv s → M.step s action = some t →
      (good s action t ↔ ok s action))
    (hpreserves : ∀ {s action t}, inv s → ok s action →
      M.step s action = some t → inv t)
    (actions : List α) {s : σ} (hinv : inv s) :
    M.Along good actions s ↔
      M.Along (fun s action _ => ok s action) actions s := by
  induction actions generalizing s with
  | nil => exact Iff.rfl
  | cons action rest ih =>
      constructor
      · intro hgood next hstep
        obtain ⟨hnext, hrest⟩ := hgood next hstep
        have hok := (hexact hinv hstep).mp hnext
        exact ⟨hok, (ih (hpreserves hinv hok hstep)).mp hrest⟩
      · intro hok next hstep
        obtain ⟨hnext, hrest⟩ := hok next hstep
        exact ⟨(hexact hinv hstep).mpr hnext,
          (ih (hpreserves hinv hnext hstep)).mpr hrest⟩

instance decidableAlong {P : σ → α → σ → Prop}
    [∀ s action t, Decidable (P s action t)] :
    (actions : List α) → (s : σ) → Decidable (M.Along P actions s)
  | [], _ => isTrue trivial
  | action :: rest, s =>
      match hstep : M.step s action with
      | none => isTrue (fun next hnext => by rw [hstep] at hnext; cases hnext)
      | some next =>
          have : Decidable (M.Along P rest next) :=
            decidableAlong rest next
          decidable_of_iff (P s action next ∧ M.Along P rest next)
            ⟨fun hboth other hother => by
                rw [hstep] at hother
                cases hother
                exact hboth,
              fun hall => hall next hstep⟩

end Machine

section Processes

variable {β : Type}

/-- Moving one process changes how many are in a region by whether it left
and whether it entered. -/
theorem countP_set_add {region : β → Bool} {processes : List β} {i : Nat}
    {before after : β} (hget : processes[i]? = some before) :
    (processes.set i after).countP region + (region before).toNat =
      processes.countP region + (region after).toNat := by
  induction processes generalizing i with
  | nil => simp at hget
  | cons process rest ih =>
      cases i with
      | zero =>
          simp only [List.getElem?_cons_zero, Option.some.injEq] at hget
          subst hget
          simp only [List.set_cons_zero, List.countP_cons]
          cases region process <;> cases region after <;> simp
      | succ i =>
          simp only [List.getElem?_cons_succ] at hget
          have hrest := ih hget
          simp only [List.set_cons_succ, List.countP_cons]
          omega

/-- A process of a list with one more at its end is an old one or the new
one. -/
theorem getElem?_concat_cases {processes : List β} {new process : β} {i : Nat}
    (hget : (processes ++ [new])[i]? = some process) :
    processes[i]? = some process ∨ i = processes.length ∧ process = new := by
  rw [List.getElem?_append] at hget
  split at hget
  · exact Or.inl hget
  · have hlen := (List.getElem?_eq_some_iff.mp hget).1
    have hi : i = processes.length := by
      simp only [List.length_singleton] at hlen
      omega
    simp only [hi, Nat.sub_self, List.getElem?_cons_zero,
      Option.some.injEq] at hget
    exact Or.inr ⟨hi, hget.symm⟩

end Processes

end GreylistServer
