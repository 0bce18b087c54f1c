import Mathlib.Data.Set.Defs
import Mathlib.Logic.Function.Basic
import Mathlib.Tactic.Common

/- Operations on a store of typed variables.

   `Store X` gives every variable `v` a value of its own type `X v`. An operation is
   `Within S` when it changes no variable outside of `S` and what it writes depends
   on no variable outside of `S`. That is all there is to say for an argument about
   order: operations within disjoint sets commute (`Within.comm`). -/
namespace Footprint

variable {V : Type} {X : V → Type}

/-- A value for every variable. -/
abbrev Store (X : V → Type) := (v : V) → X v

/-- `f` reads and writes in `S` only. -/
structure Within (S : Set V) (f : Store X → Store X) : Prop where
  frame : ∀ s v, v ∉ S → f s v = s v
  reads : ∀ s t, (∀ v ∈ S, s v = t v) → ∀ v ∈ S, f s v = f t v

/-- Doing nothing touches nothing. -/
theorem Within.id (S : Set V) : Within S fun s : Store X => s :=
  ⟨fun _ _ _ => rfl, fun _ _ h => h⟩

theorem Within.comp {S : Set V} {f g : Store X → Store X} (hf : Within S f) (hg : Within S g) :
    Within S fun s => f (g s) := by
  refine ⟨?_, ?_⟩
  · intro s v hv
    rw [hf.frame (g s) v hv, hg.frame s v hv]
  · intro s t hst
    exact hf.reads (g s) (g t) (hg.reads s t hst)

variable [DecidableEq V]

/-- An assignment to one variable from what one holds. -/
theorem Within.assign (v w : V) (f : X v → X w) {S : Set V} (hv : v ∈ S) (hw : w ∈ S) :
    Within S fun s : Store X => Function.update s w (f (s v)) := by
  refine ⟨?_, ?_⟩
  · intro s u hu
    have hne : u ≠ w := fun h => hu (by rw [h]; exact hw)
    exact Function.update_of_ne hne _ s
  · intro s t hst u hu
    by_cases huw : u = w
    · subst huw
      rw [Function.update_self, Function.update_self, hst v hv]
    · rw [Function.update_of_ne huw, Function.update_of_ne huw]
      exact hst u hu

omit [DecidableEq V] in
/-- **Operations within disjoint sets commute.** -/
theorem Within.comm {S T : Set V} {f g : Store X → Store X} (hf : Within S f) (hg : Within T g)
    (h : ∀ v ∈ S, v ∉ T) (s : Store X) : f (g s) = g (f s) := by
  funext v
  by_cases hS : v ∈ S
  · have hsame : ∀ w ∈ S, g s w = s w := fun w hw => hg.frame s w (h w hw)
    calc f (g s) v = f s v := hf.reads (g s) s hsame v hS
      _ = g (f s) v := (hg.frame (f s) v (h v hS)).symm
  · by_cases hT : v ∈ T
    · have hsame : ∀ w ∈ T, s w = f s w := fun w hw => (hf.frame s w fun hwS => h w hwS hw).symm
      calc f (g s) v = g s v := hf.frame (g s) v hS
        _ = g (f s) v := hg.reads s (f s) hsame v hT
    · calc f (g s) v = g s v := hf.frame (g s) v hS
        _ = s v := hg.frame s v hT
        _ = f s v := (hf.frame s v hS).symm
        _ = g (f s) v := (hg.frame (f s) v hT).symm

end Footprint
