import Mathlib.Tactic.Common

/- Runs of a state machine that an environment drives.

   A system is a total step function from a state and an event to a state; a run
   is a list of events, first event first. What the environment promises is a
   predicate `ok` on the state an event meets and the event; `Allowed` says that
   every event of a run keeps the promise. `run_inv` is the one induction over
   runs: what one allowed step keeps, an allowed run keeps. `run_swap` and `run_skip`
   are about the run as a text: events that commute may be swapped, and events that do
   nothing may be left out. -/
namespace Runs

variable {σ ε : Type} (step : σ → ε → σ) (ok : σ → ε → Prop)

/-- The state after the events. -/
def run (s : σ) (es : List ε) : σ := es.foldl step s

/-- Every event keeps the promise in the state it meets. -/
def Allowed : σ → List ε → Prop
  | _, [] => True
  | s, e :: es => ok s e ∧ Allowed (step s e) es

instance decidableAllowed [∀ s e, Decidable (ok s e)] : ∀ (s : σ) (es : List ε), Decidable (Allowed step ok s es)
  | _, [] => isTrue trivial
  | s, e :: es =>
    have := decidableAllowed (step s e) es
    inferInstanceAs (Decidable (ok s e ∧ Allowed step ok (step s e) es))

@[simp] theorem run_nil (s : σ) : run step s [] = s := rfl

@[simp] theorem run_cons (s : σ) (e : ε) (es : List ε) :
    run step s (e :: es) = run step (step s e) es := rfl

theorem run_append (s : σ) (es fs : List ε) :
    run step s (es ++ fs) = run step (run step s es) fs := by
  simp [run, List.foldl_append]

variable {step ok}

theorem run_swap {a b : ε} (h : ∀ s, step (step s a) b = step (step s b) a) (s : σ)
    (pre post : List ε) : run step s (pre ++ a :: b :: post) = run step s (pre ++ b :: a :: post) := by
  rw [run_append, run_append, run_cons, run_cons, run_cons, run_cons, h]

theorem run_skip {a : ε} (h : ∀ s, step s a = s) (s : σ) (pre post : List ε) :
    run step s (pre ++ a :: post) = run step s (pre ++ post) := by
  rw [run_append, run_append, run_cons, h]

/-- A promise about the event alone is a promise about the members of the run. -/
theorem allowed_of_forall {P : ε → Prop} : ∀ {es : List ε} {s : σ}, (∀ e ∈ es, P e) →
    Allowed step (fun _ e => P e) s es
  | [], _, _ => trivial
  | e :: _, _, h =>
    ⟨h e List.mem_cons_self, allowed_of_forall fun x hx => h x (List.mem_cons_of_mem e hx)⟩

theorem allowed_append {es fs : List ε} : ∀ {s : σ}, Allowed step ok s (es ++ fs) ↔
    Allowed step ok s es ∧ Allowed step ok (run step s es) fs := by
  induction es with
  | nil => exact fun {s} => ⟨fun h => ⟨trivial, h⟩, fun h => h.2⟩
  | cons e es ih =>
    intro s
    rw [List.cons_append, Allowed, ih, Allowed, and_assoc]
    rfl

/-- What every allowed step keeps, every allowed run keeps. -/
theorem run_inv {I : σ → Prop} (hstep : ∀ s e, I s → ok s e → I (step s e))
    {es : List ε} {s : σ} (hs : I s) (ha : Allowed step ok s es) : I (run step s es) := by
  induction es generalizing s with
  | nil => exact hs
  | cons e es ih => exact ih (hstep s e hs ha.1) ha.2

end Runs
