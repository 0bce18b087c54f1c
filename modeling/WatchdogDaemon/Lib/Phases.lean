import WatchdogDaemon.Lib.Monitor

/- Programs whose calls come in phases.

   `phase` gives some of the calls of a program a number. `InPhases phase rel a b p` says that
   `p`, started when no phase after `a` was reached, stays in order and ends with none after
   `b` reached; `rel` is the order that is asked for, `≤` where a phase has many calls and `<`
   where it has one. `pairwise_phases` is what it comes to: along every run, the numbers of
   the calls are in that order. -/
namespace CallTree

variable {C : Type} {R : C → Type} {α β : Type}

/-- The phase reached, and that what comes next is in order. -/
def phaseMonitor (R : C → Type) (phase : C → Option Nat) (rel : Nat → Nat → Prop) : Monitor C R Nat where
  next m q _ := (phase q).getD m
  ok m q := ∀ k, phase q = some k → rel m k
  allows _ _ _ := True

def InPhases (phase : C → Option Nat) (rel : Nat → Nat → Prop) (a b : Nat) (p : Prog C R α) : Prop :=
  Triple (phaseMonitor R phase rel) (fun _ => True) (· ≤ a) p (· ≤ b)

variable {phase : C → Option Nat} {rel : Nat → Nat → Prop}

/-- A call of phase `k`, or of none. -/
theorem phaseMonitor_keeps {k m : Nat} {q : C} (hrel : ∀ m ≤ k, rel m k)
    (hq : phase q = none ∨ phase q = some k) (hm : m ≤ k) :
    (phaseMonitor R phase rel).ok m q ∧ ∀ r, (phaseMonitor R phase rel).next m q r ≤ k := by
  obtain hnone | hsome := hq
  · refine ⟨fun j hj => ?_, fun _ => ?_⟩
    · rw [hnone] at hj
      cases hj
    · show (phase q).getD m ≤ k
      rw [hnone]
      exact hm
  · refine ⟨fun j hj => ?_, fun _ => ?_⟩
    · rw [hsome, Option.some.injEq] at hj
      exact hj ▸ hrel m hm
    · show (phase q).getD m ≤ k
      rw [hsome]
      exact Nat.le_refl k

namespace InPhases
variable {a b d k : Nat}

theorem bind {p : Prog C R α} {f : α → Prog C R β} (hp : InPhases phase rel a b p)
    (hf : ∀ x, InPhases phase rel b d (f x)) : InPhases phase rel a d (p >>= f) :=
  Triple.bind hp hf

theorem mono {p : Prog C R α} {a' b' : Nat} (hp : InPhases phase rel a b p) (ha : a' ≤ a) (hb : b ≤ b') :
    InPhases phase rel a' b' p :=
  Triple.conseq hp (fun _ h => Nat.le_trans h ha) fun _ h => Nat.le_trans h hb

theorem pure (x : α) : InPhases phase rel a a (Pure.pure x : Prog C R α) := fun _ h => h

/-- One call. -/
theorem ask {q : C} (hq : phase q = some b) (hrel : ∀ m ≤ a, rel m b) :
    InPhases phase rel a b (Prog.ask q : Prog C R (R q)) := by
  intro m hm
  refine ⟨fun k hk => ?_, fun _ _ => ?_⟩
  · rw [hq, Option.some.injEq] at hk
    exact hk ▸ hrel m hm
  · show (phase q).getD m ≤ b
    rw [hq]
    exact Nat.le_refl b

/-- All calls are of one phase, or of none. -/
theorem of_only {p : Prog C R α} {S : C → Prop} {X : Prop} (hp : Only S X p) (hrel : ∀ m ≤ k, rel m k)
    (h : ∀ q, S q → phase q = none ∨ phase q = some k) : InPhases phase rel k k p :=
  Triple.of_only hp (fun _ q hq hm => phaseMonitor_keeps hrel (h q hq) hm) fun _ _ _ => trivial

end InPhases

/-- What the monitor has seen is in order. -/
theorem pairwise_of_guarded (htrans : ∀ a b c, rel a b → rel b c → rel a c) {m : Nat} {tr : List (Sigma R)}
    (h : (phaseMonitor R phase rel).Guarded m tr) :
    (m :: (tr.map (·.1)).filterMap phase).Pairwise rel := by
  induction tr generalizing m with
  | nil => exact List.pairwise_singleton _ _
  | cons e tr ih =>
    have hrest : ((phase e.1).getD m :: (tr.map (·.1)).filterMap phase).Pairwise rel := ih h.2
    rw [List.map_cons]
    cases hp : phase e.1 with
    | none =>
      rw [List.filterMap_cons_none hp]
      rwa [hp] at hrest
    | some k =>
      rw [List.filterMap_cons_some hp]
      rw [hp, Option.getD_some] at hrest
      have hmk : rel m k := h.1 k hp
      refine List.pairwise_cons.mpr ⟨?_, hrest⟩
      intro j hj
      rcases List.mem_cons.mp hj with rfl | hj
      · exact hmk
      · exact htrans m k j hmk ((List.pairwise_cons.mp hrest).1 j hj)

/-- **Along every run the phases are in order.** -/
theorem pairwise_phases {p : Prog C R α} {J : Nat → Prop}
    (hp : Triple (phaseMonitor R phase rel) (fun _ => True) (· ≤ 0) p J)
    (htrans : ∀ a b c, rel a b → rel b c → rel a c) (env : Nat → (c : C) → R c) (n : Nat) :
    ((p.calls env n).filterMap phase).Pairwise rel := by
  have hfollows := Monitor.follows_of_allows (M := phaseMonitor R phase rel) (fun _ _ _ => trivial) 0
    (p.trace env n)
  have hguarded := ((hp 0 (Nat.le_refl 0)).sound env n hfollows).1
  exact (List.pairwise_cons.mp (pairwise_of_guarded htrans hguarded)).2

end CallTree
