import Mathlib.Tactic.Common

/- Programs that talk to their environment, and which of them get to a goal.

   A program is a tree: it returns, it exits, or it makes a call and goes on with the
   answer, whatever that is. `C` is the type of calls and `R c` the type of the answers
   to `c`. An environment answers the `n`-th call it gets; `trace` lists the calls of a
   run with their answers, `calls` the calls alone, and `result` is what it returns.

   Two parameters describe what is wanted: `goal` marks the calls a program is to get
   to, and `fatal` the answers it does not survive. Three predicates say how a program
   stands to them, each over every possible answer:

     `Doomed D`    no run makes a goal call, and one that returns does so with `D`
     `Steady Q D`  no goal call; the program returns with `Q` as long as no answer was
                   fatal, and is `Doomed D` from a fatal answer on
     `Arrives`     the program makes a goal call as long as no answer was fatal, and is
                   doomed from a fatal answer on

   `Steady.bind` and `Steady.arrives` put them together along a sequence; `Keeps I` is
   `Steady` for a program with a state, of which `I` stays true. `arrives_iff` is what
   they are for: a run gets to the goal exactly when no answer before it is fatal. -/
namespace CallTree

inductive Prog (C : Type) (R : C → Type) (α : Type) where
  | ret (a : α)
  | exit (code : Int)
  | call (c : C) (k : R c → Prog C R α)

variable {C : Type} {R : C → Type} {α β : Type}

namespace Prog

def bind : Prog C R α → (α → Prog C R β) → Prog C R β
  | ret a, f => f a
  | exit code, _ => exit code
  | call c k, f => call c fun r => (k r).bind f

instance : Monad (Prog C R) where
  pure := ret
  bind := bind

/-- One call. -/
def ask (c : C) : Prog C R (R c) := call c ret

/-- The calls of a run and their answers; `env n` answers the `n`-th call. -/
def trace (env : Nat → (c : C) → R c) : Nat → Prog C R α → List (Sigma R)
  | _, ret _ => []
  | _, exit _ => []
  | n, call c k => ⟨c, env n c⟩ :: trace env (n + 1) (k (env n c))

/-- What a run returns, unless it exits. -/
def result (env : Nat → (c : C) → R c) : Nat → Prog C R α → Option α
  | _, ret a => some a
  | _, exit _ => none
  | n, call c k => result env (n + 1) (k (env n c))

/-- The calls of a run without their answers. -/
def calls (env : Nat → (c : C) → R c) (n : Nat) (p : Prog C R α) : List C :=
  (p.trace env n).map (·.1)

/-- The calls of a sequence: those of the first program, and if it returns those of the
second. -/
theorem calls_bind (env : Nat → (c : C) → R c) (p : Prog C R α) (f : α → Prog C R β) (n : Nat) :
    (p >>= f).calls env n = p.calls env n ++
      match p.result env n with
      | none => []
      | some a => (f a).calls env (n + (p.calls env n).length) := by
  induction p generalizing n with
  | ret a => rfl
  | exit code => rfl
  | call c k ih =>
    have hrest := ih (env n c) (n + 1)
    have hcalls : (call c k).calls env n = c :: (k (env n c)).calls env (n + 1) := rfl
    have hsum : n + (c :: (k (env n c)).calls env (n + 1)).length =
        n + 1 + ((k (env n c)).calls env (n + 1)).length := by
      rw [List.length_cons]
      omega
    rw [hcalls, hsum]
    exact congrArg (c :: ·) hrest

end Prog

open Prog

section Goal
variable (goal : C → Bool) (fatal : (c : C) → R c → Prop)

def Doomed (D : α → Prop) : Prog C R α → Prop
  | ret a => D a
  | exit _ => True
  | call c k => goal c = false ∧ ∀ r, Doomed D (k r)

def Steady (Q D : α → Prop) : Prog C R α → Prop
  | ret a => Q a
  | exit _ => False
  | call c k => goal c = false ∧ ∀ r, (fatal c r → Doomed goal D (k r)) ∧ (¬ fatal c r → Steady Q D (k r))

def Arrives : Prog C R α → Prop
  | ret _ => False
  | exit _ => False
  | call c k => goal c = true ∨
    ∀ r, (fatal c r → Doomed goal (fun _ => False) (k r)) ∧ (¬ fatal c r → Arrives (k r))

end Goal

variable {goal : C → Bool} {fatal : (c : C) → R c → Prop}

namespace Doomed

theorem bind {p : Prog C R α} {f : α → Prog C R β} {D : α → Prop} {D' : β → Prop}
    (hp : Doomed goal D p) (hf : ∀ a, D a → Doomed goal D' (f a)) : Doomed goal D' (p >>= f) := by
  induction p with
  | ret a => exact hf a hp
  | exit code => trivial
  | call c k ih => exact ⟨hp.1, fun r => ih r (hp.2 r)⟩

theorem mono {p : Prog C R α} {D D' : α → Prop} (hp : Doomed goal D p) (h : ∀ a, D a → D' a) :
    Doomed goal D' p := by
  induction p with
  | ret a => exact h a hp
  | exit code => trivial
  | call c k ih => exact ⟨hp.1, fun r => ih r (hp.2 r)⟩

/-- No goal call on the way to an exit. -/
theorem no_goal {p : Prog C R α} {D : α → Prop} (env : Nat → (c : C) → R c)
    (hp : Doomed goal D p) : ∀ n, ∀ e ∈ p.trace env n, goal e.1 = false := by
  induction p with
  | ret a => intro n e he; cases he
  | exit code => intro n e he; cases he
  | call c k ih =>
    intro n e he
    rcases List.mem_cons.mp he with rfl | he
    · exact hp.1
    · exact ih _ (hp.2 _) (n + 1) e he

end Doomed

namespace Steady

variable {Q D : α → Prop}

theorem pure {a : α} (h : Q a) : Steady goal fatal Q D (Pure.pure a) := h

/-- A call without a fatal answer. -/
theorem ask {c : C} (hc : goal c = false) (hf : ∀ r, ¬ fatal c r) {Q D : R c → Prop} (h : ∀ r, Q r) :
    Steady goal fatal Q D (Prog.ask c) :=
  ⟨hc, fun r => ⟨fun hr => absurd hr (hf r), fun _ => h r⟩⟩

theorem bind {p : Prog C R α} {f : α → Prog C R β} {Q' D' : β → Prop}
    (hp : Steady goal fatal Q D p) (hf : ∀ a, Q a → Steady goal fatal Q' D' (f a))
    (hd : ∀ a, D a → Doomed goal D' (f a)) : Steady goal fatal Q' D' (p >>= f) := by
  induction p with
  | ret a => exact hf a hp
  | exit code => exact hp.elim
  | call c k ih =>
    refine ⟨hp.1, fun r => ⟨fun hr => ?_, fun hr => ih r ((hp.2 r).2 hr)⟩⟩
    exact ((hp.2 r).1 hr).bind hd

/-- Along a sequence of programs that do not come back from a fatal answer. -/
theorem seq {p : Prog C R α} {f : α → Prog C R β} {Q' D' : β → Prop}
    (hp : Steady goal fatal Q (fun _ => False) p) (hf : ∀ a, Q a → Steady goal fatal Q' D' (f a)) :
    Steady goal fatal Q' D' (p >>= f) :=
  hp.bind hf fun _ h => h.elim

theorem mono {p : Prog C R α} {Q' D' : α → Prop} (hp : Steady goal fatal Q D p)
    (hq : ∀ a, Q a → Q' a) (hd : ∀ a, D a → D' a) : Steady goal fatal Q' D' p := by
  induction p with
  | ret a => exact hq a hp
  | exit code => exact hp
  | call c k ih =>
    exact ⟨hp.1, fun r => ⟨fun hr => ((hp.2 r).1 hr).mono hd, fun hr => ih r ((hp.2 r).2 hr)⟩⟩

/-- Whatever the answers are, there is no goal call. -/
theorem doomed {p : Prog C R α} {D' : α → Prop} (hp : Steady goal fatal Q D p) (hq : ∀ a, Q a → D' a)
    (hd : ∀ a, D a → D' a) : Doomed goal D' p := by
  induction p with
  | ret a => exact hq a hp
  | exit code => trivial
  | call c k ih =>
    refine ⟨hp.1, fun r => ?_⟩
    by_cases hr : fatal c r
    · exact ((hp.2 r).1 hr).mono hd
    · exact ih r ((hp.2 r).2 hr)

theorem ite {c : Prop} [Decidable c] {p q : Prog C R α} (hp : c → Steady goal fatal Q D p)
    (hq : ¬ c → Steady goal fatal Q D q) : Steady goal fatal Q D (if c then p else q) := by
  by_cases h : c
  · rw [if_pos h]; exact hp h
  · rw [if_neg h]; exact hq h

/-- A loop that leaves after a fatal answer. -/
theorem forM {l : List β} {f : β → Prog C R PUnit}
    (hf : ∀ b ∈ l, Steady goal fatal (fun _ => True) (fun _ => False) (f b)) :
    Steady goal fatal (fun _ => True) (fun _ => False) (l.forM f) := by
  induction l with
  | nil => exact pure trivial
  | cons b l ih =>
    apply (hf b List.mem_cons_self).seq
    intro _ _
    exact ih fun b' hb' => hf b' (List.mem_cons_of_mem b hb')

theorem arrives {p : Prog C R α} {f : α → Prog C R β} (hp : Steady goal fatal Q D p)
    (hf : ∀ a, Q a → Arrives goal fatal (f a)) (hd : ∀ a, D a → Doomed goal (fun _ => False) (f a)) :
    Arrives goal fatal (p >>= f) := by
  induction p with
  | ret a => exact hf a hp
  | exit code => exact hp.elim
  | call c k ih =>
    refine Or.inr fun r => ⟨fun hr => ?_, fun hr => ih r ((hp.2 r).2 hr)⟩
    exact ((hp.2 r).1 hr).bind hd

end Steady

/-! Programs with a state, and what they keep of it. -/

section State
variable {σ : Type}

/-- From a state with `I` the program comes back to one, unless an answer is fatal. -/
def Keeps (goal : C → Bool) (fatal : (c : C) → R c → Prop) (I : σ → Prop)
    (m : StateT σ (Prog C R) α) : Prop :=
  ∀ s, I s → Steady goal fatal (fun r => I r.2) (fun _ => False) (m s)

namespace Keeps
variable {I : σ → Prop}

theorem pure (a : α) : Keeps goal fatal I (Pure.pure a : StateT σ (Prog C R) α) :=
  fun _ hs => hs

theorem bind {m : StateT σ (Prog C R) α} {f : α → StateT σ (Prog C R) β}
    (hm : Keeps goal fatal I m) (hf : ∀ a, Keeps goal fatal I (f a)) : Keeps goal fatal I (m >>= f) :=
  fun s hs => (hm s hs).seq fun r hr => hf r.1 r.2 hr

theorem get : Keeps goal fatal I (MonadState.get : StateT σ (Prog C R) σ) :=
  fun _ hs => hs

theorem modify {f : σ → σ} (hf : ∀ s, I s → I (f s)) :
    Keeps goal fatal I (modifyGet fun s => (PUnit.unit, f s) : StateT σ (Prog C R) PUnit) :=
  fun s hs => hf s hs

/-- A program that does not look at the state. -/
theorem lift {p : Prog C R α} (hp : Steady goal fatal (fun _ => True) (fun _ => False) p) :
    Keeps goal fatal I (liftM p : StateT σ (Prog C R) α) :=
  fun _ hs => hp.seq fun _ _ => hs

theorem ite {c : Prop} [Decidable c] {m n : StateT σ (Prog C R) α} (hm : c → Keeps goal fatal I m)
    (hn : ¬ c → Keeps goal fatal I n) : Keeps goal fatal I (if c then m else n) := by
  by_cases h : c
  · rw [if_pos h]; exact hm h
  · rw [if_neg h]; exact hn h

theorem forM {l : List β} {f : β → StateT σ (Prog C R) PUnit} (hf : ∀ b ∈ l, Keeps goal fatal I (f b)) :
    Keeps goal fatal I (l.forM f) := by
  induction l with
  | nil => exact pure PUnit.unit
  | cons b l ih =>
    apply (hf b List.mem_cons_self).bind
    intro _
    exact ih fun b' hb' => hf b' (List.mem_cons_of_mem b hb')

end Keeps

end State

/-- What comes after a program that gets there makes no difference. -/
theorem Arrives.before {p : Prog C R α} {f : α → Prog C R β} (hp : Arrives goal fatal p) :
    Arrives goal fatal (p >>= f) := by
  induction p with
  | ret a => exact hp.elim
  | exit code => exact hp.elim
  | call c k ih =>
    refine hp.imp_right fun hstep r => ⟨fun hr => ?_, fun hr => ih r ((hstep r).2 hr)⟩
    exact ((hstep r).1 hr).bind fun _ h => h.elim

/-- **A run gets to the goal exactly when no answer before it is fatal.** -/
theorem arrives_iff {p : Prog C R α} (h : Arrives goal fatal p) (env : Nat → (c : C) → R c) :
    ∀ n, (∃ e ∈ p.trace env n, goal e.1 = true) ↔
      ∀ e ∈ (p.trace env n).takeWhile (fun e => !goal e.1), ¬ fatal e.1 e.2 := by
  induction p with
  | ret a => exact h.elim
  | exit code => exact h.elim
  | call c k ih =>
    intro n
    simp only [trace]
    cases hc : goal c with
    | true =>
      refine ⟨fun _ e he => ?_, fun _ => ⟨_, List.mem_cons_self, hc⟩⟩
      rw [List.takeWhile_cons_of_neg (by simp [hc])] at he
      cases he
    | false =>
      rw [List.takeWhile_cons_of_pos (by simp [hc])]
      have hstep := (h.resolve_left (by simp [hc])) (env n c)
      by_cases hf : fatal c (env n c)
      · -- From a fatal answer on there is no goal call.
        have hno := (hstep.1 hf).no_goal env (n + 1)
        constructor
        · intro hcase
          obtain ⟨e, he, hg⟩ := hcase
          rcases List.mem_cons.mp he with rfl | he
          · rw [hc] at hg; cases hg
          · rw [hno e he] at hg; cases hg
        · intro hall
          exact absurd hf (hall _ List.mem_cons_self)
      · rw [List.forall_mem_cons, ← ih _ (hstep.2 hf) (n + 1)]
        constructor
        · intro hcase
          obtain ⟨e, he, hg⟩ := hcase
          rcases List.mem_cons.mp he with rfl | he
          · rw [hc] at hg; cases hg
          · exact ⟨hf, e, he, hg⟩
        · intro hcase
          obtain ⟨-, e, he, hg⟩ := hcase
          exact ⟨e, List.mem_cons_of_mem _ he, hg⟩

end CallTree
