import WatchdogDaemon.Lib.CallTree

/- What holds along every run of a call tree: monitors and their program logic.

   A monitor watches the calls a program makes. It has a state; `next` is the state after a
   call and its answer, `ok` says which calls are right in a state, and `allows` which
   answers the environment may give in it. A monitor that allows every answer speaks about
   every run; one whose state is that of a machine, and whose `allows` is what the machine
   answers, speaks about the runs on that machine.

   `Wp M Q E p m` says: run from the monitor state `m`, the program `p` makes only calls that
   are right, returns `a` in a state with `Q a`, and exits in one with `E`. It is defined by
   recursion on the program, and its rules follow the program's text (`Wp.bind`, `Wp.ite`,
   `Wp.forM`). `Wp.sound` is what it is for: every run whose answers are allowed is guarded,
   and ends as `Q` and `E` say. `Only S X` is the part that needs no monitor: every call the
   program can make is in `S`, and it can exit only if `X`. `Triple` is `Wp` for all states
   with a precondition. -/
namespace CallTree

open Prog

variable {C : Type} {R : C → Type} {α β μ σ : Type}

structure Monitor (C : Type) (R : C → Type) (μ : Type) where
  next : μ → (c : C) → R c → μ
  ok : μ → C → Prop
  allows : μ → (c : C) → R c → Prop

namespace Monitor
variable (M : Monitor C R μ)

/-- The state after a trace. -/
def after (m : μ) (tr : List (Sigma R)) : μ := tr.foldl (fun m e => M.next m e.1 e.2) m

/-- Every call of the trace is right in the state it meets. -/
def Guarded : μ → List (Sigma R) → Prop
  | _, [] => True
  | m, e :: tr => M.ok m e.1 ∧ Guarded (M.next m e.1 e.2) tr

/-- Every answer of the trace is allowed in the state it meets. -/
def Follows : μ → List (Sigma R) → Prop
  | _, [] => True
  | m, e :: tr => M.allows m e.1 e.2 ∧ Follows (M.next m e.1 e.2) tr

instance decidableFollows [∀ m c r, Decidable (M.allows m c r)] :
    ∀ (m : μ) (tr : List (Sigma R)), Decidable (M.Follows m tr)
  | _, [] => isTrue trivial
  | m, e :: tr =>
    have := decidableFollows (M.next m e.1 e.2) tr
    inferInstanceAs (Decidable (M.allows m e.1 e.2 ∧ M.Follows (M.next m e.1 e.2) tr))

variable {M}

theorem Guarded.at_split {m : μ} {pre post : List (Sigma R)} {e : Sigma R}
    (h : M.Guarded m (pre ++ e :: post)) : M.ok (M.after m pre) e.1 := by
  induction pre generalizing m with
  | nil => exact h.1
  | cons d pre ih => exact ih h.2

/-- A split of the calls is one of the trace. -/
theorem exists_split {tr : List (Sigma R)} {pre post : List C} {c : C}
    (h : tr.map (·.1) = pre ++ c :: post) :
    ∃ tr₁ e tr₂, tr = tr₁ ++ e :: tr₂ ∧ tr₁.map (·.1) = pre ∧ e.1 = c := by
  obtain ⟨tr₁, rest, htrace, hpre, hrest⟩ := List.map_eq_append_iff.mp h
  obtain ⟨e, tr₂, rfl, hc, -⟩ := List.map_eq_cons_iff.mp hrest
  exact ⟨tr₁, e, tr₂, htrace, hpre, hc⟩

theorem follows_of_allows (h : ∀ m c r, M.allows m c r) (m : μ) (tr : List (Sigma R)) :
    M.Follows m tr := by
  induction tr generalizing m with
  | nil => trivial
  | cons e tr ih => exact ⟨h m e.1 e.2, ih _⟩

theorem follows_of_forall {A : (c : C) → R c → Prop} (h : ∀ m c r, A c r → M.allows m c r) (m : μ)
    {tr : List (Sigma R)} (htr : ∀ e ∈ tr, A e.1 e.2) : M.Follows m tr := by
  induction tr generalizing m with
  | nil => trivial
  | cons e tr ih =>
    exact ⟨h m e.1 e.2 (htr e List.mem_cons_self), ih _ fun e he => htr e (List.mem_cons_of_mem _ he)⟩

/-- A monitor that remembers the whole trace. -/
def history (ok : List (Sigma R) → C → Prop) : Monitor C R (List (Sigma R)) where
  next tr c r := tr ++ [⟨c, r⟩]
  ok := ok
  allows _ _ _ := True

theorem history_after (ok : List (Sigma R) → C → Prop) (pre tr : List (Sigma R)) :
    (history ok).after pre tr = pre ++ tr := by
  induction tr generalizing pre with
  | nil => exact (List.append_nil pre).symm
  | cons e tr ih => exact (ih (pre ++ [e])).trans (List.append_assoc pre [e] tr)

/-- The monitor that asks for `I` whenever there is a call. -/
def asserting (M : Monitor C R μ) (I : μ → Prop) : Monitor C R μ := { M with ok := fun m _ => I m }

theorem asserting_follows (I : μ → Prop) {m : μ} {tr : List (Sigma R)} (h : M.Follows m tr) :
    (M.asserting I).Follows m tr := by
  induction tr generalizing m with
  | nil => trivial
  | cons e tr ih => exact ⟨h.1, ih h.2⟩

/-- In the state `m` the monitor is not concerned by the call. -/
def Ignores (M : Monitor C R μ) (m : μ) (c : C) : Prop := M.ok m c ∧ ∀ r, M.next m c r = m

end Monitor

/-- What is in a trace is what the environment answered. -/
theorem mem_trace {p : Prog C R α} {env : Nat → (c : C) → R c} {n : Nat} {e : Sigma R}
    (h : e ∈ p.trace env n) : ∃ k, e.2 = env k e.1 := by
  induction p generalizing n with
  | ret a => cases h
  | exit code => cases h
  | call c k ih =>
    rcases List.mem_cons.mp h with rfl | h
    · exact ⟨n, rfl⟩
    · exact ih _ h

/-! ## Weakest preconditions -/

def Wp (M : Monitor C R μ) (Q : α → μ → Prop) (E : μ → Prop) : Prog C R α → μ → Prop
  | ret a, m => Q a m
  | exit _, m => E m
  | call c k, m => M.ok m c ∧ ∀ r, M.allows m c r → Wp M Q E (k r) (M.next m c r)

namespace Wp
variable {M : Monitor C R μ} {Q : α → μ → Prop} {E : μ → Prop} {m : μ}

theorem mono {p : Prog C R α} {Q' : α → μ → Prop} {E' : μ → Prop} (hp : Wp M Q E p m)
    (hq : ∀ a m, Q a m → Q' a m) (he : ∀ m, E m → E' m) : Wp M Q' E' p m := by
  induction p generalizing m with
  | ret a => exact hq a m hp
  | exit code => exact he m hp
  | call c k ih => exact ⟨hp.1, fun r hr => ih r (hp.2 r hr)⟩

theorem bind {p : Prog C R α} {f : α → Prog C R β} {Q' : β → μ → Prop}
    (hp : Wp M Q E p m) (hf : ∀ a m, Q a m → Wp M Q' E (f a) m) : Wp M Q' E (p >>= f) m := by
  induction p generalizing m with
  | ret a => exact hf a m hp
  | exit code => exact hp
  | call c k ih => exact ⟨hp.1, fun r hr => ih r (hp.2 r hr)⟩

theorem ite {c : Prop} [Decidable c] {p q : Prog C R α} (hp : c → Wp M Q E p m)
    (hq : ¬ c → Wp M Q E q m) : Wp M Q E (if c then p else q) m := by
  by_cases h : c
  · rw [if_pos h]; exact hp h
  · rw [if_neg h]; exact hq h

/-- A loop whose body keeps `I`. -/
theorem forM {I : μ → Prop} {l : List β} {f : β → Prog C R PUnit}
    (hf : ∀ b ∈ l, ∀ m, I m → Wp M (fun _ => I) E (f b) m) (hm : I m) :
    Wp M (fun _ => I) E (l.forM f) m := by
  induction l generalizing m with
  | nil => exact hm
  | cons b l ih =>
    apply (hf b List.mem_cons_self m hm).bind
    intro _ m' hm'
    exact ih (fun b' hb' => hf b' (List.mem_cons_of_mem b hb')) hm'

/-- A fold whose step keeps `I` of what it carries and of the monitor. -/
theorem foldlM {I : α → μ → Prop} {l : List β} {f : α → β → Prog C R α}
    (hf : ∀ b ∈ l, ∀ a m, I a m → Wp M I E (f a b) m) {a : α} (hm : I a m) :
    Wp M I E (l.foldlM f a) m := by
  induction l generalizing a m with
  | nil => exact hm
  | cons b l ih =>
    rw [List.foldlM_cons]
    apply (hf b List.mem_cons_self a m hm).bind
    intro a' m' hm'
    exact ih (fun b' hb' => hf b' (List.mem_cons_of_mem b hb')) hm'

/-- **Soundness.** A run whose answers are allowed makes only calls that are right, and ends
as the postconditions say. -/
theorem sound {p : Prog C R α} (hp : Wp M Q E p m) (env : Nat → (c : C) → R c) (n : Nat)
    (henv : M.Follows m (p.trace env n)) :
    M.Guarded m (p.trace env n) ∧
      match p.result env n with
      | some a => Q a (M.after m (p.trace env n))
      | none => E (M.after m (p.trace env n)) := by
  induction p generalizing m n with
  | ret a => exact ⟨trivial, hp⟩
  | exit code => exact ⟨trivial, hp⟩
  | call c k ih =>
    obtain ⟨hguard, hend⟩ := ih _ (hp.2 _ henv.1) (n + 1) henv.2
    exact ⟨⟨hp.1, hguard⟩, hend⟩

end Wp

/-- What holds at every moment of a run. -/
theorem Wp.always {M : Monitor C R μ} {I : μ → Prop} {p : Prog C R α} {m : μ}
    (hp : Wp (M.asserting I) (fun _ => I) I p m) {env : Nat → (c : C) → R c} {n : Nat}
    (henv : M.Follows m (p.trace env n)) {pre post : List (Sigma R)} (h : p.trace env n = pre ++ post) :
    I (M.after m pre) := by
  obtain ⟨hguarded, hend⟩ := hp.sound env n (Monitor.asserting_follows I henv)
  cases post with
  | nil =>
    rw [h, List.append_nil] at hend
    cases hresult : p.result env n with
    | none => rw [hresult] at hend; exact hend
    | some a => rw [hresult] at hend; exact hend
  | cons e post =>
    rw [h] at hguarded
    exact hguarded.at_split

/-- What holds of every call of a run, by what went before it. -/
theorem Wp.history_split {ok : List (Sigma R) → C → Prop} {p : Prog C R α} {Q : α → List (Sigma R) → Prop}
    {E : List (Sigma R) → Prop} (hp : Wp (Monitor.history ok) Q E p []) {env : Nat → (c : C) → R c} {n : Nat}
    {pre post : List (Sigma R)} {e : Sigma R} (h : p.trace env n = pre ++ e :: post) : ok pre e.1 := by
  have hguarded := (hp.sound env n (Monitor.follows_of_allows (fun _ _ _ => trivial) _ _)).1
  rw [h] at hguarded
  have hok := hguarded.at_split
  rwa [Monitor.history_after, List.nil_append] at hok

/-! ## The calls a program can make -/

/-- Every call is in `S`, and the program exits only if `X`. -/
def Only (S : C → Prop) (X : Prop) : Prog C R α → Prop
  | ret _ => True
  | exit _ => X
  | call c k => S c ∧ ∀ r, Only S X (k r)

namespace Only
variable {S T : C → Prop} {X : Prop}

theorem pure (a : α) : Only S X (Pure.pure a : Prog C R α) := trivial

theorem ask {c : C} (h : S c) : Only S X (Prog.ask c : Prog C R (R c)) := ⟨h, fun _ => trivial⟩

theorem bind {p : Prog C R α} {f : α → Prog C R β} (hp : Only S X p) (hf : ∀ a, Only S X (f a)) :
    Only S X (p >>= f) := by
  induction p with
  | ret a => exact hf a
  | exit code => exact hp
  | call c k ih => exact ⟨hp.1, fun r => ih r (hp.2 r)⟩

theorem ite {c : Prop} [Decidable c] {p q : Prog C R α} (hp : Only S X p) (hq : Only S X q) :
    Only S X (if c then p else q) := by
  by_cases h : c
  · rw [if_pos h]; exact hp
  · rw [if_neg h]; exact hq

theorem forM {l : List β} {f : β → Prog C R PUnit} (hf : ∀ b ∈ l, Only S X (f b)) :
    Only S X (l.forM f) := by
  induction l with
  | nil => trivial
  | cons b l ih =>
    exact (hf b List.mem_cons_self).bind fun _ => ih fun b' hb' => hf b' (List.mem_cons_of_mem b hb')

theorem mono {p : Prog C R α} (hp : Only S X p) (h : ∀ c, S c → T c) : Only T X p := by
  induction p with
  | ret a => trivial
  | exit code => exact hp
  | call c k ih => exact ⟨h c hp.1, fun r => ih r (hp.2 r)⟩

/-- Calls that are right in every state with `I` and keep it. -/
theorem wp {M : Monitor C R μ} {I E : μ → Prop} {p : Prog C R α} (hp : Only S X p)
    (h : ∀ m c, S c → I m → M.ok m c ∧ ∀ r, I (M.next m c r)) (hexit : X → ∀ m, I m → E m) {m : μ}
    (hm : I m) : Wp M (fun _ => I) E p m := by
  induction p generalizing m with
  | ret a => exact hm
  | exit code => exact hexit hp m hm
  | call c k ih =>
    obtain ⟨hok, hnext⟩ := h m c hp.1 hm
    exact ⟨hok, fun r _ => ih r (hp.2 r) (hnext r)⟩

/-- Calls that do not concern the monitor. -/
theorem still {M : Monitor C R μ} {E : μ → Prop} {p : Prog C R α} (hp : Only S X p) {m : μ}
    (h : ∀ c, S c → M.Ignores m c) (hexit : E m) : Wp M (fun _ m' => m' = m) E p m :=
  hp.wp (I := fun m' => m' = m) (fun _ c hc hm => hm ▸ h c hc) (fun _ _ hm => hm ▸ hexit) rfl

end Only

/-! ## Triples -/

/-- Run with `I`, the program returns with `J`, whatever it returns, and exits with `E`. -/
def Triple (M : Monitor C R μ) (E I : μ → Prop) (p : Prog C R α) (J : μ → Prop) : Prop :=
  ∀ m, I m → Wp M (fun _ => J) E p m

namespace Triple
variable {M : Monitor C R μ} {E I J K : μ → Prop}

theorem bind {p : Prog C R α} {f : α → Prog C R β} (hp : Triple M E I p J)
    (hf : ∀ a, Triple M E J (f a) K) : Triple M E I (p >>= f) K :=
  fun m hm => (hp m hm).bind fun a m' hm' => hf a m' hm'

theorem conseq {p : Prog C R α} {I' J' : μ → Prop} (hp : Triple M E I p J) (hi : ∀ m, I' m → I m)
    (hj : ∀ m, J m → J' m) : Triple M E I' p J' :=
  fun m hm => (hp m (hi m hm)).mono (fun _ m' hm' => hj m' hm') fun _ h => h

theorem ite {c : Prop} [Decidable c] {p q : Prog C R α} (hp : c → Triple M E I p J)
    (hq : ¬ c → Triple M E I q J) : Triple M E I (if c then p else q) J :=
  fun m hm => Wp.ite (fun h => hp h m hm) fun h => hq h m hm

theorem forM {l : List β} {f : β → Prog C R PUnit} (hf : ∀ b ∈ l, Triple M E I (f b) I) :
    Triple M E I (l.forM f) I :=
  fun _ hm => Wp.forM hf hm

theorem foldlM {l : List β} {f : α → β → Prog C R α} {a : α}
    (hf : ∀ b ∈ l, ∀ a, Triple M E I (f a b) I) : Triple M E I (l.foldlM f a) I :=
  fun _ hm => Wp.foldlM (I := fun _ => I) hf hm

/-- Calls that are right in every state with `I` and keep it. -/
theorem of_only {S : C → Prop} {X : Prop} {p : Prog C R α} (hp : Only S X p)
    (h : ∀ m c, S c → I m → M.ok m c ∧ ∀ r, I (M.next m c r)) (hexit : X → ∀ m, I m → E m) :
    Triple M E I p I :=
  fun _ hm => hp.wp h hexit hm

end Triple

/-! Programs with a state: what they do from any state, and every call they can make. -/

/-- Run with `I`, the program returns with `J` and exits with `E`. -/
def TripleS (M : Monitor C R μ) (E : μ → Prop) (I : σ → μ → Prop) (x : StateT σ (Prog C R) α)
    (J : α → σ → μ → Prop) : Prop :=
  ∀ s m, I s m → Wp M (fun r m' => J r.1 r.2 m') E (x s) m

namespace TripleS
variable {M : Monitor C R μ} {E : μ → Prop} {I : σ → μ → Prop}

theorem pure {J : α → σ → μ → Prop} {a : α} (h : ∀ s m, I s m → J a s m) :
    TripleS M E I (Pure.pure a : StateT σ (Prog C R) α) J := h

theorem bind {x : StateT σ (Prog C R) α} {f : α → StateT σ (Prog C R) β} {J : α → σ → μ → Prop}
    {K : β → σ → μ → Prop} (hx : TripleS M E I x J) (hf : ∀ a, TripleS M E (J a) (f a) K) :
    TripleS M E I (x >>= f) K :=
  fun s m hm => (hx s m hm).bind fun r m' hm' => hf r.1 r.2 m' hm'

theorem get : TripleS M E I (MonadState.get : StateT σ (Prog C R) σ) (fun s' s m => s' = s ∧ I s m) :=
  fun _ _ hm => ⟨rfl, hm⟩

theorem modify {J : σ → μ → Prop} {f : σ → σ} (h : ∀ s m, I s m → J (f s) m) :
    TripleS M E I (modifyGet fun s => (PUnit.unit, f s) : StateT σ (Prog C R) PUnit) (fun _ => J) := h

theorem lift {p : Prog C R α} {J : α → σ → μ → Prop} (h : ∀ s m, I s m → Wp M (fun a m' => J a s m') E p m) :
    TripleS M E I (liftM p : StateT σ (Prog C R) α) J :=
  fun s m hm => (h s m hm).bind fun _ _ hm' => hm'

theorem ite {c : Prop} [Decidable c] {x y : StateT σ (Prog C R) α} {J : α → σ → μ → Prop}
    (hx : c → TripleS M E I x J) (hy : ¬ c → TripleS M E I y J) : TripleS M E I (if c then x else y) J := by
  by_cases h : c
  · rw [if_pos h]; exact hx h
  · rw [if_neg h]; exact hy h

theorem conseq {x : StateT σ (Prog C R) α} {I' : σ → μ → Prop} {J J' : α → σ → μ → Prop} (hx : TripleS M E I x J)
    (hi : ∀ s m, I' s m → I s m) (hj : ∀ a s m, J a s m → J' a s m) : TripleS M E I' x J' :=
  fun s m hm => (hx s m (hi s m hm)).mono (fun r m' hm' => hj r.1 r.2 m' hm') fun _ h => h

theorem forM {l : List β} {f : β → StateT σ (Prog C R) PUnit} (hf : ∀ b ∈ l, TripleS M E I (f b) fun _ => I) :
    TripleS M E I (l.forM f) fun _ => I := by
  induction l with
  | nil => exact fun _ _ hm => hm
  | cons b l ih =>
    exact (hf b List.mem_cons_self).bind fun _ => ih fun b' hb' => hf b' (List.mem_cons_of_mem b hb')

/-- A loop of which `I` says what was done. -/
theorem forM_done {I : List β → σ → μ → Prop} {f : β → StateT σ (Prog C R) PUnit} (l : List β)
    (hf : ∀ done b rest, l = done ++ b :: rest → TripleS M E (I done) (f b) fun _ => I (done ++ [b])) :
    TripleS M E (I []) (l.forM f) fun _ => I l := by
  have hfrom : ∀ rest done, l = done ++ rest → TripleS M E (I done) (rest.forM f) fun _ => I l := by
    intro rest
    induction rest with
    | nil =>
      intro done h
      rw [List.append_nil] at h
      exact fun _ _ hm => h ▸ hm
    | cons b rest ih =>
      intro done h
      refine (hf done b rest h).bind fun _ => ih (done ++ [b]) ?_
      rw [h, List.append_assoc]
      rfl
  exact hfrom l [] rfl

end TripleS

def OnlyS (S : C → Prop) (X : Prop) (x : StateT σ (Prog C R) α) : Prop := ∀ s, Only S X (x s)

namespace OnlyS
variable {S : C → Prop} {X : Prop}

theorem pure (a : α) : OnlyS S X (Pure.pure a : StateT σ (Prog C R) α) := fun _ => trivial

theorem bind {x : StateT σ (Prog C R) α} {f : α → StateT σ (Prog C R) β} (hx : OnlyS S X x)
    (hf : ∀ a, OnlyS S X (f a)) : OnlyS S X (x >>= f) :=
  fun s => (hx s).bind fun r => hf r.1 r.2

theorem get : OnlyS S X (MonadState.get : StateT σ (Prog C R) σ) := fun _ => trivial

theorem modify {f : σ → σ} :
    OnlyS S X (modifyGet fun s => (PUnit.unit, f s) : StateT σ (Prog C R) PUnit) := fun _ => trivial

theorem lift {p : Prog C R α} (hp : Only S X p) : OnlyS S X (liftM p : StateT σ (Prog C R) α) :=
  fun _ => hp.bind fun _ => trivial

theorem ite {c : Prop} [Decidable c] {x y : StateT σ (Prog C R) α} (hx : OnlyS S X x)
    (hy : OnlyS S X y) : OnlyS S X (if c then x else y) := by
  by_cases h : c
  · rw [if_pos h]; exact hx
  · rw [if_neg h]; exact hy

theorem forM {l : List β} {f : β → StateT σ (Prog C R) PUnit} (hf : ∀ b ∈ l, OnlyS S X (f b)) :
    OnlyS S X (l.forM f) := by
  induction l with
  | nil => exact pure PUnit.unit
  | cons b l ih =>
    exact (hf b List.mem_cons_self).bind fun _ => ih fun b' hb' => hf b' (List.mem_cons_of_mem b hb')

end OnlyS

end CallTree
