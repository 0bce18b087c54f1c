import WatchdogDaemon.TableInv

/- The process table against the trace.

   What became of a child is read off the trace: `doneAs` is its exit code, or
   `echkill`, when `waitpid` reported it first, and `etoolong` when `check_timeouts`
   had killed it before that. `Traced` says that the table knows it: in every run,
   whatever fails and whatever pids are reused, a record holds the outcome of its own
   child, and is open while there is none. -/
namespace Watchdog

/-- What the observation says about the end of child `id`. -/
def Obs.closes (id : Nat) : Obs → Option Int
  | .started _ _ => none
  | .reaped i t => if i = id then some t.outcome else none
  | .sigkill p _ => if p.child = id then some etoolong else none
  | .returned _ _ => none
  | .repaired _ => none

/-- The outcome of child `id`: the first thing the trace says about its end. -/
def doneAs (id : Nat) : List Obs → Option Int
  | [] => none
  | o :: pre => doneAs id pre <|> o.closes id

theorem doneAs_cons {id : Nat} {o : Obs} (h : o.closes id = none) (obs : List Obs) :
    doneAs id (o :: obs) = doneAs id obs := by
  rw [doneAs, h]
  cases doneAs id obs <;> rfl

theorem doneAs_cons_some {id : Nat} {code : Int} {obs : List Obs} (h : doneAs id obs = some code)
    (o : Obs) : doneAs id (o :: obs) = some code := by
  rw [doneAs, h]
  rfl

/-- Kills of other children say nothing about this one. -/
theorem doneAs_kills_other {id : Nat} {obs : List Obs} : ∀ {kills : List Obs},
    (∀ o ∈ kills, ∃ p k, o = .sigkill p k ∧ p.child ≠ id) → doneAs id (kills ++ obs) = doneAs id obs
  | [], _ => rfl
  | o :: kills, h => by
    obtain ⟨p, k, rfl, hne⟩ := h o List.mem_cons_self
    have hcl : (Obs.sigkill p k).closes id = none := if_neg hne
    rw [List.cons_append, doneAs_cons hcl]
    exact doneAs_kills_other fun o ho => h o (List.mem_cons_of_mem _ ho)

/-- A child without an outcome that is killed is killed for being late. -/
theorem doneAs_kills_own {id : Nat} {obs : List Obs} (hnone : doneAs id obs = none) :
    ∀ {kills : List Obs}, (∀ o ∈ kills, ∃ p k, o = .sigkill p k) →
      (∃ p k, .sigkill p k ∈ kills ∧ p.child = id) → doneAs id (kills ++ obs) = some etoolong
  | [], _, ⟨_, _, h, _⟩ => absurd h List.not_mem_nil
  | o :: kills, hall, ⟨p, k, hmem, hchild⟩ => by
    rw [List.cons_append, doneAs]
    by_cases hlater : ∃ p k, .sigkill p k ∈ kills ∧ p.child = id
    · rw [doneAs_kills_own hnone (fun o ho => hall o (List.mem_cons_of_mem _ ho)) hlater]
      rfl
    · have hothers : ∀ o ∈ kills, ∃ p k, o = .sigkill p k ∧ p.child ≠ id := by
        intro o ho
        obtain ⟨q, l, rfl⟩ := hall o (List.mem_cons_of_mem _ ho)
        exact ⟨q, l, rfl, fun hq => hlater ⟨q, l, ho, hq⟩⟩
      rw [doneAs_kills_other hothers, hnone]
      rcases List.mem_cons.mp hmem with rfl | hmem
      · exact if_pos hchild
      · exact absurd ⟨p, k, hmem, hchild⟩ hlater

/-! ## The invariant -/

/-- `record`: a record is closed with the outcome of its child, or open. `new`: there is
no outcome of a child to come. `past` and `named`: each child was started once, for one
name. -/
structure Traced (s : Sys) : Prop where
  record : ∀ p ∈ s.head, doneAs p.child s.obs = if p.isDone then some p.ecode else none
  new : ∀ id, s.kernel.forks ≤ id → doneAs id s.obs = none
  past : ∀ id name, .started id name ∈ s.obs → id < s.kernel.forks
  named : ∀ id name name', .started id name ∈ s.obs → .started id name' ∈ s.obs → name = name'

theorem Traced.init : Traced .init :=
  ⟨fun _ h => absurd h List.not_mem_nil, fun _ _ => rfl, fun _ _ h => absurd h List.not_mem_nil,
    fun _ _ _ h => absurd h List.not_mem_nil⟩

theorem Traced.sublist {s : Sys} {head : List Process} (h : Traced s) (hsub : head.Sublist s.head) :
    Traced { s with head } :=
  ⟨fun p hp => h.record p (hsub.subset hp), h.new, h.past, h.named⟩

theorem Traced.evolves {s : Sys} {kernel : Kernel} (h : Traced s) (hev : s.kernel.Evolves kernel) :
    Traced { s with kernel } :=
  ⟨h.record, fun id hid => h.new id (Nat.le_trans hev.forks hid),
    fun id name hmem => Nat.lt_of_lt_of_le (h.past id name hmem) hev.forks, h.named⟩

/-- An observation that is neither a start nor an end. -/
theorem Traced.observe {s : Sys} (h : Traced s) {o : Obs} (hcloses : ∀ id, o.closes id = none)
    (hstart : ∀ id name, o ≠ .started id name) : Traced { s with obs := o :: s.obs } := by
  have hold : ∀ {id name}, .started id name ∈ o :: s.obs → .started id name ∈ s.obs := by
    intro id name hmem
    rcases List.mem_cons.mp hmem with heq | hmem
    · exact absurd heq.symm (hstart id name)
    · exact hmem
  refine ⟨?_, ?_, fun id name hmem => h.past id name (hold hmem),
    fun id name name' h₁ h₂ => h.named id name name' (hold h₁) (hold h₂)⟩
  · intro p hp
    rw [doneAs_cons (hcloses p.child)]
    exact h.record p hp
  · intro id hid
    rw [doneAs_cons (hcloses id)]
    exact h.new id hid

theorem Traced.report {s : Sys} (h : Traced s) (hinv : Inv s.head s.kernel) {id : Nat} {c : Child}
    {t : Term} (hr : s.kernel.report id = some (c, t)) :
    Traced ⟨updateProcess c.pid t.status s.head, s.kernel.reap id, .reaped id t :: s.obs⟩ := by
  obtain ⟨hc, rfl, -⟩ := Kernel.report_some hr
  refine ⟨?_, ?_, ?_, ?_⟩
  · rw [hinv.updateProcess_eq hc]
    intro q hq
    obtain ⟨p, hp, rfl⟩ := List.mem_map.mp hq
    have hrec := h.record p hp
    rw [reportTo_child]
    by_cases hchild : p.child = c.id
    · rw [doneAs, hrec]
      unfold Process.reportTo
      cases hd : p.isDone with
      | true => simp [hd]
      | false => simp [hchild, Obs.closes]
    · have hcl : (Obs.reaped c.id t).closes p.child = none := if_neg fun heq => hchild heq.symm
      have hkeep : p.reportTo c.id t = p := if_neg fun hpc => hchild hpc.2
      rw [doneAs_cons hcl, hkeep]
      exact hrec
  · intro id hid
    have hlt := s.kernel.idsLt c hc
    have hid' : s.kernel.forks ≤ id := hid
    have hcl : (Obs.reaped c.id t).closes id = none := if_neg (by omega)
    rw [doneAs_cons hcl]
    exact h.new id hid
  · intro id name hmem
    rcases List.mem_cons.mp hmem with heq | hmem
    · cases heq
    · exact h.past id name hmem
  · intro id name name' h₁ h₂
    rcases List.mem_cons.mp h₁ with heq | h₁
    · cases heq
    · rcases List.mem_cons.mp h₂ with heq | h₂
      · cases heq
      · exact h.named id name name' h₁ h₂

/-! What a timeout pass adds to the trace: kills of overdue records, one each. -/

/-- The pass says nothing about a child whose record it does not kill. -/
theorem doneAs_expired_other {s : Sys} {timeout now : Int} {id : Nat}
    (h : ∀ p ∈ overdue timeout now s.head, p.child ≠ id) :
    doneAs id (s.expired timeout now).obs = doneAs id s.obs := by
  obtain ⟨kills, hobs, hall, -⟩ := expired_obs s timeout now
  rw [hobs]
  apply doneAs_kills_other
  intro o ho
  obtain ⟨p, hp, sent, rfl⟩ := hall o ho
  exact ⟨p, _, rfl, h p hp⟩

/-- The child of an overdue record has been too long. -/
theorem doneAs_expired_overdue {s : Sys} {timeout now : Int} {p : Process}
    (hp : p ∈ overdue timeout now s.head) (hnone : doneAs p.child s.obs = none) :
    doneAs p.child (s.expired timeout now).obs = some etoolong := by
  obtain ⟨kills, hobs, hall, hevery⟩ := expired_obs s timeout now
  obtain ⟨k, hk⟩ := hevery p hp
  rw [hobs]
  apply doneAs_kills_own hnone
  · intro o ho
    obtain ⟨q, -, sent, rfl⟩ := hall o ho
    exact ⟨q, _, rfl⟩
  · exact ⟨p, k, hk, rfl⟩

theorem started_expired {s : Sys} {timeout now : Int} {id : Nat} {name : CString}
    (h : .started id name ∈ (s.expired timeout now).obs) : .started id name ∈ s.obs := by
  obtain ⟨kills, hobs, hall, -⟩ := expired_obs s timeout now
  rw [hobs] at h
  rcases List.mem_append.mp h with hmem | hmem
  · obtain ⟨p, -, sent, heq⟩ := hall _ hmem
    cases heq
  · exact hmem

theorem Traced.expired {s : Sys} (h : Traced s) (hinv : Inv s.head s.kernel) (timeout now : Int) :
    Traced (s.expired timeout now) := by
  have hforks : (s.expired timeout now).kernel.forks = s.kernel.forks := by
    rw [expired_kernel, Kernel.killAll_forks]
  refine ⟨?_, ?_, ?_, ?_⟩
  · rw [expired_head]
    intro q hq
    obtain ⟨p, hp, rfl⟩ := List.mem_map.mp hq
    have hrec := h.record p hp
    rw [expire_child]
    unfold Process.expire
    by_cases hover : p.overtime timeout now = true
    · rw [if_pos hover]
      rw [overtime_open hover] at hrec
      exact doneAs_expired_overdue (mem_overdue.mpr ⟨hp, hover⟩) hrec
    · rw [if_neg hover, doneAs_expired_other]
      · exact hrec
      · -- No two records share a child.
        intro q hq hchild
        obtain ⟨hq, hqover⟩ := mem_overdue.mp hq
        rw [List.inj_on_of_nodup_map hinv.children hq hp hchild] at hqover
        exact hover hqover
  · intro id hid
    rw [hforks] at hid
    rw [doneAs_expired_other]
    · exact h.new id hid
    · intro p hp hchild
      have := hinv.older p (mem_overdue.mp hp).1
      omega
  · rw [hforks]
    intro id name hmem
    exact h.past id name (started_expired hmem)
  · intro id name name' h₁ h₂
    exact h.named id name name' (started_expired h₁) (started_expired h₂)

/-- A new child has a number of its own and no outcome. -/
theorem Traced.started {s : Sys} (h : Traced s) {name : CString} {pid : Int} {k : Kernel}
    (hfork : s.kernel.fork pid (some name) = some k) :
    Traced ⟨s.head, k, .started s.kernel.forks name :: s.obs⟩ := by
  obtain ⟨-, -, -, hforks⟩ := Kernel.fork_some hfork
  refine ⟨?_, ?_, ?_, ?_⟩
  · intro p hp
    rw [doneAs_cons rfl]
    exact h.record p hp
  · intro id hid
    have hid' : k.forks ≤ id := hid
    rw [doneAs_cons rfl]
    exact h.new id (by omega)
  · show ∀ id n, .started id n ∈ _ :: s.obs → id < k.forks
    intro id n hmem
    rcases List.mem_cons.mp hmem with heq | hmem
    · cases heq
      omega
    · have := h.past id n hmem
      omega
  · intro id n n' h₁ h₂
    rcases List.mem_cons.mp h₁ with heq | h₁ <;> rcases List.mem_cons.mp h₂ with heq' | h₂
    · cases heq; cases heq'; rfl
    · cases heq
      exact absurd (h.past _ _ h₂) (Nat.lt_irrefl _)
    · cases heq'
      exact absurd (h.past _ _ h₁) (Nat.lt_irrefl _)
    · exact h.named id n n' h₁ h₂

theorem Traced.added {s : Sys} (h : Traced s) {name : CString} {pid : Int} {k : Kernel}
    (hfork : s.kernel.fork pid (some name) = some k) (now : Int) :
    Traced ⟨newProcess name pid now s.kernel.forks :: s.head, k,
      .started s.kernel.forks name :: s.obs⟩ := by
  have hs := h.started hfork
  refine ⟨?_, hs.new, hs.past, hs.named⟩
  intro p hp
  rcases List.mem_cons.mp hp with rfl | hp
  · show doneAs s.kernel.forks (_ :: s.obs) = none
    rw [doneAs_cons rfl]
    exact h.new _ (Nat.le_refl _)
  · exact hs.record p hp

theorem Traced.swept {s : Sys} (h : Traced s) (hinv : Inv s.head s.kernel) (c : BinCall) :
    Traced (s.swept c) := by
  have hboth : Inv (s.swept c).head (s.swept c).kernel ∧ Traced (s.swept c) := by
    apply swept_inv (I := fun s => Inv s.head s.kernel ∧ Traced s) _ _ _ c ⟨hinv, h⟩
    · intro s id t hs
      exact ⟨hs.1.evolves (s.kernel.terminate_evolves id t),
        hs.2.evolves (s.kernel.terminate_evolves id t)⟩
    · intro s id d t hs hd
      exact ⟨hs.1.report hd, hs.2.report hs.1 hd⟩
    · intro s timeout now hs
      exact ⟨hs.1.expired timeout now, hs.2.expired hs.1 timeout now⟩
  exact hboth.2

theorem Traced.answered {c : BinCall} {name : CString} {s s' : Sys} {code : Int} (h : Traced s)
    (ha : Answered c name s s' code) : Traced s' := by
  cases ha with
  | running => exact h
  | failed look => exact h.sublist look.sublist
  | freed look hfork => exact (h.sublist (List.nil_sublist _)).started hfork
  | added look hpid hfork => exact (h.sublist look.sublist).added hfork _

end Watchdog
