import WatchdogDaemon.OneChild
import WatchdogDaemon.Trace

/- Results are delivered exactly once and to the right test.

   The specification speaks of the trace only. A child's outcome is for the first call
   for its name that finds it done, by its own gather and timeout steps or by an
   earlier call's; `Delivers` says that a call at this point of the trace is that call.
   A run promises what `OneChild` assumes, and that `fork` succeeds.

   What is proved: `delivered_exactly_once` — in every run, every `check_bin` call for a
   name returns the outcome of the one child it delivers, or `edontknow` when it
   delivers none, and no child is delivered twice. -/
namespace Watchdog

/-! ## The specification -/

/-- An earlier call for `name` found child `id` done. -/
def Delivered (id : Nat) (name : CString) (obs : List Obs) : Prop :=
  ∃ later code pre, obs = later ++ .returned name code :: pre ∧ .started id name ∈ pre ∧
    (doneAs id pre).isSome

/-- A call for `name` that returns after `pre` is the first to find child `id` done. -/
structure Delivers (pre : List Obs) (name : CString) (id : Nat) : Prop where
  started : .started id name ∈ pre
  done : (doneAs id pre).isSome
  first : ¬ Delivered id name pre

/-- The call returns the outcome of the one child it delivers, or that it does not
know. -/
def Returns (pre : List Obs) (name : CString) (code : Int) : Prop :=
  (∃ id, Delivers pre name id ∧ doneAs id pre = some code ∧ ∀ id', Delivers pre name id' → id' = id) ∨
    ((∀ id, ¬ Delivers pre name id) ∧ code = edontknow)

/-- What a run promises about a call for `name`: a fresh pid, memory, and a `fork` that
succeeds. -/
structure Starts (s : Sys) (c : BinCall) (name : CString) : Prop extends Fresh s c name where
  forks : (checkProcesses name (s.swept c).head).1 ≠ .running →
    ∃ pid, c.fork = some pid ∧ ((s.swept c).kernel.fork pid (some name)).isSome

def StartPromise (s : Sys) : Ev → Prop
  | .ends _ _ => True
  | .checkBin c => ∀ name, c.tbinary = some name → Starts s c name
  | .repair _ => True

/-! ## Extending the trace -/

theorem delivered_cons {id : Nat} {name : CString} {o : Obs} {obs : List Obs} :
    Delivered id name (o :: obs) ↔ Delivered id name obs ∨
      ((∃ code, o = .returned name code) ∧ .started id name ∈ obs ∧ (doneAs id obs).isSome) := by
  constructor
  · intro hcase
    obtain ⟨later, code, pre, heq, hstart, hdone⟩ := hcase
    cases later with
    | nil =>
      cases heq
      exact Or.inr ⟨⟨code, rfl⟩, hstart, hdone⟩
    | cons o' later =>
      cases heq
      exact Or.inl ⟨later, code, pre, rfl, hstart, hdone⟩
  · intro hcase
    obtain ⟨later, code, pre, rfl, hstart, hdone⟩ | ⟨⟨code, rfl⟩, hstart, hdone⟩ := hcase
    · exact ⟨o :: later, code, pre, rfl, hstart, hdone⟩
    · exact ⟨[], code, obs, rfl, hstart, hdone⟩

/-- Only a return delivers. -/
theorem delivered_append {id : Nat} {name : CString} {obs : List Obs} : ∀ {more : List Obs},
    (∀ o ∈ more, ∀ name code, o ≠ .returned name code) →
      (Delivered id name (more ++ obs) ↔ Delivered id name obs)
  | [], _ => Iff.rfl
  | o :: more, h => by
    rw [List.cons_append, delivered_cons, delivered_append fun o ho => h o (List.mem_cons_of_mem _ ho)]
    constructor
    · intro hcase
      obtain hd | ⟨⟨code, rfl⟩, -⟩ := hcase
      · exact hd
      · exact absurd rfl (h _ List.mem_cons_self name code)
    · exact Or.inl

/-- A return in the extended trace is one of the old trace. -/
theorem returned_append {name : CString} {code : Int} {obs pre : List Obs} : ∀ {more later : List Obs},
    (∀ o ∈ more, ∀ name code, o ≠ .returned name code) →
      more ++ obs = later ++ .returned name code :: pre →
        ∃ later', obs = later' ++ .returned name code :: pre
  | [], later, _, heq => ⟨later, heq⟩
  | o :: more, [], h, heq => by
    obtain ⟨rfl, -⟩ := List.cons_eq_cons.mp heq
    exact absurd rfl (h _ List.mem_cons_self name code)
  | o :: more, _ :: later, h, heq =>
    returned_append (fun o ho => h o (List.mem_cons_of_mem _ ho)) (List.cons_eq_cons.mp heq).2

/-! ## The invariant -/

/-- `waiting`: the outcome of a record has not been delivered. `kept`: a child whose
outcome has not been delivered has a record. `exact`: the calls made returned what they
should. -/
structure Pending (head : List Process) (obs : List Obs) : Prop where
  started : ∀ p ∈ head, .started p.child p.procName ∈ obs
  waiting : ∀ p ∈ head, ¬ Delivered p.child p.procName obs
  kept : ∀ id name, .started id name ∈ obs → ¬ Delivered id name obs →
    ∃ p ∈ head, p.child = id ∧ p.procName = name
  exact : ∀ later name code pre, obs = later ++ .returned name code :: pre → Returns pre name code

theorem Pending.init : Pending [] [] := by
  refine ⟨fun _ h => absurd h List.not_mem_nil, fun _ h => absurd h List.not_mem_nil,
    fun _ _ h => absurd h List.not_mem_nil, ?_⟩
  intro later name code pre heq
  cases later <;> cases heq

/-- Closing records and observing ends of children delivers nothing. -/
theorem Pending.close {head : List Process} {obs : List Obs} (h : Pending head obs)
    {f : Process → Process} (hname : ∀ p, (f p).procName = p.procName)
    (hchild : ∀ p, (f p).child = p.child) {more : List Obs}
    (hret : ∀ o ∈ more, ∀ name code, o ≠ .returned name code)
    (hstart : ∀ o ∈ more, ∀ id name, o ≠ .started id name) : Pending (head.map f) (more ++ obs) := by
  refine ⟨?_, ?_, ?_, ?_⟩
  · intro q hq
    obtain ⟨p, hp, rfl⟩ := List.mem_map.mp hq
    rw [hname, hchild]
    exact List.mem_append_right more (h.started p hp)
  · intro q hq
    obtain ⟨p, hp, rfl⟩ := List.mem_map.mp hq
    rw [hname, hchild, delivered_append hret]
    exact h.waiting p hp
  · intro id name hmem hnot
    rw [delivered_append hret] at hnot
    rcases List.mem_append.mp hmem with hmem | hmem
    · exact absurd rfl (hstart _ hmem id name)
    · obtain ⟨p, hp, hpc, hpn⟩ := h.kept id name hmem hnot
      exact ⟨f p, List.mem_map_of_mem hp, (hchild p).trans hpc, (hname p).trans hpn⟩
  · intro later name code pre heq
    obtain ⟨later', hold⟩ := returned_append hret heq
    exact h.exact later' name code pre hold

/-- A new child has a record, and no outcome yet. -/
theorem Pending.start {head : List Process} {obs : List Obs} (h : Pending head obs) {p : Process}
    (hnew : ∀ name, .started p.child name ∉ obs) :
    Pending (p :: head) (.started p.child p.procName :: obs) := by
  have hdel : ∀ {id name}, Delivered id name (.started p.child p.procName :: obs) ↔
      Delivered id name obs := by
    intro id name
    rw [delivered_cons]
    constructor
    · intro hcase
      obtain hd | ⟨⟨code, heq⟩, -⟩ := hcase
      · exact hd
      · cases heq
    · exact Or.inl
  refine ⟨?_, ?_, ?_, ?_⟩
  · intro q hq
    rcases List.mem_cons.mp hq with rfl | hq
    · exact List.mem_cons_self
    · exact List.mem_cons_of_mem _ (h.started q hq)
  · intro q hq
    rw [hdel]
    rcases List.mem_cons.mp hq with rfl | hq
    · intro hcase
      obtain ⟨later, code, pre, rfl, hstart, -⟩ := hcase
      exact hnew _ (List.mem_append_right later (List.mem_cons_of_mem _ hstart))
    · exact h.waiting q hq
  · intro id name hmem hnot
    rw [hdel] at hnot
    rcases List.mem_cons.mp hmem with heq | hmem
    · cases heq
      exact ⟨p, List.mem_cons_self, rfl, rfl⟩
    · obtain ⟨q, hq, hqc⟩ := h.kept id name hmem hnot
      exact ⟨q, List.mem_cons_of_mem p hq, hqc⟩
  · intro later name code pre heq
    cases later with
    | nil => cases heq
    | cons o later => exact h.exact later name code pre (List.cons_eq_cons.mp heq).2

/-- A return takes the finished records of its name off the table, and no others. -/
theorem Pending.returned {head head' : List Process} {obs : List Obs} (h : Pending head obs)
    {name : CString} {code : Int} (hret : Returns obs name code) (hsub : head' ⊆ head)
    (hgone : ∀ p ∈ head, p ∈ head' ↔ ¬ (p.procName = name ∧ (doneAs p.child obs).isSome)) :
    Pending head' (.returned name code :: obs) := by
  refine ⟨?_, ?_, ?_, ?_⟩
  · intro p hp
    exact List.mem_cons_of_mem _ (h.started p (hsub hp))
  · intro p hp hdel
    rcases delivered_cons.mp hdel with hdel | ⟨⟨code', heq⟩, -, hdone⟩
    · exact h.waiting p (hsub hp) hdel
    · obtain ⟨hn, -⟩ := Obs.returned.inj heq
      exact (hgone p (hsub hp)).mp hp ⟨hn.symm, hdone⟩
  · intro id n hmem hnot
    rw [delivered_cons, not_or] at hnot
    rcases List.mem_cons.mp hmem with heq | hmem
    · cases heq
    · obtain ⟨p, hp, rfl, rfl⟩ := h.kept id n hmem hnot.1
      refine ⟨p, (hgone p hp).mpr ?_, rfl, rfl⟩
      intro hcase
      obtain ⟨rfl, hdone⟩ := hcase
      exact hnot.2 ⟨⟨code, rfl⟩, h.started p hp, hdone⟩
  · intro later n code' pre heq
    cases later with
    | nil =>
      cases heq
      exact hret
    | cons o later =>
      exact h.exact later n code' pre (List.cons_eq_cons.mp heq).2

/-! ## A call -/

/-- The table, the kernel and the trace agree. -/
structure Book (s : Sys) : Prop where
  tracked : Tracked s
  traced : Traced s
  pending : Pending s.head s.obs

section Call
variable {s : Sys} {name : CString}

theorem Book.doneAs_isSome (h : Book s) {p : Process} (hp : p ∈ s.head) :
    (doneAs p.child s.obs).isSome = p.isDone := by
  rw [h.traced.record p hp]
  cases p.isDone <;> rfl

/-- What a call could deliver is a closed record of its name. -/
theorem Book.delivers_iff (h : Book s) (id : Nat) :
    Delivers s.obs name id ↔ ∃ p ∈ s.head, p.child = id ∧ p.procName = name ∧ p.isDone = true := by
  constructor
  · intro hd
    obtain ⟨p, hp, rfl, hn⟩ := h.pending.kept id name hd.started hd.first
    refine ⟨p, hp, rfl, hn, ?_⟩
    rw [← h.doneAs_isSome hp]
    exact hd.done
  · intro hcase
    obtain ⟨p, hp, rfl, rfl, hdone⟩ := hcase
    refine ⟨h.pending.started p hp, ?_, h.pending.waiting p hp⟩
    rw [h.doneAs_isSome hp]
    exact hdone

/-- A call that finds no closed record of its name does not know. -/
theorem Book.returns_unknown (h : Book s)
    (hnone : ∀ p ∈ s.head, p.procName = name → p.isDone = false) : Returns s.obs name edontknow := by
  refine Or.inr ⟨?_, rfl⟩
  intro id hd
  obtain ⟨p, hp, -, hn, hdone⟩ := (h.delivers_iff id).mp hd
  rw [hnone p hp hn] at hdone
  cases hdone

/-- A call that finds a closed record of its name returns the outcome of its child. -/
theorem Book.returns_outcome (h : Book s) {p : Process} (hp : p ∈ s.head) (hdone : p.isDone = true) :
    Returns s.obs p.procName p.ecode := by
  refine Or.inl ⟨p.child, (h.delivers_iff p.child).mpr ⟨p, hp, rfl, rfl, hdone⟩, ?_, ?_⟩
  · rw [h.traced.record p hp, hdone]
    rfl
  · intro id hd
    obtain ⟨q, hq, rfl, hn, -⟩ := (h.delivers_iff id).mp hd
    rw [List.inj_on_of_nodup_map h.tracked.names hq hp hn]

/-- The child a call has just started is nothing it could deliver. -/
theorem Book.returns_start (h : Book s) {code : Int} (hret : Returns s.obs name code) :
    Returns (.started s.kernel.forks name :: s.obs) name code := by
  have hnew : doneAs s.kernel.forks s.obs = none := h.traced.new _ (Nat.le_refl _)
  have hdone : ∀ id, doneAs id (.started s.kernel.forks name :: s.obs) = doneAs id s.obs :=
    fun id => doneAs_cons rfl s.obs
  have hdel : ∀ id, Delivers (.started s.kernel.forks name :: s.obs) name id ↔
      Delivers s.obs name id := by
    intro id
    constructor
    · intro hcase
      obtain ⟨hstart, hd, hfirst⟩ := hcase
      rw [hdone] at hd
      refine ⟨?_, hd, fun h => hfirst (delivered_cons.mpr (Or.inl h))⟩
      rcases List.mem_cons.mp hstart with heq | hstart
      · cases heq
        rw [hnew] at hd
        cases hd
      · exact hstart
    · intro hcase
      obtain ⟨hstart, hd, hfirst⟩ := hcase
      refine ⟨List.mem_cons_of_mem _ hstart, by rw [hdone]; exact hd, ?_⟩
      intro h
      rcases delivered_cons.mp h with h | ⟨⟨code, heq⟩, -⟩
      · exact hfirst h
      · cases heq
  unfold Returns
  simp only [hdel, hdone]
  exact hret

theorem Book.returns_looked (h : Book s) {head : List Process} {ecode : Int}
    (look : Looked name s.head head ecode) : Returns s.obs name ecode := by
  cases look with
  | blank hnone => exact h.returns_unknown fun p hp hn => absurd hn (hnone p hp)
  | completed p hp hname hdone =>
    rw [← hname]
    exact h.returns_outcome hp hdone

/-- The look-up takes the closed record of the name, and no other. -/
theorem Book.looked_mem (h : Book s) {head : List Process} {ecode : Int}
    (look : Looked name s.head head ecode) {p : Process} (hp : p ∈ s.head) :
    p ∈ head ↔ ¬ (p.procName = name ∧ (doneAs p.child s.obs).isSome) := by
  rw [h.doneAs_isSome hp]
  cases look with
  | blank hnone => exact ⟨fun _ hpn => hnone p hp hpn.1, fun _ => hp⟩
  | completed q hq hname hdone =>
    rw [h.tracked.removed hq]
    constructor
    · rintro ⟨-, hne⟩ ⟨hpn, -⟩
      exact hne (List.inj_on_of_nodup_map h.tracked.names hp hq (hpn.trans hname.symm))
    · intro hnot
      refine ⟨hp, ?_⟩
      intro hcase
      obtain rfl := hcase
      exact hnot ⟨hname, hdone⟩

theorem Book.pending_added (h : Book s) {head : List Process} {ecode pid : Int} (now : Int)
    (look : Looked name s.head head ecode) (hshort : name.length < pathMax) :
    Pending (newProcess name pid now s.kernel.forks :: head)
      (.returned name ecode :: .started s.kernel.forks name :: s.obs) := by
  let new := newProcess name pid now s.kernel.forks
  have hname : new.procName = name := take_short hshort
  have hnew : doneAs s.kernel.forks (.started s.kernel.forks name :: s.obs) = none := by
    rw [doneAs_cons rfl]
    exact h.traced.new _ (Nat.le_refl _)
  have hstart : Pending (new :: s.head) (.started s.kernel.forks name :: s.obs) := by
    have hs := h.pending.start (p := new) fun n hmem =>
      Nat.lt_irrefl _ (h.traced.past s.kernel.forks n hmem)
    rw [hname] at hs
    exact hs
  apply hstart.returned (h.returns_start (h.returns_looked look))
  · intro p hp
    rcases List.mem_cons.mp hp with rfl | hp
    · exact List.mem_cons_self
    · exact List.mem_cons_of_mem _ (look.sublist.subset hp)
  · intro p hp
    rcases List.mem_cons.mp hp with rfl | hp
    · refine ⟨fun _ hpn => ?_, fun _ => List.mem_cons_self⟩
      have hsome : (doneAs s.kernel.forks (.started s.kernel.forks name :: s.obs)).isSome := hpn.2
      rw [hnew] at hsome
      cases hsome
    · have hne : p ≠ new := by
        intro heq
        have hlt := h.tracked.inv.older p hp
        rw [heq] at hlt
        exact Nat.lt_irrefl _ hlt
      rw [List.mem_cons, doneAs_cons rfl, ← h.looked_mem look hp]
      exact or_iff_right hne

end Call

theorem Book.answered {s s' : Sys} {c : BinCall} {name : CString} {code : Int}
    (h : Book (s.swept c)) (hstarts : Starts s c name) (ha : Answered c name (s.swept c) s' code) :
    Book { s' with obs := .returned name code :: s'.obs } := by
  refine ⟨(h.tracked.answered hstarts.toFresh ha).evolves (.refl _) _,
    (h.traced.answered ha).observe (fun _ => rfl) (fun _ _ heq => by cases heq), ?_⟩
  cases ha with
  | running p hp hname hopen =>
    have hnone : ∀ q ∈ (s.swept c).head, q.procName = name → q.isDone = false := by
      intro q hq hqn
      rw [List.inj_on_of_nodup_map h.tracked.names hq hp (hqn.trans hname.symm)]
      exact hopen
    apply h.pending.returned (h.returns_unknown hnone) (List.Subset.refl _)
    intro q hq
    refine ⟨fun _ hqn => ?_, fun _ => hq⟩
    have hdone := hqn.2
    rw [h.doneAs_isSome hq, hnone q hq hqn.1] at hdone
    cases hdone
  | failed look hfail =>
    -- `fork` succeeds in these runs.
    obtain ⟨pid, hpid, hsome⟩ := hstarts.forks look.not_running
    rw [hfail pid hpid] at hsome
    cases hsome
  | freed look _ hmalloc => rw [hstarts.malloc] at hmalloc; cases hmalloc
  | added look => exact h.pending_added _ look hstarts.short

theorem Book.swept {s : Sys} (h : Book s) (c : BinCall) : Book (s.swept c) := by
  apply swept_inv _ _ _ c h
  · intro s id t hs
    exact ⟨hs.tracked.evolves (s.kernel.terminate_evolves id t) s.obs,
      hs.traced.evolves (s.kernel.terminate_evolves id t), hs.pending⟩
  · intro s id d t hs hd
    refine ⟨hs.tracked.report hd, hs.traced.report hs.tracked.inv hd, ?_⟩
    obtain ⟨hc, rfl, -⟩ := Kernel.report_some hd
    show Pending (updateProcess d.pid t.status s.head) ([.reaped d.id t] ++ s.obs)
    rw [hs.tracked.inv.updateProcess_eq hc]
    apply hs.pending.close (reportTo_procName d.id t) (reportTo_child d.id t)
    · intro o ho _ _ heq
      rw [List.mem_singleton.mp ho] at heq
      cases heq
    · intro o ho _ _ heq
      rw [List.mem_singleton.mp ho] at heq
      cases heq
  · intro s timeout now hs
    refine ⟨hs.tracked.expired timeout now, hs.traced.expired hs.tracked.inv timeout now, ?_⟩
    obtain ⟨kills, hobs, hall, -⟩ := expired_obs s timeout now
    rw [expired_head, hobs]
    apply hs.pending.close (expire_procName timeout now) (expire_child timeout now)
    · intro o ho name code heq
      obtain ⟨p, -, sent, rfl⟩ := hall o ho
      cases heq
    · intro o ho id name heq
      obtain ⟨p, -, sent, rfl⟩ := hall o ho
      cases heq

/-! ## Whole runs -/

theorem Book.step {s : Sys} (h : Book s) {e : Ev} (hok : StartPromise s e) : Book (step s e) := by
  cases e with
  | ends id t =>
    exact ⟨h.tracked.evolves (s.kernel.terminate_evolves id t) s.obs,
      h.traced.evolves (s.kernel.terminate_evolves id t), h.pending⟩
  | repair r =>
    have hev := r.env.repair_evolves r.cfg r.rbinary r.result s.kernel
    refine ⟨h.tracked.evolves hev _,
      (h.traced.evolves hev).observe (fun _ => rfl) (fun _ _ heq => by cases heq), ?_⟩
    have hclose := h.pending.close (f := id) (fun _ => rfl) (fun _ => rfl)
      (fun o (ho : o ∈ [.repaired (repair r.env.sys r.cfg r.rbinary r.result s.kernel).1]) _ _ heq => by
        rw [List.mem_singleton.mp ho] at heq; cases heq)
      (fun o ho _ _ heq => by rw [List.mem_singleton.mp ho] at heq; cases heq)
    rw [List.map_id] at hclose
    exact hclose
  | checkBin c =>
    apply checkBin_inv (h.swept c)
    intro name s' code hn ha
    exact (h.swept c).answered (hok name hn) ha

theorem after_book {es : List Ev} (h : Runs.Allowed step StartPromise .init es) : Book (after es) :=
  Runs.run_inv (fun _ _ hs hok => hs.step hok) ⟨Tracked.init, Traced.init, Pending.init⟩ h

/-- Of two returns in a trace one comes first. -/
theorem returned_order {name₁ name₂ : CString} {code₁ code₂ : Int} {pre₁ pre₂ : List Obs} :
    ∀ {later₁ later₂ : List Obs},
      later₁ ++ .returned name₁ code₁ :: pre₁ = later₂ ++ .returned name₂ code₂ :: pre₂ →
      pre₁ = pre₂ ∨ (∃ l, pre₁ = l ++ .returned name₂ code₂ :: pre₂) ∨
        ∃ l, pre₂ = l ++ .returned name₁ code₁ :: pre₁
  | [], [], heq => Or.inl (List.cons_eq_cons.mp heq).2
  | [], _ :: later₂, heq => Or.inr (Or.inl ⟨later₂, (List.cons_eq_cons.mp heq).2⟩)
  | _ :: later₁, [], heq => Or.inr (Or.inr ⟨later₁, (List.cons_eq_cons.mp heq).2.symm⟩)
  | _ :: _, _ :: _, heq => returned_order (List.cons_eq_cons.mp heq).2

/-- **Delivered exactly once, to the right test.** In every run whose calls get fresh
pids and memory, every `check_bin` call for a name returns the outcome of the one child
it is the first to find done, or `edontknow` when there is none; and no child is
delivered by two calls. -/
theorem delivered_exactly_once (es : List Ev) (h : Runs.Allowed step StartPromise .init es) :
    (∀ later name code pre, (after es).obs = later ++ .returned name code :: pre →
      Returns pre name code) ∧
    ∀ later₁ later₂ name₁ name₂ code₁ code₂ pre₁ pre₂ id,
      (after es).obs = later₁ ++ .returned name₁ code₁ :: pre₁ →
      (after es).obs = later₂ ++ .returned name₂ code₂ :: pre₂ →
      Delivers pre₁ name₁ id → Delivers pre₂ name₂ id → pre₁ = pre₂ := by
  have hbook := after_book h
  refine ⟨hbook.pending.exact, ?_⟩
  intro later₁ later₂ name₁ name₂ code₁ code₂ pre₁ pre₂ id h₁ h₂ hd₁ hd₂
  have hmem₁ : .started id name₁ ∈ (after es).obs := by
    rw [h₁]; exact List.mem_append_right _ (List.mem_cons_of_mem _ hd₁.started)
  have hmem₂ : .started id name₂ ∈ (after es).obs := by
    rw [h₂]; exact List.mem_append_right _ (List.mem_cons_of_mem _ hd₂.started)
  obtain rfl := hbook.traced.named id name₁ name₂ hmem₁ hmem₂
  obtain heq | ⟨l, hl⟩ | ⟨l, hl⟩ := returned_order (h₁.symm.trans h₂)
  · exact heq
  · exact absurd ⟨l, code₂, pre₂, hl, hd₂.started, hd₂.done⟩ hd₁.first
  · exact absurd ⟨l, code₁, pre₁, hl, hd₁.started, hd₁.done⟩ hd₂.first

theorem slowTest_starts : Runs.Allowed step StartPromise .init slowTest := by
  refine ⟨?_, ?_, ?_, trivial⟩
  all_goals
    intro name h
    cases h
    refine ⟨⟨by decide, rfl, ?_⟩, fun _ => ⟨_, rfl, by decide⟩⟩
    intro pid h _
    cases h
    decide

/-- The second call for `a` returns that the first child of `a` took too long, as the
call for `b` in between found. -/
theorem delivered_exactly_once_slow :
    Returns (after slowTest).obs.tail ['a'] etoolong :=
  (delivered_exactly_once slowTest slowTest_starts).1 [] ['a'] etoolong _ rfl

end Watchdog
