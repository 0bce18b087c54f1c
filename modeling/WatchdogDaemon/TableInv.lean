import WatchdogDaemon.CheckBin

/- What holds of the process table in every run, and whom the timeouts kill.

   Nothing is assumed of a run here: `malloc` and `fork` may fail, a pid may be handed
   out again as soon as its child is reaped, names may be too long for their buffer
   and `repair()` may run at any time. Records of finished children then stay in the
   table after their pid is free, and two records may carry one pid. `Inv` says why
   the search by pid is still safe: an open record belongs to a live child, and no
   record in front of it carries its pid.

   What is proved:
     1. `KillsOwn.step` — every SIGKILL of `check_timeouts` goes to a pid that is, at
        that moment, the pid of the child `check_bin` forked for that very record and
        that has not been reaped.
     2. `consumes_only_iff` — consuming a result removes the record it was read from
        and nothing else exactly when no record in front of it carries its pid;
        `consume_drops_running_record` is a run after which one does, and the record
        of another, running test is dropped. -/
namespace Watchdog

/-- The child is the one `check_bin` forked for the record. -/
structure Process.Of (p : Process) (c : Child) : Prop where
  pid : c.pid = p.pid
  id : c.id = p.child
  test : c.test.map (List.take (pathMax - 1)) = some p.procName

theorem Process.Of.test_isSome {p : Process} {c : Child} (h : p.Of c) : c.test.isSome := by
  have := h.test
  cases hc : c.test with
  | none => rw [hc] at this; cases this
  | some n => rfl

theorem Process.Of.of_same {p : Process} {c d : Child} (h : p.Of c) (hcd : c.Same d) : p.Of d :=
  ⟨hcd.pid.trans h.pid, hcd.id.trans h.id, by rw [hcd.test]; exact h.test⟩

/-! ## The invariant -/

/-- `alive`: an open record belongs to a live child that has not been sent SIGKILL.
`order`: no record in front of an open one carries its pid. `children`: no two records
are about one child. `older`: the next child is new to the table. -/
structure Inv (head : List Process) (kernel : Kernel) : Prop where
  alive : ∀ p ∈ head, p.isDone = false → ∃ c ∈ kernel.live, p.Of c ∧ c.killed = false
  order : head.Pairwise fun p q => q.isDone = false → p.pid ≠ q.pid
  children : (head.map Process.child).Nodup
  older : ∀ p ∈ head, p.child < kernel.forks

section Ops
variable {head : List Process} {kernel : Kernel}

theorem Inv.init : Inv [] .init :=
  ⟨fun _ h => absurd h List.not_mem_nil, .nil, .nil, fun _ h => absurd h List.not_mem_nil⟩

/-- Records that go do no harm. -/
theorem Inv.sublist {head' : List Process} (h : Inv head kernel) (hsub : head'.Sublist head) :
    Inv head' kernel :=
  ⟨fun p hp => h.alive p (hsub.subset hp), h.order.sublist hsub, (hsub.map _).nodup h.children,
    fun p hp => h.older p (hsub.subset hp)⟩

theorem Inv.evolves {kernel' : Kernel} (h : Inv head kernel) (hev : kernel.Evolves kernel') :
    Inv head kernel' := by
  refine ⟨?_, h.order, h.children, fun p hp => Nat.lt_of_lt_of_le (h.older p hp) hev.forks⟩
  intro p hp hopen
  obtain ⟨c, hc, hof, hkilled⟩ := h.alive p hp hopen
  obtain ⟨d, hd, hcd⟩ := hev.keeps c hc hof.test_isSome
  exact ⟨d, hd, hof.of_same hcd, hcd.killed.trans hkilled⟩

/-- The open record of a live child is the one of its pid. -/
theorem Inv.own (h : Inv head kernel) {c : Child} (hc : c ∈ kernel.live) {p : Process} (hp : p ∈ head)
    (hopen : p.isDone = false) : p.pid = c.pid ↔ p.child = c.id := by
  obtain ⟨d, hd, hof, -⟩ := h.alive p hp hopen
  constructor
  · intro hpid
    rw [Kernel.eq_of_pid hc hd (hpid.symm.trans hof.pid.symm)]
    exact hof.id.symm
  · intro hid
    rw [Kernel.eq_of_id hc hd (hid.symm.trans hof.id.symm)]
    exact hof.pid.symm

/-- A report closes the record of the reported child. -/
theorem Inv.updateProcess_eq (h : Inv head kernel) {c : Child} (hc : c ∈ kernel.live) (t : Term) :
    updateProcess c.pid t.status head = head.map (Process.reportTo c.id t) :=
  updateProcess_spec t (fun _ hp hopen => h.own hc hp hopen) h.order

theorem reportTo_open {child : Nat} {t : Term} {p : Process}
    (h : (p.reportTo child t).isDone = false) :
    p.isDone = false ∧ p.child ≠ child ∧ p.reportTo child t = p := by
  unfold Process.reportTo at h ⊢
  split at h
  · cases h
  · next hne => exact ⟨h, fun hc => hne ⟨h, hc⟩, if_neg hne⟩

@[simp] theorem reportTo_pid (child : Nat) (t : Term) (p : Process) :
    (p.reportTo child t).pid = p.pid := by
  unfold Process.reportTo; split <;> rfl

@[simp] theorem reportTo_child (child : Nat) (t : Term) (p : Process) :
    (p.reportTo child t).child = p.child := by
  unfold Process.reportTo; split <;> rfl

@[simp] theorem reportTo_procName (child : Nat) (t : Term) (p : Process) :
    (p.reportTo child t).procName = p.procName := by
  unfold Process.reportTo; split <;> rfl

/-- What only closes records keeps the order and the children of the table. -/
theorem Inv.close {f : Process → Process} (h : Inv head kernel)
    (hpid : ∀ p, (f p).pid = p.pid) (hchild : ∀ p, (f p).child = p.child)
    (hopen : ∀ p, (f p).isDone = false → p.isDone = false) {kernel' : Kernel}
    (hforks : kernel'.forks = kernel.forks)
    (halive : ∀ p ∈ head, (f p).isDone = false → ∃ c ∈ kernel'.live, (f p).Of c ∧ c.killed = false) :
    Inv (head.map f) kernel' := by
  refine ⟨?_, ?_, ?_, ?_⟩
  · intro q hq hqo
    obtain ⟨p, hp, rfl⟩ := List.mem_map.mp hq
    exact halive p hp hqo
  · apply List.pairwise_map.mpr
    apply h.order.imp
    intro p q hpq hqo
    rw [hpid, hpid]
    exact hpq (hopen q hqo)
  · have : head.map (Process.child ∘ f) = head.map Process.child :=
      List.map_congr_left fun p _ => hchild p
    rw [List.map_map, this]
    exact h.children
  · intro q hq
    obtain ⟨p, hp, rfl⟩ := List.mem_map.mp hq
    rw [hchild, hforks]
    exact h.older p hp

theorem Inv.report (h : Inv head kernel) {id : Nat} {c : Child} {t : Term}
    (hr : kernel.report id = some (c, t)) :
    Inv (updateProcess c.pid t.status head) (kernel.reap id) := by
  obtain ⟨hc, rfl, -⟩ := Kernel.report_some hr
  rw [h.updateProcess_eq hc]
  have hforks : (kernel.reap c.id).forks = kernel.forks := rfl
  apply h.close (reportTo_pid c.id t) (reportTo_child c.id t) (fun p hp => (reportTo_open hp).1)
    hforks
  intro p hp hpo
  obtain ⟨hopen, hne, heq⟩ := reportTo_open hpo
  obtain ⟨d, hd, hof, hkilled⟩ := h.alive p hp hopen
  rw [heq]
  exact ⟨d, Kernel.mem_reap.mpr ⟨hd, by rw [hof.id]; exact hne⟩, hof, hkilled⟩

/-- Two open records do not share a pid. -/
theorem Inv.pid_inj (h : Inv head kernel) {p q : Process} (hp : p ∈ head) (hq : q ∈ head)
    (hpo : p.isDone = false) (hqo : q.isDone = false) (hpid : p.pid = q.pid) : p = q := by
  obtain ⟨c, hc, hcof, -⟩ := h.alive p hp hpo
  obtain ⟨d, hd, hdof, -⟩ := h.alive q hq hqo
  have hcd : c = d := Kernel.eq_of_pid hc hd (hcof.pid.trans (hpid.trans hdof.pid.symm))
  apply List.inj_on_of_nodup_map h.children hp hq
  rw [← hcof.id, ← hdof.id, hcd]

theorem mem_overdue {timeout now : Int} {p : Process} :
    p ∈ overdue timeout now head ↔ p ∈ head ∧ p.overtime timeout now = true := by
  simp [overdue]

theorem overtime_open {timeout now : Int} {p : Process} (h : p.overtime timeout now = true) :
    p.isDone = false := by
  unfold Process.overtime at h
  cases hd : p.isDone with
  | false => rfl
  | true => rw [hd] at h; cases h

/-- An open record that is in time keeps its child through the kills of the pass. -/
theorem Inv.not_killed (h : Inv head kernel) {timeout now : Int} {p : Process} (hp : p ∈ head)
    (hopen : p.isDone = false) (hover : p.overtime timeout now = false) :
    ∃ c ∈ (kernel.killAll (overdue timeout now head)).live, p.Of c ∧ c.killed = false := by
  obtain ⟨c, hc, hof, hkilled⟩ := h.alive p hp hopen
  have hspared : ((overdue timeout now head).map Process.pid).contains c.pid = false := by
    rw [← Bool.not_eq_true, List.contains_iff_mem]
    intro hmem
    obtain ⟨q, hq, hpid⟩ := List.mem_map.mp hmem
    obtain ⟨hq, hqover⟩ := mem_overdue.mp hq
    have hpq := h.pid_inj hp hq hopen (overtime_open hqover) (hof.pid.symm.trans hpid.symm)
    rw [hpq, hqover] at hover
    cases hover
  refine ⟨_, (Kernel.mem_killAll _ _ _).mpr ⟨c, hc, rfl⟩, hof.of_same ⟨rfl, rfl, rfl, ?_⟩, ?_⟩
  · rw [hspared, Bool.or_false]
  · rw [hspared, Bool.or_false]
    exact hkilled

theorem Inv.expired {s : Sys} (h : Inv s.head s.kernel) (timeout now : Int) :
    Inv (s.expired timeout now).head (s.expired timeout now).kernel := by
  rw [expired_head, expired_kernel]
  apply h.close (expire_pid timeout now) (expire_child timeout now) (fun p hp => (expire_open hp).1)
    (Kernel.killAll_forks _ _)
  intro p hp hpo
  obtain ⟨hopen, hover, heq⟩ := expire_open hpo
  rw [heq]
  exact h.not_killed hp hopen hover

theorem Inv.added (h : Inv head kernel) {pid : Int} {name : CString} {k : Kernel}
    (hfork : kernel.fork pid (some name) = some k) (now : Int) :
    Inv (newProcess name pid now kernel.forks :: head) k := by
  obtain ⟨-, hpid, hlive, hforks⟩ := Kernel.fork_some hfork
  have hmem : ∀ c ∈ kernel.live, c ∈ k.live := fun c hc => by
    rw [hlive]; exact List.mem_cons_of_mem _ hc
  refine ⟨?_, ?_, ?_, ?_⟩
  · intro p hp hopen
    rcases List.mem_cons.mp hp with rfl | hp
    · exact ⟨_, by rw [hlive]; exact List.mem_cons_self, ⟨rfl, rfl, rfl⟩, rfl⟩
    · obtain ⟨c, hc, hof⟩ := h.alive p hp hopen
      exact ⟨c, hmem c hc, hof⟩
  · apply List.pairwise_cons.mpr
    refine ⟨?_, h.order⟩
    intro q hq hqo hpq
    obtain ⟨c, hc, hof, -⟩ := h.alive q hq hqo
    apply hpid
    rw [show pid = c.pid from hpq.trans hof.pid.symm]
    exact List.mem_map_of_mem hc
  · rw [List.map_cons]
    apply List.nodup_cons.mpr
    refine ⟨?_, h.children⟩
    intro hmem'
    obtain ⟨q, hq, hchild⟩ := List.mem_map.mp hmem'
    have : q.child = kernel.forks := hchild
    have := h.older q hq
    omega
  · intro p hp
    rw [hforks]
    rcases List.mem_cons.mp hp with rfl | hp
    · exact Nat.lt_succ_self _
    · exact Nat.lt_succ_of_lt (h.older p hp)

end Ops

theorem Inv.swept {s : Sys} (h : Inv s.head s.kernel) (c : BinCall) :
    Inv (s.swept c).head (s.swept c).kernel := by
  apply swept_inv (I := fun s => Inv s.head s.kernel) _ _ _ c h
  · intro s id t hs
    exact hs.evolves (s.kernel.terminate_evolves id t)
  · intro s id d t hs hd
    exact hs.report hd
  · intro s timeout now hs
    exact hs.expired timeout now

/-- A sweep closes records and leaves their children and names alone. -/
theorem Inv.swept_records {s : Sys} (h : Inv s.head s.kernel) (c : BinCall) :
    ∀ p ∈ (s.swept c).head, ∃ q ∈ s.head, q.child = p.child ∧ q.procName = p.procName := by
  have hboth : Inv (s.swept c).head (s.swept c).kernel ∧
      ∀ p ∈ (s.swept c).head, ∃ q ∈ s.head, q.child = p.child ∧ q.procName = p.procName := by
    apply swept_inv (I := fun t => Inv t.head t.kernel ∧
      ∀ p ∈ t.head, ∃ q ∈ s.head, q.child = p.child ∧ q.procName = p.procName) _ _ _ c
      ⟨h, fun p hp => ⟨p, hp, rfl, rfl⟩⟩
    · intro t id term ht
      exact ⟨ht.1.evolves (t.kernel.terminate_evolves id term), ht.2⟩
    · intro t id d term ht hd
      refine ⟨ht.1.report hd, ?_⟩
      show ∀ p ∈ updateProcess d.pid term.status t.head, _
      rw [ht.1.updateProcess_eq (Kernel.report_some hd).1]
      intro p hp
      obtain ⟨r, hr, rfl⟩ := List.mem_map.mp hp
      rw [reportTo_child, reportTo_procName]
      exact ht.2 r hr
    · intro t timeout now ht
      refine ⟨ht.1.expired timeout now, ?_⟩
      rw [expired_head]
      intro p hp
      obtain ⟨r, hr, rfl⟩ := List.mem_map.mp hp
      rw [expire_child, expire_procName]
      exact ht.2 r hr
  exact hboth.2

theorem Inv.answered {c : BinCall} {name : CString} {s s' : Sys} {code : Int}
    (h : Inv s.head s.kernel) (ha : Answered c name s s' code) : Inv s'.head s'.kernel := by
  cases ha with
  | running => exact h
  | failed look => exact h.sublist look.sublist
  | freed look hfork =>
    exact (h.added hfork 0).sublist (List.nil_sublist _)
  | added look hpid hfork => exact (h.sublist look.sublist).added hfork _

theorem Inv.step {s : Sys} (h : Inv s.head s.kernel) (e : Ev) :
    Inv (step s e).head (step s e).kernel := by
  cases e with
  | ends id t => exact h.evolves (s.kernel.terminate_evolves id t)
  | repair r => exact h.evolves (r.env.repair_evolves r.cfg r.rbinary r.result s.kernel)
  | checkBin c =>
    apply checkBin_inv (I := fun s => Inv s.head s.kernel) (h.swept c)
    intro name s' code _ ha
    have hinv : Inv s'.head s'.kernel := (h.swept c).answered ha
    exact hinv

/-! ## Whom the timeouts kill -/

/-- Every SIGKILL in the trace went to the child of its record, live at that moment. -/
def KillsOwn (obs : List Obs) : Prop :=
  ∀ p k, .sigkill p k ∈ obs → ∃ c ∈ k.live, p.Of c

theorem KillsOwn.cons {obs : List Obs} {o : Obs} (h : KillsOwn obs)
    (ho : ∀ p k, o ≠ .sigkill p k) : KillsOwn (o :: obs) := by
  intro p k hmem
  rcases List.mem_cons.mp hmem with heq | hmem
  · exact absurd heq.symm (ho p k)
  · exact h p k hmem

/-- A pass kills the children of open records only. -/
theorem KillsOwn.expired {s : Sys} (h : KillsOwn s.obs) (hinv : Inv s.head s.kernel)
    (timeout now : Int) : KillsOwn (s.expired timeout now).obs := by
  obtain ⟨kills, hobs, hall, -⟩ := expired_obs s timeout now
  rw [hobs]
  intro p k hmem
  rcases List.mem_append.mp hmem with hkill | hold
  · obtain ⟨q, hq, sent, heq⟩ := hall _ hkill
    cases heq
    obtain ⟨hq, hover⟩ := mem_overdue.mp hq
    obtain ⟨c, hc, hof, -⟩ := hinv.alive p hq (overtime_open hover)
    -- The kills sent before this one marked children; none of them is gone.
    refine ⟨_, (Kernel.mem_killAll sent s.kernel _).mpr ⟨c, hc, rfl⟩, ?_⟩
    exact ⟨hof.pid, hof.id, hof.test⟩
  · exact h p k hold

theorem KillsOwn.swept {s : Sys} (h : KillsOwn s.obs) (hinv : Inv s.head s.kernel) (c : BinCall) :
    KillsOwn (s.swept c).obs := by
  have hboth : Inv (s.swept c).head (s.swept c).kernel ∧ KillsOwn (s.swept c).obs := by
    apply swept_inv (I := fun s => Inv s.head s.kernel ∧ KillsOwn s.obs) _ _ _ c ⟨hinv, h⟩
    · intro s id t hs
      exact ⟨hs.1.evolves (s.kernel.terminate_evolves id t), hs.2⟩
    · intro s id d t hs hd
      exact ⟨hs.1.report hd, hs.2.cons fun _ _ heq => by cases heq⟩
    · intro s timeout now hs
      exact ⟨hs.1.expired timeout now, hs.2.expired hs.1 timeout now⟩
  exact hboth.2

theorem KillsOwn.answered {c : BinCall} {name : CString} {s s' : Sys} {code : Int}
    (h : KillsOwn s.obs) (ha : Answered c name s s' code) : KillsOwn s'.obs := by
  cases ha with
  | running => exact h
  | failed => exact h
  | freed => exact h.cons fun _ _ heq => by cases heq
  | added => exact h.cons fun _ _ heq => by cases heq

theorem KillsOwn.step {s : Sys} (h : KillsOwn s.obs) (hinv : Inv s.head s.kernel) (e : Ev) :
    KillsOwn (step s e).obs := by
  cases e with
  | ends id t => exact h
  | repair r => exact h.cons fun _ _ heq => by cases heq
  | checkBin c =>
    apply checkBin_inv (I := fun s => KillsOwn s.obs) (h.swept hinv c)
    intro name s' code _ ha
    exact ((h.swept hinv c).answered ha).cons fun _ _ heq => by cases heq

/-- A call for `name` with a timeout of 10 s at second `clock`; `fork` hands out `pid`. -/
def callAt (clock : Int) (name : Option CString) (gather : List GatherEv) (pid : Int) : BinCall :=
  ⟨name, 10, gather, clock, some pid, true, clock⟩

/-! ## What consuming a result removes -/

/-- **Found by name, removed by pid.** In every run, when the call finds its test
finished in record `p`, the first of its name, the table it goes on with is the old one
without `p` exactly when no record in front of `p` carries the pid of `p`. -/
theorem consumes_only_iff (es : List Ev) (c : BinCall) (name : CString) (p : Process)
    (pre post : List Process) (hhead : ((after es).swept c).head = pre ++ p :: post)
    (hname : p.procName = name) (hpre : ∀ q ∈ pre, q.procName ≠ name) (hdone : p.isDone = true) :
    (beforeFork (after es) c name).1.head = pre ++ post ↔ ∀ q ∈ pre, q.pid ≠ p.pid := by
  have hcheck : (checkProcesses name (pre ++ p :: post)).1 = .completed := by
    have hfind : (pre ++ p :: post).find? (·.procName = name) = some p := by
      rw [List.find?_append, List.find?_eq_none.mpr (by simpa using hpre)]
      simp [hname]
    simp [checkProcesses, hfind, hdone]
  have hbefore : (beforeFork (after es) c name).1.head =
      (checkProcesses name (pre ++ p :: post)).2.2 := by
    unfold beforeFork
    simp only [hhead]
    split
    · next h => rw [h] at hcheck; cases hcheck
    · next h => rw [h]
  rw [hbefore]
  exact checkProcesses_removes_iff hname hpre hdone

/-- Test `a` ends and is reaped by a call for `b`, whose child gets the pid of `a`. -/
def reusedPid : List Ev :=
  [.checkBin (callAt 0 (some ['a']) [] 5), .ends 0 (.exit 1),
    .checkBin (callAt 1 (some ['b']) [.reports 0] 5)]

/-- The next call for `a` takes the result of `a` and drops the record of `b`, whose
child is running. -/
theorem consume_drops_running_record :
    let a : Process := ⟨['a'], 5, 0, 1, true, 0⟩
    let b : Process := ⟨['b'], 5, 1, 0, false, 1⟩
    ((after reusedPid).swept (callAt 2 (some ['a']) [] 6)).head = [b] ++ a :: [] ∧
      a.procName = ['a'] ∧ (∀ q ∈ [b], q.procName ≠ ['a']) ∧ a.isDone = true ∧
      (beforeFork (after reusedPid) (callAt 2 (some ['a']) [] 6) ['a']).1.head ≠ [b] ++ [] ∧
      b ∉ (checkBin (after reusedPid) (callAt 2 (some ['a']) [] 6)).1.head := by
  decide

/-- With another pid for `b` the record of `b` stays. -/
theorem consumes_only_iff_fresh_pid :
    let es : List Ev := [.checkBin (callAt 0 (some ['a']) [] 5), .ends 0 (.exit 1),
      .checkBin (callAt 1 (some ['b']) [.reports 0] 7)]
    (beforeFork (after es) (callAt 2 (some ['a']) [] 6) ['a']).1.head =
      [⟨['b'], 7, 1, 0, false, 1⟩] ++ [] :=
  (consumes_only_iff _ _ ['a'] ⟨['a'], 5, 0, 1, true, 0⟩ [⟨['b'], 7, 1, 0, false, 1⟩] [] (by decide)
    (by decide) (by decide) (by decide)).mpr (by decide)

end Watchdog
