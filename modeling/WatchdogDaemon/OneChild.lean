import WatchdogDaemon.TableInv

/- One record and one child a test.

   Here a run keeps three promises: names fit their buffer, `malloc` gives the node of
   a new record, and `fork` hands `check_bin` a pid that is not in the table. `fork` may
   still fail. Uniqueness is nowhere checked by the code; it follows from the order of
   the steps in `check_bin`: a test is started only after its record was not found or
   was removed, and it is removed only when its child was reaped or sent SIGKILL.

   What is proved: `one_child_per_name` — in every state of such a run the table has one
   record a name and one a pid, and a name has at most one test child that is neither
   reaped nor sent SIGKILL, the child of its record. -/
namespace Watchdog

/-- What a run promises about a call for `name`. -/
structure Fresh (s : Sys) (c : BinCall) (name : CString) : Prop where
  short : name.length < pathMax
  malloc : c.malloc = true
  pid : ∀ pid, c.fork = some pid → (checkProcesses name (s.swept c).head).1 ≠ .running →
    ∀ p ∈ (checkProcesses name (s.swept c).head).2.2, p.pid ≠ pid

/-- Every call of the run keeps the promises. -/
def Promise (s : Sys) : Ev → Prop
  | .ends _ _ => True
  | .checkBin c => ∀ name, c.tbinary = some name → Fresh s c name
  | .repair _ => True

/-- `tracked`: a test child that has neither been reaped nor sent SIGKILL has an open
record under its name. -/
structure Tracked (s : Sys) : Prop where
  inv : Inv s.head s.kernel
  names : (s.head.map Process.procName).Nodup
  pids : (s.head.map Process.pid).Nodup
  tracked : ∀ c ∈ s.kernel.live, ∀ name, c.test = some name → c.killed = false →
    ∃ p ∈ s.head, p.Of c ∧ p.procName = name ∧ p.isDone = false

theorem Tracked.init : Tracked .init :=
  ⟨Inv.init, .nil, .nil, fun _ h => absurd h List.not_mem_nil⟩

/-- Children that end, and children of `repair`, change nothing. -/
theorem Tracked.evolves {s : Sys} (h : Tracked s) {kernel : Kernel} (hev : s.kernel.Evolves kernel)
    (obs : List Obs) : Tracked ⟨s.head, kernel, obs⟩ := by
  refine ⟨h.inv.evolves hev, h.names, h.pids, ?_⟩
  intro d hd name htest hkilled
  obtain ⟨c, hc, hcd⟩ := hev.noNew d hd (by rw [htest]; rfl)
  obtain ⟨p, hp, hof, hname, hopen⟩ :=
    h.tracked c hc name (hcd.test.symm.trans htest) (hcd.killed.symm.trans hkilled)
  exact ⟨p, hp, hof.of_same hcd, hname, hopen⟩

/-- Records that are closed keep their name and pid. -/
theorem map_close {f : Process → Process} {α : Type} (g : Process → α) (h : ∀ p, g (f p) = g p)
    (head : List Process) : (head.map f).map g = head.map g := by
  rw [List.map_map]
  exact List.map_congr_left fun p _ => h p

theorem Tracked.report {s : Sys} (h : Tracked s) {id : Nat} {c : Child} {t : Term}
    (hr : s.kernel.report id = some (c, t)) :
    Tracked ⟨updateProcess c.pid t.status s.head, s.kernel.reap id, .reaped id t :: s.obs⟩ := by
  have hinv := h.inv.report hr
  obtain ⟨hc, rfl, -⟩ := Kernel.report_some hr
  have hupd := h.inv.updateProcess_eq hc t
  refine ⟨hinv, ?_, ?_, ?_⟩
  · show ((updateProcess c.pid t.status s.head).map Process.procName).Nodup
    rw [hupd, map_close _ (reportTo_procName c.id t)]
    exact h.names
  · show ((updateProcess c.pid t.status s.head).map Process.pid).Nodup
    rw [hupd, map_close _ (reportTo_pid c.id t)]
    exact h.pids
  · intro d hd name htest hkilled
    obtain ⟨hd, hne⟩ := Kernel.mem_reap.mp hd
    obtain ⟨p, hp, hof, hname, hopen⟩ := h.tracked d hd name htest hkilled
    have hkeep : p.reportTo c.id t = p := by
      apply if_neg
      intro hpc
      exact hne (hof.id.trans hpc.2)
    refine ⟨p, ?_, hof, hname, hopen⟩
    show p ∈ updateProcess c.pid t.status s.head
    rw [hupd, ← hkeep]
    exact List.mem_map_of_mem hp

theorem Tracked.expired {s : Sys} (h : Tracked s) (timeout now : Int) :
    Tracked (s.expired timeout now) := by
  refine ⟨h.inv.expired timeout now, ?_, ?_, ?_⟩
  · rw [expired_head, map_close _ (expire_procName timeout now)]
    exact h.names
  · rw [expired_head, map_close _ (expire_pid timeout now)]
    exact h.pids
  · intro d hd name htest hkilled
    rw [expired_kernel] at hd
    obtain ⟨c, hc, rfl⟩ := (Kernel.mem_killAll _ _ _).mp hd
    obtain ⟨hck, hspared⟩ := Bool.or_eq_false_iff.mp hkilled
    obtain ⟨p, hp, hof, hname, hopen⟩ := h.tracked c hc name htest hck
    have hintime : p.overtime timeout now = false := by
      rw [← Bool.not_eq_true]
      intro hover
      rw [← Bool.not_eq_true, List.contains_iff_mem] at hspared
      apply hspared
      rw [hof.pid]
      exact List.mem_map_of_mem (mem_overdue.mpr ⟨hp, hover⟩)
    have hkeep : p.expire timeout now = p := if_neg (by rw [hintime]; exact Bool.false_ne_true)
    refine ⟨p, ?_, ⟨hof.pid, hof.id, hof.test⟩, hname, hopen⟩
    rw [expired_head, ← hkeep]
    exact List.mem_map_of_mem hp

theorem Tracked.swept {s : Sys} (h : Tracked s) (c : BinCall) : Tracked (s.swept c) := by
  apply swept_inv _ _ _ c h
  · intro s id t hs
    exact hs.evolves (s.kernel.terminate_evolves id t) s.obs
  · intro s id d t hs hd
    exact hs.report hd
  · intro s timeout now hs
    exact hs.expired timeout now

/-! ## The second half of a call -/

/-- Consuming a result takes its record and no other. -/
theorem Tracked.removed {s : Sys} (h : Tracked s) {p q : Process} (hp : p ∈ s.head) :
    q ∈ removeProcess p.pid s.head ↔ q ∈ s.head ∧ q ≠ p := by
  rw [removeProcess_eq_filter p.pid h.pids, List.mem_filter]
  constructor
  · intro hcase
    obtain ⟨hq, hne⟩ := hcase
    refine ⟨hq, ?_⟩
    intro hcase
    obtain rfl := hcase
    simp at hne
  · intro hcase
    obtain ⟨hq, hne⟩ := hcase
    refine ⟨hq, ?_⟩
    have : q.pid ≠ p.pid := fun heq => hne (List.inj_on_of_nodup_map h.pids hq hp heq)
    simpa using this

/-- After the look-up the name is free, and the children are tracked as before. -/
theorem Tracked.looked {s : Sys} (h : Tracked s) {name : CString} {head : List Process} {ecode : Int}
    (look : Looked name s.head head ecode) :
    Tracked { s with head } ∧ ∀ p ∈ head, p.procName ≠ name := by
  refine ⟨⟨h.inv.sublist look.sublist, (look.sublist.map _).nodup h.names,
    (look.sublist.map _).nodup h.pids, ?_⟩, ?_⟩
  · intro c hc n htest hkilled
    obtain ⟨q, hq, hof, hname, hopen⟩ := h.tracked c hc n htest hkilled
    refine ⟨q, ?_, hof, hname, hopen⟩
    cases look with
    | blank => exact hq
    | completed p hp _ hdone =>
      apply (h.removed hp).mpr
      refine ⟨hq, ?_⟩
      intro hcase
      obtain rfl := hcase
      rw [hopen] at hdone
      cases hdone
  · cases look with
    | blank hnone => exact hnone
    | completed p hp hname _ =>
      intro q hq hqname
      obtain ⟨hq, hne⟩ := (h.removed hp).mp hq
      exact hne (List.inj_on_of_nodup_map h.names hq hp (hqname.trans hname.symm))

theorem take_short {name : CString} (h : name.length < pathMax) : name.take (pathMax - 1) = name :=
  List.take_of_length_le (by omega)

/-- A new record under a free name with a free pid. -/
theorem Tracked.added {s : Sys} (h : Tracked s) {name : CString} {pid : Int} {k : Kernel}
    (hfork : s.kernel.fork pid (some name) = some k) (hshort : name.length < pathMax)
    (hname : ∀ p ∈ s.head, p.procName ≠ name) (hpid : ∀ p ∈ s.head, p.pid ≠ pid) (now : Int)
    (obs : List Obs) : Tracked ⟨newProcess name pid now s.kernel.forks :: s.head, k, obs⟩ := by
  have hprocName : (newProcess name pid now s.kernel.forks).procName = name := take_short hshort
  refine ⟨h.inv.added hfork now, ?_, ?_, ?_⟩
  · rw [List.map_cons, hprocName]
    apply List.nodup_cons.mpr
    refine ⟨?_, h.names⟩
    intro hmem
    obtain ⟨p, hp, hpn⟩ := List.mem_map.mp hmem
    exact hname p hp hpn
  · rw [List.map_cons]
    apply List.nodup_cons.mpr
    refine ⟨?_, h.pids⟩
    intro hmem
    obtain ⟨p, hp, hpp⟩ := List.mem_map.mp hmem
    exact hpid p hp hpp
  · obtain ⟨-, -, hlive, -⟩ := Kernel.fork_some hfork
    intro c hc n htest hkilled
    rw [hlive] at hc
    rcases List.mem_cons.mp hc with rfl | hc
    · cases htest
      exact ⟨_, List.mem_cons_self, ⟨rfl, rfl, rfl⟩, hprocName, rfl⟩
    · obtain ⟨p, hp, hof, hpn, hopen⟩ := h.tracked c hc n htest hkilled
      exact ⟨p, List.mem_cons_of_mem _ hp, hof, hpn, hopen⟩

/-- The pid of the new child is not in the table it is added to. -/
theorem Fresh.pid_free {s : Sys} {c : BinCall} {name : CString} (h : Fresh s c name)
    {head : List Process} {ecode pid : Int} (look : Looked name (s.swept c).head head ecode)
    (hpid : c.fork = some pid) : ∀ p ∈ head, p.pid ≠ pid := by
  have := h.pid pid hpid
  cases look with
  | blank _ hcheck => rw [hcheck] at this; exact this (by simp)
  | completed _ _ _ _ _ hcheck => rw [hcheck] at this; exact this (by simp)

theorem Tracked.answered {s s' : Sys} {c : BinCall} {name : CString} {code : Int}
    (h : Tracked (s.swept c)) (hfresh : Fresh s c name) (ha : Answered c name (s.swept c) s' code) :
    Tracked s' := by
  cases ha with
  | running => exact h
  | failed look => exact (h.looked look).1
  | freed look _ hmalloc => rw [hfresh.malloc] at hmalloc; cases hmalloc
  | added look hpid hfork _ =>
    obtain ⟨htracked, hname⟩ := h.looked look
    exact htracked.added hfork hfresh.short hname (hfresh.pid_free look hpid) _ _

theorem Tracked.step {s : Sys} (h : Tracked s) {e : Ev} (hok : Promise s e) : Tracked (step s e) := by
  cases e with
  | ends id t => exact h.evolves (s.kernel.terminate_evolves id t) s.obs
  | repair r => exact h.evolves (r.env.repair_evolves r.cfg r.rbinary r.result s.kernel) _
  | checkBin c =>
    apply checkBin_inv (h.swept c)
    intro name s' code hn ha
    exact ((h.swept c).answered (hok name hn) ha).evolves (.refl _) _

theorem after_tracked {es : List Ev} (h : Runs.Allowed step Promise .init es) : Tracked (after es) :=
  Runs.run_inv (fun _ _ hs hok => hs.step hok) Tracked.init h

/-- **One record a name, one a pid, and one child a test.** -/
theorem one_child_per_name (es : List Ev) (h : Runs.Allowed step Promise .init es) :
    ((after es).head.map Process.procName).Nodup ∧ ((after es).head.map Process.pid).Nodup ∧
      ∀ name, ∀ c ∈ (after es).kernel.live, c.test = some name → c.killed = false →
        (∃ p ∈ (after es).head, p.procName = name ∧ p.Of c) ∧
          ∀ d ∈ (after es).kernel.live, d.test = some name → d.killed = false → d = c := by
  have ht := after_tracked h
  refine ⟨ht.names, ht.pids, ?_⟩
  intro name c hc htest hkilled
  obtain ⟨p, hp, hof, hname, -⟩ := ht.tracked c hc name htest hkilled
  refine ⟨⟨p, hp, hname, hof⟩, ?_⟩
  intro d hd hdtest hdkilled
  obtain ⟨q, hq, hqof, hqname, -⟩ := ht.tracked d hd name hdtest hdkilled
  have hpq : q = p := List.inj_on_of_nodup_map ht.names hq hp (hqname.trans hname.symm)
  apply Kernel.eq_of_id hd hc
  rw [hqof.id, hof.id, hpq]

/-- Test `a` is started, runs too long, is killed and started again beside `b`. -/
def slowTest : List Ev :=
  [.checkBin (callAt 0 (some ['a']) [] 5), .checkBin (callAt 100 (some ['b']) [] 6),
    .checkBin (callAt 101 (some ['a']) [] 7)]

theorem slowTest_fresh : Runs.Allowed step Promise .init slowTest := by
  refine ⟨?_, ?_, ?_, trivial⟩
  all_goals
    intro name h
    cases h
    refine ⟨by decide, rfl, ?_⟩
    intro pid h _
    cases h
    decide

/-- The old child of `a` is still there, but it has been sent SIGKILL. -/
theorem one_child_per_name_slow :
    (after slowTest).kernel.live.map (fun c => (c.pid, c.test, c.killed)) =
        [(7, some ['a'], false), (6, some ['b'], false), (5, some ['a'], true)] ∧
      ((after slowTest).head.map Process.procName).Nodup :=
  ⟨by decide, (one_child_per_name slowTest slowTest_fresh).1⟩

end Watchdog
