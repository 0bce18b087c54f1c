import WatchdogDaemon.Action
import WatchdogDaemon.Trace

/- The main loop on one test entry: which test a repair is judged by.

   Each cycle calls `check_bin` for the entry and hands the answer to `wd_action`, which
   may call `repair()`. `check_bin` answers with the result of the previous child and has
   started the next one before `wd_action` decides, so the child that is running during
   a repair saw the fault the repair is for. Its result must not count against the
   repair.

   What is proved:
     1. `judged_after_repair` — with a positive `retry_timeout`, in every run, a cycle
        that gives up because the repairs are used up, and whose `check_bin` had memory
        for its record, acts on the outcome of a child that was started after the last
        `repair()` had returned. The timer is what saves it: a repair turns the timer
        off, the result of the child that was running turns it on again, and only a
        later result, of a later child, can be overdue.
     2. `judged_by_stale_test` — with `retry_timeout` 0 there is no timer, and the
        result of the child that was running during the repair asks for the shutdown.

   Correspondence (C ↔ Lean):
     the `tr_bin_list` loop of `main`         ↔ `LoopEv.cycle`, `cycle`
     `check_bin (NULL, test_timeout, 0)`      ↔ `LoopEv.idle`
   The `wd_action (keep_alive (), .., NULL)` of `do_check` is left out: it has no entry. -/
namespace Watchdog

/-- The loop on one entry. -/
structure LoopState where
  sys : Sys
  act : Entry

/-- One cycle: what happens during `check_bin`, the clock of `wd_action`, and what happens
during `repair()` should it run. -/
structure Cycle where
  bin : BinCall
  now : Int
  env : RepairEnv

inductive LoopEv where
  | ends (id : Nat) (t : Term)
  | cycle (c : Cycle)
  | idle (c : BinCall)

/-- `wd_action` on the entry, with `repair()` run against the kernel. -/
def loopAction (cfg : Config) (rbinary : Option CString) (s : LoopState) (c : Cycle) (result : Int) :
    LoopState × Outcome :=
  let (out, kernel) := wdAction (m := StateM Kernel) (fun rbinary result _ _ => repair c.env.sys cfg rbinary result) cfg c.now
    result rbinary (some s.act) s.sys.kernel
  let obs := match out.repaired with
    | none => s.sys.obs
    | some code => .repaired code :: s.sys.obs
  (⟨{ s.sys with kernel, obs }, out.act.getD s.act⟩, out)

/-- The call of `check_bin` for the entry. -/
def LoopState.call (cfg : Config) (s : LoopState) (c : Cycle) : BinCall :=
  { c.bin with tbinary := some s.act.name, timeout := cfg.testTimeout }

/-- The state at `wd_action`, and the result it is given. -/
def LoopState.checked (cfg : Config) (s : LoopState) (c : Cycle) : LoopState × Int :=
  let (sys, result) := checkBin s.sys (s.call cfg c)
  ({ s with sys }, result)

def cycle (cfg : Config) (rbinary : Option CString) (s : LoopState) (c : Cycle) :
    LoopState × Outcome :=
  -- The next child is running by now.
  let (s, result) := s.checked cfg c
  loopAction cfg rbinary s c result

def loopStep (cfg : Config) (rbinary : Option CString) (s : LoopState) : LoopEv → LoopState
  | .ends id t => { s with sys := step s.sys (.ends id t) }
  | .cycle c => (cycle cfg rbinary s c).1
  | .idle c => { s with sys := (checkBin s.sys { c with tbinary := none, timeout := cfg.testTimeout }).1 }

/-- The loop after the events, from a fresh entry. -/
def loopAfter (cfg : Config) (rbinary : Option CString) (name : CString) (version : Int)
    (es : List LoopEv) : LoopState :=
  Runs.run (loopStep cfg rbinary) ⟨.init, freshEntry name version⟩ es

/-! ## The specification -/

def Obs.isRepaired : Obs → Bool
  | .repaired _ => true
  | _ => false

/-- The trace since the last `repair()` returned. -/
def sinceRepair (obs : List Obs) : List Obs := obs.takeWhile fun o => !o.isRepaired

/-- The cycle asks for a shutdown because the repairs are used up. -/
def GivesUp (cfg : Config) (rbinary : Option CString) (s : LoopState) (c : Cycle) : Prop :=
  repairable (s.checked cfg c).2 = true ∧ (cycle cfg rbinary s c).2.repaired = none ∧
    (cycle cfg rbinary s c).2.request.isSome

/-- The result of the cycle is the outcome of a test child, read from the record that
the look-up found, and that child was started after the last `repair()` returned. -/
def Judged (cfg : Config) (s : LoopState) (c : Cycle) : Prop :=
  ∃ p, (s.sys.swept (s.call cfg c)).head.find? (·.procName = s.act.name) = some p ∧ p.isDone = true ∧
    doneAs p.child (s.checked cfg c).1.sys.obs = some (s.checked cfg c).2 ∧
    .started p.child s.act.name ∈ sinceRepair (s.checked cfg c).1.sys.obs

/-! ## What `wd_action` does to the timer -/

section Plan
variable {cfg : Config} {now result : Int} {act : Entry}

theorem retryTimer_entry (cfg : Config) (now : Int) (act : Entry) :
    ∃ e, (retryTimer cfg now (some act)).1 = some e ∧ e.name = act.name ∧
      (0 < cfg.retryTimeout → (retryTimer cfg now (some act)).2 = true → act.lastTime ≠ 0) := by
  unfold retryTimer
  by_cases hret : 0 < cfg.retryTimeout
  · by_cases hoff : act.lastTime = 0
    · exact ⟨{ act with lastTime := now }, by simp [hret, hoff], rfl, by simp [hret, hoff]⟩
    · exact ⟨act, by simp [hret, hoff], rfl, fun _ _ => hoff⟩
  · exact ⟨act, by simp [hret], rfl, fun h => absurd h hret⟩

theorem countRepair_entry (cfg : Config) (act : Entry) :
    ∃ e, (countRepair cfg (some act)).1 = some e ∧ e.name = act.name ∧
      (0 < cfg.repairMax → (countRepair cfg (some act)).2 = true → e.lastTime = 0) := by
  unfold countRepair
  by_cases hmax : 0 < cfg.repairMax
  · by_cases hmany : cfg.repairMax < toInt (act.repairCount + 1)
    · exact ⟨{ act with repairCount := toInt (act.repairCount + 1) }, by simp [hmax, hmany], rfl,
        by simp [hmax, hmany]⟩
    · exact ⟨{ act with repairCount := toInt (act.repairCount + 1), lastTime := 0 },
        by simp [hmax, hmany], rfl, fun _ _ => rfl⟩
  · exact ⟨act, by simp [hmax], rfl, fun h => absurd h hmax⟩

/-- A repair turns the timer off. -/
theorem plan_tryRepair (hmax : 0 < cfg.repairMax) {act' : Option Entry}
    (h : plan cfg now result (some act) = .tryRepair act') :
    ∃ e, act' = some e ∧ e.name = act.name ∧ e.lastTime = 0 := by
  obtain ⟨e₁, he₁, hname₁, -⟩ := retryTimer_entry cfg now act
  obtain ⟨e₂, he₂, hname₂, hoff⟩ := countRepair_entry cfg e₁
  unfold plan at h
  rw [he₁] at h
  repeat' split at h
  all_goals cases h
  next hcount => exact ⟨e₂, he₂, hname₂.trans hname₁, hoff hmax hcount⟩

/-- Without a repair, the timer runs after the call when it did before or when this is a
first offence; and giving up takes a timer that runs. -/
theorem plan_settled (hret : 0 < cfg.retryTimeout) {out : Outcome}
    (h : plan cfg now result (some act) = .settled out) :
    ∃ e, out.act = some e ∧ e.name = act.name ∧ out.repaired = none ∧
      (e.lastTime ≠ 0 → act.lastTime ≠ 0 ∨ repairable result = true) ∧
      (repairable result = true → out.request.isSome → act.lastTime ≠ 0) := by
  obtain ⟨e₁, he₁, hname₁, hlate⟩ := retryTimer_entry cfg now act
  obtain ⟨e₂, he₂, hname₂, -⟩ := countRepair_entry cfg e₁
  unfold plan at h
  rw [he₁] at h
  by_cases hr : repairable result = true
  · obtain ⟨h₁, h₂, h₃⟩ := repairable_ne hr
    simp only [h₁, h₂, h₃, if_false, Bool.false_eq_true] at h
    split at h
    · next htimeout =>
      split at h
      · cases h
      · cases h
        exact ⟨e₂, he₂, hname₂.trans hname₁, rfl, fun _ => Or.inr hr, fun _ _ => hlate hret htimeout⟩
    · cases h
      exact ⟨e₁, rfl, hname₁, rfl, fun _ => Or.inr hr, fun _ hreq => by cases hreq⟩
  · -- A success, unknown or a reboot command leaves the timer alone or turns it off.
    have hsettled : ∃ e, out.act = some e ∧ e.name = act.name ∧ out.repaired = none ∧
        (e.lastTime ≠ 0 → act.lastTime ≠ 0) := by
      repeat' split at h
      · cases h
        exact ⟨_, rfl, rfl, rfl, fun hne => absurd rfl hne⟩
      · cases h
        exact ⟨act, rfl, rfl, rfl, id⟩
      · cases h
        exact ⟨act, rfl, rfl, rfl, id⟩
      all_goals simp_all [repairable]
    obtain ⟨e, he, hname, hrep, hlast⟩ := hsettled
    exact ⟨e, he, hname, hrep, fun hne => Or.inl (hlast hne), fun hr' => absurd hr' hr⟩

end Plan

/-! ## The trace since the last repair -/

theorem sinceRepair_append {more : List Obs} (h : ∀ o ∈ more, o.isRepaired = false) (obs : List Obs) :
    sinceRepair (more ++ obs) = more ++ sinceRepair obs := by
  apply List.takeWhile_append_of_pos
  intro o ho
  rw [h o ho]
  rfl

theorem sinceRepair_cons {o : Obs} (h : o.isRepaired = false) (obs : List Obs) :
    sinceRepair (o :: obs) = o :: sinceRepair obs :=
  List.takeWhile_cons_of_pos (by rw [h]; rfl)

/-- Every record of the test is about a child started since the last repair. -/
def AllSince (name : CString) (head : List Process) (obs : List Obs) : Prop :=
  ∀ p ∈ head, p.procName = name → .started p.child name ∈ sinceRepair obs

theorem AllSince.close {name : CString} {head : List Process} {obs more : List Obs}
    (h : AllSince name head obs) {f : Process → Process} (hname : ∀ p, (f p).procName = p.procName)
    (hchild : ∀ p, (f p).child = p.child) (hmore : ∀ o ∈ more, o.isRepaired = false) :
    AllSince name (head.map f) (more ++ obs) := by
  intro q hq hqn
  obtain ⟨p, hp, rfl⟩ := List.mem_map.mp hq
  rw [hchild, sinceRepair_append hmore]
  exact List.mem_append_right more (h p hp ((hname p).symm.trans hqn))

theorem AllSince.sublist {name : CString} {head head' : List Process} {obs : List Obs}
    (h : AllSince name head obs) (hsub : head'.Sublist head) : AllSince name head' obs :=
  fun p hp => h p (hsub.subset hp)

theorem AllSince.cons {name : CString} {head : List Process} {obs : List Obs}
    (h : AllSince name head obs) {o : Obs} (ho : o.isRepaired = false) :
    AllSince name head (o :: obs) := by
  intro p hp hpn
  rw [sinceRepair_cons ho]
  exact List.mem_cons_of_mem o (h p hp hpn)

/-- A new child is a child since the last repair. -/
theorem AllSince.added {name : CString} {head : List Process} {obs : List Obs}
    (h : AllSince name head obs) (pid now : Int) (child : Nat) :
    AllSince name (newProcess name pid now child :: head) (.started child name :: obs) := by
  intro p hp hpn
  rw [sinceRepair_cons rfl]
  rcases List.mem_cons.mp hp with rfl | hp
  · exact List.mem_cons_self
  · exact List.mem_cons_of_mem _ (h p hp hpn)

/-! ## One test alone in the table -/

/-- The table of a loop on one entry: its records are the entry's, and there is one at
most unless the name is too long to be found again. -/
structure Alone (name : CString) (head : List Process) : Prop where
  named : ∀ p ∈ head, p.procName = name.take (pathMax - 1)
  one : name.length < pathMax → head.length ≤ 1

theorem Alone.sublist {name : CString} {head head' : List Process} (h : Alone name head)
    (hsub : head'.Sublist head) : Alone name head' :=
  ⟨fun p hp => h.named p (hsub.subset hp), fun hs => Nat.le_trans hsub.length_le (h.one hs)⟩

theorem Alone.close {name : CString} {head : List Process} (h : Alone name head)
    {f : Process → Process} (hname : ∀ p, (f p).procName = p.procName) : Alone name (head.map f) := by
  refine ⟨?_, fun hs => by rw [List.length_map]; exact h.one hs⟩
  intro q hq
  obtain ⟨p, hp, rfl⟩ := List.mem_map.mp hq
  rw [hname]
  exact h.named p hp

/-- A name whose record is found fits its buffer. -/
theorem Alone.short {name : CString} {head : List Process} (h : Alone name head) {p : Process}
    (hp : p ∈ head) (hname : p.procName = name) : name.length < pathMax := by
  have hlen := congrArg List.length (hname.symm.trans (h.named p hp))
  rw [List.length_take] at hlen
  have : pathMax = 4096 := rfl
  omega

/-- The look-up leaves no record of a name that fits its buffer. -/
theorem Alone.looked {name : CString} {head head' : List Process} {ecode : Int} (h : Alone name head)
    (hshort : name.length < pathMax) (look : Looked name head head' ecode) : head' = [] := by
  cases look with
  | blank hnone =>
    apply List.eq_nil_iff_forall_not_mem.mpr
    intro p hp
    apply hnone p hp
    rw [h.named p hp]
    exact List.take_of_length_le (by omega)
  | completed p hp =>
    obtain ⟨q, rfl⟩ : ∃ q, head = [q] := by
      apply List.length_eq_one_iff.mp
      have := h.one hshort
      have := List.length_pos_of_mem hp
      omega
    obtain rfl := List.mem_singleton.mp hp
    rw [removeProcess, if_neg (by simp)]

/-! ## The invariant -/

/-- What a sweep keeps; `b` stands for a running timer. -/
structure Aged (name : CString) (b : Prop) (s : Sys) : Prop where
  inv : Inv s.head s.kernel
  traced : Traced s
  alone : Alone name s.head
  since : b → AllSince name s.head s.obs

theorem Aged.evolves {name : CString} {b : Prop} {s : Sys} (h : Aged name b s) {kernel : Kernel}
    (hev : s.kernel.Evolves kernel) : Aged name b { s with kernel } :=
  ⟨h.inv.evolves hev, h.traced.evolves hev, h.alone, h.since⟩

theorem Aged.swept {name : CString} {b : Prop} {s : Sys} (h : Aged name b s) (c : BinCall) :
    Aged name b (s.swept c) := by
  apply swept_inv _ _ _ c h
  · intro s id t hs
    exact hs.evolves (s.kernel.terminate_evolves id t)
  · intro s id d t hs hd
    have hupd : updateProcess d.pid t.status s.head = s.head.map (Process.reportTo d.id t) :=
      hs.inv.updateProcess_eq (Kernel.report_some hd).1 t
    refine ⟨hs.inv.report hd, hs.traced.report hs.inv hd, ?_, fun hb => ?_⟩
    · show Alone name (updateProcess d.pid t.status s.head)
      rw [hupd]
      exact hs.alone.close (reportTo_procName d.id t)
    · show AllSince name (updateProcess d.pid t.status s.head) ([.reaped id t] ++ s.obs)
      rw [hupd]
      apply (hs.since hb).close (reportTo_procName d.id t) (reportTo_child d.id t)
      intro o ho
      rw [List.mem_singleton.mp ho]
      rfl
  · intro s timeout now hs
    obtain ⟨kills, hobs, hall, -⟩ := expired_obs s timeout now
    refine ⟨hs.inv.expired timeout now, hs.traced.expired hs.inv timeout now, ?_, fun hb => ?_⟩
    · rw [expired_head]
      exact hs.alone.close (expire_procName timeout now)
    · rw [expired_head, hobs]
      apply (hs.since hb).close (expire_procName timeout now) (expire_child timeout now)
      intro o ho
      obtain ⟨p, -, sent, rfl⟩ := hall o ho
      rfl

/-- After the rest of the call, a failing result has left no record of an older child. -/
theorem Aged.answered {name : CString} {b : Prop} {s s' : Sys} {c : BinCall} {code : Int}
    (h : Aged name b s) (ha : Answered c name s s' code) :
    Aged name (b ∨ repairable code = true) s' := by
  refine ⟨h.inv.answered ha, h.traced.answered ha, ?_, ?_⟩
  · cases ha with
    | running => exact h.alone
    | failed look => exact h.alone.sublist look.sublist
    | freed => exact ⟨fun _ hp => absurd hp List.not_mem_nil, fun _ => Nat.zero_le 1⟩
    | added look =>
      refine ⟨?_, fun hs => ?_⟩
      · intro p hp
        rcases List.mem_cons.mp hp with rfl | hp
        · rfl
        · exact h.alone.named p (look.sublist.subset hp)
      · rw [h.alone.looked hs look]
        exact Nat.le_refl 1
  · intro hb
    cases ha with
    | running => exact hb.elim h.since (fun hr => absurd hr (by decide))
    | failed look =>
      rcases hb with hb | hr
      · exact (h.since hb).sublist look.sublist
      · exact absurd hr (by decide)
    | freed => exact fun _ hp => absurd hp List.not_mem_nil
    | added look =>
      apply AllSince.added
      cases look with
      | blank => exact hb.elim h.since (fun hr => absurd hr (by decide))
      | completed p hp hname hdone hfind hcheck =>
        have hnil := h.alone.looked (h.alone.short hp hname) (.completed p hp hname hdone hfind hcheck)
        rw [hnil]
        exact fun _ hp => absurd hp List.not_mem_nil

theorem Aged.observe {name : CString} {b : Prop} {s : Sys} (h : Aged name b s) {n : CString}
    {code : Int} : Aged name b { s with obs := .returned n code :: s.obs } :=
  ⟨h.inv, h.traced.observe (fun _ => rfl) (fun _ _ heq => by cases heq), h.alone,
    fun hb => (h.since hb).cons rfl⟩

/-- The loop's invariant: while the timer runs, every record of the test is about a
child started since the last repair. -/
structure LoopInv (name : CString) (s : LoopState) : Prop where
  entry : s.act.name = name
  aged : Aged name (s.act.lastTime ≠ 0) s.sys

theorem LoopInv.checked {name : CString} {s : LoopState} (h : LoopInv name s) (cfg : Config)
    (c : Cycle) : Aged name (s.act.lastTime ≠ 0 ∨ repairable (s.checked cfg c).2 = true)
      (s.checked cfg c).1.sys := by
  have hn : (s.call cfg c).tbinary = some name := congrArg some h.entry
  obtain ⟨s', code, ha, heq⟩ := checkBin_answered s.sys hn
  have hchecked : s.checked cfg c = (⟨{ s' with obs := .returned name code :: s'.obs }, s.act⟩, code) := by
    show (({ s with sys := (checkBin s.sys (s.call cfg c)).1 } : LoopState),
      (checkBin s.sys (s.call cfg c)).2) = _
    rw [heq]
  rw [hchecked]
  exact ((h.aged.swept _).answered ha).observe

section Step
variable {cfg : Config} {rbinary : Option CString} {name : CString}

/-- `wd_action` on the entry, without or with a repair. -/
theorem loopAction_cases (s : LoopState) (c : Cycle) (result : Int) :
    (∃ out, plan cfg c.now result (some s.act) = .settled out ∧
      loopAction cfg rbinary s c result = (⟨{ s.sys with obs := match out.repaired with
        | none => s.sys.obs
        | some code => .repaired code :: s.sys.obs }, out.act.getD s.act⟩, out)) ∨
    ∃ act' code kernel, plan cfg c.now result (some s.act) = .tryRepair act' ∧
      s.sys.kernel.Evolves kernel ∧
      loopAction cfg rbinary s c result =
        (⟨{ s.sys with kernel, obs := .repaired code :: s.sys.obs }, act'.getD s.act⟩,
          ⟨act', some code, consider cfg code⟩) := by
  unfold loopAction
  rw [wdAction_eq]
  cases hp : plan cfg c.now result (some s.act) with
  | settled out => exact Or.inl ⟨out, rfl, rfl⟩
  | tryRepair act' =>
    have hev := c.env.repair_evolves cfg (repairBinary rbinary (some s.act)) result s.sys.kernel
    exact Or.inr ⟨act', _, _, rfl, hev, rfl⟩

theorem LoopInv.cycle (hret : 0 < cfg.retryTimeout) (hmax : 0 < cfg.repairMax) {s : LoopState}
    (h : LoopInv name s) (c : Cycle) : LoopInv name (cycle cfg rbinary s c).1 := by
  have haged := h.checked cfg c
  have hentry : (s.checked cfg c).1.act = s.act := rfl
  show LoopInv name (loopAction cfg rbinary (s.checked cfg c).1 c (s.checked cfg c).2).1
  obtain ⟨out, hp, heq⟩ | ⟨act', code, kernel, hp, hev, heq⟩ :=
    loopAction_cases (s.checked cfg c).1 c (s.checked cfg c).2
  · rw [hentry] at hp
    obtain ⟨e, he, hname, hrep, hlast, -⟩ := plan_settled hret hp
    rw [heq, he, hrep]
    exact ⟨hname.trans h.entry, haged.inv, haged.traced, haged.alone, fun hne => haged.since (hlast hne)⟩
  · rw [hentry] at hp
    obtain ⟨e, rfl, hname, hoff⟩ := plan_tryRepair hmax hp
    rw [heq]
    have haged' := haged.evolves hev
    refine ⟨hname.trans h.entry, haged'.inv, haged'.traced.observe (fun _ => rfl)
      (fun _ _ heq => by cases heq), haged'.alone, fun hne => absurd hoff hne⟩

theorem LoopInv.step (hret : 0 < cfg.retryTimeout) (hmax : 0 < cfg.repairMax) {s : LoopState}
    (h : LoopInv name s) (e : LoopEv) : LoopInv name (loopStep cfg rbinary s e) := by
  cases e with
  | ends id t => exact ⟨h.entry, h.aged.evolves (s.sys.kernel.terminate_evolves id t)⟩
  | cycle c => exact h.cycle hret hmax c
  | idle c => exact ⟨h.entry, h.aged.swept _⟩

theorem loopAfter_inv (hret : 0 < cfg.retryTimeout) (hmax : 0 < cfg.repairMax) (version : Int)
    (es : List LoopEv) : LoopInv name (loopAfter cfg rbinary name version es) := by
  apply Runs.run_inv (I := LoopInv name) (fun s e h _ => h.step hret hmax e)
  · refine ⟨rfl, Inv.init, Traced.init, ⟨fun _ hp => absurd hp List.not_mem_nil, fun _ => Nat.zero_le 1⟩,
      fun hne => absurd rfl hne⟩
  · exact Runs.allowed_of_forall fun _ _ => trivial

/-- A cycle with memory that gives up acts on the outcome of a child started after the
last repair. -/
theorem LoopInv.judged (hret : 0 < cfg.retryTimeout) {s : LoopState}
    (h : LoopInv name s) {c : Cycle} (hmalloc : c.bin.malloc = true)
    (hgives : GivesUp cfg rbinary s c) : Judged cfg s c := by
  obtain ⟨hr, hrep, hreq⟩ := hgives
  -- Giving up takes a running timer.
  have htimer : s.act.lastTime ≠ 0 := by
    have hcycle : Watchdog.cycle cfg rbinary s c =
        loopAction cfg rbinary (s.checked cfg c).1 c (s.checked cfg c).2 := rfl
    rw [hcycle] at hrep hreq
    obtain ⟨out, hp, heq⟩ | ⟨act', code, kernel, hp, hev, heq⟩ :=
      loopAction_cases (s.checked cfg c).1 c (s.checked cfg c).2
    · obtain ⟨e, -, -, -, -, hlate⟩ := plan_settled hret hp
      rw [heq] at hreq
      exact hlate hr hreq
    · rw [heq] at hrep
      cases hrep
  have hn : (s.call cfg c).tbinary = some name := congrArg some h.entry
  have hswept := h.aged.swept (s.call cfg c)
  obtain ⟨s', code, ha, heq⟩ := checkBin_answered s.sys hn
  have hcode : (s.checked cfg c).2 = code := congrArg Prod.snd heq
  have hobs : (s.checked cfg c).1.sys.obs = .returned name code :: s'.obs :=
    congrArg (fun r => r.1.obs) heq
  rw [hcode] at hr
  unfold Judged
  rw [hcode, hobs, h.entry]
  cases ha with
  | running => exact absurd hr (by decide)
  | failed => exact absurd hr (by decide)
  | freed _ _ hno =>
    have : c.bin.malloc = false := hno
    rw [hmalloc] at this
    cases this
  | added look =>
    cases look with
    | blank => exact absurd hr (by decide)
    | completed p hp hname hdone hfind =>
      refine ⟨p, hfind, hdone, ?_, ?_⟩
      · apply doneAs_cons_some
        apply doneAs_cons_some
        rw [hswept.traced.record p hp, hdone]
        rfl
      · rw [sinceRepair_cons rfl, sinceRepair_cons rfl]
        exact List.mem_cons_of_mem _ (List.mem_cons_of_mem _ (hswept.since htimer p hp hname))

end Step

/-- **A repair is judged by a test run after it**, when there is a retry period. -/
theorem judged_after_repair (cfg : Config) (hret : 0 < cfg.retryTimeout) (hmax : 1 ≤ cfg.repairMax)
    (rbinary : Option CString) (name : CString) (version : Int) (es : List LoopEv) (c : Cycle)
    (hmalloc : c.bin.malloc = true)
    (hgives : GivesUp cfg rbinary (loopAfter cfg rbinary name version es) c) :
    Judged cfg (loopAfter cfg rbinary name version es) c :=
  (loopAfter_inv hret hmax version es).judged hret hmalloc hgives

/-- The repair child gets `pid` and exits with 0; no other child ends meanwhile. -/
def goodRepair (pid : Int) : RepairEnv := ⟨some pid, fun _ => [], fun _ => none, .exit 0⟩

/-- A cycle at second `now` that gathers `gather` and starts a child with pid `pid`. -/
def cycleAt (now : Int) (gather : List GatherEv) (pid : Int) : Cycle :=
  ⟨callAt now none gather pid, now, goodRepair (pid + 100)⟩

/-- Child `id` fails during the gather loop. -/
def fails (id : Nat) : List GatherEv := [.ends id (.exit 1), .reports id]

/-- A repair program without a time limit; otherwise the defaults. -/
def patient : Config := { repairTimeout := 0 }

/-- The test fails for 98 s, is repaired, and goes on failing for another 99 s: the repair
did not help, and the last child, started after it, says so. -/
theorem judged_after_repair_fault_stays :
    let es : List LoopEv := [.cycle (cycleAt 1 [] 5), .cycle (cycleAt 2 (fails 0) 6),
      .cycle (cycleAt 100 (fails 1) 7), .cycle (cycleAt 101 (fails 2) 8)]
    Judged patient (loopAfter patient (some ['r']) ['t'] 0 es) (cycleAt 200 (fails 4) 9) := by
  intro es
  apply judged_after_repair patient (by decide) (by decide) (some ['r']) ['t'] 0 es
  · rfl
  · exact ⟨by decide, by decide, by decide⟩

/-- The same program, and no retry period. -/
def eager : Config := { retryTimeout := 0, repairTimeout := 0 }

/-- With `retry_timeout` 0: child 0 fails, child 1 is started, the fault is repaired, and
child 1, which saw the fault, fails. The cycle that reads its result asks for a
shutdown. -/
theorem judged_by_stale_test :
    let es : List LoopEv := [.cycle (cycleAt 1 [] 5), .cycle (cycleAt 2 (fails 0) 6)]
    let s := loopAfter eager (some ['r']) ['t'] 0 es
    let c := cycleAt 3 (fails 1) 7
    0 ≤ eager.retryTimeout ∧ 1 ≤ eager.repairMax ∧ c.bin.malloc = true ∧
      GivesUp eager (some ['r']) s c ∧ (cycle eager (some ['r']) s c).2.request = some (.doShutdown 1) ∧
      ¬ Judged eager s c := by
  intro es s c
  refine ⟨by decide, by decide, rfl, ⟨by decide, by decide, by decide⟩, by decide, ?_⟩
  intro hcase
  obtain ⟨p, hfind, -, -, hstart⟩ := hcase
  have hp : (s.sys.swept (s.call eager c)).head.find? (·.procName = s.act.name) =
      some ⟨['t'], 6, 2, 1, true, 1⟩ := by decide
  have hsince : sinceRepair (s.checked eager c).1.sys.obs =
      [.returned ['t'] 1, .started 3 ['t'], .reaped 1 (.exit 1)] := rfl
  obtain rfl := Option.some.inj (hp.symm.trans hfind)
  rw [hsince] at hstart
  simp at hstart

end Watchdog
