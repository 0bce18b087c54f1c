import WatchdogDaemon.Daemon.Fed
import WatchdogDaemon.Lib.Phases

/- The life of the daemon: the start, the loop, the end.

   What is proved, over every configuration file, all options, any number of cycles and every
   way the calls can turn out:
     1. `stages_in_order` — the steps of the start and of the end are made in their order and
        none of them twice; only the loop comes back, and nothing of it after the end has begun.
     2. `locked_first` — without `--force`, the device and everything after it is only touched
        by a daemon whose `write_pid_file` has succeeded.
     3. `no_action_goes_on` — with `--no-action` neither the device nor `do_shutdown` is called,
        and the loop always comes to its end. -/
namespace Watchdog.Daemon
open CallTree

/-! ## Stages -/

/-- The stage of a call. A pause in microseconds belongs to none: there is one in the loop
and one at the end. -/
def stage : Call → Option Nat
  | .mkdirLogdir => some 1
  | .openNetcheck => some 2
  | .xcallocFilename => some 3
  | .wdDaemon => some 4
  | .writePidFile => some 5
  | .openWatchdog => some 6
  | .openTempcheck => some 7
  | .openHeartbeat => some 8
  | .openLoadcheck => some 9
  | .openMemcheck => some 10
  | .lockOurMemory => some 11
  | .running | .keepAlive | .check _ | .time | .fork | .waitpid _ _ | .sleep _ | .gather
  | .stillAlive _ | .loopExit => some 12
  | .usleep _ => none
  | .doShutdown _ => some 13
  | .stopping => some 14
  | .unlockOurMemory => some 15
  | .closeWatchdog => some 16
  | .closeLoadcheck => some 17
  | .closeMemcheck => some 18
  | .closeTempcheck => some 19
  | .closeHeartbeat => some 20
  | .freeProcess => some 21
  | .removePidFile => some 22
  | .closeLogging => some 23

/-- One stage after another; the loop is a stage of many calls. -/
def StageOrder (a b : Nat) : Prop := a < b ∨ a = 12 ∧ b = 12

theorem StageOrder.trans {a b c : Nat} (hab : StageOrder a b) (hbc : StageOrder b c) : StageOrder a c := by
  unfold StageOrder at *
  omega

theorem stageOrder_loop {a : Nat} (h : a ≤ 12) : StageOrder a 12 := by
  unfold StageOrder
  omega

/-- A call of the loop. -/
def LoopCall (q : Call) : Prop := stage q = none ∨ stage q = some 12

/-- One of the checks, up to the pause after them. -/
def CheckCall : Call → Prop
  | .running | .keepAlive | .check _ | .time | .fork | .waitpid _ _ | .sleep _ | .usleep _ => True
  | _ => False

theorem CheckCall.loopCall {q : Call} (h : CheckCall q) : LoopCall q := by
  unfold CheckCall at h
  split at h
  case h_8 => exact Or.inl rfl
  case h_9 => exact h.elim
  all_goals exact Or.inr rfl

/-! The loop makes calls of its own, and exits only where `wd_action` shuts down. -/

section Loop
variable {S : Call → Prop} {X : Prop} {o : Options} {g : Globals}

theorem only_perform {q : Call} (h : S q) : Only S X (perform q) :=
  Only.bind (Only.ask h) fun _ => Only.pure _

theorem only_pollRepair {pid : Int} (hsleep : S (.sleep 1)) (hkeep : S .keepAlive) (hwait : S (.waitpid pid false)) :
    ∀ left n, Only S X (pollRepair (repairSys.waitpid pid false) left n)
  | 0, _ => Only.pure _
  | left + 1, n => by
    have hpoll : Only S X (repairSys.waitpid pid false n) := by
      apply (only_perform hsleep).bind
      intro _
      apply (only_perform hkeep).bind
      intro _
      exact only_perform hwait
    apply hpoll.bind
    intro answer
    cases answer with
    | running => exact only_pollRepair hsleep hkeep hwait left (n + 1)
    | reaped status => exact Only.pure _
    | failed err => exact Only.pure _

theorem only_repair (hS : ∀ q, CheckCall q → S q) (cfg : Config) (rbinary : Option CString) (result : Int) :
    Only S X (repair repairSys cfg rbinary result) := by
  unfold repair
  apply Only.ite (Only.pure _)
  apply (only_perform (hS .fork trivial)).bind
  intro child
  cases child with
  | error err => exact Only.pure _
  | ok pid =>
    dsimp only
    split
    · exact (only_pollRepair (hS _ trivial) (hS _ trivial) (hS _ trivial) _ 0).bind fun _ => Only.pure _
    · exact (only_perform (hS (.waitpid pid true) trivial)).bind fun _ => Only.pure _

end Loop

/-! The loop is gone through once, for any monitor: what its own calls keep, the loop keeps. -/

theorem consider_doShutdown {cfg : Config} {result code : Int} (h : consider cfg result = some (.doShutdown code)) :
    cfg.noAct = false := by
  unfold consider Config.request at h
  split at h
  · cases h
  · split at h
    · cases h
    · next hno => exact Bool.eq_false_iff.mpr hno

/-- A request is one for the result, or for what the repair answered. -/
theorem plan_request {cfg : Config} {now result : Int} {act : Option Entry} {out : Outcome}
    (h : plan cfg now result act = .settled out) : out.request = none ∨ out.request = consider cfg result := by
  unfold plan at h
  split at h
  · exact Or.inl (Plan.settled.inj h ▸ rfl)
  · split at h
    · exact Or.inl (Plan.settled.inj h ▸ rfl)
    · split at h
      · exact Or.inr (Plan.settled.inj h ▸ rfl)
      · split at h
        · split at h
          · cases h
          · exact Or.inr (Plan.settled.inj h ▸ rfl)
        · exact Or.inl (Plan.settled.inj h ▸ rfl)

/-- What a monitor has to say about the checks. -/
structure Checked {μ : Type} (M : Monitor Call Answer μ) (E I : μ → Prop) (o : Options) : Prop where
  call : ∀ m q, CheckCall q → I m → M.ok m q ∧ ∀ r, I (M.next m q r)
  shutdown : o.noAct = false → ∀ m code, I m → M.ok m (.doShutdown code) ∧ ∀ r, E (M.next m (.doShutdown code) r)

namespace Checked
variable {μ : Type} {M : Monitor Call Answer μ} {E I : μ → Prop} {o : Options}

theorem perform (h : Checked M E I o) {q : Call} (hq : CheckCall q) : Triple M E I (perform q) I :=
  Triple.of_only (S := CheckCall) (only_perform (X := False) hq) h.call fun h => h.elim

theorem action (h : Checked M E I o) (g : Globals) (act : Option Entry) (result : Int) :
    Triple M E I (action o g act result) I := by
  apply (h.perform (q := .time) trivial).bind
  intro (now : Int) m hm
  have hout : Wp M (fun out m => I m ∧ ∀ code, out.request = some (.doShutdown code) → o.noAct = false) E
      (wdAction (fun rbinary result _ _ => repair repairSys (config o g) rbinary result)
        (config o g) now result (g (.str .repairBin)) act) m := by
    rw [wdAction_eq]
    split
    · next out hplan =>
      refine ⟨hm, fun code hcode => ?_⟩
      rcases plan_request hplan with hnone | hsome
      · rw [hnone] at hcode
        cases hcode
      · exact consider_doShutdown (hsome ▸ hcode)
    · have hrepair : Triple M E I (repair repairSys (config o g) (repairBinary (g (.str .repairBin)) act) result) I :=
        Triple.of_only (only_repair (X := False) (fun _ hq => hq) _ _ _) h.call fun h => h.elim
      apply (hrepair m hm).bind
      intro answer m' hm'
      exact ⟨hm', fun code hcode => consider_doShutdown hcode⟩
  apply hout.bind
  intro out m' hm'
  obtain ⟨hi, hcode⟩ := hm'
  split
  · next code hrequest =>
    obtain ⟨hok, hend⟩ := h.shutdown (hcode code hrequest) m' code hi
    exact ⟨hok, fun r _ => hend r⟩
  · exact hi

theorem refresh (h : Checked M E I o) (g : Globals) : Triple M E I (refresh o g) I := by
  apply (h.perform (q := .keepAlive) trivial).bind
  intro (result : Int)
  exact (h.action g none result).bind fun _ _ hm => hm

theorem doCheck (h : Checked M E I o) (g : Globals) (source : Source) (acts : List Entry) :
    Triple M E I (doCheck o g source acts) I := by
  apply (h.perform (q := (.check source)) trivial).bind
  intro (result : Int)
  apply (h.action g _ result).bind
  intro act
  exact (h.refresh g).bind fun _ _ hm => hm

/-- The checks of a cycle. -/
theorem checks (h : Checked M E I o) (g : Globals) (sources : List Source) (acts : List Entry) :
    Triple M E I (sources.foldlM (fun acts source => Daemon.doCheck o g source acts) acts) I :=
  Triple.foldlM fun source _ acts => h.doCheck g source acts

end Checked

/-- What a monitor has to say about the loop. -/
structure Looped {μ : Type} (M : Monitor Call Answer μ) (E I : μ → Prop) (o : Options) : Prop where
  call : ∀ m q, LoopCall q → I m → M.ok m q ∧ ∀ r, I (M.next m q r)
  shutdown : o.noAct = false → ∀ m code, I m → M.ok m (.doShutdown code) ∧ ∀ r, E (M.next m (.doShutdown code) r)

namespace Looped
variable {μ : Type} {M : Monitor Call Answer μ} {E I : μ → Prop} {o : Options}

theorem checked (h : Looped M E I o) : Checked M E I o :=
  ⟨fun m q hq => h.call m q hq.loopCall, h.shutdown⟩

theorem perform (h : Looped M E I o) {q : Call} (hq : LoopCall q) : Triple M E I (perform q) I :=
  Triple.of_only (S := LoopCall) (only_perform (X := False) hq) h.call fun h => h.elim

theorem logTick (h : Looped M E I o) (g : Globals) (s : State) : Triple M E I (logTick g s) I := by
  refine Triple.ite (fun _ => Triple.ite (fun _ => ?_) fun _ _ hm => hm) fun _ _ hm => hm
  exact (h.perform (Or.inr rfl)).bind fun _ _ hm => hm

theorem countExit (h : Looped M E I o) (s : State) : Triple M E I (countExit o s) I := by
  refine Triple.ite (fun _ => ?_) fun _ _ hm => hm
  exact (h.perform (Or.inr rfl)).bind fun _ _ hm => hm

theorem cycle (h : Looped M E I o) (g : Globals) (s : State) : Triple M E I (cycle o g s) I := by
  apply (h.checked.refresh g).bind
  intro _
  apply (h.checked.checks g _ _).bind
  intro acts
  apply (h.perform (Or.inl rfl)).bind
  intro _
  apply (h.perform (Or.inr rfl)).bind
  intro _
  apply (h.perform (Or.inl rfl)).bind
  intro _
  exact (h.logTick g _).bind fun s' => h.countExit s'

theorem mainLoop (h : Looped M E I o) (g : Globals) :
    ∀ (cycles : Nat) (s : State), Triple M E I (mainLoop o g cycles s) I
  | 0, _ => fun _ hm => hm
  | cycles + 1, s => by
    refine Triple.ite (fun _ => ?_) fun _ _ hm => hm
    apply (h.perform (Or.inr rfl)).bind
    intro (running : Bool)
    refine Triple.ite (fun _ => ?_) fun _ _ hm => hm
    exact (h.cycle g s).bind fun s' => h.mainLoop g cycles s'

end Looped

/-! So are the start and the end. `J k` is to hold when stage `k` has been gone through. -/

/-- What a monitor has to say about the start. -/
structure Started {μ : Type} (M : Monitor Call Answer μ) (E : μ → Prop) (J : Nat → μ → Prop) (o : Options) :
    Prop where
  step : ∀ {k q}, stage q = some (k + 1) → k + 1 ≤ 11 → q ≠ .writePidFile → q ≠ .openWatchdog →
    Triple M E (J k) (perform q) (J (k + 1))
  skip : ∀ {k m}, k + 1 < 5 → J k m → J (k + 1) m
  pidFile : Triple M E (J 4) (takePidFile o) (J 5)
  device : Triple M E (J 5) (openDevice o) (J 6)
  exit : ∀ {k m}, J k m → E m

theorem Started.startUp {μ : Type} {M : Monitor Call Answer μ} {E : μ → Prop} {J : Nat → μ → Prop} {o : Options}
    (h : Started M E J o) (g : Globals) : Triple M E (J 0) (startUp o g) (J 11) := by
  have htargets : Triple M E (J 1) (openTargets g) (J 2) := by
    refine Triple.ite (fun _ => ?_) fun _ _ hm => h.skip (by decide) hm
    apply (h.step (k := 1) rfl (by decide) (by decide) (by decide)).bind
    intro (status : Option Int)
    cases status with
    | none => exact fun _ hm => hm
    | some code => exact fun _ hm => h.exit hm
  have hinsist : ∀ {k : Nat} {p : P Bool} (code : Int), Triple M E (J k) p (J (k + 1)) →
      Triple M E (J k) (insist code p) (J (k + 1)) :=
    fun code hp => triple_insist code hp fun _ hm => h.exit hm
  have hdaemonize : Triple M E (J 3) (daemonize o) (J 4) :=
    Triple.ite (fun _ => hinsist _ (h.step rfl (by decide) (by decide) (by decide)))
      fun _ _ hm => h.skip (by decide) hm
  apply (hinsist (k := 0) _ (h.step rfl (by decide) (by decide) (by decide))).bind
  intro _
  apply htargets.bind
  intro _
  apply (hinsist (k := 2) _ (h.step rfl (by decide) (by decide) (by decide))).bind
  intro _
  apply hdaemonize.bind
  intro _
  apply h.pidFile.bind
  intro _
  apply h.device.bind
  intro _
  apply (h.step (k := 6) rfl (by decide) (by decide) (by decide)).bind
  intro _
  apply (hinsist (k := 7) _ (h.step rfl (by decide) (by decide) (by decide))).bind
  intro _
  apply (h.step (k := 8) rfl (by decide) (by decide) (by decide)).bind
  intro _
  apply (h.step (k := 9) rfl (by decide) (by decide) (by decide)).bind
  intro _
  exact h.step (k := 10) rfl (by decide) (by decide) (by decide)

/-- A call of the end. -/
def EndCall (q : Call) : Prop := stage q = none ∨ ∃ k, stage q = some k ∧ 14 ≤ k

/-- The end does not come back. -/
theorem triple_terminate {μ : Type} {M : Monitor Call Answer μ} {E I : μ → Prop} (ecode : Int)
    (hcall : ∀ m q, EndCall q → I m → M.ok m q ∧ ∀ r, I (M.next m q r)) (hexit : ∀ m, I m → E m) :
    Triple M E I (terminate ecode) (fun _ => False) := by
  have hstep : ∀ {q : Call}, EndCall q → Triple M E I (perform q) I := fun hq =>
    Triple.of_only (S := EndCall) (only_perform (X := False) hq) hcall fun h => h.elim
  have hend : ∀ {q : Call} {k : Nat}, stage q = some k → 14 ≤ k → Triple M E I (perform q) I :=
    fun hq hk => hstep (Or.inr ⟨_, hq, hk⟩)
  have hclose : Triple M E I closeAll I := by
    apply (hend rfl (by decide)).bind
    intro _
    apply (hend rfl (by decide)).bind
    intro _
    apply (hend rfl (by decide)).bind
    intro _
    apply (hend rfl (by decide)).bind
    intro _
    exact (hend rfl (by decide)).bind fun _ => hend rfl (by decide)
  apply (hend rfl (by decide)).bind
  intro _
  apply (hend rfl (by decide)).bind
  intro _
  apply hclose.bind
  intro _
  apply (hend rfl (by decide)).bind
  intro _
  apply (hend rfl (by decide)).bind
  intro _
  exact (hstep (Or.inl rfl)).bind fun _ m hm => hexit m hm

/-- The loop as `main` starts it. -/
def State.first (g : Globals) : State := { acts := entries g, ticker := g (.int .ticker) }

/-- The whole of `main`, from its parts. `K` is what the loop leaves. -/
theorem wp_main {μ : Type} {M : Monitor Call Answer μ} {E Q : μ → Prop} {J : Nat → μ → Prop} {K : State → μ → Prop}
    {o : Options} (hstart : Started M E J o) {env : ConfEnv} {minload : Int} {configfile : Option CString} {cycles : Nat}
    (hloop : ∀ g, readConfig env (startGlobals o) configfile = .ok g → ∀ m, J 11 m →
      Wp M K E (mainLoop o (zeroRetry g) cycles (State.first (zeroRetry g))) m)
    (hend : ∀ s m, K s m → s.running = false → Wp M (fun _ => Q) E (terminate 0) m)
    (hcut : ∀ s m, K s m → s.running = true → Q m) {m : μ} (hm : J 0 m) :
    Wp M (fun _ => Q) E (main env minload o configfile cycles) m := by
  unfold main
  split
  · exact hstart.exit hm
  · next g hread =>
    refine Wp.ite (fun _ => hstart.exit hm) fun _ => ?_
    apply (hstart.startUp (zeroRetry g) m hm).bind
    intro _ m₁ hm₁
    apply (hloop g hread m₁ hm₁).bind
    intro s m₂ hm₂
    refine Wp.ite (fun hstop => hend s m₂ hm₂ ?_) fun hrun => hcut s m₂ hm₂ ?_
    · rwa [Bool.not_eq_true'] at hstop
    · rwa [Bool.not_eq_true, Bool.not_eq_false'] at hrun

theorem triple_main {μ : Type} {M : Monitor Call Answer μ} {E : μ → Prop} {J : Nat → μ → Prop} {o : Options}
    (hstart : Started M E J o) (hloop : Looped M E (J 12) o) (hfirst : ∀ m, J 11 m → J 12 m)
    (hend : Triple M E (J 12) (terminate 0) E) (env : ConfEnv) (minload : Int) (configfile : Option CString)
    (cycles : Nat) : Triple M E (J 0) (main env minload o configfile cycles) E :=
  fun _ hm => wp_main hstart (fun g _ m hm => hloop.mainLoop (zeroRetry g) cycles _ m (hfirst m hm))
    (fun _ m hm _ => hend m hm) (fun _ _ hm _ => hstart.exit hm) hm

/-! ## In order -/

abbrev InStages (a b : Nat) {α : Type} (p : P α) : Prop := InPhases stage StageOrder a b p

theorem inStages_perform {a b : Nat} {q : Call} (hq : stage q = some b) (h : a < b) :
    InStages a b (perform q) := by
  have hask : InStages a b (Prog.ask q : P (Answer q)) :=
    InPhases.ask hq fun _ hm => Or.inl (Nat.lt_of_le_of_lt hm h)
  exact hask.bind fun _ => InPhases.pure _

theorem started_stages (o : Options) :
    Started (phaseMonitor Answer stage StageOrder) (fun _ => True) (fun k m => m ≤ k) o where
  step := fun hq _ _ _ => inStages_perform hq (Nat.lt_succ_self _)
  skip := fun _ hm => Nat.le_succ_of_le hm
  pidFile := Triple.ite
    (fun _ => triple_insist _ (inStages_perform rfl (by decide)) fun _ _ => trivial)
    fun _ _ hm => Nat.le_succ_of_le hm
  device := Triple.ite (fun _ => (inStages_perform rfl (by decide)).bind fun _ => InPhases.pure ())
    fun _ _ hm => Nat.le_succ_of_le hm
  exit := fun _ => trivial

theorem looped_stages (o : Options) :
    Looped (phaseMonitor Answer stage StageOrder) (fun _ => True) (· ≤ 12) o where
  call := fun _ _ hq hm => phaseMonitor_keeps (fun _ => stageOrder_loop) hq hm
  shutdown := by
    intro _ m code hm
    refine ⟨fun k hk => ?_, fun _ => trivial⟩
    rw [← Option.some.inj hk]
    exact Or.inl (Nat.lt_succ_of_le hm)

theorem inStages_terminate (ecode : Int) : InStages 12 23 (terminate ecode) := by
  have hclose : InStages 15 21 closeAll := by
    apply (inStages_perform rfl (by decide)).bind
    intro _
    apply (inStages_perform rfl (by decide)).bind
    intro _
    apply (inStages_perform rfl (by decide)).bind
    intro _
    apply (inStages_perform rfl (by decide)).bind
    intro _
    exact (inStages_perform rfl (by decide)).bind fun _ => inStages_perform rfl (by decide)
  apply (inStages_perform (b := 14) rfl (by decide)).bind
  intro _
  apply (inStages_perform rfl (by decide)).bind
  intro _
  apply hclose.bind
  intro _
  apply (inStages_perform rfl (by decide)).bind
  intro _
  apply (inStages_perform (b := 23) rfl (by decide)).bind
  intro _
  refine Triple.bind (J := (· ≤ 23)) ?_ fun _ _ _ => trivial
  exact fun m hm => ⟨fun _ hk => absurd hk (by simp [stage]), fun _ _ => hm⟩

theorem staged_main (env : ConfEnv) (minload : Int) (o : Options) (configfile : Option CString) (cycles : Nat) :
    Triple (phaseMonitor Answer stage StageOrder) (fun _ => True) (· ≤ 0) (main env minload o configfile cycles)
      (fun _ => True) :=
  triple_main (started_stages o) (looped_stages o) (fun _ hm => Nat.le_succ_of_le hm)
    ((inStages_terminate 0).conseq (fun _ hm => hm) fun _ _ => trivial) env minload configfile cycles

/-! The stages alone do not say that `do_shutdown` is the last call: the end has later ones, and the pauses have none. -/

/-- The system is going down. -/
def ShutDown (tr : List (Sigma Answer)) : Prop := ∃ code r, ⟨.doShutdown code, r⟩ ∈ tr

/-- Nothing is called once `do_shutdown` was. -/
def upMonitor : Monitor Call Answer (List (Sigma Answer)) := Monitor.history fun tr _ => ¬ ShutDown tr

theorem not_shutDown_concat {tr : List (Sigma Answer)} (h : ¬ ShutDown tr) {q : Call} (hq : stage q ≠ some 13)
    (r : Answer q) : ¬ ShutDown (tr ++ [⟨q, r⟩]) := by
  rintro ⟨code, r', hmem⟩
  rcases List.mem_append.mp hmem with hmem | hmem
  · exact h ⟨code, r', hmem⟩
  · exact hq (congrArg (fun e => stage e.1) (List.mem_singleton.mp hmem)).symm

theorem up_perform {q : Call} (hq : stage q ≠ some 13) :
    Triple upMonitor (fun _ => True) (fun tr => ¬ ShutDown tr) (perform q) (fun tr => ¬ ShutDown tr) :=
  fun _ htr => ⟨htr, fun r _ => not_shutDown_concat htr hq r⟩

theorem started_up (o : Options) : Started upMonitor (fun _ => True) (fun _ tr => ¬ ShutDown tr) o where
  step := by
    intro k q hstage hk _ _
    refine up_perform fun h => ?_
    rw [hstage, Option.some.injEq] at h
    omega
  skip := fun _ htr => htr
  pidFile := Triple.ite (fun _ => triple_insist _ (up_perform (by decide)) fun _ _ => trivial) fun _ _ htr => htr
  device := Triple.ite (fun _ => (up_perform (by decide)).bind fun _ _ htr => htr) fun _ _ htr => htr
  exit := fun _ => trivial

theorem looped_up (o : Options) : Looped upMonitor (fun _ => True) (fun tr => ¬ ShutDown tr) o where
  call := by
    intro tr q hq htr
    refine ⟨htr, fun r => not_shutDown_concat htr (fun h => ?_) r⟩
    rcases hq with hq | hq <;> rw [hq] at h <;> simp at h
  shutdown := fun _ _ _ htr => ⟨htr, fun _ => trivial⟩

theorem up_main (env : ConfEnv) (minload : Int) (o : Options) (configfile : Option CString) (cycles : Nat) :
    Triple upMonitor (fun _ => True) (fun tr => ¬ ShutDown tr) (main env minload o configfile cycles) (fun _ => True) := by
  refine triple_main (started_up o) (looped_up o) (fun _ h => h) ?_ env minload configfile cycles
  refine (triple_terminate 0 ?_ fun _ _ => trivial).conseq (fun _ h => h) fun _ _ => trivial
  intro tr q hq htr
  refine ⟨htr, fun r => not_shutDown_concat htr (fun h => ?_) r⟩
  obtain hq | ⟨k, hq, hle⟩ := hq
  · rw [hq] at h
    cases h
  · rw [hq, Option.some.injEq] at h
    omega

/-- **The daemon lives in order.** In every run, the steps of the start and of the end come
in the order of the source, each at most once, and the calls of the loop between them; after
`do_shutdown` there is none at all. -/
theorem stages_in_order (env : ConfEnv) (minload : Int) (o : Options) (configfile : Option CString)
    (cycles : Nat) (answers : Nat → (q : Call) → Answer q) :
    (((main env minload o configfile cycles).calls answers 0).filterMap stage).Pairwise StageOrder ∧
      ∀ pre post code r,
        (main env minload o configfile cycles).trace answers 0 = pre ++ ⟨.doShutdown code, r⟩ :: post → post = [] := by
  refine ⟨pairwise_phases (staged_main env minload o configfile cycles) (fun _ _ _ => StageOrder.trans) answers 0, ?_⟩
  intro pre post code r hsplit
  cases post with
  | nil => rfl
  | cons e post =>
    have hnext : (main env minload o configfile cycles).trace answers 0 =
        (pre ++ [⟨.doShutdown code, r⟩]) ++ e :: post := by
      rw [hsplit, List.append_assoc, List.singleton_append]
    have hup := (up_main env minload o configfile cycles [] (fun ⟨_, _, h⟩ => by cases h)).history_split hnext
    exact absurd ⟨code, r, List.mem_append_right _ (List.mem_singleton.mpr rfl)⟩ hup

/-! ## One daemon -/

/-- `write_pid_file` has succeeded, and never failed. -/
structure Locked (tr : List (Sigma Answer)) : Prop where
  taken : ∃ t, ⟨.writePidFile, (true, t)⟩ ∈ tr
  never : ∀ t, ⟨.writePidFile, (false, t)⟩ ∉ tr

/-- Nothing is called after a refusal, and nothing from the device on without the file. -/
def lockMonitor : Monitor Call Answer (List (Sigma Answer)) :=
  Monitor.history fun tr q =>
    (∀ t, ⟨.writePidFile, (false, t)⟩ ∉ tr) ∧ ∀ k, stage q = some k → 5 < k → Locked tr

theorem not_mem_concat {tr : List (Sigma Answer)} (h : ∀ t, ⟨.writePidFile, (false, t)⟩ ∉ tr) {q : Call}
    (hq : q ≠ .writePidFile) (r : Answer q) (t : Nat) : ⟨.writePidFile, (false, t)⟩ ∉ tr ++ [⟨q, r⟩] := by
  intro hmem
  rcases List.mem_append.mp hmem with hmem | hmem
  · exact h t hmem
  · exact hq (congrArg Sigma.fst (List.mem_singleton.mp hmem)).symm

theorem Locked.concat {tr : List (Sigma Answer)} (h : Locked tr) {q : Call} (hq : q ≠ .writePidFile)
    (r : Answer q) : Locked (tr ++ [⟨q, r⟩]) where
  taken := h.taken.imp fun _ hmem => List.mem_append_left _ hmem
  never := not_mem_concat h.never hq r

/-- Before the PID file is written. -/
theorem unlocked_perform {q : Call} (hq : q ≠ .writePidFile) (hstage : ∀ k, stage q = some k → k ≤ 5) :
    Triple lockMonitor (fun _ => True) (fun tr => ∀ t, ⟨.writePidFile, (false, t)⟩ ∉ tr) (perform q)
      (fun tr => ∀ t, ⟨.writePidFile, (false, t)⟩ ∉ tr) := by
  intro tr htr
  refine ⟨⟨htr, fun k hk hlt => ?_⟩, fun r _ => not_mem_concat htr hq r⟩
  exact absurd (hstage k hk) (by omega)

theorem locked_perform {q : Call} (hq : q ≠ .writePidFile) :
    Triple lockMonitor (fun _ => True) Locked (perform q) Locked :=
  fun _ htr => ⟨⟨htr.never, fun _ _ _ => htr⟩, fun r _ => htr.concat hq r⟩

theorem looped_locked (o : Options) : Looped lockMonitor (fun _ => True) Locked o where
  call := by
    intro tr q hq htr
    refine ⟨⟨htr.never, fun _ _ _ => htr⟩, fun r => htr.concat ?_ r⟩
    rintro rfl
    exact hq.elim (fun h => by cases h) fun h => absurd h (by decide)
  shutdown := fun _ tr _ htr => ⟨⟨htr.never, fun _ _ _ => htr⟩, fun _ => trivial⟩

/-- Only the daemon that gets the file goes on. -/
theorem locked_takePidFile {o : Options} (hforce : o.force = false) :
    Triple lockMonitor (fun _ => True) (fun tr => ∀ t, ⟨.writePidFile, (false, t)⟩ ∉ tr) (takePidFile o)
      Locked := by
  unfold takePidFile
  rw [hforce, Bool.not_false, if_pos rfl]
  intro tr htr
  refine ⟨⟨htr, fun k hk hlt => ?_⟩, ?_⟩
  · rw [← Option.some.inj hk] at hlt
    exact absurd hlt (by decide)
  · rintro ⟨(ok : Bool), t⟩ -
    cases ok with
    | false => trivial
    | true =>
      refine ⟨⟨t, List.mem_append_right _ (List.mem_singleton.mpr rfl)⟩, fun u hmem => ?_⟩
      rcases List.mem_append.mp hmem with hmem | hmem
      · exact htr u hmem
      · cases List.mem_singleton.mp hmem

theorem started_locked {o : Options} (hforce : o.force = false) :
    Started lockMonitor (fun _ => True)
      (fun k tr => if k < 5 then ∀ t, ⟨.writePidFile, (false, t)⟩ ∉ tr else Locked tr) o where
  step := by
    intro k q hstage _ hq _
    by_cases hk : k + 1 < 5
    · simp only [hk, if_true, Nat.lt_of_succ_lt hk]
      refine unlocked_perform hq fun j hj => ?_
      rw [hstage, Option.some.injEq] at hj
      omega
    · have hne : k + 1 ≠ 5 := fun h => by
        rw [h] at hstage
        cases q <;> first | exact hq rfl | cases hstage
      simp only [hk, if_false, show ¬ k < 5 by omega]
      exact locked_perform hq
  skip := by
    intro k m hk hm
    rw [if_pos hk]
    rwa [if_pos (Nat.lt_of_succ_lt hk)] at hm
  pidFile := locked_takePidFile hforce
  device := Triple.ite (fun _ => (locked_perform (by decide)).bind fun _ _ htr => htr) fun _ _ htr => htr
  exit := fun _ => trivial

/-- **One daemon has the device.** Without `--force`, whatever a daemon calls from the opening
of the device to its end, it calls after its `write_pid_file` has succeeded; refused, it calls
nothing more. -/
theorem locked_first (env : ConfEnv) (minload : Int) (o : Options) (hforce : o.force = false)
    (configfile : Option CString) (cycles : Nat) (answers : Nat → (q : Call) → Answer q)
    (pre post : List (Sigma Answer)) (e : Sigma Answer)
    (hsplit : (main env minload o configfile cycles).trace answers 0 = pre ++ e :: post) :
    (∀ t, ⟨.writePidFile, (false, t)⟩ ∉ pre) ∧
      ∀ k, stage e.1 = some k → 5 < k → ∃ t, ⟨.writePidFile, (true, t)⟩ ∈ pre := by
  have hend : Triple lockMonitor (fun _ => True) Locked (terminate 0) (fun _ => True) := by
    refine (triple_terminate 0 ?_ fun _ _ => trivial).conseq (fun _ h => h) fun _ _ => trivial
    intro tr q hq htr
    refine ⟨⟨htr.never, fun _ _ _ => htr⟩, fun r => htr.concat ?_ r⟩
    rintro rfl
    obtain h | ⟨k, hk, hle⟩ := hq
    · cases h
    · rw [← Option.some.inj hk] at hle
      exact absurd hle (by decide)
  have hmain := triple_main (started_locked hforce) (looped_locked o) (fun _ h => h) hend env minload configfile
    cycles [] (by simp)
  obtain ⟨hnever, hlocked⟩ := hmain.history_split hsplit
  exact ⟨hnever, fun k hk hlt => (hlocked k hk hlt).taken⟩

/-- With an empty configuration file, the device is opened with the PID file written. -/
theorem locked_first_calm :
    ∃ t, ⟨.writePidFile, (true, t)⟩ ∈
      ((main ⟨true, fun _ => none, fun _ => none⟩ 2 {} (some []) 1).trace calm 0).take 4 := by
  have hlong : 4 < ((main ⟨true, fun _ => none, fun _ => none⟩ 2 {} (some []) 1).trace calm 0).length := by
    decide +kernel
  have hopen : (((main ⟨true, fun _ => none, fun _ => none⟩ 2 {} (some []) 1).trace calm 0)[4]?.bind
      fun e => stage e.1) = some 6 := by
    decide +kernel
  rw [List.getElem?_eq_getElem hlong, Option.bind_some] at hopen
  refine (locked_first _ 2 {} rfl (some []) 1 calm _ _ _
    ((List.take_append_drop 4 _).symm.trans (by rw [List.drop_eq_getElem_cons hlong]))).2 6 hopen (by decide)

/-! ## No action -/

/-- It neither opens the device nor shuts the system down. -/
def Harmless (q : Call) : Prop := q ≠ .openWatchdog ∧ ∀ code, q ≠ .doShutdown code

def harmMonitor : Monitor Call Answer Unit where
  next _ _ _ := ()
  ok _ q := Harmless q
  allows _ _ _ := True

theorem harmless_of_stage {q : Call} (h₆ : stage q ≠ some 6) (h₁₃ : stage q ≠ some 13) : Harmless q := by
  refine ⟨?_, ?_⟩
  · rintro rfl
    exact h₆ rfl
  · rintro code rfl
    exact h₁₃ rfl

theorem looped_harmless {o : Options} (hno : o.noAct = true) (E : Unit → Prop) :
    Looped harmMonitor E (fun _ => True) o where
  call := by
    intro _ q hq _
    refine ⟨harmless_of_stage ?_ ?_, fun _ => trivial⟩
    all_goals
      intro h
      rcases hq with hq | hq <;> rw [hq] at h <;> simp at h
  shutdown := fun h => by
    rw [hno] at h
    cases h

theorem started_harmless {o : Options} (hno : o.noAct = true) :
    Started harmMonitor (fun _ => True) (fun _ _ => True) o where
  step := by
    intro k q hq hk _ hdevice
    have h₁₃ : stage q ≠ some 13 := fun h => by
      rw [hq, Option.some.injEq] at h
      omega
    refine fun _ _ => ⟨⟨hdevice, ?_⟩, fun _ _ => trivial⟩
    rintro code rfl
    exact h₁₃ rfl
  skip := fun _ _ => trivial
  pidFile := Triple.ite
    (fun _ => triple_insist _ (fun _ _ => ⟨harmless_of_stage (by decide) (by decide), fun _ _ => trivial⟩)
      fun _ _ => trivial)
    fun _ _ _ => trivial
  device := by
    unfold openDevice
    rw [hno]
    exact fun _ _ => trivial
  exit := fun _ => trivial

/-- **With `--no-action` the daemon only looks on.** No run opens the device or shuts the
system down, and whatever the checks find, the loop goes on: it is left only through its end. -/
theorem no_action_goes_on (env : ConfEnv) (minload : Int) (o : Options) (hno : o.noAct = true)
    (configfile : Option CString) (cycles : Nat) (answers : Nat → (q : Call) → Answer q) :
    (∀ q ∈ (main env minload o configfile cycles).calls answers 0, Harmless q) ∧
      ∀ (g : Globals) (s : State) (n : Nat), ((mainLoop o g cycles s).result answers n).isSome := by
  refine ⟨fun q hmem => ?_, fun g s n => ?_⟩
  · have hend : Triple harmMonitor (fun _ => True) (fun _ => True) (terminate 0) (fun _ => True) := by
      refine (triple_terminate 0 ?_ fun _ h => h).conseq (fun _ h => h) fun _ _ => trivial
      refine fun _ q hq _ => ⟨harmless_of_stage ?_ ?_, fun _ => trivial⟩
      all_goals
        intro h
        obtain hq | ⟨k, hq, hle⟩ := hq
        · rw [hq] at h
          cases h
        · rw [hq, Option.some.injEq] at h
          omega
    have hmain := triple_main (started_harmless hno) (looped_harmless hno _) (fun _ h => h) hend env minload
      configfile cycles () trivial
    have hguarded := (hmain.sound answers 0 (Monitor.follows_of_allows (fun _ _ _ => trivial) _ _)).1
    obtain ⟨pre, post, hcalls⟩ := List.append_of_mem hmem
    obtain ⟨tr, e, tr', htrace, -, rfl⟩ := Monitor.exists_split hcalls
    rw [htrace] at hguarded
    exact hguarded.at_split
  · have hloop := (looped_harmless hno fun _ => False).mainLoop g cycles s () trivial
    have hreturn := (hloop.sound answers n (Monitor.follows_of_allows (fun _ _ _ => trivial) _ _)).2
    split at hreturn
    · next hsome => rw [hsome]; rfl
    · exact hreturn.elim

theorem no_action_goes_on_calm :
    .openWatchdog ∉ (main ⟨true, fun _ => none, fun _ => none⟩ 2 { noAct := true } (some []) 1).calls calm 0 :=
  fun h => ((no_action_goes_on _ 2 { noAct := true } rfl (some []) 1 calm).1 _ h).1 rfl

end Watchdog.Daemon
