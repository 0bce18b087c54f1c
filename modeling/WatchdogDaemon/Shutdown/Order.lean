import WatchdogDaemon.Shutdown.DoShutdown
import WatchdogDaemon.Shutdown.MountCalls
import WatchdogDaemon.Lib.Phases

/- The order of a shutdown.

   The steps of `try_clean_shutdown` only make sense in their order: the processes get
   SIGTERM before SIGKILL, nothing is unmounted while a process that could use it has not
   been told to end, and the machine is rebooted last. Many of the calls may fail, and what
   follows does not depend on it.

   What is proved, over every error code, every set-up and every way the calls can turn out:
     1. `phases_in_order` — up to the last `reboot` no call of an earlier phase follows one of
        a later phase, and behind it there is only `panic`.
     2. `stopped_only_to_kill` — between the SIGSTOP and the SIGCONT to all processes there is
        nothing but the listing and the killing, and a shutdown never ends in between, given
        that the daemon knows its process id and so does not kill itself. -/
namespace Watchdog.Shutdown
open CallTree

/-! ## Phases -/

/-- The phase that a call before the reboot belongs to. The refreshes of the device, the pauses, the listing of the
processes and the two broadcasts around it belong to none: they come back again and again. -/
def phase : Call → Option Nat
  | .sys s =>
    match s with
    | .statSendmail | .popenSendmail | .fprintfMail | .gethostbyname | .pclose => some 0
    | .isatty _ | .close _ => some 1
    | .ignoreSignal _ => some 2
    | .kill pid sig =>
      if pid = -1 ∧ (sig = sigstop ∨ sig = sigcont) then none
      else if sig = sigterm then some 4
      else if sig = sigkill then some 5
      -- SIGTSTP, which init gets
      else some 3
    | .unlinkPidFile => some 6
    | .openWtmp | .writeWtmp => some 7
    | .openUrandom | .creatSeed | .readUrandom | .writeSeed => some 8
    | .acct => some 9
    | .swapoff _ | .quotaoff _ _ => some 10
    | .openMounted | .openLock | .fcntlLock | .closeLock | .unlinkLock | .fopenTemp | .fseekTemp
    | .fprintfTemp _ | .fchmodTemp | .renameTemp | .badLine _ _ | .badMode | .openLoop _ | .clearLoop _
    | .sync => some 11
    | .socket | .setFlags _ => some 12
    | .sleep _ | .refresh | .heartbeat | .setTimeout _ => none
    -- Only `panic` makes these, which comes after all phases.
    | .writeMagic | .closeLoadcheck | .closeMemcheck | .closeTempcheck | .closeHeartbeat | .freeProcess => none
  | .fstab => some 10
  | .malloc | .fopen _ | .fgetsEnd _ | .lstatMounted | .lstatLock | .umount _ => some 11
  | .ifconf => some 12
  | .reboot _ => some 13
  | .calloc | .opendirProc | .getsid _ => none

/-- Every call of the program is of this phase. -/
abbrev OfPhase (k : Nat) {α : Type} (p : P α) : Prop := Only (fun q => phase q = some k) True p

theorem phase_mountCall {q : Call} (h : mountCall q = true) : phase q = some 11 := by
  have hplain : plainCall q = true → phase q = some 11 := by
    unfold plainCall
    split <;> first | exact fun _ => rfl | exact fun h => nomatch h
  have hlock : lockCall q = true → phase q = some 11 := by
    unfold lockCall closeCall
    split <;> try split
    all_goals first | exact fun _ => rfl | exact fun h => nomatch h
  have htemp : tempCall q = true → phase q = some 11 := by
    unfold tempCall
    split <;> first | exact fun _ => rfl | exact fun h => nomatch h
  unfold mountCall at h
  split at h
  · rfl
  · rfl
  · rw [tableCall, Bool.or_eq_true, Bool.or_eq_true] at h
    exact h.elim (fun h => h.elim hplain hlock) htemp

section Steps
variable (c : Setup)

theorem ofPhase_sys {k : Nat} {s : Sys} (h : phase (.sys s) = some k) : OfPhase k (sys s) := Only.ask h

theorem ofPhase_attempt {k : Nat} {s : Sys} (h : phase (.sys s) = some k) : OfPhase k (attempt s) :=
  (ofPhase_sys h).bind fun _ => Only.pure ()

theorem ofPhase_mail : OfPhase 0 (mail c) := by
  unfold mail
  cases c.admin with
  | none => exact Only.pure _
  | some admin =>
  apply (ofPhase_sys rfl).bind
  intro stat
  refine Only.ite ?_ (Only.pure _)
  refine Only.ite trivial ?_
  apply (ofPhase_sys rfl).bind
  intro ph
  refine Only.ite ?_ (Only.pure _)
  apply (ofPhase_sys rfl).bind
  intro sent
  refine Only.ite ?_ (ofPhase_attempt rfl)
  apply (ofPhase_attempt rfl).bind
  intro _
  apply (ofPhase_sys rfl).bind
  intro subject
  exact Only.ite ((ofPhase_attempt rfl).bind fun _ => ofPhase_attempt rfl) (ofPhase_attempt rfl)

theorem ofPhase_closeFiles : OfPhase 1 (closeFiles c) := by
  refine Only.bind (Only.forM fun i _ => ?_) fun _ => ?_
  · apply (ofPhase_sys rfl).bind
    intro tty
    exact Only.ite (ofPhase_attempt rfl) (Only.pure _)
  · refine Only.bind (Only.forM fun i _ => ?_) fun _ => ofPhase_attempt rfl
    exact Only.ite (ofPhase_attempt rfl) (Only.pure _)

theorem ofPhase_ignoreSignals : OfPhase 2 ignoreSignals := Only.forM fun _ _ => ofPhase_attempt rfl

theorem ofPhase_removePidFile : OfPhase 6 (removePidFile c) :=
  Only.ite (ofPhase_attempt rfl) (Only.pure _)

theorem ofPhase_recordWtmp : OfPhase 7 recordWtmp := by
  apply (ofPhase_sys rfl).bind
  intro fd
  exact Only.ite (ofPhase_attempt rfl) (Only.pure _)

theorem ofPhase_saveSeed : OfPhase 8 (saveSeed c) := by
  refine Only.ite ?_ (Only.pure _)
  apply (ofPhase_sys rfl).bind
  intro seed
  refine Only.ite ?_ (Only.pure _)
  apply (ofPhase_sys rfl).bind
  intro bck
  refine Only.ite ?_ (Only.pure _)
  apply (ofPhase_sys rfl).bind
  intro buf
  exact Only.ite (ofPhase_attempt rfl) (Only.pure _)

theorem ofPhase_entryOff (mnt : FstabEntry) : OfPhase 10 (entryOff mnt) := by
  have huser : OfPhase 10 (if mnt.usrquota then attempt (.quotaoff false mnt.fsname) else pure ()) :=
    Only.ite (ofPhase_attempt rfl) (Only.pure _)
  have hquota : OfPhase 10 (quotaOff mnt) :=
    Only.ite ((ofPhase_attempt rfl).bind fun _ => huser) huser
  have hrest : OfPhase 10
      (if !mnt.noauto && mnt.type = "ext2".toList then quotaOff mnt else pure ()) :=
    Only.ite hquota (Only.pure _)
  exact Only.ite ((ofPhase_attempt rfl).bind fun _ => hrest) hrest

theorem ofPhase_mntOff : OfPhase 10 mntOff := by
  refine Only.bind (Only.ask (c := Call.fstab) rfl) ?_
  intro (entries : Option (List FstabEntry))
  cases entries with
  | none => exact Only.pure _
  | some entries => exact Only.forM fun mnt _ => ofPhase_entryOff mnt

theorem ofPhase_umountAll (g : Mtab) : OfPhase 11 (umountAll g) :=
  (only_umountAll g).mono fun _ => phase_mountCall

theorem ofPhase_ifdown : OfPhase 12 ifdown := by
  apply (ofPhase_sys rfl).bind
  intro fd
  refine Only.ite ?_ (Only.pure _)
  refine Only.bind (Only.ask (c := Call.ifconf) rfl) ?_
  intro (names : Option (List CString))
  cases names with
  | none => exact Only.pure _
  | some names => exact Only.forM fun _ _ => Only.ite (ofPhase_attempt rfl) (Only.pure _)

/-- The calls that refresh the device, and the pauses between them. -/
def idleCall : Call → Bool
  | .sys (.sleep _) => true
  | .sys .refresh => true
  | .sys .heartbeat => true
  | .sys (.setTimeout _) => true
  | _ => false

abbrev OnlyIdle {α : Type} (p : P α) : Prop := Only (fun q => idleCall q = true) True p

theorem idle_attempt {s : Sys} (h : idleCall (.sys s) = true) : OnlyIdle (attempt s) := only_attempt h

theorem idle_keepAlive : OnlyIdle (keepAlive c) := by
  have hbeat : OnlyIdle (if c.heartbeat then attempt .heartbeat else pure ()) :=
    Only.ite (idle_attempt rfl) (Only.pure _)
  refine Only.ite ?_ (Only.pure _)
  exact Only.ite ((idle_attempt rfl).bind fun _ => hbeat) ((idle_attempt rfl).bind fun _ => hbeat)

theorem idle_safeSleep (sec : Int) : OnlyIdle (safeSleep c sec) := by
  refine (idle_keepAlive c).bind fun _ => Only.forM fun _ _ => ?_
  exact (idle_attempt rfl).bind fun _ => idle_keepAlive c

theorem idle_tryOtherTimes (timeout : Int) (times : List Int) : OnlyIdle (tryOtherTimes timeout times) := by
  induction times with
  | nil => exact Only.pure _
  | cons tmp rest ih =>
    refine Only.ite ?_ ih
    refine Only.bind (Only.ask (c := Call.sys (.setTimeout tmp)) rfl) fun (_ : Bool) => ?_
    exact Only.ite (Only.pure _) ih

theorem idle_quickReboot : OnlyIdle (quickReboot c) := by
  refine Only.ite ?_ (Only.pure _)
  refine Only.bind ?_ fun _ => idle_attempt rfl
  refine Only.ite ?_ (Only.pure _)
  refine Only.bind (Only.ask (c := Call.sys (.setTimeout 1)) rfl) fun (_ : Bool) => ?_
  exact Only.ite (idle_tryOtherTimes 1 [3, 5, 10]) (Only.pure _)

/-- The calls of `panic`. -/
def panicCall : Call → Bool
  | .sys (.sleep _) => true
  | .sys .writeMagic => true
  | .sys (.close _) => true
  | .sys .closeLoadcheck => true
  | .sys .closeMemcheck => true
  | .sys .closeTempcheck => true
  | .sys .closeHeartbeat => true
  | .sys .freeProcess => true
  | _ => false

abbrev OnlyPanic {α : Type} (p : P α) : Prop := Only (fun q => panicCall q = true) True p

theorem panic_attempt {s : Sys} (h : panicCall (.sys s) = true) : OnlyPanic (attempt s) := only_attempt h

theorem only_panic : OnlyPanic (panic c) := by
  have hwatchdog : OnlyPanic (closeWatchdog c) :=
    Only.ite ((panic_attempt rfl).bind fun _ => panic_attempt rfl) (Only.pure _)
  have hclose : OnlyPanic (closeAll c) := by
    apply hwatchdog.bind
    intro _
    apply (panic_attempt rfl).bind
    intro _
    apply (panic_attempt rfl).bind
    intro _
    apply (panic_attempt rfl).bind
    intro _
    exact (panic_attempt rfl).bind fun _ => panic_attempt rfl
  have hexit : OnlyPanic (.exit 1 : P Unit) := trivial
  exact (panic_attempt rfl).bind fun _ => hclose.bind fun _ => hexit

/-- The calls of `killall5` between its two broadcasts. -/
def killCall (sig : Int) : Call → Prop
  | .opendirProc => True
  | .calloc => True
  | .getsid _ => True
  | .sys (.kill _ s) => s = sig
  | _ => False

theorem only_readproc (sig : Int) : Only (killCall sig) False readproc := by
  have hlist : ∀ names plist, Only (killCall sig) False (listProcs names plist) := by
    intro names
    induction names with
    | nil => exact fun _ => Only.pure _
    | cons name names ih =>
      intro plist
      refine Only.ite (ih plist) ?_
      refine Only.bind (Only.ask (c := Call.calloc) trivial) fun (_ : Bool) => ?_
      refine Only.ite (Only.pure _) ?_
      exact Only.bind (Only.ask (c := Call.getsid (atoi name)) trivial) fun _ => ih _
  refine Only.bind (Only.ask (c := Call.opendirProc) trivial) ?_
  intro (names : Option (List CString))
  cases names with
  | none => exact Only.pure _
  | some names => exact hlist names []

/-- The second loop of `killall5` comes to its end, unless a daemon that does not know its
process id kills itself. -/
theorem only_killLoop (sig : Int) (plist : List Proc) :
    Only (killCall sig) (sig = sigkill ∧ c.daemonPid ≠ c.ownPid) (plist.forM (killOne c sig plist)) := by
  refine Only.forM fun p _ => ?_
  unfold killOne
  by_cases hkill : p.pid ≠ c.daemonPid ∧ p.sid ≠ ownSid c plist ∧ p.sid ≠ 0
  · rw [if_pos hkill]
    refine Only.bind (Only.bind (Only.ask (c := Call.sys (.kill p.pid sig)) rfl) fun _ => Only.pure ()) fun _ => ?_
    by_cases hown : p.pid = c.ownPid ∧ sig = sigkill
    · rw [if_pos hown]
      exact ⟨hown.2, fun heq => hkill.1 (hown.1.trans heq.symm)⟩
    · rw [if_neg hown]
      exact Only.pure _
  · rw [if_neg hkill]
    exact Only.pure _

end Steps

/-! ## The whole sequence

The sequence of a shutdown is gone through once, for any monitor: `J k` is to hold when phase
`k` is reached. -/

section Sequence
variable {μ : Type} {M : Monitor Call Answer μ} {E : μ → Prop} {J : Nat → μ → Prop} (c : Setup)

/-- What a monitor has to say about the steps. -/
structure Sequenced (M : Monitor Call Answer μ) (E : μ → Prop) (J : Nat → μ → Prop) (c : Setup) :
    Prop where
  step : ∀ {j k : Nat} {α : Type} {p : P α}, j ≤ k → k < 13 → k ≠ 1 → OfPhase k p →
    Triple M E (J j) p (J k)
  closeFiles : Triple M E (J 0) (closeFiles c) (J 1)
  keepAlive : ∀ k, Triple M E (J k) (keepAlive c) (J k)
  sleep : ∀ k sec, Triple M E (J k) (safeSleep c sec) (J k)
  sigterm : ∀ {j : Nat}, j ≤ 4 → Triple M E (J j) (killall5 c sigterm) (J 4)
  sigkill : ∀ {j : Nat}, j ≤ 5 → Triple M E (J j) (killall5 c sigkill) (J 5)

theorem Sequenced.tryCleanShutdown (h : Sequenced M E J c) :
    Triple M E (J 0) (tryCleanShutdown c) (J 12) := by
  apply (h.step (Nat.le_refl 0) (by decide) (by decide) (ofPhase_mail c)).bind
  intro _
  apply (h.sleep 0 10).bind
  intro _
  apply h.closeFiles.bind
  intro _
  apply (h.step (by decide) (by decide) (by decide) ofPhase_ignoreSignals).bind
  intro _
  apply (h.step (by decide) (by decide) (by decide) (ofPhase_attempt (k := 3) rfl)).bind
  intro _
  apply (h.sigterm (by decide)).bind
  intro _
  apply (h.sleep 4 1).bind
  intro _
  apply (h.sigterm (Nat.le_refl 4)).bind
  intro _
  apply (h.sleep 4 (c.sigtermDelay - 1)).bind
  intro _
  apply (h.sigkill (by decide)).bind
  intro _
  apply (h.keepAlive 5).bind
  intro _
  apply (h.sigkill (Nat.le_refl 5)).bind
  intro _
  apply (h.keepAlive 5).bind
  intro _
  apply (h.step (by decide) (by decide) (by decide) (ofPhase_removePidFile c)).bind
  intro _
  apply (h.step (by decide) (by decide) (by decide) ofPhase_recordWtmp).bind
  intro _
  apply (h.step (by decide) (by decide) (by decide) (ofPhase_saveSeed c)).bind
  intro _
  apply (h.step (by decide) (by decide) (by decide) (ofPhase_attempt (k := 9) rfl)).bind
  intro _
  apply (h.keepAlive 9).bind
  intro _
  apply (h.step (by decide) (by decide) (by decide) ofPhase_mntOff).bind
  intro _
  apply (h.step (by decide) (by decide) (by decide) (ofPhase_umountAll {})).bind
  intro _
  exact h.step (by decide) (by decide) (by decide) ofPhase_ifdown

/-- The two ways up to the reboot; a hard reset sleeps once. -/
theorem Sequenced.beforeReboot (h : Sequenced M E J c) (errorcode : Int)
    (hsleep : Triple M E (J 11) (attempt (.sleep 1)) (J 12)) :
    Triple M E (J 0) (beforeReboot c errorcode) (J 12) := by
  unfold Shutdown.beforeReboot
  split
  · exact h.tryCleanShutdown c
  · apply (h.step (by decide) (by decide) (by decide) (ofPhase_attempt (k := 11) rfl)).bind
    intro _
    exact hsleep

end Sequence

/-- A round of `killall5`: from `I` the SIGSTOP leads to `J`, which the calls that list and
kill keep, and the SIGCONT leads back; a daemon that kills itself ends in between. -/
theorem triple_killall5 {μ : Type} {M : Monitor Call Answer μ} {E I J K : μ → Prop} (c : Setup) (sig : Int)
    (hstop : Triple M E I (attempt (.kill (-1) sigstop)) J)
    (hkill : ∀ m q, killCall sig q → J m → M.ok m q ∧ ∀ r, J (M.next m q r))
    (hself : sig = sigkill ∧ c.daemonPid ≠ c.ownPid → ∀ m, J m → E m)
    (hcont : Triple M E J (attempt (.kill (-1) sigcont)) K) : Triple M E I (killall5 c sig) K := by
  apply hstop.bind
  intro _
  apply (Triple.of_only (only_readproc sig) hkill (fun h => h.elim)).bind
  intro hcase
  obtain ⟨ok, plist⟩ := hcase
  cases ok with
  | false => exact hcont
  | true => exact (Triple.of_only (only_killLoop c sig plist) hkill hself).bind fun _ => hcont

/-! ## No step back -/

/-- Started in phase `a` at the latest, the program takes no step back and ends in phase `b`
at the latest. -/
abbrev InOrder (a b : Nat) {α : Type} (p : P α) : Prop := InPhases phase (· ≤ ·) a b p

theorem inOrder_step {j k : Nat} {α : Type} {p : P α} (hjk : j ≤ k) (hp : OfPhase k p) : InOrder j k p :=
  (InPhases.of_only hp (fun _ hm => hm) fun _ => Or.inr).mono hjk (Nat.le_refl k)

/-- A pause. -/
theorem inOrder_idle {k : Nat} {α : Type} {p : P α} (hp : OnlyIdle p) : InOrder k k p := by
  apply InPhases.of_only hp (fun _ hm => hm)
  intro q hq
  unfold idleCall at hq
  split at hq
  case h_5 => cases hq
  all_goals exact Or.inl rfl

/-- A round of `killall5`, with the signal of its phase. -/
theorem inOrder_killall5 (c : Setup) {sig : Int} {k : Nat}
    (hsig : ∀ pid, phase (.sys (.kill pid sig)) = none ∨ phase (.sys (.kill pid sig)) = some k) {j : Nat}
    (hjk : j ≤ k) : InOrder j k (killall5 c sig) := by
  have hbroadcast : ∀ s, s = sigstop ∨ s = sigcont → InOrder k k (attempt (.kill (-1) s)) := by
    intro s hs m hm
    have hnone : phase (.sys (.kill (-1) s)) = none := if_pos ⟨rfl, hs⟩
    obtain ⟨hok, hnext⟩ := phaseMonitor_keeps (R := Answer) (fun _ hm => hm) (Or.inl hnone) hm
    exact ⟨hok, fun r _ => hnext r⟩
  refine triple_killall5 c sig ((hbroadcast sigstop (Or.inl rfl)).conseq ?_ fun _ h => h) ?_
    (fun _ _ _ => trivial) (hbroadcast sigcont (Or.inr rfl))
  · exact fun m hm => Nat.le_trans hm hjk
  · intro m q hq hm
    refine phaseMonitor_keeps (fun _ hm => hm) ?_ hm
    unfold killCall at hq
    split at hq
    case h_4 => exact hq ▸ hsig _
    case h_5 => exact hq.elim
    all_goals exact Or.inl rfl

theorem sequenced_phases (c : Setup) :
    Sequenced (phaseMonitor Answer phase (· ≤ ·)) (fun _ => True) (fun k m => m ≤ k) c where
  step := fun hjk _ _ hp => inOrder_step hjk hp
  closeFiles := inOrder_step (by decide) (ofPhase_closeFiles c)
  keepAlive := fun _ => inOrder_idle (idle_keepAlive c)
  sleep := fun _ sec => inOrder_idle (idle_safeSleep c sec)
  sigterm := fun hj => inOrder_killall5 c (fun _ => Or.inr (by simp [phase, sigterm, sigstop, sigcont])) hj
  sigkill := fun hj => inOrder_killall5 c
    (fun _ => Or.inr (by simp [phase, sigkill, sigterm, sigstop, sigcont])) hj

theorem inOrder_toReboot (c : Setup) (errorcode : Int) : InOrder 0 13 (toReboot c errorcode) := by
  have hreboot : ∀ {a : Nat} cmd, a ≤ 13 → InOrder a 13 (reboot cmd) := fun cmd ha =>
    inOrder_step ha (Only.ask (c := Call.reboot cmd) rfl)
  have hfinal : InOrder 12 13 (finallyReboot c errorcode) := by
    unfold finallyReboot
    split
    · apply Triple.bind (inOrder_idle (idle_quickReboot c))
      intro _
      exact hreboot .autoboot (by decide)
    · split
      · exact hreboot .powerOff (by decide)
      · apply (hreboot .enableCad (by decide)).bind
        intro _
        exact hreboot .haltSystem (Nat.le_refl 13)
  have hsleep : InOrder 11 12 (attempt (.sleep 1)) :=
    (inOrder_idle (idle_attempt rfl)).conseq (fun _ h => h) fun m hm => Nat.le_trans hm (by decide)
  exact ((sequenced_phases c).beforeReboot c errorcode hsleep).bind fun _ => hfinal

/-- **A shutdown takes no step back.** In every run, the phases of its calls up to the last
`reboot` are in order: mail, files, signals, SIGTERM, SIGKILL, PID file, wtmp, random seed,
accounting, swap and quota, file systems, network, reboot. What comes after them, if the
kernel has come back from the reboot, is `panic`. -/
theorem phases_in_order (c : Setup) (errorcode : Int) (env : Nat → (q : Call) → Answer q) :
    (((toReboot c errorcode).calls env 0).filterMap phase).Pairwise (· ≤ ·) ∧
      ∃ rest, (doShutdown c errorcode).calls env 0 = (toReboot c errorcode).calls env 0 ++ rest ∧
        (rest = [] ∨ ∃ n, rest = (panic c).calls env n) := by
  refine ⟨pairwise_phases (inOrder_toReboot c errorcode) (fun _ _ _ => Nat.le_trans) env 0, _,
    Prog.calls_bind env (toReboot c errorcode) (fun _ => panic c) 0, ?_⟩
  cases (toReboot c errorcode).result env 0 with
  | none => exact Or.inl rfl
  | some _ => exact Or.inr ⟨_, rfl⟩

/-! ## Stopped processes -/

/-- The broadcasts: `some true` stops all processes, `some false` lets them go on. -/
def broadcast : Call → Option Bool
  | .sys (.kill pid sig) =>
    if pid = -1 ∧ sig = sigstop then some true
    else if pid = -1 ∧ sig = sigcont then some false
    else none
  | _ => none

/-- Whether the processes are stopped after these calls. -/
def stopped (calls : List Call) : Bool := calls.foldl (fun b q => (broadcast q).getD b) false

/-- A call of `killall5` after its first. -/
def isKilling : Call → Bool
  | .opendirProc => true
  | .calloc => true
  | .getsid _ => true
  | .sys (.kill _ _) => true
  | _ => false

def stopMonitor : Monitor Call Answer Bool where
  next b q _ := (broadcast q).getD b
  ok b q := b = true → isKilling q = true
  allows _ _ _ := True

/-- Run with the processes not stopped, the program leaves them so. -/
abbrev LeavesRunning {α : Type} (p : P α) : Prop :=
  Triple stopMonitor (fun b => b = false) (fun b => b = false) p (fun b => b = false)

theorem leavesRunning_of_only {α : Type} {S : Call → Prop} {X : Prop} {p : P α} (hp : Only S X p)
    (h : ∀ q, S q → broadcast q = none) : LeavesRunning p := by
  refine Triple.of_only hp ?_ fun _ _ hb => hb
  intro b q hq hb
  refine ⟨fun hstop => ?_, fun _ => ?_⟩
  · rw [hb] at hstop
    cases hstop
  · show (broadcast q).getD b = false
    rw [h q hq]
    exact hb

/-- A call of a phase is no broadcast. -/
theorem broadcast_of_phase {q : Call} {k : Nat} (h : phase q = some k) : broadcast q = none := by
  unfold broadcast
  split
  · next pid sig =>
    split
    · next hstop => exact absurd ((if_pos ⟨hstop.1, Or.inl hstop.2⟩).symm.trans h) (by simp)
    · split
      · next hcont => exact absurd ((if_pos ⟨hcont.1, Or.inr hcont.2⟩).symm.trans h) (by simp)
      · rfl
  · rfl

theorem leavesRunning_step {α : Type} {k : Nat} {p : P α} (hp : OfPhase k p) : LeavesRunning p :=
  leavesRunning_of_only hp fun _ => broadcast_of_phase

theorem leavesRunning_idle {α : Type} {p : P α} (hp : OnlyIdle p) : LeavesRunning p := by
  apply leavesRunning_of_only hp
  intro q hq
  unfold idleCall at hq
  split at hq
  case h_5 => cases hq
  all_goals rfl

/-- `killall5` lets go on what it stopped, whatever became of the list. -/
theorem leavesRunning_killall5 {c : Setup} (hown : c.daemonPid = c.ownPid) {sig : Int} (h₁ : sig ≠ sigstop)
    (h₂ : sig ≠ sigcont) : LeavesRunning (killall5 c sig) := by
  refine triple_killall5 (J := fun b => b = true) c sig ?_ ?_ (fun hself => absurd hown hself.2) ?_
  · rintro b rfl
    exact ⟨fun h => (by cases h), fun _ _ => rfl⟩
  · -- Between the broadcasts the processes stay stopped.
    intro b q hq hb
    unfold killCall at hq
    split at hq
    case h_4 pid s =>
      have hnone : broadcast (.sys (.kill pid s)) = none := by
        rw [hq, broadcast, if_neg fun h => h₁ h.2, if_neg fun h => h₂ h.2]
      refine ⟨fun _ => rfl, fun _ => ?_⟩
      show (broadcast (.sys (.kill pid s))).getD b = true
      rw [hnone]
      exact hb
    case h_5 => exact hq.elim
    all_goals exact ⟨fun _ => rfl, fun _ => hb⟩
  · rintro b rfl
    exact ⟨fun _ => rfl, fun _ _ => rfl⟩

theorem sequenced_stopped {c : Setup} (hown : c.daemonPid = c.ownPid) :
    Sequenced stopMonitor (fun b => b = false) (fun _ b => b = false) c where
  step := fun _ _ _ hp => leavesRunning_step hp
  closeFiles := leavesRunning_step (ofPhase_closeFiles c)
  keepAlive := fun _ => leavesRunning_idle (idle_keepAlive c)
  sleep := fun _ sec => leavesRunning_idle (idle_safeSleep c sec)
  sigterm := fun _ => leavesRunning_killall5 hown (by decide) (by decide)
  sigkill := fun _ => leavesRunning_killall5 hown (by decide) (by decide)

/-- The closing of the files when the machine was not rebooted. -/
theorem leavesRunning_panic (c : Setup) : LeavesRunning (panic c) := by
  apply leavesRunning_of_only (only_panic c)
  intro q hq
  unfold panicCall at hq
  split at hq
  case h_9 => cases hq
  all_goals rfl

theorem leavesRunning_doShutdown {c : Setup} (hown : c.daemonPid = c.ownPid) (errorcode : Int) :
    LeavesRunning (doShutdown c errorcode) := by
  have hreboot : ∀ cmd, LeavesRunning (reboot cmd) := fun cmd =>
    leavesRunning_step (Only.ask (c := Call.reboot cmd) rfl)
  have hsleep : LeavesRunning (attempt (.sleep 1)) := leavesRunning_idle (idle_attempt rfl)
  have hfinal : LeavesRunning (finallyReboot c errorcode) := by
    unfold finallyReboot
    split
    · exact Triple.bind (leavesRunning_idle (idle_quickReboot c)) fun _ => hreboot .autoboot
    · split
      · exact hreboot .powerOff
      · exact (hreboot .enableCad).bind fun _ => hreboot .haltSystem
  have hreached : LeavesRunning (toReboot c errorcode) :=
    ((sequenced_stopped hown).beforeReboot c errorcode hsleep).bind fun _ => hfinal
  exact hreached.bind fun _ => leavesRunning_panic c

/-- **Processes are stopped only to be killed.** In every run of a shutdown by a daemon that
knows its process id, what is called while all processes are stopped is the listing and the
killing, and in the end none is left stopped. One that does not know it can kill itself in
between. -/
theorem stopped_only_to_kill (c : Setup) (hown : c.daemonPid = c.ownPid) (errorcode : Int) (env : Nat → (q : Call) → Answer q) :
    (∀ pre q post, (doShutdown c errorcode).calls env 0 = pre ++ q :: post → stopped pre = true →
      isKilling q = true) ∧ stopped ((doShutdown c errorcode).calls env 0) = false := by
  have hfollows := Monitor.follows_of_allows (M := stopMonitor) (fun _ _ _ => trivial) false
    ((doShutdown c errorcode).trace env 0)
  obtain ⟨hguarded, hend⟩ := (leavesRunning_doShutdown hown errorcode false rfl).sound env 0 hfollows
  have hafter : ∀ tr, stopMonitor.after false tr = stopped (tr.map (·.1)) := by
    intro tr
    rw [stopped, List.foldl_map]
    rfl
  refine ⟨fun pre q post hcalls hstopped => ?_, ?_⟩
  · obtain ⟨tr, e, tr', htrace, hpre, rfl⟩ := Monitor.exists_split hcalls
    rw [htrace] at hguarded
    refine hguarded.at_split ?_
    rw [hafter, hpre]
    exact hstopped
  · rw [Prog.calls, ← hafter]
    split at hend
    · exact hend
    · exact hend

/-- On the machine without memory, where the lists are cut short. -/
theorem stopped_only_to_kill_without_memory :
    stopped ((doShutdown { daemonPid := 100 } emaxload).calls noMemory 0) = false :=
  (stopped_only_to_kill { daemonPid := 100 } rfl emaxload noMemory).2

end Watchdog.Shutdown
