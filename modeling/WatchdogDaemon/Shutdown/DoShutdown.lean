import WatchdogDaemon.Shutdown.Umount

/- Shutting the system down: `shutdown.c`, with what it uses of `keep_alive.c`,
   `daemon-pid.c` and `ifdown.c`.

   `try_clean_shutdown` is a long sequence of steps: tell the administrator, close the
   files, kill every other process, record the shutdown, unmount the file systems, stop
   the network. `do_shutdown` then asks the kernel to reboot. Each step of `shutdown.c`
   itself goes on after a failure; so do the helpers, but for the mount code. There are two
   more ways not to get there: the command for sendmail is printed to an array of 128 bytes
   whatever the length of `admin`, and a daemon that does not know its process id is one of
   the processes it kills.

   What is proved: `reboots_iff`, over every error code, every set-up and every way the
   calls can turn out. The shutdown gets to its `reboot` exactly when none of the
   answers on the way is fatal. Without memory it does not (`exits_without_memory`):
   init has been stopped by then, and nothing is left that would reboot the machine.

   Correspondence (C ↔ Lean):
     `keep_alive`, `safe_sleep`             ↔ `keepAlive`, `safeSleep`
     `set_watchdog_timeout`                 ↔ `setWatchdogTimeout`
     `readproc`, `killall5`                 ↔ `readproc`, `killall5`
     `remove_pid_file`                      ↔ `removePidFile`
     `mnt_off`, `ifdown`                    ↔ `mntOff`, `ifdown`
     `try_clean_shutdown`                   ↔ `tryCleanShutdown`, of `mail`, `closeFiles`,
                                              `ignoreSignals`, `recordWtmp`, `saveSeed`
     `close_all`, `close_watchdog`          ↔ `closeAll`, `closeWatchdog`
     `panic`                                ↔ `panic`
     `do_shutdown`                          ↔ `doShutdown`, of `beforeReboot`, `finallyReboot`
   Every call is taken to return, but for the SIGKILL that the daemon sends itself, and the
   process is taken to be gone when `sprintf` has written beyond its array. A signal from
   elsewhere that ends the process, such as the SIGPIPE of a mail nobody reads, is not a way
   for a call to return. The logging is left out, with its opening and closing. -/
namespace Watchdog.Shutdown
open CallTree

section Steps
variable (c : Setup)

/-! ## The watchdog device -/

def keepAlive : P Unit := do
  if c.watchdogFd ≠ -1 then
    if c.refreshUsingIoctl then
      attempt (.setTimeout c.timeoutUsed)
    else
      attempt .refresh
    if c.heartbeat then
      attempt .heartbeat

def safeSleep (sec : Int) : P Unit := do
  keepAlive c
  (List.range sec.toNat).forM fun _ => do
    attempt (.sleep 1)
    keepAlive c

/-- Other time-outs, until one is taken. -/
def tryOtherTimes (timeout : Int) : List Int → P Unit
  | [] => return
  | tmp :: rest => do
    if timeout < tmp then
      if ← sys (.setTimeout tmp) then
        return
    tryOtherTimes timeout rest

/-- With a positive time-out. -/
def setWatchdogTimeout (timeout : Int) : P Unit := do
  if c.watchdogFd ≠ -1 then
    if !(← sys (.setTimeout timeout)) then
      tryOtherTimes timeout [3, 5, 10]

/-! ## Other processes -/

def isSpace (c : Char) : Bool := c == ' ' || ('\t' ≤ c && c ≤ '\r')

/-- `atoi`, with the overflow of glibc's. -/
def atoi (s : CString) : Int :=
  match s.dropWhile isSpace with
  | '-' :: s => toInt (max (-2 ^ 63) (-(digits s).foldl (fun n d => 10 * n + (d.toNat - '0'.toNat)) 0))
  | '+' :: s => atoiDigits (digits s)
  | s => atoiDigits (digits s)

structure Proc where
  pid : Int
  sid : Int
  deriving DecidableEq

/-- The walk through `/proc`: whether it got to its end, and `plist`. -/
def listProcs : List CString → List Proc → P (Bool × List Proc)
  | [], plist => return (true, plist)
  | name :: names, plist =>
    if atoi name = 0 then listProcs names plist
    else do
      -- What was collected so far is kept, but the caller is told of the failure.
      if !(← calloc) then
        return (false, plist)
      let sid ← getsid (atoi name)
      listProcs names (⟨atoi name, sid⟩ :: plist)

def readproc : P (Bool × List Proc) := do
  match ← opendirProc with
  | none => return (false, [])
  | some names => listProcs names []

/-- The session of the daemon, -1 if it is not in the list. -/
def ownSid (plist : List Proc) : Int :=
  match plist.find? fun p => p.pid = c.daemonPid with
  | some p => p.sid
  | none => -1

/-- All but our process, our session and the kernel's. -/
def killOne (sig : Int) (plist : List Proc) (p : Proc) : P Unit := do
  if p.pid ≠ c.daemonPid ∧ p.sid ≠ ownSid c plist ∧ p.sid ≠ 0 then
    attempt (.kill p.pid sig)
    -- All other signals are ignored by now.
    if p.pid = c.ownPid ∧ sig = sigkill then
      gone

def killall5 (sig : Int) : P Unit := do
  attempt (.kill (-1) sigstop)
  let (ok, plist) ← readproc
  if ok then
    plist.forM (killOne c sig plist)
  attempt (.kill (-1) sigcont)

/-! ## The steps of a clean shutdown -/

def mail : P Unit := do
  if let some admin := c.admin then
    if ← sys .statSendmail then
      -- `sprintf` goes on behind the array, and over what is there.
      if 128 ≤ (c.sendmail admin).length then
        gone
      if ← sys .popenSendmail then
        if ← sys .fprintfMail then
          attempt .gethostbyname
          if ← sys .fprintfMail then
            attempt .fprintfMail
        attempt .pclose

def closeFiles : P Unit := do
  [0, 1, 2].forM fun i => do
    if !(← sys (.isatty i)) then
      attempt (.close i)
  (List.range' 3 17).forM fun i => do
    if (i : Int) ≠ c.watchdogFd then
      attempt (.close i)
  attempt (.close 255)

def ignoreSignals : P Unit :=
  (List.range' 1 (nsig - 1)).forM fun i => attempt (.ignoreSignal i)

def removePidFile : P Unit := do
  if c.pidFile then
    attempt .unlinkPidFile

def recordWtmp : P Unit := do
  if ← sys .openWtmp then
    attempt .writeWtmp

def saveSeed : P Unit := do
  if c.seedbck.length ≠ 0 then
    if ← sys .openUrandom then
      if ← sys .creatSeed then
        if ← sys .readUrandom then
          attempt .writeSeed

def quotaOff (mnt : FstabEntry) : P Unit := do
  if mnt.grpquota then
    attempt (.quotaoff true mnt.fsname)
  if mnt.usrquota then
    attempt (.quotaoff false mnt.fsname)

/-- Swap and quota of one line of `/etc/fstab`. -/
def entryOff (mnt : FstabEntry) : P Unit := do
  if mnt.type = "swap".toList then
    attempt (.swapoff mnt.fsname)
  if !mnt.noauto && mnt.type = "ext2".toList then
    quotaOff mnt

def mntOff : P Unit := do
  match ← fstab with
  | none => return
  | some entries => entries.forM entryOff

def ifdown : P Unit := do
  if ← sys .socket then
    match ← ifconf with
    | none => return
    | some names =>
      names.forM fun name => do
        if name ≠ "lo".toList ∧ ¬ name.contains ':' then
          attempt (.setFlags name)

def tryCleanShutdown : P Unit := do
  mail c
  safeSleep c 10
  closeFiles c
  ignoreSignals
  -- Stop init, then kill all others, each time twice: the first list may be cut short
  -- by a lack of memory.
  attempt (.kill 1 sigtstp)
  killall5 c sigterm
  safeSleep c 1
  killall5 c sigterm
  safeSleep c (c.sigtermDelay - 1)
  killall5 c sigkill
  keepAlive c
  killall5 c sigkill
  keepAlive c
  removePidFile c
  recordWtmp
  saveSeed c
  attempt .acct
  keepAlive c
  mntOff
  -- Nothing else in the daemon uses the mount code, so its statics are as they started.
  let _ ← umountAll {}
  ifdown

/-! ## The shutdown -/

/-- A hard reset only gets a `sync`. -/
def beforeReboot (errorcode : Int) : P Unit := do
  if errorcode ≠ ereset then
    tryCleanShutdown c
  else
    attempt .sync
    attempt (.sleep 1)

/-- `sleep (dev_timeout * 4)`: the product of two `int`s, as an `unsigned`. -/
def longSleep : P Unit := attempt (.sleep (toInt (c.devTimeout * 4) % 2 ^ 32))

/-- A quick reboot by the hardware timer. -/
def quickReboot : P Unit := do
  if c.watchdogFd ≠ -1 then
    setWatchdogTimeout c 1
    longSleep c

def finallyReboot (errorcode : Int) : P Unit := do
  if errorcode ≠ etoohot then
    quickReboot c
    -- That failed, or was not possible.
    reboot .autoboot
  else if c.tempPoweroff then
    reboot .powerOff
  else
    reboot .enableCad
    reboot .haltSystem

/-- Up to the last call for a reboot. -/
def toReboot (errorcode : Int) : P Unit := do
  beforeReboot c errorcode
  finallyReboot c errorcode

def closeWatchdog : P Unit := do
  if c.watchdogFd ≠ -1 then
    attempt .writeMagic
    attempt (.close c.watchdogFd)

def closeAll : P Unit := do
  closeWatchdog c
  attempt .closeLoadcheck
  attempt .closeMemcheck
  attempt .closeTempcheck
  attempt .closeHeartbeat
  attempt .freeProcess

/-- Still alive: the hardware is left to act, and if it does not the daemon just exits. -/
def panic : P Unit := do
  longSleep c
  closeAll c
  .exit 1

def doShutdown (errorcode : Int) : P Unit := do
  toReboot c errorcode
  panic c

end Steps

/-! ## Coming back -/

section Rules
variable {c : Setup} {cmd : RebootCmd}

theorem quiet_keepAlive : Quiet c cmd (keepAlive c) := by
  have hbeat : Quiet c cmd (if c.heartbeat then attempt .heartbeat else pure ()) :=
    quiet_when (quiet_attempt .heartbeat fun _ h => h)
  apply quiet_when
  apply Steady.ite
  · intro _
    exact quiet_bind (quiet_attempt (.setTimeout c.timeoutUsed) fun _ h => h) fun _ => hbeat
  · intro _
    exact quiet_bind (quiet_attempt .refresh fun _ h => h) fun _ => hbeat

theorem quiet_safeSleep (sec : Int) : Quiet c cmd (safeSleep c sec) := by
  apply quiet_bind quiet_keepAlive
  intro _
  apply Steady.forM
  intro _ _
  exact quiet_bind (quiet_attempt (.sleep 1) fun _ h => h) fun _ => quiet_keepAlive

theorem quiet_tryOtherTimes (timeout : Int) (times : List Int) :
    Quiet c cmd (tryOtherTimes timeout times) := by
  induction times with
  | nil => exact quiet_pure ()
  | cons tmp rest ih =>
    apply Steady.ite
    · intro _
      apply quiet_bind (quiet_sys (.setTimeout tmp) fun _ h => h)
      intro ok
      exact Steady.ite (fun _ => quiet_pure ()) fun _ => ih
    · intro _
      exact ih

theorem quiet_setWatchdogTimeout (timeout : Int) : Quiet c cmd (setWatchdogTimeout c timeout) := by
  apply quiet_when
  apply quiet_bind (quiet_sys (.setTimeout timeout) fun _ h => h)
  intro ok
  exact quiet_when (quiet_tryOtherTimes timeout [3, 5, 10])

theorem quiet_listProcs (names : List CString) (plist : List Proc) :
    Quiet c cmd (listProcs names plist) := by
  induction names generalizing plist with
  | nil => exact quiet_pure _
  | cons name names ih =>
    apply Steady.ite
    · intro _
      exact ih plist
    · intro _
      apply quiet_bind (quiet_ask (c := .calloc) rfl fun _ h => h)
      intro (ok : Bool)
      apply Steady.ite
      · intro _
        exact quiet_pure _
      · intro _
        exact quiet_bind (quiet_ask (c := .getsid (atoi name)) rfl fun _ h => h) fun _ => ih _

theorem quiet_readproc : Quiet c cmd readproc := by
  apply quiet_bind (quiet_ask (c := .opendirProc) rfl fun _ h => h)
  intro (names : Option (List CString))
  cases names with
  | none => exact quiet_pure _
  | some names => exact quiet_listProcs names []

/-- Only the SIGKILL to itself is fatal. -/
theorem not_fatal_kill {pid sig : Int} (h : sig ≠ sigkill) (ok : Bool) : ¬ Fatal c (.sys (.kill pid sig)) ok :=
  fun hfatal => h hfatal.2

theorem quiet_killOne (sig : Int) (plist : List Proc) (p : Proc) : Quiet c cmd (killOne c sig plist p) := by
  apply quiet_when
  refine ⟨rfl, fun _ => ⟨fun (hown : p.pid = c.ownPid ∧ sig = sigkill) => ?_,
    fun (hother : ¬ (p.pid = c.ownPid ∧ sig = sigkill)) => ?_⟩⟩
  · show Doomed _ _ (if p.pid = c.ownPid ∧ sig = sigkill then gone else pure ())
    rw [if_pos hown]
    trivial
  · show Steady _ _ _ _ (if p.pid = c.ownPid ∧ sig = sigkill then gone else pure ())
    rw [if_neg hother]
    trivial

theorem quiet_killall5 (sig : Int) : Quiet c cmd (killall5 c sig) := by
  apply quiet_bind (quiet_attempt (.kill (-1) sigstop) (not_fatal_kill (by decide)))
  intro _
  apply quiet_bind quiet_readproc
  intro hcase
  obtain ⟨ok, plist⟩ := hcase
  apply quiet_when_then
  · exact Steady.forM fun p _ => quiet_killOne sig plist p
  · exact quiet_attempt (.kill (-1) sigcont) (not_fatal_kill (by decide))

/-- The mail, once there is a command for it. -/
theorem quiet_popenSendmail : Quiet c cmd (do
    if ← sys .popenSendmail then
      if ← sys .fprintfMail then
        attempt .gethostbyname
        if ← sys .fprintfMail then
          attempt .fprintfMail
      attempt .pclose) := by
  have hclose : Quiet c cmd (attempt .pclose) := quiet_attempt _ fun _ h => h
  apply quiet_bind (quiet_sys .popenSendmail fun _ h => h)
  intro ph
  apply quiet_when
  apply quiet_bind (quiet_sys .fprintfMail fun _ h => h)
  intro sent
  apply Steady.ite
  · intro _
    apply quiet_bind (quiet_attempt .gethostbyname fun _ h => h)
    intro _
    apply quiet_bind (quiet_sys .fprintfMail fun _ h => h)
    intro subject
    exact quiet_when_then (quiet_attempt .fprintfMail fun _ h => h) hclose
  · intro _
    exact hclose

theorem quiet_mail : Quiet c cmd (mail c) := by
  unfold mail
  cases hadmin : c.admin with
  | none => exact quiet_pure ()
  | some admin =>
    have hfits : c.MailFits ↔ ¬ 128 ≤ (c.sendmail admin).length := by
      unfold Setup.MailFits
      rw [hadmin]
      simp
    refine ⟨rfl, fun (stat : Bool) => ?_⟩
    cases stat with
    | false => exact ⟨fun h => absurd h.1 Bool.false_ne_true, fun _ => quiet_pure ()⟩
    | true =>
      -- With a sendmail the command has to fit.
      refine ⟨fun h => ?_, fun h => ?_⟩
      · have hlong : 128 ≤ (c.sendmail admin).length := not_not.1 fun hshort => h.2 (hfits.2 hshort)
        show Doomed _ _ (if 128 ≤ (c.sendmail admin).length then gone >>= fun _ => _ else _)
        rw [if_pos hlong]
        trivial
      · have hshort : ¬ 128 ≤ (c.sendmail admin).length := fun hlong => h ⟨rfl, fun hf => hfits.1 hf hlong⟩
        show Quiet c cmd (if 128 ≤ (c.sendmail admin).length then gone >>= fun _ => _ else _)
        rw [if_neg hshort]
        exact quiet_popenSendmail

theorem quiet_closeFiles : Quiet c cmd (closeFiles c) := by
  refine quiet_bind (Steady.forM fun i _ => ?_) fun _ => ?_
  · apply quiet_bind (quiet_sys (.isatty i) fun _ h => h)
    intro tty
    exact quiet_when (quiet_attempt (.close i) fun _ h => h)
  · refine quiet_bind (Steady.forM fun i _ => ?_) fun _ => quiet_attempt (.close 255) fun _ h => h
    exact quiet_when (quiet_attempt (.close i) fun _ h => h)

theorem quiet_ignoreSignals : Quiet c cmd ignoreSignals :=
  Steady.forM fun i _ => quiet_attempt (.ignoreSignal i) fun _ h => h

theorem quiet_recordWtmp : Quiet c cmd recordWtmp := by
  apply quiet_bind (quiet_sys .openWtmp fun _ h => h)
  intro fd
  exact quiet_when (quiet_attempt .writeWtmp fun _ h => h)

theorem quiet_saveSeed : Quiet c cmd (saveSeed c) := by
  apply quiet_when
  apply quiet_bind (quiet_sys .openUrandom fun _ h => h)
  intro seed
  apply quiet_when
  apply quiet_bind (quiet_sys .creatSeed fun _ h => h)
  intro bck
  apply quiet_when
  apply quiet_bind (quiet_sys .readUrandom fun _ h => h)
  intro buf
  exact quiet_when (quiet_attempt .writeSeed fun _ h => h)

theorem quiet_quotaOff (mnt : FstabEntry) : Quiet c cmd (quotaOff mnt) := by
  apply quiet_when_then
  · exact quiet_attempt (.quotaoff true mnt.fsname) fun _ h => h
  · exact quiet_when (quiet_attempt (.quotaoff false mnt.fsname) fun _ h => h)

theorem quiet_entryOff (mnt : FstabEntry) : Quiet c cmd (entryOff mnt) := by
  apply quiet_when_then
  · exact quiet_attempt (.swapoff mnt.fsname) fun _ h => h
  · exact quiet_when (quiet_quotaOff mnt)

theorem quiet_mntOff : Quiet c cmd mntOff := by
  apply quiet_bind (quiet_ask (c := .fstab) rfl fun _ h => h)
  intro (entries : Option (List FstabEntry))
  cases entries with
  | none => exact quiet_pure ()
  | some entries => exact Steady.forM fun mnt _ => quiet_entryOff mnt

theorem quiet_ifdown : Quiet c cmd ifdown := by
  apply quiet_bind (quiet_sys .socket fun _ h => h)
  intro fd
  apply quiet_when
  apply quiet_bind (quiet_ask (c := .ifconf) rfl fun _ h => h)
  intro (names : Option (List CString))
  cases names with
  | none => exact quiet_pure ()
  | some names => exact Steady.forM fun name _ => quiet_when (quiet_attempt (.setFlags name) fun _ h => h)

/-- **A clean shutdown comes back** unless an answer is fatal, whatever else fails. -/
theorem quiet_tryCleanShutdown : Quiet c cmd (tryCleanShutdown c) := by
  apply quiet_bind quiet_mail
  intro _
  apply quiet_bind (quiet_safeSleep 10)
  intro _
  apply quiet_bind quiet_closeFiles
  intro _
  apply quiet_bind quiet_ignoreSignals
  intro _
  apply quiet_bind (quiet_attempt (.kill 1 sigtstp) (not_fatal_kill (by decide)))
  intro _
  apply quiet_bind (quiet_killall5 sigterm)
  intro _
  apply quiet_bind (quiet_safeSleep 1)
  intro _
  apply quiet_bind (quiet_killall5 sigterm)
  intro _
  apply quiet_bind (quiet_safeSleep (c.sigtermDelay - 1))
  intro _
  apply quiet_bind (quiet_killall5 sigkill)
  intro _
  apply quiet_bind quiet_keepAlive
  intro _
  apply quiet_bind (quiet_killall5 sigkill)
  intro _
  apply quiet_bind quiet_keepAlive
  intro _
  apply quiet_bind (quiet_when (quiet_attempt .unlinkPidFile fun _ h => h))
  intro _
  apply quiet_bind quiet_recordWtmp
  intro _
  apply quiet_bind quiet_saveSeed
  intro _
  apply quiet_bind (quiet_attempt .acct fun _ h => h)
  intro _
  apply quiet_bind quiet_keepAlive
  intro _
  apply quiet_bind quiet_mntOff
  intro _
  apply quiet_bind (quiet_umountAll rfl)
  intro _
  exact quiet_ifdown

theorem quiet_beforeReboot (errorcode : Int) : Quiet c cmd (beforeReboot c errorcode) := by
  apply Steady.ite
  · intro _
    exact quiet_tryCleanShutdown
  · intro _
    exact quiet_bind (quiet_attempt .sync fun _ h => h) fun _ => quiet_attempt (.sleep 1) fun _ h => h

theorem quiet_quickReboot : Quiet c cmd (quickReboot c) := by
  apply quiet_when
  apply quiet_bind (quiet_setWatchdogTimeout 1)
  intro _
  exact quiet_attempt _ fun _ h => h

end Rules

/-! ## Getting to the reboot -/

/-- The `reboot` a shutdown is to end with. -/
def rebootCmd (c : Setup) (errorcode : Int) : RebootCmd :=
  if errorcode ≠ etoohot then .autoboot else if c.tempPoweroff then .powerOff else .haltSystem

section Reboot
variable (c : Setup) (errorcode : Int)

theorem arrives_finallyReboot :
    Arrives (isReboot (rebootCmd c errorcode)) (Fatal c) (finallyReboot c errorcode) := by
  unfold finallyReboot rebootCmd
  by_cases hhot : errorcode ≠ etoohot
  · rw [if_pos hhot, if_pos hhot]
    apply quiet_quickReboot.arrives
    · intro _ _
      exact Or.inl rfl
    · exact fun _ h => h.elim
  · rw [if_neg hhot, if_neg hhot]
    by_cases hpower : c.tempPoweroff = true
    · rw [if_pos hpower, if_pos hpower]
      exact Or.inl rfl
    · rw [if_neg hpower, if_neg hpower]
      -- RB_ENABLE_CAD comes first and is not what is waited for.
      exact Or.inr fun _ => ⟨fun h => h.elim, fun _ => Or.inl rfl⟩

theorem arrives_doShutdown :
    Arrives (isReboot (rebootCmd c errorcode)) (Fatal c) (doShutdown c errorcode) := by
  have harrives : Arrives (isReboot (rebootCmd c errorcode)) (Fatal c) (toReboot c errorcode) :=
    (quiet_beforeReboot errorcode).arrives (fun _ _ => arrives_finallyReboot c errorcode) fun _ h => h.elim
  exact harrives.before

/-- The calls of a shutdown and their answers. -/
def shutdownCalls (env : Nat → (q : Call) → Answer q) : List (Sigma Answer) :=
  (doShutdown c errorcode).trace env 0

/-- **A shutdown gets to its reboot exactly when no answer on the way is fatal.** -/
theorem reboots_iff (env : Nat → (q : Call) → Answer q) :
    (∃ e ∈ shutdownCalls c errorcode env, isReboot (rebootCmd c errorcode) e.1 = true) ↔
      ∀ e ∈ (shutdownCalls c errorcode env).takeWhile (fun e => !isReboot (rebootCmd c errorcode) e.1),
        ¬ Fatal c e.1 e.2 :=
  arrives_iff (arrives_doShutdown c errorcode) env 0

end Reboot

/-- A machine that is out of memory; everything else works. -/
def noMemory : Nat → (q : Call) → Answer q
  | _, .sys _ => true
  | _, .malloc => false
  | _, .calloc => false
  | _, .fopen _ => some []
  | _, .fgetsEnd _ => false
  | _, .lstatMounted => .other
  | _, .lstatLock => .other
  | _, .umount _ => none
  | _, .opendirProc => some [['1'], ['1', '0', '0']]
  | _, .getsid _ => (1 : Int)
  | _, .fstab => some []
  | _, .ifconf => some []
  | _, .reboot _ => ()

/-- The load is too high and there is no memory left: `my_setmntent` cannot get its few
bytes, and the process exits with init stopped and no reboot. -/
theorem exits_without_memory :
    ¬ ∃ e ∈ shutdownCalls { daemonPid := 100 } emaxload noMemory,
        isReboot (rebootCmd { daemonPid := 100 } emaxload) e.1 = true := by
  decide +kernel

end Watchdog.Shutdown
