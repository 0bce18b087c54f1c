import WatchdogDaemon.Basic
import WatchdogDaemon.Lib.CallTree

/- The calls a shutdown makes, and the answers it does not survive.

   `do_shutdown` runs when the machine is in trouble, so every call on its way may fail
   in any way. Its model is a call tree: a program that goes on with whatever the system
   answers. `Call` lists what is called and `Answer` what comes back; what is only
   tested for success is a `Sys`, answered by whether it succeeded. A file that is read
   is answered by the pieces `fgets` will return, and after the last one by the end of
   the file or an error.

   `Fatal` lists the answers the process does not survive. Most belong to code that was
   written for stand-alone tools (`xmalloc.c`, `fstab.c`, `mntent.c`, `sundries.c`), whose
   way with an error is to leave. Two are of `shutdown.c` itself: a command for sendmail
   that does not fit its array, and a SIGKILL that the daemon sends itself.

   Correspondence (C ↔ Lean):
     the globals a shutdown reads           ↔ `Setup`
     `xmalloc`, `xstrdup`                   ↔ `xmalloc`
     `fatal_error` after its message        ↔ `Prog.exit exSyserr`
     `error` of `sundries.c`                ↔ `error`
   Messages are left out but for two that go to descriptor 2 while the new version of
   `/etc/mtab` is written, and so are calls whose answer nothing looks at and nothing else
   depends on (`sigaction`, `fclose`, `free`). The alarm of `lock_mtab` is never cleared and
   can cut a pause, so a `sleep` is answered by whether it lasted. `xmalloc` is never called
   for 0 bytes here, nor `xstrdup` for NULL, and `HAVE_NFS` is not set for `umount.c`, which
   does not include `config.h`. -/
namespace Watchdog.Shutdown
open CallTree

/-! ## What is called -/

/-- The commands of `reboot`. -/
inductive RebootCmd where
  | autoboot
  | powerOff
  | enableCad
  | haltSystem
  deriving DecidableEq

/-- The mount tables `my_setmntent` opens. -/
inductive MntPath where
  | mounted
  | procMounts
  deriving DecidableEq

/-- Who reads a mount table: `read_mntentchn` or `update_mtab`. -/
inductive Reader where
  | table
  | update
  deriving DecidableEq

/-- The globals a shutdown reads. -/
structure Setup where
  admin : Option CString := some "root".toList
  /-- `PATH_SENDMAIL`. -/
  pathSendmail : CString := "/usr/lib/sendmail".toList
  /-- `RANDOM_SEED`. -/
  seedbck : CString := "/var/run/random-seed".toList
  sigtermDelay : Int := 5
  tempPoweroff : Bool := true
  devTimeout : Int := 60
  /-- `daemon_pid`, which is 0 until there is a PID file. -/
  daemonPid : Int
  /-- The process id of the daemon. -/
  ownPid : Int := daemonPid
  watchdogFd : Int := -1
  refreshUsingIoctl : Bool := false
  timeoutUsed : Int := 60
  /-- There is a heartbeat file. -/
  heartbeat : Bool := false
  /-- There is a PID file, in `saved_fname`. -/
  pidFile : Bool := true

def sigkill : Int := 9
def sigterm : Int := 15
def sigcont : Int := 18
def sigstop : Int := 19
def sigtstp : Int := 20
def nsig : Nat := 65

/-- `"%s -i %s"`. -/
def Setup.sendmail (c : Setup) (admin : CString) : CString := c.pathSendmail ++ " -i ".toList ++ admin

/-- The command for sendmail fits `exe`, with its NUL. -/
def Setup.MailFits (c : Setup) : Prop := ∀ admin ∈ c.admin, (c.sendmail admin).length < 128

/-- Calls of which only success is tested, or nothing at all. -/
inductive Sys where
  -- `sundries.c`, `fstab.c`, `mntent.c`, `lomount.c`
  | openMounted
  | openLock
  | fcntlLock
  | closeLock
  | unlinkLock
  | fopenTemp
  | fseekTemp
  | fprintfTemp (line : CString)
  | fchmodTemp
  | renameTemp
  -- messages on descriptor 2: a bad line, after which the rest may be ignored, and a mode
  | badLine (reader : Reader) (ignored : Bool)
  | badMode
  | openLoop (device : CString)
  | clearLoop (device : CString)
  -- `shutdown.c`
  | statSendmail
  | popenSendmail
  | fprintfMail
  | gethostbyname
  | pclose
  | isatty (fd : Int)
  | close (fd : Int)
  | ignoreSignal (sig : Int)
  | kill (pid sig : Int)
  | sleep (sec : Int)
  | sync
  | unlinkPidFile
  | openWtmp
  | writeWtmp
  | openUrandom
  | creatSeed
  | readUrandom
  | writeSeed
  | acct
  | swapoff (device : CString)
  | quotaoff (group : Bool) (device : CString)
  -- `keep_alive.c`, `ifdown.c`
  | refresh
  | heartbeat
  | setTimeout (sec : Int)
  | writeMagic
  | socket
  | setFlags (name : CString)
  -- `close_all` of the checks
  | closeLoadcheck
  | closeMemcheck
  | closeTempcheck
  | closeHeartbeat
  | freeProcess
  deriving DecidableEq

inductive Call where
  | sys (s : Sys)
  | malloc
  | calloc
  | fopen (path : MntPath)
  | fgetsEnd (reader : Reader)
  | lstatMounted
  | lstatLock
  | umount (path : CString)
  | opendirProc
  | getsid (pid : Int)
  | fstab
  | ifconf
  | reboot (cmd : RebootCmd)
  deriving DecidableEq

/-- A line of `/etc/fstab` as `getmntent` returns it, as far as it is looked at. -/
structure FstabEntry where
  fsname : CString
  type : CString
  noauto : Bool
  grpquota : Bool
  usrquota : Bool

/-- What `lstat` finds. -/
inductive Stat where
  | failed (err : Errno)
  | symlink
  | other

/-- What comes back: success as `true`, a value, or nothing when the call failed. A `sleep`
is a success when it was slept to its end. `fgetsEnd` is `true` for a read error, `umount` has the error it failed with, and
`opendirProc`, `fstab` and `ifconf` have all the entries there are. -/
def Answer : Call → Type
  | .sys _ => Bool
  | .malloc => Bool
  | .calloc => Bool
  | .fopen _ => Option (List CString)
  | .fgetsEnd _ => Bool
  | .lstatMounted => Stat
  | .lstatLock => Stat
  | .umount _ => Option Errno
  | .opendirProc => Option (List CString)
  | .getsid _ => Int
  | .fstab => Option (List FstabEntry)
  | .ifconf => Option (List CString)
  | .reboot _ => Unit

abbrev P := Prog Call Answer

def ask (c : Call) : P (Answer c) := Prog.ask c

/-- A call that only succeeds or fails. -/
def sys (s : Sys) : P Bool := ask (.sys s)

/-- A call whose outcome changes nothing. -/
def attempt (s : Sys) : P Unit := do
  let _ ← sys s

def malloc : P Bool := ask .malloc
def calloc : P Bool := ask .calloc
def fopen (path : MntPath) : P (Option (List CString)) := ask (.fopen path)
def fgetsEnd (reader : Reader) : P Bool := ask (.fgetsEnd reader)
def lstatMounted : P Stat := ask .lstatMounted
def lstatLock : P Stat := ask .lstatLock
def umount (path : CString) : P (Option Errno) := ask (.umount path)
def opendirProc : P (Option (List CString)) := ask .opendirProc
def getsid (pid : Int) : P Int := ask (.getsid pid)
def fstab : P (Option (List FstabEntry)) := ask .fstab
def ifconf : P (Option (List CString)) := ask .ifconf
def reboot (cmd : RebootCmd) : P Unit := ask (.reboot cmd)

/-! ## What is wanted, and what is fatal -/

/-- The `reboot` the shutdown is for. -/
def isReboot (cmd : RebootCmd) : Call → Bool
  | .reboot c => c == cmd
  | _ => false

/-- The answers after which the process is gone: no memory for the mount code, no mount
table that can be opened and read to its end, no lock on `/etc/mtab`, and an error writing
its new version; a sendmail to write to when the command for it does not fit, and the
SIGKILL to itself. -/
def Fatal (c : Setup) : (q : Call) → Answer q → Prop
  | .malloc, ok => ok = false
  | .fopen .procMounts, file => file = none
  | .fgetsEnd .table, err => err = true
  | .sys .openLock, ok => ok = false
  | .sys .fcntlLock, ok => ok = false
  | .sys .fseekTemp, ok => ok = false
  | .sys (.fprintfTemp _), ok => ok = false
  | .sys .statSendmail, ok => ok = true ∧ ¬ c.MailFits
  | .sys (.kill pid sig), _ => pid = c.ownPid ∧ sig = sigkill
  | _, _ => False

/-- The program comes back with `Q`, unless an answer is fatal; then it exits. -/
abbrev Returns (su : Setup) (cmd : RebootCmd) {α : Type} (Q : α → Prop) (p : P α) : Prop :=
  Steady (isReboot cmd) (Fatal su) Q (fun _ => False) p

/-- The program comes back, unless an answer is fatal. -/
abbrev Quiet (su : Setup) (cmd : RebootCmd) {α : Type} (p : P α) : Prop := Returns su cmd (fun _ => True) p

/-! ## Memory and messages -/

def exSyserr : Int := 2
def exFileio : Int := 16

/-- The process is gone without an exit of its own. -/
def gone {α : Type} : P α := .exit (-1)

def xmalloc : P Unit := do
  if ← malloc then pure () else .exit exSyserr

/-- The non-fatal error: the message needs memory. -/
def error : P Unit := xmalloc

section Rules
variable {su : Setup} {cmd : RebootCmd}

/-- A call that cannot be fatal. -/
theorem quiet_ask {c : Call} (hc : isReboot cmd c = false) (hf : ∀ r, ¬ Fatal su c r) :
    Quiet su cmd (ask c) :=
  Steady.ask hc hf fun _ => trivial

theorem quiet_sys (s : Sys) (hf : ∀ ok, ¬ Fatal su (.sys s) ok) : Quiet su cmd (sys s) :=
  quiet_ask rfl hf

theorem quiet_pure {α : Type} (a : α) : Quiet su cmd (pure a : P α) := Steady.pure trivial

theorem quiet_bind {α β : Type} {p : P α} {f : α → P β} (hp : Quiet su cmd p) (hf : ∀ a, Quiet su cmd (f a)) :
    Quiet su cmd (p >>= f) :=
  hp.seq fun a _ => hf a

/-- A step that may be left out. -/
theorem quiet_when {b : Prop} [Decidable b] {p : P Unit} (hp : Quiet su cmd p) :
    Quiet su cmd (if b then p else pure ()) :=
  Steady.ite (fun _ => hp) fun _ => quiet_pure ()

/-- One in front of the rest. -/
theorem quiet_when_then {b : Prop} [Decidable b] {α : Type} {p : P Unit} {q : P α} (hp : Quiet su cmd p)
    (hq : Quiet su cmd q) : Quiet su cmd (if b then p >>= fun _ => q else q) :=
  Steady.ite (fun _ => quiet_bind hp fun _ => hq) fun _ => hq

theorem quiet_attempt (s : Sys) (hf : ∀ ok, ¬ Fatal su (.sys s) ok) : Quiet su cmd (attempt s) :=
  quiet_bind (quiet_sys s hf) fun _ => quiet_pure ()

/-- Run after a fatal answer, such a program is no way out. -/
theorem doomed_of_quiet {α : Type} {p : P α} (hp : ∀ su, Quiet su cmd p) :
    Doomed (isReboot cmd) (fun _ => True) p :=
  (hp { daemonPid := 0 }).doomed (fun _ _ => trivial) fun _ h => h.elim

theorem quiet_xmalloc : Quiet su cmd xmalloc := by
  refine ⟨rfl, fun (ok : Bool) => ?_⟩
  cases ok with
  | false => exact ⟨fun _ => trivial, fun h => absurd rfl h⟩
  | true => exact ⟨fun h => absurd h Bool.true_eq_false.mp, fun _ => trivial⟩

/-- A call whose failure is fatal: after one that fails there is no way to the reboot. -/
theorem steady_sys_bind (s : Sys) (hs : ∀ ok, Fatal su (.sys s) ok ↔ ok = false) {α : Type} {f : Bool → P α}
    {Q D : α → Prop} (hok : Steady (isReboot cmd) (Fatal su) Q D (f true))
    (hfail : Doomed (isReboot cmd) D (f false)) : Steady (isReboot cmd) (Fatal su) Q D (sys s >>= f) := by
  refine ⟨rfl, fun (ok : Bool) => ?_⟩
  cases ok with
  | false => exact ⟨fun _ => hfail, fun h => absurd ((hs false).mpr rfl) h⟩
  | true => exact ⟨fun h => absurd ((hs true).mp h) Bool.true_eq_false.mp, fun _ => hok⟩

end Rules

end Watchdog.Shutdown
