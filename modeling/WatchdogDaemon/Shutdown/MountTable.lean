import WatchdogDaemon.Shutdown.MountEntries

/- The list of mounted file systems and its file: `fstab.c` and `die` of `sundries.c`.

   `mtab_head` reads `/etc/mtab`, or `/proc/mounts` if that cannot be opened, once and
   for all. `update_mtab` takes an entry out of `/etc/mtab`: under a lock it copies the
   file, less the entry, and renames the copy. The statics of the file are the fields of
   `Mtab`; `mounttable` is `none` while the head of the chain has NULL pointers, which
   is how a table that could not be read is told from an empty one.

   What is proved, of every state in which the table was asked for: everything here
   comes back and leaves it so, unless an answer is fatal (`Keeps`). Asking for it the
   first time (`steady_mtabHead`) comes back without a table after a fatal answer.

   Correspondence (C ↔ Lean):
     `get_mtab_info`                        ↔ `getMtabInfo`
     `mtab_is_a_symlink`, `mtab_is_writable` ↔ `mtabIsASymlink`, `mtabIsWritable`
     `mtab_head`, `read_mounttable`         ↔ `mtabHead`, `readMounttable`
     `read_mntentchn`                       ↔ `readMntentchn`
     `getmntfile`, `getmntoptfile`          ↔ `getmntfile`, `getmntoptfile`
     `lock_mtab`, `unlock_mtab`             ↔ `lockMtab`, `unlockMtab`
     `update_mtab` with NULL instead        ↔ `updateMtab`
     `die`                                  ↔ `die`
   Only a remount calls `update_mtab` with an entry to put instead, and nothing sets
   `remount`. -/
namespace Watchdog.Shutdown
open CallTree

/-- The statics of `fstab.c` and `umount.c`. -/
structure Mtab where
  haveMtabInfo : Bool := false
  mtabDoesNotExist : Bool := false
  mtabIsASymlink : Bool := false
  /-- `ret` of `mtab_is_writable`, -1 as `none`. -/
  writable : Option Bool := none
  gotMtab : Bool := false
  mounttable : Option (List Mntent) := none
  /-- There is a file descriptor in `lock`. -/
  lock : Bool := false
  oldLockfile : Bool := true
  umountNomtab : Nat := 0

/-- Code that uses them. -/
abbrev M := StateT Mtab P

/-! ## Facts about `/etc/mtab` -/

def Mtab.noteStat (g : Mtab) : Stat → Mtab
  | .failed _ => { g with haveMtabInfo := true, mtabDoesNotExist := true }
  | .symlink => { g with haveMtabInfo := true, mtabIsASymlink := true }
  | .other => { g with haveMtabInfo := true }

def getMtabInfo : M Unit := do
  if !(← get).haveMtabInfo then
    let st ← lstatMounted
    modify fun g => g.noteStat st

def mtabDoesNotExist : M Bool := do
  getMtabInfo
  return (← get).mtabDoesNotExist

def mtabIsASymlink : M Bool := do
  getMtabInfo
  return (← get).mtabIsASymlink

def mtabIsWritable : M Bool := do
  if ← mtabIsASymlink then
    return false
  match (← get).writable with
  | some ret => return ret
  | none =>
    let ok ← sys .openMounted
    modify fun g => { g with writable := some ok }
    return ok

/-! ## Reading the table -/

/-- The entries up to one of type `ignore`. -/
def chainEntry (chain : List Mntent) (mnt : Mntent) : P (ForInStep (List Mntent)) :=
  if mnt.type = "ignore".toList then return .done chain
  else do
    xmalloc
    return .yield (chain ++ [mnt])

def readMntentchn (file : List CString) : P (Option (List Mntent)) := do
  let (chain, err) ← forEntries .table chainEntry 0 file []
  if err then
    error
    return none
  return some chain

/-- The chain `read_mounttable` builds. -/
def readTable : P (Option (List Mntent)) := do
  match ← mySetmntent .mounted with
  | some file => readMntentchn file
  | none =>
    match ← mySetmntent .procMounts with
    | some file => readMntentchn file
    | none =>
      error
      return none

def readMounttable : M Unit := do
  modify fun g => { g with gotMtab := true, mounttable := none }
  let chain ← readTable
  modify fun g => { g with mounttable := chain }

def mtabHead : M (Option (List Mntent)) := do
  if !(← get).gotMtab then
    readMounttable
  return (← get).mounttable

/-- The entries of the chain: none behind a NULL. -/
def mtabEntries : M (List Mntent) := do
  return (← mtabHead).getD []

def getmntfile (name : CString) : M (Option Mntent) := do
  return (← mtabEntries).find? fun mc => mc.dir = name || mc.fsname = name

/-- `opts` from its first `loop=` on, with the character before it. -/
def strstrLoop : Option Char → CString → Option (Option Char × CString)
  | prev, opts =>
    if "loop=".toList.isPrefixOf opts then some (prev, opts.drop 5)
    else
      match opts with
      | [] => none
      | c :: rest => strstrLoop (some c) rest

/-- The option `loop=FILE` stands first or behind a comma, and ends there. -/
def hasLoopOpt (file : CString) (opts : CString) : Bool :=
  match strstrLoop none opts with
  | none => false
  | some (prev, value) =>
    file.isPrefixOf value && (prev = none || prev = some ',') &&
      ((value.drop file.length).head? = none || (value.drop file.length).head? = some ',')

def getmntoptfile (file : CString) : M (Option Mntent) := do
  return (← mtabEntries).find? fun mc => hasLoopOpt file mc.opts

/-! ## Updating the file -/

def unlockMtab (g : Mtab) : P Unit := do
  if g.lock then
    attempt .closeLock
    if !g.oldLockfile then
      attempt .unlinkLock

def die {α : Type} (g : Mtab) (err : Int) : P α := do
  unlockMtab g
  .exit err

def Stat.isEnoent : Stat → Bool
  | .failed err => err.val == enoent
  | _ => false

/-- Opens the lock file and locks it. -/
def openLock (g : Mtab) : P Unit := do
  if !(← sys .openLock) then
    die g exFileio
  if !(← sys .fcntlLock) then
    attempt .closeLock
    die g exFileio

def lockMtab : M Unit := do
  -- Only the first time: `unlock_mtab` closes the file but leaves `lock` as it is.
  if !(← get).lock then
    let st ← lstatLock
    modify fun g => { g with oldLockfile := g.oldLockfile && !st.isEnoent }
    openLock (← get)
    modify fun g => { g with lock := true, oldLockfile := false }

/-- One entry of the file that is copied. -/
def copyEntry (dir : CString) (g : Mtab) (_ : Unit) (mnt : Mntent) : P (ForInStep Unit) := do
  if mnt.dir ≠ dir then
    if ← myAddmntent mnt then
      die g exFileio
  return .yield ()

/-- The copy of the file less the entries of `dir`. -/
def copyMtab (dir : CString) (g : Mtab) (file : List CString) : P Unit := do
  let _ ← forEntries .update (copyEntry dir g) 0 file ()
  if !(← sys .fchmodTemp) then
    attempt .badMode
  attempt .renameTemp

def updateMtab (dir : CString) : M Unit := do
  if (← mtabDoesNotExist) || (← mtabIsASymlink) then
    return
  lockMtab
  match ← mySetmntent .mounted with
  -- `goto leave`: the file stays as it is
  | none => error
  | some file =>
    if ← mySetmntentTemp then
      copyMtab dir (← get) file
    else
      error
  unlockMtab (← get)

/-! ## Coming back -/

section Rules
variable {su : Setup} {cmd : RebootCmd}

/-- Once the table was asked for, `m` comes back and leaves it so, unless an answer is
fatal. -/
abbrev KeepsMtab (su : Setup) (cmd : RebootCmd) {α : Type} (m : M α) : Prop :=
  Keeps (isReboot cmd) (Fatal su) (fun g => g.gotMtab = true) m

theorem keeps_sys (s : Sys) (hf : ∀ ok, ¬ Fatal su (.sys s) ok) : KeepsMtab su cmd (liftM (sys s) : M Bool) :=
  Keeps.lift (quiet_sys s hf)

theorem keeps_error : KeepsMtab su cmd (liftM error : M Unit) := Keeps.lift quiet_xmalloc

theorem noteStat_gotMtab (g : Mtab) (st : Stat) : (g.noteStat st).gotMtab = g.gotMtab := by
  cases st <;> rfl

theorem keeps_getMtabInfo : KeepsMtab su cmd getMtabInfo := by
  apply Keeps.get.bind
  intro g
  apply Keeps.ite
  · intro _
    apply (Keeps.lift (quiet_ask (c := .lstatMounted) rfl fun _ h => h)).bind
    intro st
    exact Keeps.modify fun s hs => (noteStat_gotMtab s st).trans hs
  · intro _
    exact Keeps.pure ()

theorem keeps_mtabDoesNotExist : KeepsMtab su cmd mtabDoesNotExist :=
  keeps_getMtabInfo.bind fun _ => Keeps.get.bind fun _ => Keeps.pure _

theorem keeps_mtabIsASymlink : KeepsMtab su cmd mtabIsASymlink :=
  keeps_getMtabInfo.bind fun _ => Keeps.get.bind fun _ => Keeps.pure _

theorem keeps_mtabIsWritable : KeepsMtab su cmd mtabIsWritable := by
  apply keeps_mtabIsASymlink.bind
  intro symlink
  apply Keeps.ite
  · intro _
    exact Keeps.pure false
  · intro _
    apply Keeps.get.bind
    intro g
    cases g.writable with
    | some ret => exact Keeps.pure ret
    | none =>
      apply (keeps_sys .openMounted fun _ h => h).bind
      intro ok
      refine (Keeps.modify ?_).bind fun _ => ?_
      · exact fun _ hs => hs
      · exact Keeps.pure ok

/-- The table is read once. -/
theorem mtabHead_got {g : Mtab} (hg : g.gotMtab = true) : mtabHead g = .ret (g.mounttable, g) := by
  show (if (!g.gotMtab) = true then readMounttable >>= fun _ => _ else _ : M _) g = _
  rw [hg]
  rfl

theorem keeps_mtabHead : KeepsMtab su cmd mtabHead := by
  intro g hg
  rw [mtabHead_got hg]
  exact hg

theorem keeps_getmntfile (name : CString) : KeepsMtab su cmd (getmntfile name) :=
  (keeps_mtabHead.bind fun _ => Keeps.pure _).bind fun _ => Keeps.pure _

theorem keeps_getmntoptfile (file : CString) : KeepsMtab su cmd (getmntoptfile file) :=
  (keeps_mtabHead.bind fun _ => Keeps.pure _).bind fun _ => Keeps.pure _

theorem quiet_unlockMtab (g : Mtab) : Quiet su cmd (unlockMtab g) := by
  apply Steady.ite
  · intro _
    apply quiet_bind (quiet_attempt .closeLock fun _ h => h)
    intro _
    apply Steady.ite
    · intro _
      exact quiet_attempt .unlinkLock fun _ h => h
    · intro _
      exact quiet_pure ()
  · intro _
    exact quiet_pure ()

/-- `die` does not come back, nor does it reboot. -/
theorem doomed_die {α : Type} {D : α → Prop} (g : Mtab) (err : Int) :
    Doomed (isReboot cmd) D (die g err : P α) := by
  apply (doomed_of_quiet fun _ => (quiet_unlockMtab g)).bind
  intro _ _
  trivial

theorem quiet_openLock (g : Mtab) : Quiet su cmd (openLock g) := by
  apply steady_sys_bind .openLock fun _ => Iff.rfl
  · apply steady_sys_bind .fcntlLock fun _ => Iff.rfl
    · exact quiet_pure ()
    · apply (doomed_of_quiet fun _ => (quiet_attempt .closeLock fun _ h => h)).bind
      intro _ _
      exact doomed_die g exFileio
  · exact (doomed_die (D := fun _ => False) g exFileio).bind fun _ h => h.elim

theorem keeps_lockMtab : KeepsMtab su cmd lockMtab := by
  apply Keeps.get.bind
  intro g
  apply Keeps.ite
  · intro _
    apply (Keeps.lift (quiet_ask (c := .lstatLock) rfl fun _ h => h)).bind
    intro st
    refine (Keeps.modify ?_).bind fun _ => ?_
    · exact fun _ hs => hs
    · apply Keeps.get.bind
      intro g'
      apply (Keeps.lift (quiet_openLock g')).bind
      intro _
      exact Keeps.modify fun _ hs => hs
  · intro _
    exact Keeps.pure ()

theorem quiet_copyEntry (dir : CString) (g : Mtab) (acc : Unit) (mnt : Mntent) :
    Quiet su cmd (copyEntry dir g acc mnt) := by
  apply Steady.ite
  · intro _
    apply (steady_myAddmntent mnt).bind
    · rintro _ rfl
      exact quiet_pure _
    · rintro _ rfl
      exact (doomed_die (D := fun _ => False) g exFileio).bind fun _ h => h.elim
  · intro _
    exact quiet_pure _

theorem quiet_copyMtab (dir : CString) (g : Mtab) (file : List CString) :
    Quiet su cmd (copyMtab dir g file) := by
  -- A read error only ends the copy here.
  apply (steady_forEntries (quiet_copyEntry dir g) file 0 ()).bind
  · intro _ _
    apply quiet_bind (quiet_sys .fchmodTemp fun _ h => h)
    intro ok
    apply quiet_when_then
    · exact quiet_attempt .badMode fun _ h => h
    · exact quiet_attempt .renameTemp fun _ h => h
  · intro _ h
    exact nomatch h.1

/-- **Updating `/etc/mtab` comes back** unless an answer is fatal. -/
theorem keeps_updateMtab (dir : CString) : KeepsMtab su cmd (updateMtab dir) := by
  apply keeps_mtabDoesNotExist.bind
  intro missing
  apply keeps_mtabIsASymlink.bind
  intro symlink
  apply Keeps.ite
  · intro _
    exact Keeps.pure ()
  · intro _
    apply keeps_lockMtab.bind
    intro _
    have hleave : KeepsMtab su cmd (get >>= fun g => liftM (unlockMtab g) : M Unit) :=
      Keeps.get.bind fun g => Keeps.lift (quiet_unlockMtab g)
    apply (Keeps.lift quiet_mySetmntent_mounted).bind
    intro mfp
    cases mfp with
    | none => exact keeps_error.bind fun _ => hleave
    | some file =>
      apply (Keeps.lift quiet_mySetmntentTemp).bind
      intro ok
      apply Keeps.ite
      · intro _
        apply Keeps.get.bind
        intro g
        exact (Keeps.lift (quiet_copyMtab dir g file)).bind fun _ => hleave
      · intro _
        exact keeps_error.bind fun _ => hleave

/-! Asking for the table the first time. -/

theorem quiet_chainEntry (chain : List Mntent) (mnt : Mntent) : Quiet su cmd (chainEntry chain mnt) := by
  apply Steady.ite
  · intro _
    exact quiet_pure _
  · intro _
    exact quiet_bind quiet_xmalloc fun _ => quiet_pure _

/-- After its message, what is given up stays so. -/
theorem doomed_error_none :
    Doomed (isReboot cmd) (fun chain => chain = none) (error >>= fun _ => pure none : P (Option (List Mntent))) := by
  apply (doomed_of_quiet fun _ => quiet_xmalloc).bind
  intro _ _
  rfl

theorem steady_readMntentchn (file : List CString) :
    Steady (isReboot cmd) (Fatal su) (fun chain => chain ≠ none) (fun chain => chain = none)
      (readMntentchn file) := by
  apply (steady_forEntries quiet_chainEntry file 0 []).bind
  · rintro ⟨chain, err⟩ h
    obtain rfl : err = false := h rfl
    exact Steady.pure (Option.some_ne_none chain)
  · rintro ⟨chain, err⟩ h
    obtain rfl : err = true := h.2
    exact doomed_error_none

theorem steady_readTable :
    Steady (isReboot cmd) (Fatal su) (fun chain => chain ≠ none) (fun chain => chain = none) readTable := by
  apply quiet_mySetmntent_mounted.seq
  intro mfp _
  cases mfp with
  | some file => exact steady_readMntentchn file
  | none =>
    apply steady_mySetmntent_procMounts.bind
    · intro mfp h
      obtain ⟨file, rfl⟩ := Option.ne_none_iff_exists'.mp h
      exact steady_readMntentchn file
    · rintro _ rfl
      exact doomed_error_none

theorem steady_readMounttable (g : Mtab) :
    Steady (isReboot cmd) (Fatal su) (fun r => r.2.mounttable ≠ none ∧ r.2.gotMtab = true)
      (fun r => r.2.mounttable = none) (readMounttable g) := by
  have hread : Steady (isReboot cmd) (Fatal su) (fun r => r.1 ≠ none ∧ r.2.gotMtab = true) (fun r => r.1 = none)
      ((liftM readTable : M _) { g with gotMtab := true, mounttable := none }) :=
    steady_readTable.bind (fun _ h => ⟨h, rfl⟩) (fun _ h => h)
  exact hread.bind (fun _ h => h) (fun _ h => h)

/-- **The first request for the mount table** comes back with one, unless an answer is
fatal; then it may come back without. -/
theorem steady_mtabHead {g : Mtab} (hg : g.gotMtab = false) :
    Steady (isReboot cmd) (Fatal su) (fun r => r.1 ≠ none ∧ r.2.gotMtab = true) (fun r => r.1 = none)
      (mtabHead g) := by
  have hfirst : mtabHead g = (readMounttable g >>= fun r => pure (r.2.mounttable, r.2)) := by
    show (if (!g.gotMtab) = true then readMounttable >>= fun _ => _ else _ : M _) g = _
    rw [hg]
    rfl
  rw [hfirst]
  exact (steady_readMounttable g).bind (fun _ h => h) (fun _ h => h)

end Rules

end Watchdog.Shutdown
