import WatchdogDaemon.Shutdown.MountTable

/- Unmounting everything: `umount.c` and `del_loop` of `lomount.c`.

   `umount_all` goes through the mount table backwards. A file system is unmounted by
   its directory or, failing that, by its device; on success its loop device is freed
   and its entry taken out of `/etc/mtab`, and on failure there is a complaint. No
   failure of `umount` or of a loop device ends the loop: what ends it early are the
   fatal answers of the mount code below, and no table to start with.

   Correspondence (C ↔ Lean):
     `del_loop`                             ↔ `delLoop`
     `complain`                             ↔ `complain`
     `umount_one`                           ↔ `umountOne`, of `umountTried`, `umounted`,
                                              `clearLoop`, `umountFailed`
     `umount_all` with NULL types           ↔ `umountAll`
   The flags of the command line (`remount`, `umount_verbose`) keep their 0. -/
namespace Watchdog.Shutdown
open CallTree

/-! ## One file system -/

/-- Whether freeing the loop device failed. -/
def delLoop (device : CString) : P Bool := do
  if !(← sys (.openLoop device)) then
    return true
  let ok ← sys (.clearLoop device)
  return !ok

/-- The message is for a person; every error has one. -/
def complain : P Unit := error

def isRoot (node : CString) : Bool :=
  node = "/".toList || node = "root".toList || node = "rootfs".toList

/-- Whether an `umount` succeeded, and `umnt_err` and `umnt_err2`. -/
structure Tried where
  ok : Bool
  err : Int
  err2 : Int

/-- By the directory, then by the device; a remote one that is not found is no error. -/
def umountTried (spec node : CString) : P Tried := do
  match ← umount node with
  | none => return ⟨true, 0, 0⟩
  | some err =>
    if err.val ≠ ebusy ∧ node ≠ spec then
      match ← umount spec with
      | none => return ⟨true, err.val, 0⟩
      | some err2 =>
        return ⟨false, err.val, if err2.val = enoent ∧ spec.contains ':' then 0 else err2.val⟩
    else return ⟨false, err.val, 0⟩

/-- The options `strtok` returns for a comma. -/
def tokens (opts : CString) : List CString := (opts.splitOn ',').filter fun opt => !opt.isEmpty

/-- Frees the loop device that the options name, in a new style line. -/
def clearLoopOpt (opts : CString) : P Bool := do
  xmalloc
  match (tokens opts).find? fun opt => "loop=".toList.isPrefixOf opt with
  | some opt => delLoop (opt.drop 5)
  | none => return false

/-- Frees the loop device of an entry; whether that failed. -/
def clearLoop (spec : CString) (mc : Mntent) : P Bool := do
  -- An old style line has the type.
  if mc.type = "loop".toList then
    if ← delLoop spec then
      return true
  clearLoopOpt mc.opts

/-- `spec` or else `node` in the table. -/
def findMounted (spec node : CString) : M (Option Mntent) := do
  match ← getmntfile spec with
  | some mc => return some mc
  | none => getmntfile node

/-- After an `umount` that succeeded; whether a loop device could not be freed. -/
def umounted (spec node : CString) : M Bool := do
  if (← get).umountNomtab ≠ 0 then
    return false
  if !(← mtabIsWritable) then
    return false
  match ← findMounted spec node with
  | some mc =>
    if ← clearLoop spec mc then
      return true
    updateMtab node
  | none =>
    match ← getmntoptfile spec with
    -- `spec` is a loop device: only its entry goes.
    | some mc => updateMtab mc.dir
    | none => updateMtab node
  return false

def complaints (tried : Tried) : P Unit := do
  if tried.err2 ≠ 0 then
    complain
  if tried.err ≠ 0 ∧ tried.err ≠ tried.err2 then
    complain

/-- After one that failed: an entry that is obsolete is removed. -/
def umountFailed (node : CString) (tried : Tried) : M Unit := do
  if (← get).umountNomtab = 0 ∧ (tried.err = einval ∨ tried.err = enoent) then
    updateMtab node
  complaints tried

/-- `umount_one` once the node is looked at; whether it failed. -/
def umountNode (spec node : CString) : M Bool := do
  let tried ← umountTried spec node
  if tried.ok then
    if !(← umounted spec node) then
      return false
  umountFailed node tried
  return true

/-- For the root the kernel only remounts it, and `/etc/mtab` is left alone from then on. -/
def umountOne (spec node : CString) : M Bool := do
  if isRoot node then
    modify fun g => { g with umountNomtab := g.umountNomtab + 1 }
  umountNode spec node

/-! ## All of them -/

/-- `matching_type` with NULL types. -/
def matchingType (type : CString) : Bool := type ≠ "swap".toList

def umountAll : M Unit := do
  match ← mtabHead with
  | none => die (← get) 2
  | some chain =>
    -- In reverse order to mount.
    chain.reverse.forM fun mc => do
      if matchingType mc.type then
        let _ ← umountOne mc.fsname mc.dir
    attempt .sync

/-! ## Coming back -/

section Rules
variable {su : Setup} {cmd : RebootCmd}

theorem quiet_delLoop (device : CString) : Quiet su cmd (delLoop device) := by
  apply quiet_bind (quiet_sys (.openLoop device) fun _ h => h)
  intro ok
  apply Steady.ite
  · intro _
    exact quiet_pure true
  · intro _
    exact quiet_bind (quiet_sys (.clearLoop device) fun _ h => h) fun _ => quiet_pure _

theorem quiet_umount (path : CString) : Quiet su cmd (umount path) :=
  quiet_ask (c := .umount path) rfl fun _ h => h

theorem quiet_umountTried (spec node : CString) : Quiet su cmd (umountTried spec node) := by
  apply quiet_bind (quiet_umount node)
  intro err
  cases err with
  | none => exact quiet_pure _
  | some err =>
    apply Steady.ite
    · intro _
      apply quiet_bind (quiet_umount spec)
      intro err2
      cases err2 with
      | none => exact quiet_pure _
      | some err2 => exact quiet_pure _
    · intro _
      exact quiet_pure _

theorem quiet_clearLoopOpt (opts : CString) : Quiet su cmd (clearLoopOpt opts) := by
  apply quiet_bind quiet_xmalloc
  intro _
  split
  · exact quiet_delLoop _
  · exact quiet_pure false

theorem quiet_clearLoop (spec : CString) (mc : Mntent) : Quiet su cmd (clearLoop spec mc) := by
  apply Steady.ite
  · intro _
    apply quiet_bind (quiet_delLoop spec)
    intro failed
    apply Steady.ite
    · intro _
      exact quiet_pure true
    · intro _
      exact quiet_clearLoopOpt mc.opts
  · intro _
    exact quiet_clearLoopOpt mc.opts

theorem keeps_findMounted (spec node : CString) : KeepsMtab su cmd (findMounted spec node) := by
  apply (keeps_getmntfile spec).bind
  intro mc
  cases mc with
  | some mc => exact Keeps.pure _
  | none => exact keeps_getmntfile node

theorem keeps_umounted (spec node : CString) : KeepsMtab su cmd (umounted spec node) := by
  apply Keeps.get.bind
  intro g
  apply Keeps.ite
  · intro _
    exact Keeps.pure false
  · intro _
    apply keeps_mtabIsWritable.bind
    intro writable
    apply Keeps.ite
    · intro _
      exact Keeps.pure false
    · intro _
      apply (keeps_findMounted spec node).bind
      intro mc
      cases mc with
      | some mc =>
        apply (Keeps.lift (quiet_clearLoop spec mc)).bind
        intro failed
        apply Keeps.ite
        · intro _
          exact Keeps.pure true
        · intro _
          exact (keeps_updateMtab node).bind fun _ => Keeps.pure false
      | none =>
        apply (keeps_getmntoptfile spec).bind
        intro mc
        cases mc with
        | some mc => exact (keeps_updateMtab mc.dir).bind fun _ => Keeps.pure false
        | none => exact (keeps_updateMtab node).bind fun _ => Keeps.pure false

theorem quiet_complaints (tried : Tried) : Quiet su cmd (complaints tried) := by
  apply Steady.ite
  · intro _
    apply quiet_bind quiet_xmalloc
    intro _
    exact Steady.ite (fun _ => quiet_xmalloc) fun _ => quiet_pure ()
  · intro _
    exact Steady.ite (fun _ => quiet_xmalloc) fun _ => quiet_pure ()

theorem keeps_umountFailed (node : CString) (tried : Tried) :
    KeepsMtab su cmd (umountFailed node tried) := by
  apply Keeps.get.bind
  intro g
  apply Keeps.ite
  · intro _
    exact (keeps_updateMtab node).bind fun _ => Keeps.lift (quiet_complaints tried)
  · intro _
    exact Keeps.lift (quiet_complaints tried)

theorem keeps_umountNode (spec node : CString) : KeepsMtab su cmd (umountNode spec node) := by
  apply (Keeps.lift (quiet_umountTried spec node)).bind
  intro tried
  apply Keeps.ite
  · intro _
    apply (keeps_umounted spec node).bind
    intro failed
    apply Keeps.ite
    · intro _
      exact Keeps.pure false
    · intro _
      exact (keeps_umountFailed node tried).bind fun _ => Keeps.pure true
  · intro _
    exact (keeps_umountFailed node tried).bind fun _ => Keeps.pure true

/-- **Unmounting one file system comes back** unless an answer is fatal, however many of
its steps fail. -/
theorem keeps_umountOne (spec node : CString) : KeepsMtab su cmd (umountOne spec node) := by
  apply Keeps.ite
  · intro _
    refine (Keeps.modify ?_).bind fun _ => keeps_umountNode spec node
    exact fun _ hs => hs
  · intro _
    exact keeps_umountNode spec node

/-- **Unmounting everything comes back** unless an answer is fatal. -/
theorem quiet_umountAll {g : Mtab} (hg : g.gotMtab = false) : Quiet su cmd (umountAll g) := by
  apply (steady_mtabHead hg).bind
  · rintro ⟨head, g'⟩ ⟨hhead, hg'⟩
    obtain ⟨chain, rfl⟩ := Option.ne_none_iff_exists'.mp hhead
    have hloop : KeepsMtab su cmd (chain.reverse.forM fun mc => do
        if matchingType mc.type then
          let _ ← umountOne mc.fsname mc.dir : M Unit) := by
      apply Keeps.forM
      intro mc _
      apply Keeps.ite
      · intro _
        exact (keeps_umountOne mc.fsname mc.dir).bind fun _ => Keeps.pure ()
      · intro _
        exact Keeps.pure ()
    have hrest := hloop.bind fun _ => Keeps.lift (quiet_attempt .sync fun _ h => h)
    exact (hrest g' hg').mono (fun _ _ => trivial) fun _ h => h
  · rintro ⟨head, g'⟩ rfl
    exact (doomed_die (D := fun _ => False) g' 2).bind fun _ h => h.elim

end Rules

end Watchdog.Shutdown
