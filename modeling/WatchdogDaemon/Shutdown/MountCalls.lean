import WatchdogDaemon.Lib.Monitor
import WatchdogDaemon.Shutdown.Umount

/- What the mount code calls.

   `umount_all` is the largest step of a shutdown, and what it does to the rest of the
   machine is told by a short list of calls: those that look at the mount tables
   (`plainCall`), those about the lock of `/etc/mtab` and its new version (`lockCall`,
   `closeCall`, `tempCall`), `umount` itself, and a `sync`. `only_umountAll` says that in no run there is
   another one: the mount code does not sleep, kill, refresh the device or reboot. Results
   about whole shutdowns use it in place of the code. -/
namespace Watchdog.Shutdown
open CallTree

/-! ## What the mount code calls -/

/-- The calls that look at the mount tables, and those for memory and the loop devices. -/
def plainCall : Call → Bool
  | .malloc => true
  | .fopen _ => true
  | .fgetsEnd _ => true
  | .lstatMounted => true
  | .lstatLock => true
  | .sys .openMounted => true
  | .sys (.openLoop _) => true
  | .sys (.clearLoop _) => true
  | .sys (.badLine .table _) => true
  | _ => false

/-- Those that give up the lock of `/etc/mtab`. -/
def closeCall : Call → Bool
  | .sys .closeLock => true
  | .sys .unlinkLock => true
  | _ => false

/-- All those about the lock. -/
def lockCall : Call → Bool
  | .sys .openLock => true
  | .sys .fcntlLock => true
  | q => closeCall q

/-- Those about its new version, with the messages that may get into it. -/
def tempCall : Call → Bool
  | .sys .fopenTemp => true
  | .sys .fseekTemp => true
  | .sys (.fprintfTemp _) => true
  | .sys .fchmodTemp => true
  | .sys .renameTemp => true
  | .sys (.badLine .update _) => true
  | .sys .badMode => true
  | _ => false

/-- All calls of the copying but those that take the lock. -/
def copyCall (q : Call) : Bool := plainCall q || tempCall q || closeCall q

/-- The calls about `/etc/mtab`, its lock and the loop devices. -/
def tableCall (q : Call) : Bool := plainCall q || lockCall q || tempCall q

/-- All calls of `umount_all`. -/
def mountCall : Call → Bool
  | .umount _ => true
  | .sys .sync => true
  | q => tableCall q

abbrev OnlyPlain {α : Type} (p : P α) : Prop := Only (fun q => plainCall q = true) True p

abbrev OnlyPlainS {α : Type} (x : M α) : Prop := OnlyS (fun q => plainCall q = true) True x

abbrev OnlyClose {α : Type} (p : P α) : Prop := Only (fun q => closeCall q = true) True p

/-- Reading the tables and holding the lock. -/
abbrev OnlyLock {α : Type} (p : P α) : Prop := Only (fun q => (plainCall q || lockCall q) = true) True p

abbrev OnlyLockS {α : Type} (x : M α) : Prop := OnlyS (fun q => (plainCall q || lockCall q) = true) True x

abbrev OnlyCopy {α : Type} (p : P α) : Prop := Only (fun q => copyCall q = true) True p

abbrev OnlyTable {α : Type} (p : P α) : Prop := Only (fun q => tableCall q = true) True p

abbrev OnlyTableS {α : Type} (x : M α) : Prop := OnlyS (fun q => tableCall q = true) True x

theorem mountCall_of_table {q : Call} (h : tableCall q = true) : mountCall q = true := by
  unfold mountCall
  split
  · rfl
  · rfl
  · exact h

/-! ### Looking -/

section Plain

theorem plain_ask (q : Call) (h : plainCall q = true) : OnlyPlain (ask q) := Only.ask h

theorem plain_sys {s : Sys} (h : plainCall (.sys s) = true) : OnlyPlain (sys s) := plain_ask _ h

theorem only_attempt {S : Call → Prop} {s : Sys} (h : S (.sys s)) : Only S True (attempt s) :=
  Only.bind (Only.ask (c := Call.sys s) h) fun _ => Only.pure ()

theorem only_xmalloc : OnlyPlain xmalloc :=
  (plain_ask .malloc rfl).bind fun (_ : Bool) => Only.ite (Only.pure ()) trivial

theorem only_unmangle (s : CString) : OnlyPlain (unmangle s) :=
  only_xmalloc.bind fun _ => Only.pure _

theorem only_mangle (s : CString) : OnlyPlain (mangle s) :=
  only_xmalloc.bind fun _ => Only.pure _

theorem only_readLine (buf : CString) : OnlyPlain (readLine buf) := by
  apply Only.ite (Only.pure _)
  apply Only.ite (Only.pure _)
  apply (only_unmangle _).bind
  intro fsname
  apply (only_unmangle _).bind
  intro dir
  apply (only_unmangle _).bind
  intro type
  apply (only_unmangle _).bind
  intro opts
  dsimp only
  split
  · exact Only.pure _
  · exact Only.pure _

theorem only_forEntries {S : Call → Prop} (hS : ∀ q, plainCall q = true → S q) {σ : Type} {reader : Reader}
    (hbad : ∀ ignored, S (.sys (.badLine reader ignored))) {body : σ → Mntent → P (ForInStep σ)}
    (hbody : ∀ acc mnt, Only S True (body acc mnt)) (pieces : List CString)
    (softerrs : Nat) (acc : σ) : Only S True (forEntries reader body softerrs pieces acc) := by
  induction pieces generalizing softerrs acc with
  | nil =>
    exact Only.ite (Only.pure _) ((Only.ask (c := .fgetsEnd reader) (hS _ rfl)).bind fun _ => Only.pure _)
  | cons piece pieces ih =>
    apply Only.ite (Only.pure _)
    apply ((only_readLine piece).mono hS).bind
    intro line
    cases line with
    | blank => exact ih softerrs acc
    | tooLong => exact (only_attempt (hbad true)).bind fun _ => Only.pure _
    | bad => exact (only_attempt (hbad _)).bind fun _ => ih (softerrs + 1) acc
    | entry mnt =>
      apply (hbody acc mnt).bind
      intro step
      cases step with
      | done acc' => exact Only.pure _
      | yield acc' => exact ih softerrs acc'

theorem only_mySetmntent (path : MntPath) : OnlyPlain (mySetmntent path) :=
  only_xmalloc.bind fun _ => (plain_ask (.fopen path) rfl).bind fun _ => only_xmalloc.bind fun _ => Only.pure _

theorem only_getMtabInfo : OnlyPlainS getMtabInfo := by
  apply OnlyS.get.bind
  intro g
  refine OnlyS.ite ?_ (OnlyS.pure _)
  exact (OnlyS.lift (plain_ask .lstatMounted rfl)).bind fun _ => OnlyS.modify

theorem only_mtabDoesNotExist : OnlyPlainS mtabDoesNotExist :=
  only_getMtabInfo.bind fun _ => OnlyS.get.bind fun _ => OnlyS.pure _

theorem only_mtabIsASymlink : OnlyPlainS mtabIsASymlink :=
  only_getMtabInfo.bind fun _ => OnlyS.get.bind fun _ => OnlyS.pure _

theorem only_mtabIsWritable : OnlyPlainS mtabIsWritable := by
  apply only_mtabIsASymlink.bind
  intro symlink
  apply OnlyS.ite (OnlyS.pure _)
  apply OnlyS.get.bind
  intro g
  cases g.writable with
  | some ret => exact OnlyS.pure ret
  | none =>
    exact (OnlyS.lift (plain_sys rfl)).bind fun _ => OnlyS.modify.bind fun _ => OnlyS.pure _

theorem only_chainEntry (chain : List Mntent) (mnt : Mntent) : OnlyPlain (chainEntry chain mnt) :=
  Only.ite (Only.pure _) (only_xmalloc.bind fun _ => Only.pure _)

theorem only_readMntentchn (file : List CString) : OnlyPlain (readMntentchn file) := by
  apply (only_forEntries (fun _ h => h) (fun _ => rfl) only_chainEntry file 0 []).bind
  intro chain
  exact Only.ite (only_xmalloc.bind fun _ => Only.pure _) (Only.pure _)

theorem only_readTable : OnlyPlain readTable := by
  apply (only_mySetmntent .mounted).bind
  intro mfp
  cases mfp with
  | some file => exact only_readMntentchn file
  | none =>
    apply (only_mySetmntent .procMounts).bind
    intro mfp
    cases mfp with
    | some file => exact only_readMntentchn file
    | none => exact only_xmalloc.bind fun _ => Only.pure _

theorem only_readMounttable : OnlyPlainS readMounttable :=
  OnlyS.modify.bind fun _ => (OnlyS.lift only_readTable).bind fun _ => OnlyS.modify

theorem only_mtabHead : OnlyPlainS mtabHead := by
  apply OnlyS.get.bind
  intro g
  refine OnlyS.ite ?_ ?_
  · exact only_readMounttable.bind fun _ => OnlyS.get.bind fun _ => OnlyS.pure _
  · exact OnlyS.get.bind fun _ => OnlyS.pure _

theorem only_mtabEntries : OnlyPlainS mtabEntries := only_mtabHead.bind fun _ => OnlyS.pure _

theorem only_getmntfile (name : CString) : OnlyPlainS (getmntfile name) :=
  only_mtabEntries.bind fun _ => OnlyS.pure _

theorem only_getmntoptfile (file : CString) : OnlyPlainS (getmntoptfile file) :=
  only_mtabEntries.bind fun _ => OnlyS.pure _

theorem only_findMounted (spec node : CString) : OnlyPlainS (findMounted spec node) := by
  apply (only_getmntfile spec).bind
  intro mc
  cases mc with
  | some mc => exact OnlyS.pure _
  | none => exact only_getmntfile node

theorem only_delLoop (device : CString) : OnlyPlain (delLoop device) := by
  apply (plain_sys rfl).bind
  intro ok
  exact Only.ite (Only.pure _) ((plain_sys rfl).bind fun _ => Only.pure _)

theorem only_clearLoopOpt (opts : CString) : OnlyPlain (clearLoopOpt opts) := by
  apply only_xmalloc.bind
  intro _
  split
  · exact only_delLoop _
  · exact Only.pure _

theorem only_clearLoop (spec : CString) (mc : Mntent) : OnlyPlain (clearLoop spec mc) := by
  refine Only.ite ?_ (only_clearLoopOpt mc.opts)
  apply (only_delLoop spec).bind
  intro failed
  exact Only.ite (Only.pure _) (only_clearLoopOpt mc.opts)

theorem only_complaints (tried : Tried) : OnlyPlain (complaints tried) := by
  have hsecond : OnlyPlain (if tried.err ≠ 0 ∧ tried.err ≠ tried.err2 then complain else pure ()) :=
    Only.ite only_xmalloc (Only.pure _)
  exact Only.ite (only_xmalloc.bind fun _ => hsecond) hsecond

end Plain

/-! ### The lock -/

section Lock

theorem lock_sys {s : Sys} (h : lockCall (.sys s) = true) : OnlyLock (sys s) :=
  Only.ask (Bool.or_eq_true _ _ ▸ Or.inr h)

theorem lock_attempt {s : Sys} (h : lockCall (.sys s) = true) : OnlyLock (attempt s) :=
  (lock_sys h).bind fun _ => Only.pure ()

theorem only_unlockMtab (g : Mtab) : OnlyClose (unlockMtab g) := by
  have hattempt : ∀ s, closeCall (.sys s) = true → OnlyClose (attempt s) := fun _ h => only_attempt h
  refine Only.ite ?_ (Only.pure _)
  exact (hattempt .closeLock rfl).bind fun _ => Only.ite (hattempt .unlinkLock rfl) (Only.pure _)

theorem only_die {α : Type} (g : Mtab) (err : Int) : OnlyClose (die g err : P α) :=
  (only_unlockMtab g).bind fun _ => trivial

theorem lock_of_closeCall {q : Call} (h : closeCall q = true) : lockCall q = true := by
  unfold lockCall
  split
  · rfl
  · rfl
  · exact h

theorem lock_of_close {α : Type} {p : P α} (h : OnlyClose p) : OnlyLock p :=
  h.mono fun q hq => by
    rw [lock_of_closeCall hq, Bool.or_true]

theorem lock_of_plain {α : Type} {p : P α} (h : OnlyPlain p) : OnlyLock p :=
  h.mono fun q hq => by
    rw [hq]
    rfl

theorem only_openLock (g : Mtab) : OnlyLock (openLock g) := by
  have hfcntl : OnlyLock (do
      if !(← sys .fcntlLock) then
        attempt .closeLock
        die g exFileio : P Unit) := by
    apply (lock_sys rfl).bind
    intro ok
    exact Only.ite ((lock_attempt rfl).bind fun _ => lock_of_close (only_die g exFileio)) (Only.pure _)
  apply (lock_sys rfl).bind
  intro ok
  exact Only.ite ((lock_of_close (only_die g exFileio)).bind fun _ => hfcntl) hfcntl

theorem only_lockMtab : OnlyLockS lockMtab := by
  apply OnlyS.get.bind
  intro g
  refine OnlyS.ite ?_ (OnlyS.pure _)
  have hstat : OnlyLock lstatLock := Only.ask rfl
  apply (OnlyS.lift hstat).bind
  intro st
  apply OnlyS.modify.bind
  intro _
  apply OnlyS.get.bind
  intro g'
  exact (OnlyS.lift (only_openLock g')).bind fun _ => OnlyS.modify

end Lock

/-! ### The new version -/

section Table
variable {α : Type} {p : P α} {x : M α}

theorem table_of_plainCall {q : Call} (h : plainCall q = true) : tableCall q = true := by
  unfold tableCall
  rw [h]
  rfl

theorem table_of_plain (h : OnlyPlain p) : OnlyTable p := h.mono fun _ => table_of_plainCall

theorem tableS_of_plain (h : OnlyPlainS x) : OnlyTableS x := fun g => table_of_plain (h g)

theorem table_of_lock (h : OnlyLock p) : OnlyTable p :=
  h.mono fun q hq => by
    unfold tableCall
    rw [hq]
    rfl

theorem tableS_of_lock (h : OnlyLockS x) : OnlyTableS x := fun g => table_of_lock (h g)

theorem table_xmalloc : OnlyTable xmalloc := table_of_plain only_xmalloc

theorem table_of_copy (h : OnlyCopy p) : OnlyTable p := by
  refine h.mono fun q hq => ?_
  unfold tableCall
  rw [copyCall, Bool.or_eq_true, Bool.or_eq_true] at hq
  rcases hq with (hq | hq) | hq
  · rw [hq]
    rfl
  · rw [hq, Bool.or_true]
  · rw [lock_of_closeCall hq, Bool.or_true]
    rfl

theorem copy_of_plainCall {q : Call} (h : plainCall q = true) : copyCall q = true := by
  unfold copyCall
  rw [h]
  rfl

theorem copy_of_plain (h : OnlyPlain p) : OnlyCopy p := h.mono fun _ => copy_of_plainCall

theorem copy_of_close (h : OnlyClose p) : OnlyCopy p :=
  h.mono fun q hq => by
    unfold copyCall
    rw [hq, Bool.or_true]

theorem copy_sys {s : Sys} (h : copyCall (.sys s) = true) : OnlyCopy (sys s) := Only.ask h

theorem copy_attempt {s : Sys} (h : copyCall (.sys s) = true) : OnlyCopy (attempt s) := only_attempt h

theorem only_mySetmntentTemp : OnlyCopy mySetmntentTemp := by
  have hmalloc : OnlyCopy xmalloc := copy_of_plain only_xmalloc
  exact hmalloc.bind fun _ => (copy_sys rfl).bind fun _ => hmalloc.bind fun _ => Only.pure _

theorem only_myAddmntent (mnt : Mntent) : OnlyCopy (myAddmntent mnt) := by
  apply (copy_sys rfl).bind
  intro ok
  apply Only.ite (Only.pure _)
  apply (copy_of_plain (only_mangle mnt.fsname)).bind
  intro m1
  apply (copy_of_plain (only_mangle mnt.dir)).bind
  intro m2
  apply (copy_of_plain (only_mangle mnt.type)).bind
  intro m3
  apply (copy_of_plain (only_mangle mnt.opts)).bind
  intro m4
  exact (copy_sys rfl).bind fun _ => Only.pure _

theorem only_copyEntry (dir : CString) (g : Mtab) (acc : Unit) (mnt : Mntent) :
    OnlyCopy (copyEntry dir g acc mnt) := by
  refine Only.ite ?_ (Only.pure _)
  apply (only_myAddmntent mnt).bind
  intro failed
  exact Only.ite ((copy_of_close (only_die g exFileio)).bind fun _ => Only.pure _) (Only.pure _)

theorem only_copyMtab (dir : CString) (g : Mtab) (file : List CString) :
    OnlyCopy (copyMtab dir g file) := by
  apply (only_forEntries (fun _ => copy_of_plainCall) (fun _ => rfl) (only_copyEntry dir g) file 0 ()).bind
  intro _
  apply (copy_sys rfl).bind
  intro ok
  exact Only.ite ((copy_attempt rfl).bind fun _ => copy_attempt rfl) (copy_attempt rfl)

theorem only_updateMtab (dir : CString) : OnlyTableS (updateMtab dir) := by
  have hleave : OnlyTableS (get >>= fun g => liftM (unlockMtab g) : M Unit) :=
    OnlyS.get.bind fun g => OnlyS.lift (table_of_lock (lock_of_close (only_unlockMtab g)))
  apply (tableS_of_plain only_mtabDoesNotExist).bind
  intro missing
  apply (tableS_of_plain only_mtabIsASymlink).bind
  intro symlink
  apply OnlyS.ite (OnlyS.pure _)
  apply (tableS_of_lock only_lockMtab).bind
  intro _
  apply (OnlyS.lift (table_of_plain (only_mySetmntent .mounted))).bind
  intro mfp
  cases mfp with
  | none => exact (OnlyS.lift table_xmalloc).bind fun _ => hleave
  | some file =>
    apply (OnlyS.lift (table_of_copy only_mySetmntentTemp)).bind
    intro ok
    refine OnlyS.ite ?_ ((OnlyS.lift table_xmalloc).bind fun _ => hleave)
    apply OnlyS.get.bind
    intro g
    exact (OnlyS.lift (table_of_copy (only_copyMtab dir g file))).bind fun _ => hleave

theorem only_umounted (spec node : CString) : OnlyTableS (umounted spec node) := by
  apply OnlyS.get.bind
  intro g
  apply OnlyS.ite (OnlyS.pure _)
  apply (tableS_of_plain only_mtabIsWritable).bind
  intro writable
  apply OnlyS.ite (OnlyS.pure _)
  apply (tableS_of_plain (only_findMounted spec node)).bind
  intro mc
  cases mc with
  | some mc =>
    apply (OnlyS.lift (table_of_plain (only_clearLoop spec mc))).bind
    intro failed
    exact OnlyS.ite (OnlyS.pure _) ((only_updateMtab node).bind fun _ => OnlyS.pure _)
  | none =>
    apply (tableS_of_plain (only_getmntoptfile spec)).bind
    intro mc
    cases mc with
    | some mc => exact (only_updateMtab mc.dir).bind fun _ => OnlyS.pure _
    | none => exact (only_updateMtab node).bind fun _ => OnlyS.pure _

theorem only_umountFailed (node : CString) (tried : Tried) : OnlyTableS (umountFailed node tried) := by
  apply OnlyS.get.bind
  intro g
  refine OnlyS.ite ?_ (OnlyS.lift (table_of_plain (only_complaints tried)))
  exact (only_updateMtab node).bind fun _ => OnlyS.lift (table_of_plain (only_complaints tried))

end Table

/-- `umount_all` makes no other calls. -/
theorem only_umountAll : OnlyS (fun q => mountCall q = true) True umountAll := by
  have htable : ∀ {α : Type} {x : M α}, OnlyTableS x → OnlyS (fun q => mountCall q = true) True x :=
    fun h s => (h s).mono fun q hq => mountCall_of_table hq
  have humount : ∀ path, Only (fun q => mountCall q = true) True (umount path) := fun path => Only.ask rfl
  have htried : ∀ spec node, Only (fun q => mountCall q = true) True (umountTried spec node) := by
    intro spec node
    apply (humount node).bind
    intro err
    cases err with
    | none => exact Only.pure _
    | some err =>
      refine Only.ite ?_ (Only.pure _)
      apply (humount spec).bind
      intro err2
      cases err2 with
      | none => exact Only.pure _
      | some err2 => exact Only.pure _
  have hnode : ∀ spec node, OnlyS (fun q => mountCall q = true) True (umountNode spec node) := by
    intro spec node
    apply (OnlyS.lift (htried spec node)).bind
    intro tried
    have hfailed := (htable (only_umountFailed node tried)).bind fun _ =>
      OnlyS.pure (S := fun q => mountCall q = true) (X := True) true
    refine OnlyS.ite ?_ hfailed
    apply (htable (only_umounted spec node)).bind
    intro failed
    exact OnlyS.ite (OnlyS.pure _) hfailed
  apply (htable (tableS_of_plain only_mtabHead)).bind
  intro head
  cases head with
  | none => exact OnlyS.get.bind fun g => htable (OnlyS.lift (table_of_lock (lock_of_close (only_die g 2))))
  | some chain =>
    refine OnlyS.bind (OnlyS.forM fun mc _ => ?_) fun _ => OnlyS.lift ?_
    · refine OnlyS.ite ?_ (OnlyS.pure _)
      refine OnlyS.bind (OnlyS.ite ?_ (hnode _ _)) fun _ => OnlyS.pure _
      exact OnlyS.modify.bind fun _ => hnode _ _
    · exact Only.bind (Only.ask (c := Call.sys .sync) rfl) fun _ => Only.pure _

/-! ## What looking leaves alone -/

section Statics
variable {μ : Type} {N : Monitor Call Answer μ} {E : μ → Prop} {K : Mtab → Prop} {m₀ : μ}

/-- The statics are such that `K`, and the monitor is in the state `m₀`. -/
def At (K : Mtab → Prop) (m₀ : μ) (g : Mtab) (m : μ) : Prop := K g ∧ m = m₀

/-- Looking at the tables is nothing to the monitor, and what it finds out about `/etc/mtab` nothing to `K`. -/
structure Undisturbed (N : Monitor Call Answer μ) (E : μ → Prop) (K : Mtab → Prop) (m₀ : μ) : Prop where
  ignores : ∀ q, plainCall q = true → N.Ignores m₀ q
  exits : E m₀
  noteStat : ∀ g st, K g → K (g.noteStat st)
  writable : ∀ g ok, K g → K { g with writable := some ok }

theorem triple_ret {α : Type} (a : α) : TripleS N E (At K m₀) (pure a : M α) fun _ => At K m₀ :=
  TripleS.pure fun _ _ h => h

theorem triple_get : TripleS N E (At K m₀) (get : M Mtab) fun g => At (fun g' => g = g' ∧ K g') m₀ :=
  TripleS.get.conseq (fun _ _ h => h) fun _ _ _ h => ⟨⟨h.1, h.2.1⟩, h.2.2⟩

theorem triple_modify {L : Mtab → Prop} {f : Mtab → Mtab} (hf : ∀ g, K g → L (f g)) :
    TripleS N E (At K m₀) (modify f : M Unit) fun _ => At L m₀ :=
  TripleS.modify fun g _ h => ⟨hf g h.1, h.2⟩

/-- What was read of the statics stays true of them only as long as they are left alone. -/
theorem triple_forget {L : Mtab → Prop} (hL : ∀ g, L g → K g) {α : Type} {x : M α} {J : α → Mtab → μ → Prop}
    (h : TripleS N E (At K m₀) x J) : TripleS N E (At L m₀) x J :=
  h.conseq (fun g _ hm => ⟨hL g hm.1, hm.2⟩) fun _ _ _ h => h

variable (h₀ : Undisturbed N E K m₀)
include h₀

theorem triple_plain {α : Type} {p : P α} (hp : OnlyPlain p) :
    TripleS N E (At K m₀) (liftM p : M α) fun _ => At K m₀ := by
  apply TripleS.lift
  rintro g _ ⟨hg, rfl⟩
  exact (hp.still h₀.ignores h₀.exits).mono (fun _ _ hm => ⟨hg, hm⟩) fun _ h => h

theorem triple_getMtabInfo : TripleS N E (At K m₀) getMtabInfo fun _ => At K m₀ := by
  apply triple_get.bind
  intro g
  refine triple_forget (fun _ h => h.2) (TripleS.ite (fun _ => ?_) fun _ => triple_ret ())
  apply (triple_plain h₀ (plain_ask .lstatMounted rfl)).bind
  intro st
  exact triple_modify fun g hg => h₀.noteStat g st hg

theorem triple_mtabDoesNotExist : TripleS N E (At K m₀) mtabDoesNotExist fun _ => At K m₀ :=
  (triple_getMtabInfo h₀).bind fun _ => triple_get.bind fun _ => triple_forget (fun _ h => h.2) (triple_ret _)

theorem triple_mtabIsASymlink : TripleS N E (At K m₀) mtabIsASymlink fun _ => At K m₀ :=
  (triple_getMtabInfo h₀).bind fun _ => triple_get.bind fun _ => triple_forget (fun _ h => h.2) (triple_ret _)

theorem triple_mtabIsWritable : TripleS N E (At K m₀) mtabIsWritable fun _ => At K m₀ := by
  apply (triple_mtabIsASymlink h₀).bind
  intro symlink
  refine TripleS.ite (fun _ => triple_ret _) fun _ => ?_
  apply triple_get.bind
  intro g
  apply triple_forget fun _ h => h.2
  cases g.writable with
  | some ret => exact triple_ret ret
  | none =>
    apply (triple_plain h₀ (plain_sys rfl)).bind
    intro ok
    refine TripleS.bind (triple_modify ?_) fun _ => triple_ret _
    exact fun g hg => h₀.writable g ok hg

/-- Asking for the table. -/
theorem triple_head (hK : ∀ g got chain, K g → K { g with gotMtab := got, mounttable := chain }) :
    TripleS N E (At K m₀) mtabHead fun _ => At K m₀ := by
  have hread : TripleS N E (At K m₀) readMounttable fun _ => At K m₀ := by
    refine TripleS.bind (triple_modify (L := K) ?_) fun _ =>
      (triple_plain h₀ only_readTable).bind fun chain => triple_modify ?_
    · exact fun g hg => hK g true none hg
    · exact fun g hg => hK g g.gotMtab chain hg
  have hlast : TripleS N E (At K m₀) (get >>= fun g => pure g.mounttable : M (Option (List Mntent)))
      fun _ => At K m₀ := triple_get.bind fun _ => triple_forget (fun _ h => h.2) (triple_ret _)
  apply triple_get.bind
  intro g
  exact triple_forget (fun _ h => h.2) (TripleS.ite (fun _ => hread.bind fun _ => hlast) fun _ => hlast)

end Statics

end Watchdog.Shutdown
