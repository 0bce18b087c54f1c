import WatchdogDaemon.Shutdown.MtabFile

/- Which file systems `umount_all` tries to unmount, and under what lock it updates
   `/etc/mtab`.

   What is proved, of every run that starts with the statics as they are at first:
     1. `umount_order` — the file systems of the table that was read, but those of type swap,
        are tried one after the other, the last mounted first; each by its directory, and once
        more by its device if that failed, for another reason than that it is busy. No answer
        of `umount` changes which ones are tried, and a run that returns has tried them all.
     2. `locked_once` — the lock of `/etc/mtab` is taken once at most. `unlock_mtab` closes the
        file but leaves `lock` as it is, so that no later update waits for it: the first
        update is made under the lock, and no other. -/
namespace Watchdog.Shutdown
open CallTree

/-! ## The order -/

/-- What was read of the first table that could be opened, and what `umount` answered. -/
structure Unmounts where
  file : Option (List CString) := none
  calls : List (CString × Option Errno) := []

def Unmounts.next (m : Unmounts) : (q : Call) → Answer q → Unmounts
  | .fopen _, (file : Option (List CString)) => { m with file := m.file.or file }
  | .umount path, (err : Option Errno) => { m with calls := m.calls ++ [(path, err)] }
  | _, _ => m

def unmounts : Monitor Call Answer Unmounts where
  next := Unmounts.next
  ok _ _ := True
  allows _ _ _ := True

/-- The entries before the first one of type ignore. -/
def chainOf (file : List CString) : List Mntent :=
  (entriesOf 0 file).takeWhile fun mnt => mnt.type ≠ "ignore".toList

/-- Swap is left to `swapoff`. -/
def tried (mc : Mntent) : Bool := matchingType mc.type

/-- The file systems, in the order in which they are to be tried. -/
def order (file : List CString) : List Mntent := (chainOf file).reverse.filter tried

/-- Whether there is a second `umount`. -/
def retried (mc : Mntent) : Option Errno → Bool
  | none => false
  | some err => err.val ≠ ebusy && mc.dir ≠ mc.fsname

/-- The calls for one file system. -/
inductive Try (mc : Mntent) : List (CString × Option Errno) → Prop where
  | once {err : Option Errno} (h : retried mc err = false) : Try mc [(mc.dir, err)]
  | twice {err err2 : Option Errno} (h : retried mc err = true) : Try mc [(mc.dir, err), (mc.fsname, err2)]

/-- The calls for several, one after the other. -/
inductive Tries : List Mntent → List (CString × Option Errno) → Prop where
  | nil : Tries [] []
  | snoc {done : List Mntent} {calls : List (CString × Option Errno)} {mc : Mntent}
      {new : List (CString × Option Errno)} (h : Tries done calls) (hnew : Try mc new) : Tries (done ++ [mc]) (calls ++ new)

/-- How a run may end early. -/
def EndsEarly (m : Unmounts) : Prop :=
  (m.file = none ∧ m.calls = []) ∨
    ∃ file done, m.file = some file ∧ done <+: order file ∧ Tries done m.calls

section Order
variable {file : List CString} {calls : List (CString × Option Errno)}

theorem endsEarly_read (file : Option (List CString)) : EndsEarly ⟨file, []⟩ := by
  cases file with
  | none => exact Or.inl ⟨rfl, rfl⟩
  | some file => exact Or.inr ⟨file, [], rfl, List.nil_prefix, Tries.nil⟩

/-- Once a table was opened, only `umount` counts. -/
theorem ignores_table {q : Call} (hq : tableCall q = true) : unmounts.Ignores ⟨some file, calls⟩ q := by
  refine ⟨trivial, fun r => ?_⟩
  show Unmounts.next ⟨some file, calls⟩ q r = ⟨some file, calls⟩
  unfold Unmounts.next
  split
  · rfl
  · exact absurd hq (by simp [tableCall, plainCall, lockCall, closeCall, tempCall])
  · rfl

theorem wp_readMntentchn (file : List CString) :
    Wp unmounts (fun head m => m = ⟨some file, []⟩ ∧ ∀ chain, head = some chain → chain = chainOf file) EndsEarly
      (readMntentchn file) ⟨some file, []⟩ := by
  have hE := endsEarly_read (some file)
  have hloop : Wp unmounts (fun r m => m = ⟨some file, []⟩ ∧ r.1 = chainOf file) EndsEarly
      (forEntries .table chainEntry 0 file []) ⟨some file, []⟩ := by
    refine (wp_forEntries (J := fun rest acc m => m = ⟨some file, []⟩ ∧
      acc ++ rest.takeWhile (fun mnt => mnt.type ≠ "ignore".toList) = chainOf file) ?_ ?_ file 0 [] _ (Or.inr ?_)
      ⟨rfl, rfl⟩).mono ?_ fun _ h => h
    · rintro rest acc _ ⟨rfl, -⟩
      exact ⟨ignores_table rfl, ignores_table rfl, hE⟩
    · rintro mnt rest acc _ ⟨rfl, hacc⟩
      refine Wp.ite (fun htype => ?_) fun htype => ?_
      · rw [List.takeWhile_cons_of_neg (by simpa using htype)] at hacc
        exact fun acc' => ⟨nofun, fun h => ⟨rfl, by cases h; exact hacc⟩⟩
      · rw [List.takeWhile_cons_of_pos (by simpa using htype)] at hacc
        apply (wp_xmalloc (ignores_table rfl) hE).bind
        rintro _ _ rfl
        refine fun acc' => ⟨fun h => ⟨rfl, ?_⟩, nofun⟩
        cases h
        rw [List.append_assoc]
        exact hacc
    · rintro rest acc _ ⟨rfl, -⟩ ignored
      exact ignores_table rfl
    · rintro r m ⟨rfl, hacc⟩
      exact ⟨rfl, by simpa using hacc⟩
  apply hloop.bind
  rintro ⟨chain, err⟩ _ ⟨rfl, rfl⟩
  refine Wp.ite (fun _ => ?_) fun _ => ⟨rfl, fun chain h => (Option.some.inj h).symm⟩
  apply (wp_xmalloc (ignores_table rfl) hE).bind
  rintro _ _ rfl
  exact ⟨rfl, nofun⟩

/-- Opening a table; before one was opened, what is found is what counts. -/
theorem wp_mySetmntent (path : MntPath) :
    Wp unmounts (fun file m => m = ⟨file, []⟩) EndsEarly (mySetmntent path) ⟨none, []⟩ := by
  have hmalloc : ∀ file, Wp unmounts (fun _ m => m = ⟨file, []⟩) EndsEarly xmalloc ⟨file, []⟩ := fun file =>
    wp_xmalloc ⟨trivial, fun _ => rfl⟩ (endsEarly_read file)
  apply (hmalloc none).bind
  rintro _ _ rfl
  refine ⟨trivial, fun (file : Option (List CString)) _ => ?_⟩
  apply (hmalloc file).bind
  rintro _ _ rfl
  rfl

theorem wp_readTable :
    Wp unmounts (fun head m => EndsEarly m ∧ ∀ chain, head = some chain → ∃ file, m = ⟨some file, []⟩ ∧ chain = chainOf file)
      EndsEarly readTable ⟨none, []⟩ := by
  have hchain : ∀ file, Wp unmounts (fun head m => EndsEarly m ∧
      ∀ chain, head = some chain → ∃ file, m = ⟨some file, []⟩ ∧ chain = chainOf file) EndsEarly (readMntentchn file)
      ⟨some file, []⟩ := fun file =>
    (wp_readMntentchn file).mono
      (fun _ _ h => ⟨h.1 ▸ endsEarly_read _, fun chain hchain => ⟨file, h.1, h.2 chain hchain⟩⟩) fun _ h => h
  apply (wp_mySetmntent .mounted).bind
  rintro mfp _ rfl
  cases mfp with
  | some file => exact hchain file
  | none =>
    apply (wp_mySetmntent .procMounts).bind
    rintro mfp _ rfl
    cases mfp with
    | some file => exact hchain file
    | none =>
      apply (wp_xmalloc ⟨trivial, fun _ => rfl⟩ (endsEarly_read none)).bind
      rintro _ _ rfl
      exact ⟨endsEarly_read none, nofun⟩

/-- The calls for one file system. -/
theorem wp_tried (mc : Mntent) :
    Wp unmounts (fun _ m => ∃ new, Try mc new ∧ m = ⟨some file, calls ++ new⟩) EndsEarly
      (umountTried mc.fsname mc.dir) ⟨some file, calls⟩ := by
  refine ⟨trivial, fun (err : Option Errno) _ => ?_⟩
  cases err with
  | none => exact ⟨[(mc.dir, none)], Try.once rfl, rfl⟩
  | some err =>
    refine Wp.ite (fun hagain => ?_) fun hagain => ?_
    · have hretried : retried mc (some err) = true := by simpa [retried] using hagain
      refine ⟨trivial, fun (err2 : Option Errno) _ => ?_⟩
      have htwice : ∃ new, Try mc new ∧
          Unmounts.mk (some file) (calls ++ [(mc.dir, some err)] ++ [(mc.fsname, err2)]) = ⟨some file, calls ++ new⟩ :=
        ⟨[(mc.dir, some err), (mc.fsname, err2)], Try.twice hretried, by rw [List.append_assoc]; rfl⟩
      cases err2 with
      | none => exact htwice
      | some err2 => exact htwice
    · have hretried : retried mc (some err) = false := by
        rw [Bool.eq_false_iff]
        intro h
        exact hagain (by simpa [retried] using h)
      exact ⟨[(mc.dir, some err)], Try.once hretried, rfl⟩

/-- **One file system**: its calls, and whatever is done about them concerns the tables only. -/
theorem triple_tries {done : List Mntent} {mc : Mntent} {rest : List Mntent} (horder : order file = done ++ mc :: rest) :
    TripleS unmounts EndsEarly (fun _ m => m.file = some file ∧ Tries done m.calls) (umountOne mc.fsname mc.dir)
      fun _ _ m => m.file = some file ∧ Tries (done ++ [mc]) m.calls := by
  have hprefix : done ++ [mc] <+: order file := by
    rw [horder]
    exact ⟨rest, by simp⟩
  -- After the calls for it the run may end, but there are no more of them.
  have hafter : ∀ {α : Type} {x : M α}, OnlyTableS x →
      TripleS unmounts EndsEarly (fun _ m => m.file = some file ∧ Tries (done ++ [mc]) m.calls) x
        fun _ _ m => m.file = some file ∧ Tries (done ++ [mc]) m.calls := by
    rintro α x hx g ⟨_, calls⟩ ⟨rfl, htries⟩
    refine ((hx g).still (fun _ hq => ignores_table hq) (Or.inr ⟨file, _, rfl, hprefix, htries⟩)).mono ?_ fun _ h => h
    rintro _ _ rfl
    exact ⟨rfl, htries⟩
  have hnode : TripleS unmounts EndsEarly (fun _ m => m.file = some file ∧ Tries done m.calls)
      (umountNode mc.fsname mc.dir) fun _ _ m => m.file = some file ∧ Tries (done ++ [mc]) m.calls := by
    have htried : TripleS unmounts EndsEarly (fun (_ : Mtab) m => m.file = some file ∧ Tries done m.calls)
        (liftM (umountTried mc.fsname mc.dir) : M Tried)
        fun _ _ m => m.file = some file ∧ Tries (done ++ [mc]) m.calls := by
      apply TripleS.lift
      rintro g ⟨_, calls⟩ ⟨rfl, htries⟩
      refine (wp_tried mc).mono ?_ fun _ h => h
      rintro _ _ ⟨new, hnew, rfl⟩
      exact ⟨rfl, htries.snoc hnew⟩
    apply htried.bind
    intro outcome
    have hfailed := (hafter (only_umountFailed mc.dir outcome)).bind fun _ => hafter (OnlyS.pure true)
    refine TripleS.ite (fun _ => ?_) fun _ => hfailed
    apply (hafter (only_umounted mc.fsname mc.dir)).bind
    intro failed
    exact TripleS.ite (fun _ => hafter (OnlyS.pure false)) fun _ => hfailed
  refine TripleS.ite (fun _ => ?_) fun _ => hnode
  refine TripleS.bind (TripleS.modify ?_) fun _ => hnode
  exact fun _ _ h => h

/-- What is known when the table has been asked for the first time. -/
def Asked (head : Option (List Mntent)) (m : Unmounts) : Prop :=
  EndsEarly m ∧ ∀ chain, head = some chain → ∃ file, m = ⟨some file, []⟩ ∧ chain = chainOf file

theorem triple_asked :
    TripleS unmounts EndsEarly (fun g m => g.gotMtab = false ∧ m = ⟨none, []⟩) mtabHead fun head _ m => Asked head m := by
  have hread : TripleS unmounts EndsEarly (fun _ m => m = ⟨none, []⟩) readMounttable
      fun _ g m => Asked g.mounttable m := by
    refine TripleS.bind (J := fun _ _ m => m = ⟨none, []⟩) (TripleS.modify ?_) fun _ =>
      TripleS.bind (J := fun head _ m => Asked head m) (TripleS.lift ?_) fun head => TripleS.modify ?_
    · exact fun _ _ h => h
    · rintro g _ rfl
      exact wp_readTable
    · exact fun _ _ h => h
  apply TripleS.get.bind
  intro g
  refine TripleS.ite (fun _ => ?_) fun hgot => ?_
  · refine TripleS.bind (hread.conseq (fun _ _ h => h.2.2) fun _ _ _ h => h) fun _ => ?_
    apply TripleS.get.bind
    intro g
    apply TripleS.pure
    rintro _ m ⟨rfl, h⟩
    exact h
  · rintro _ m ⟨rfl, hg, -⟩
    rw [hg] at hgot
    exact absurd rfl hgot

theorem ignores_close {m : Unmounts} {q : Call} (hq : closeCall q = true) : unmounts.Ignores m q := by
  refine ⟨trivial, fun r => ?_⟩
  show Unmounts.next m q r = m
  unfold Unmounts.next
  split
  · exact absurd hq Bool.false_ne_true
  · exact absurd hq Bool.false_ne_true
  · rfl

/-- All of them. -/
theorem wp_umountAll :
    Wp unmounts (fun _ m => ∃ file, m.file = some file ∧ Tries (order file) m.calls) EndsEarly (umountAll {}) {} := by
  have hall : TripleS unmounts EndsEarly (fun g m => g.gotMtab = false ∧ m = ⟨none, []⟩) umountAll
      fun _ _ m => ∃ file, m.file = some file ∧ Tries (order file) m.calls := by
    apply triple_asked.bind
    intro head
    cases head with
    | none =>
      refine TripleS.bind TripleS.get fun g => TripleS.lift ?_
      rintro _ m ⟨-, hearly, -⟩
      apply ((only_unlockMtab g).still (fun _ hq => ignores_close hq) hearly).bind
      rintro _ _ rfl
      exact hearly
    | some chain =>
      rintro g _ ⟨-, hchain⟩
      obtain ⟨file, rfl, rfl⟩ := hchain chain rfl
      have hloop := TripleS.forM_done (M := unmounts) (E := EndsEarly)
        (I := fun done (_ : Mtab) m => m.file = some file ∧ Tries (done.filter tried) m.calls)
        (chainOf file).reverse (f := fun mc => do
          if matchingType mc.type then
            let _ ← umountOne mc.fsname mc.dir) ?_
      · refine TripleS.bind (K := fun _ _ m => ∃ file, m.file = some file ∧ Tries (order file) m.calls) hloop
          (fun _ => TripleS.lift ?_) g ⟨some file, []⟩ ⟨rfl, Tries.nil⟩
        rintro _ m ⟨hfile, htries⟩
        exact ⟨trivial, fun _ _ => ⟨file, hfile, htries⟩⟩
      · intro done mc rest hsplit
        refine TripleS.ite (fun hmatch => ?_) fun hmatch => ?_
        · have htried : tried mc = true := hmatch
          have horder : order file = done.filter tried ++ mc :: rest.filter tried := by
            unfold order
            rw [hsplit, List.filter_append, List.filter_cons_of_pos htried]
          rw [List.filter_append, List.filter_cons_of_pos htried]
          exact (triple_tries horder).bind fun _ => TripleS.pure fun _ _ h => h
        · have htried : ¬ tried mc = true := hmatch
          rw [List.filter_append, List.filter_cons_of_neg htried, List.filter_nil, List.append_nil]
          exact TripleS.pure fun _ _ h => h
  exact hall {} {} ⟨rfl, rfl⟩

/-- **What is unmounted, and in which order.** -/
theorem umount_order (env : Nat → (q : Call) → Answer q) :
    let m := unmounts.after {} ((umountAll {}).trace env 0)
    (m.file = none → m.calls = [] ∧ (umountAll {}).result env 0 = none) ∧
      ∀ file, m.file = some file → ∃ done, done <+: order file ∧ Tries done m.calls ∧
        ((umountAll {}).result env 0 ≠ none → done = order file) := by
  intro m
  have hend := (wp_umountAll.sound env 0 (Monitor.follows_of_allows (fun _ _ _ => trivial) _ _)).2
  cases hresult : (umountAll {}).result env 0 with
  | none =>
    rw [hresult] at hend
    rcases hend with ⟨hfile, hcalls⟩ | ⟨file, done, hfile, hdone, htries⟩
    · refine ⟨fun _ => ⟨hcalls, rfl⟩, fun file h => ?_⟩
      exact absurd (hfile.symm.trans h) nofun
    · refine ⟨fun h => absurd (hfile.symm.trans h) nofun, fun file' h => ?_⟩
      obtain rfl := Option.some.inj (hfile.symm.trans h)
      exact ⟨done, hdone, htries, fun h => absurd rfl h⟩
  | some r =>
    rw [hresult] at hend
    obtain ⟨file, hfile, htries⟩ := hend
    refine ⟨fun h => absurd (hfile.symm.trans h) nofun, fun file' h => ?_⟩
    obtain rfl := Option.some.inj (hfile.symm.trans h)
    exact ⟨order file, List.prefix_rfl, htries, fun _ => rfl⟩

end Order

/-! ## The lock -/

/-- How often the lock file was opened, and whether the lock was ever taken, is held, and was ever given up. -/
structure Lock where
  opens : Nat := 0
  taken : Bool := false
  held : Bool := false
  closed : Bool := false

def Lock.next (m : Lock) : (q : Call) → Answer q → Lock
  | .sys .openLock, _ => { m with opens := m.opens + 1 }
  | .sys .fcntlLock, (ok : Bool) => if ok then { m with taken := true, held := true } else m
  | .sys .closeLock, _ => { m with held := false, closed := true }
  | _, _ => m

/-- The new version of `/etc/mtab` is touched only when the lock was taken, and held unless it was given up. -/
def locks : Monitor Call Answer Lock where
  next := Lock.next
  ok m q := tempCall q = true → m.taken = true ∧ (m.held = true ↔ m.closed = false)
  allows _ _ _ := True

/-- The lock was taken, this once. -/
def Settled (m : Lock) : Prop := m.opens = 1 ∧ m.taken = true ∧ (m.held = true ↔ m.closed = false)

/-- `lock` tells whether the lock was taken. -/
def Locked (lock : Bool) (m : Lock) : Prop := (lock = false ∧ m = {}) ∨ (lock = true ∧ Settled m)

/-- From any state in which `lock` tells whether the lock was taken, so it stays. -/
abbrev Once {α : Type} (x : M α) : Prop :=
  TripleS locks (fun m => m.opens ≤ 1) (fun g m => Locked g.lock m) x fun _ g m => Locked g.lock m

section Lock
variable {α : Type}

theorem Locked.opens_le {lock : Bool} {m : Lock} (h : Locked lock m) : m.opens ≤ 1 := by
  rcases h with ⟨-, rfl⟩ | ⟨-, h⟩
  · exact Nat.zero_le 1
  · exact h.1.le

/-- What does not take the lock leaves it settled. -/
theorem settled_next {m : Lock} {q : Call} (hq : copyCall q = true) (hm : Settled m) :
    locks.ok m q ∧ ∀ r, Settled (locks.next m q r) := by
  refine ⟨fun _ => hm.2, fun r => ?_⟩
  show Settled (Lock.next m q r)
  unfold Lock.next
  split
  · exact absurd hq (by decide)
  · exact absurd hq (by decide)
  · exact ⟨hm.1, hm.2.1, by simp⟩
  · exact hm

theorem ignores_plain {m : Lock} {q : Call} (hq : plainCall q = true) : locks.Ignores m q := by
  have htemp : tempCall q = false := by
    unfold plainCall at hq
    split at hq <;> first | rfl | exact nomatch hq
  refine ⟨fun h => absurd (htemp.symm.trans h) nofun, fun r => ?_⟩
  show Lock.next m q r = m
  unfold Lock.next
  split
  · exact absurd hq (by decide)
  · exact absurd hq (by decide)
  · exact absurd hq (by decide)
  · rfl

/-- Code that leaves `lock` and the monitor alone. -/
theorem once_at {x : M α} (h : ∀ lock m₀, Locked lock m₀ →
      TripleS locks (fun m => m.opens ≤ 1) (At (fun g => g.lock = lock) m₀) x fun _ => At (fun g => g.lock = lock) m₀) :
    Once x := by
  intro g m hm
  refine (h g.lock m hm g m ⟨rfl, rfl⟩).mono ?_ fun _ h => h
  rintro ⟨_, g'⟩ _ ⟨hg, rfl⟩
  rw [show g'.lock = g.lock from hg]
  exact hm

theorem undisturbed_lock {lock : Bool} {m₀ : Lock} (h₀ : Locked lock m₀) :
    Undisturbed locks (fun m => m.opens ≤ 1) (fun g => g.lock = lock) m₀ where
  ignores _ hq := ignores_plain hq
  exits := h₀.opens_le
  noteStat g st hg := by cases st <;> exact hg
  writable _ _ hg := hg

/-- Once the lock was taken, code that does not take it. -/
theorem triple_settled {p : P α} (hp : OnlyCopy p) :
    TripleS locks (fun m => m.opens ≤ 1) (fun g m => g.lock = true ∧ Settled m) (liftM p : M α)
      fun _ g m => g.lock = true ∧ Settled m := by
  apply TripleS.lift
  rintro g m ⟨hg, hm⟩
  exact (hp.wp (fun _ _ hq h => settled_next hq h) (fun _ _ h => h.1.le) hm).mono (fun _ _ h => ⟨hg, h⟩) fun _ h => h

/-- Giving it up is no further opening. -/
theorem opens_close {m : Lock} {q : Call} (hq : closeCall q = true) (hm : m.opens ≤ 1) :
    locks.ok m q ∧ ∀ r, (locks.next m q r).opens ≤ 1 := by
  unfold closeCall at hq
  split at hq
  · exact ⟨nofun, fun _ => hm⟩
  · exact ⟨nofun, fun _ => hm⟩
  · exact nomatch hq

theorem wp_die_lock {Q : α → Lock → Prop} (g : Mtab) (err : Int) {m : Lock} (hm : m.opens ≤ 1) :
    Wp locks Q (fun m => m.opens ≤ 1) (die g err) m := by
  have hclose : Wp locks (fun _ m => m.opens ≤ 1) (fun m => m.opens ≤ 1) (unlockMtab g) m :=
    (only_unlockMtab g).wp (fun _ _ hq hm => opens_close hq hm) (fun _ _ h => h) hm
  exact hclose.bind fun _ _ h => h

theorem wp_openLock (g : Mtab) : Wp locks (fun _ => Settled) (fun m => m.opens ≤ 1) (openLock g) {} := by
  refine ⟨nofun, fun (ok : Bool) _ => ?_⟩
  refine Wp.ite (fun _ => ?_) fun _ => ⟨nofun, fun (ok : Bool) _ => ?_⟩
  · exact (wp_die_lock (Q := fun _ _ => False) g exFileio le_rfl).bind fun _ _ h => h.elim
  · cases ok with
    | false => exact ⟨nofun, fun (_ : Bool) _ => wp_die_lock g exFileio le_rfl⟩
    | true => exact ⟨rfl, rfl, fun _ => rfl, fun _ => rfl⟩

theorem triple_takeLock :
    TripleS locks (fun m => m.opens ≤ 1) (fun g m => Locked g.lock m) lockMtab
      fun _ g m => g.lock = true ∧ Settled m := by
  apply TripleS.get.bind
  intro g
  refine TripleS.ite (fun hfree => ?_) fun htaken => ?_
  · have hU := undisturbed_lock (Or.inl ⟨rfl, rfl⟩ : Locked false {})
    refine TripleS.conseq (I := At (fun g => g.lock = false) {}) ?_ ?_ fun _ _ _ h => h
    · apply (triple_plain hU (plain_ask .lstatLock rfl)).bind
      intro st
      refine TripleS.bind (triple_modify (L := fun _ => True) fun _ _ => trivial) fun _ => ?_
      apply triple_get.bind
      intro g'
      refine TripleS.bind (J := fun _ _ m => Settled m) (TripleS.lift ?_) fun _ => TripleS.modify fun _ _ h => ⟨rfl, h⟩
      rintro _ _ ⟨-, rfl⟩
      exact wp_openLock g'
    · rintro _ m ⟨rfl, hm⟩
      have hlock : g.lock = false := by simpa using hfree
      rcases hm with h | ⟨h, -⟩
      · exact h
      · exact absurd (hlock.symm.trans h) nofun
  · apply TripleS.pure
    rintro _ m ⟨rfl, hm⟩
    have hlock : g.lock = true := by simpa using htaken
    rcases hm with ⟨h, -⟩ | h
    · exact absurd (hlock.symm.trans h) nofun
    · exact h

/-- **An update of `/etc/mtab`** does not take the lock a second time. -/
theorem once_updateMtab (dir : CString) : Once (updateMtab dir) := by
  have hleave : TripleS locks (fun m => m.opens ≤ 1) (fun g m => g.lock = true ∧ Settled m)
      (get >>= fun g => liftM (unlockMtab g) : M Unit) fun _ g m => Locked g.lock m :=
    (TripleS.get.conseq (fun _ _ h => h) fun _ _ _ h => h.2).bind fun g =>
      (triple_settled (copy_of_close (only_unlockMtab g))).conseq (fun _ _ h => h) fun _ _ _ h => Or.inr h
  have herror : TripleS locks (fun m => m.opens ≤ 1) (fun g m => g.lock = true ∧ Settled m)
      (liftM error >>= fun _ => get >>= fun g => liftM (unlockMtab g) : M Unit) fun _ g m => Locked g.lock m :=
    (triple_settled (copy_of_plain only_xmalloc)).bind fun _ => hleave
  apply (once_at fun _ _ h => triple_mtabDoesNotExist (undisturbed_lock h)).bind
  intro missing
  apply (once_at fun _ _ h => triple_mtabIsASymlink (undisturbed_lock h)).bind
  intro symlink
  refine TripleS.ite (fun _ => TripleS.pure fun _ _ h => h) fun _ => ?_
  apply triple_takeLock.bind
  intro _
  apply (triple_settled (copy_of_plain (only_mySetmntent .mounted))).bind
  intro file
  cases file with
  | none => exact herror
  | some pieces =>
    apply (triple_settled only_mySetmntentTemp).bind
    intro ok
    refine TripleS.ite (fun _ => ?_) fun _ => herror
    refine TripleS.bind (TripleS.get.conseq (fun _ _ h => h) fun _ _ _ h => h.2) fun g => ?_
    exact (triple_settled (only_copyMtab dir g pieces)).bind fun _ => hleave

theorem once_plain {p : P α} (hp : OnlyPlain p) : Once (liftM p : M α) :=
  once_at fun _ _ h => triple_plain (undisturbed_lock h) hp

theorem once_pure (a : α) : Once (pure a : M α) := TripleS.pure fun _ _ h => h

theorem once_get : Once (get : M Mtab) := TripleS.get.conseq (fun _ _ h => h) fun _ _ _ h => h.2

theorem once_head : Once mtabHead := once_at fun _ _ h => triple_head (undisturbed_lock h) fun _ _ _ hg => hg

/-- Looking something up in the table. -/
theorem once_lookup (f : List Mntent → α) : Once (mtabEntries >>= fun chain => pure (f chain) : M α) :=
  (once_head.bind fun _ => once_pure _).bind fun _ => once_pure _

theorem once_umounted (spec node : CString) : Once (umounted spec node) := by
  have hfind : Once (findMounted spec node) := by
    apply (once_lookup _).bind
    intro mc
    cases mc with
    | some mc => exact once_pure _
    | none => exact once_lookup _
  apply once_get.bind
  intro g
  refine TripleS.ite (fun _ => once_pure false) fun _ => ?_
  apply (once_at fun _ _ h => triple_mtabIsWritable (undisturbed_lock h)).bind
  intro writable
  refine TripleS.ite (fun _ => once_pure false) fun _ => ?_
  apply hfind.bind
  intro mc
  cases mc with
  | some mc =>
    apply (once_plain (only_clearLoop spec mc)).bind
    intro failed
    exact TripleS.ite (fun _ => once_pure true) fun _ => (once_updateMtab node).bind fun _ => once_pure false
  | none =>
    apply (once_lookup _).bind
    intro mc
    cases mc with
    | some mc => exact (once_updateMtab mc.dir).bind fun _ => once_pure false
    | none => exact (once_updateMtab node).bind fun _ => once_pure false

theorem once_umountOne (spec node : CString) : Once (umountOne spec node) := by
  have htried : Once (liftM (umountTried spec node) : M Tried) := by
    apply TripleS.lift
    intro g m hm
    refine ⟨nofun, fun (err : Option Errno) _ => ?_⟩
    cases err with
    | none => exact hm
    | some err =>
      refine Wp.ite (fun _ => ⟨nofun, fun (err2 : Option Errno) _ => ?_⟩) fun _ => hm
      cases err2 with
      | none => exact hm
      | some err2 => exact hm
  have hnode : Once (umountNode spec node) := by
    apply htried.bind
    intro tried
    have hcomplain : Once (liftM (complaints tried) : M Unit) := once_plain (only_complaints tried)
    have hfailed : Once (umountFailed node tried >>= fun _ => pure true : M Bool) := by
      refine TripleS.bind ?_ fun _ => once_pure true
      apply once_get.bind
      intro g
      exact TripleS.ite (fun _ => (once_updateMtab node).bind fun _ => hcomplain) fun _ => hcomplain
    refine TripleS.ite (fun _ => ?_) fun _ => hfailed
    apply (once_umounted spec node).bind
    intro failed
    exact TripleS.ite (fun _ => once_pure false) fun _ => hfailed
  refine TripleS.ite (fun _ => ?_) fun _ => hnode
  refine TripleS.bind (TripleS.modify ?_) fun _ => hnode
  exact fun _ _ h => h

theorem once_umountAll : Once umountAll := by
  apply once_head.bind
  intro head
  cases head with
  | none =>
    apply once_get.bind
    intro g
    apply TripleS.lift
    intro _ m hm
    exact wp_die_lock g 2 hm.opens_le
  | some chain =>
    refine TripleS.bind (TripleS.forM fun mc _ => ?_) fun _ => TripleS.lift ?_
    · exact TripleS.ite (fun _ => (once_umountOne mc.fsname mc.dir).bind fun _ => once_pure ()) fun _ => once_pure ()
    · exact fun g m hm => ⟨nofun, fun _ _ => hm⟩

/-- **The lock is taken once.** In every run of `umount_all` the lock file is opened once at most, and the new
version of `/etc/mtab` is touched only after the lock was taken; it is then held exactly if it has not been given
up yet, which `unlock_mtab` does at the end of the first update. -/
theorem locked_once (env : Nat → (q : Call) → Answer q) :
    (locks.after {} ((umountAll {}).trace env 0)).opens ≤ 1 ∧
      ∀ pre e post, (umountAll {}).trace env 0 = pre ++ e :: post → tempCall e.1 = true →
        (locks.after {} pre).taken = true ∧
          ((locks.after {} pre).held = true ↔ (locks.after {} pre).closed = false) := by
  have hwp := once_umountAll {} {} (Or.inl ⟨rfl, rfl⟩)
  obtain ⟨hguarded, hend⟩ := hwp.sound env 0 (Monitor.follows_of_allows (fun _ _ _ => trivial) _ _)
  refine ⟨?_, fun pre e post htrace htemp => ?_⟩
  · cases hresult : (umountAll {}).result env 0 with
    | none => rw [hresult] at hend; exact hend
    | some r => rw [hresult] at hend; exact hend.opens_le
  · rw [htrace] at hguarded
    exact hguarded.at_split htemp

end Lock

end Watchdog.Shutdown
