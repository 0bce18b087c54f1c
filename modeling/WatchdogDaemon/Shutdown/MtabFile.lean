import WatchdogDaemon.Lib.Pieces
import WatchdogDaemon.Shutdown.MountCalls
import WatchdogDaemon.Shutdown.MountLine

/- The file `/etc/mtab` while file systems are unmounted.

   `update_mtab` does not change the file: it writes a new version without the entries of a
   directory, line by line, and renames it. `Disk` has the texts of both. A disk answers a
   program that opens `/etc/mtab` with its text in pieces of the buffer of `my_getmntent`, if
   at all; what else the calls answer is left open. It takes a line that `fprintf` accepted
   for written, and a file that was opened for readable to its end. Nothing else writes the
   files: everything else was killed before.

   A shutdown has closed descriptor 2 by then, and in the first update the new version is
   opened as just that, behind the lock and the old version. A message about a bad line of
   the old version, or about the mode of the new one, goes into the new version.

   What is proved, of every run on a file without bad lines whose new version gets its mode:
     1. `new_version_iff` — the new version has exactly the entries that were to be kept if and
        only if each of them survives being written and its line fits into the buffer.
     2. `table_kept` — at every moment of `umount_all`, and where it ends, `/etc/mtab` has the
        entries it had, less those of directories that were unmounted or were not mounted. -/
namespace Watchdog.Shutdown
open CallTree Fields

/-! ## Texts -/

/-- The entries of a file, of which `my_getmntent` has met `softerrs` bad lines. -/
def entriesOf : Nat → List CString → List Mntent
  | _, [] => []
  | softerrs, piece :: pieces =>
    if errMax ≤ softerrs then []
    else
      match parseLine piece with
      | .blank => entriesOf softerrs pieces
      | .tooLong => []
      | .bad => entriesOf (softerrs + 1) pieces
      | .entry mnt => mnt :: entriesOf softerrs pieces

/-- What `fgets` returns of a text for a buffer of 4096. -/
abbrev readable (text : CString) : List CString := Pieces.pieces '\n' 4095 text []

/-- The entries of a text. -/
def table (text : CString) : List Mntent := entriesOf 0 (readable text)

/-- No line is bad, nor is one too long or cut short. -/
def Sound (pieces : List CString) : Prop :=
  ∀ piece ∈ pieces, parseLine piece ≠ .bad ∧ parseLine piece ≠ .tooLong

/-- The entries that can be copied. -/
structure Copyable (mnt : Mntent) : Prop where
  wellFormed : WellFormed mnt
  fits : (lineOf mnt).length ≤ 4095

section Lines
variable {mnt : Mntent}

theorem length_lineOf (mnt : Mntent) : (lineOf mnt).length = (join ' ' (lineWords mnt)).length + 1 :=
  List.length_append

theorem readable_line (h : (lineOf mnt).length ≤ 4095) (rest : CString) :
    readable (lineOf mnt ++ rest) = lineOf mnt :: readable rest := by
  have hlen : ([] : CString).length + (join ' ' (lineWords mnt)).length < 4095 := by
    rw [length_lineOf] at h
    rw [List.length_nil]
    omega
  unfold readable lineOf
  rw [List.append_assoc, List.singleton_append, Pieces.pieces_line (newline_not_mem mnt) rest hlen]
  rfl

/-- A line that does not fit ends the table. -/
theorem entriesOf_long (h : ¬ (lineOf mnt).length ≤ 4095) (softerrs : Nat) (rest : CString) :
    entriesOf softerrs (readable (lineOf mnt ++ rest)) = [] := by
  have hlen : 4095 ≤ (join ' ' (lineWords mnt)).length := by
    rw [length_lineOf] at h
    omega
  unfold readable lineOf
  rw [List.append_assoc]
  obtain ⟨more, hmore⟩ := Pieces.pieces_long (newline_not_mem mnt) (['\n'] ++ rest) (by decide) hlen
  rw [hmore]
  have hline : (List.take 4095 (join ' ' (lineWords mnt))).contains '\n' = false := by
    rw [List.contains_eq_mem, decide_eq_false_iff_not]
    exact fun hmem => newline_not_mem mnt (List.mem_of_mem_take hmem)
  unfold entriesOf parseLine
  rw [hline]
  simp

theorem parseLine_ne_tooLong : parseLine (lineOf mnt) ≠ .tooLong := by
  unfold parseLine
  rw [if_neg (by simp [lineOf])]
  dsimp only
  split
  · exact nofun
  · split <;> exact nofun

/-- One line makes one entry at most. -/
theorem length_entriesOf_le (l : List Mntent) (softerrs : Nat) :
    (entriesOf softerrs (readable (l.flatMap lineOf))).length ≤ l.length := by
  induction l generalizing softerrs with
  | nil => simp [readable, Pieces.pieces, entriesOf]
  | cons mnt l ih =>
    rw [List.flatMap_cons, List.length_cons]
    by_cases h : (lineOf mnt).length ≤ 4095
    · rw [readable_line h, entriesOf]
      split
      · simp
      · split
        · exact (ih softerrs).trans (Nat.le_succ _)
        · simp
        · exact (ih (softerrs + 1)).trans (Nat.le_succ _)
        · exact Nat.succ_le_succ (ih softerrs)
    · rw [entriesOf_long h]
      simp

/-- **A table that is written is read back** exactly if each of its entries can be copied. -/
theorem table_lines_iff {l : List Mntent} (hl : ∀ mnt ∈ l, CEntry mnt) :
    table (l.flatMap lineOf) = l ↔ ∀ mnt ∈ l, Copyable mnt := by
  induction l with
  | nil => simp [table, readable, Pieces.pieces, entriesOf]
  | cons mnt l ih =>
    have hmnt := hl mnt List.mem_cons_self
    have htail := ih fun mnt' h => hl mnt' (List.mem_cons_of_mem mnt h)
    rw [List.flatMap_cons, List.forall_mem_cons, ← htail]
    by_cases hfits : (lineOf mnt).length ≤ 4095
    · have hstep : table (lineOf mnt ++ l.flatMap lineOf) =
          entriesOf 0 (lineOf mnt :: readable (l.flatMap lineOf)) := by
        unfold table
        rw [readable_line hfits]
      -- Fewer lines than entries would be left.
      have hshort : ∀ softerrs, entriesOf softerrs (readable (l.flatMap lineOf)) ≠ mnt :: l := by
        intro softerrs heq
        have hlen := length_entriesOf_le l softerrs
        rw [heq, List.length_cons] at hlen
        omega
      have hread := read_back_iff hmnt
      rw [hstep, entriesOf, if_neg (by decide)]
      constructor
      · intro h
        cases hline : parseLine (lineOf mnt) with
        | blank =>
          rw [hline] at h
          exact absurd h (hshort 0)
        | tooLong => exact absurd hline parseLine_ne_tooLong
        | bad =>
          rw [hline] at h
          exact absurd h (hshort 1)
        | entry mnt' =>
          rw [hline] at h
          obtain ⟨rfl, hrest⟩ := List.cons.inj h
          exact ⟨⟨hread.mp hline, hfits⟩, hrest⟩
      · rintro ⟨hcopy, hrest⟩
        rw [hread.mpr hcopy.wellFormed]
        exact congrArg (mnt :: ·) hrest
    · have hnil : table (lineOf mnt ++ l.flatMap lineOf) = [] := entriesOf_long hfits 0 _
      rw [hnil]
      exact ⟨fun h => absurd h.symm (List.cons_ne_nil mnt l), fun h => absurd h.1.fits hfits⟩

/-- Nor is there a bad line among those written. -/
theorem sound_lines {l : List Mntent} (hl : ∀ mnt ∈ l, CEntry mnt) (hcopy : ∀ mnt ∈ l, Copyable mnt) :
    Sound (readable (l.flatMap lineOf)) := by
  induction l with
  | nil => exact fun piece hpiece => absurd hpiece (by simp [readable, Pieces.pieces])
  | cons mnt l ih =>
    have hmnt := hcopy mnt List.mem_cons_self
    have hread := (read_back_iff (hl mnt List.mem_cons_self)).mpr hmnt.wellFormed
    rw [List.flatMap_cons, readable_line hmnt.fits]
    intro piece hpiece
    obtain rfl | hpiece := List.mem_cons.mp hpiece
    · rw [hread]
      constructor <;> simp
    · exact ih (fun mnt h => hl mnt (List.mem_cons_of_mem _ h)) (fun mnt h => hcopy mnt (List.mem_cons_of_mem _ h))
        piece hpiece

end Lines

/-! ## What is read is a C string -/

theorem noNul_wordValue (s : CString) : NoNul (wordValue s) := by
  intro c hc
  have h := List.mem_takeWhile_imp hc
  simpa using h

theorem number_lt (s : CString) : (number s).1 < 2 ^ 31 := (toInt_bounds _).2

theorem numbers_lt {s : CString} {freq passno : Int} (h : numbers s = some (freq, passno)) :
    freq < 2 ^ 31 ∧ passno < 2 ^ 31 := by
  unfold numbers at h
  dsimp only at h
  split at h
  · split at h
    · obtain ⟨rfl, rfl⟩ := Prod.mk.inj (Option.some.inj h)
      exact ⟨number_lt _, number_lt _⟩
    · exact nomatch h
  · exact nomatch h

theorem cEntry_parseLine {buf : CString} {mnt : Mntent} (h : parseLine buf = .entry mnt) : CEntry mnt := by
  unfold parseLine at h
  dsimp only at h
  split at h
  · exact nomatch h
  · split at h
    · exact nomatch h
    · split at h
      · exact nomatch h
      · next freq passno hnumbers =>
        cases h
        have hlt := numbers_lt hnumbers
        exact ⟨noNul_wordValue _, noNul_wordValue _, noNul_wordValue _, noNul_wordValue _, hlt.1, hlt.2⟩

theorem cEntry_entriesOf {pieces : List CString} {softerrs : Nat} :
    ∀ mnt ∈ entriesOf softerrs pieces, CEntry mnt := by
  induction pieces generalizing softerrs with
  | nil => nofun
  | cons piece pieces ih =>
    intro mnt hmnt
    unfold entriesOf at hmnt
    split at hmnt
    · cases hmnt
    · split at hmnt
      · exact ih mnt hmnt
      · cases hmnt
      · exact ih mnt hmnt
      · next mnt' hline =>
        rcases List.mem_cons.mp hmnt with rfl | hmnt
        · exact cEntry_parseLine hline
        · exact ih mnt hmnt

/-! ## The machine -/

/-- The texts of `/etc/mtab` and of its new version, and what `umount` answered so far. -/
structure Machine where
  mtab : CString
  temp : CString
  umounts : List (CString × Option Errno)

/-- The message of `my_getmntent`; it does not count lines. -/
def badLineText (ignored : Bool) : CString :=
  "[mntent]: line 0 in /etc/mtab is bad".toList ++
    (if ignored then "; rest of file ignored".toList else []) ++ ['\n']

/-- That of `update_mtab`, less the text of the error. -/
def badModeText : CString := "error changing mode of /etc/mtab.tmp: \n".toList

/-- A message goes into the new version, as in the first update. -/
def Machine.next (m : Machine) : (q : Call) → Answer q → Machine
  | .sys .fopenTemp, (ok : Bool) => if ok then { m with temp := [] } else m
  | .sys (.fprintfTemp line), (ok : Bool) => if ok then { m with temp := m.temp ++ line } else m
  | .sys .renameTemp, (ok : Bool) => if ok then { m with mtab := m.temp } else m
  | .sys (.badLine .update ignored), _ => { m with temp := m.temp ++ badLineText ignored }
  | .sys .badMode, _ => { m with temp := m.temp ++ badModeText }
  | .umount path, (err : Option Errno) => { m with umounts := m.umounts ++ [(path, err)] }
  | _, _ => m

/-- The machine, and which answers it gives. -/
def machineOf (allows : Machine → (q : Call) → Answer q → Prop) : Monitor Call Answer Machine where
  next := Machine.next
  ok _ _ := True
  allows := allows

/-- A program that opens `/etc/mtab` gets its text, and one that sets the mode of the new version
can do so. -/
def Machine.answers (m : Machine) : (q : Call) → Answer q → Bool
  | .fopen .mounted, (file : Option (List CString)) => file.all fun pieces => pieces = readable m.mtab
  | .sys .fchmodTemp, (ok : Bool) => ok
  | _, _ => true

def machine : Monitor Call Answer Machine := machineOf fun m q r => m.answers q r = true

instance (m : Machine) (q : Call) (r : Answer q) : Decidable (machine.allows m q r) :=
  inferInstanceAs (Decidable (m.answers q r = true))

section Rules
variable {μ : Type} {M : Monitor Call Answer μ} {E : μ → Prop}

theorem wp_message {s : Sys} {m : μ} (hM : M.Ignores m (.sys s)) : Wp M (fun _ m' => m' = m) E (attempt s) m :=
  ⟨hM.1, fun r _ => hM.2 r⟩

/-- The loop over the entries of a file; `J rest` holds while `rest` is what is left of them. -/
theorem wp_forEntries {σ : Type} {reader : Reader} {body : σ → Mntent → P (ForInStep σ)}
    {J : List Mntent → σ → μ → Prop}
    (hM : ∀ rest acc m, J rest acc m → M.Ignores m .malloc ∧ M.Ignores m (.fgetsEnd reader) ∧ E m)
    (hbody : ∀ mnt rest acc m, J (mnt :: rest) acc m →
      Wp M (fun step m' => ∀ acc', (step = .yield acc' → J rest acc' m') ∧ (step = .done acc' → J [] acc' m')) E
        (body acc mnt) m) :
    ∀ (pieces : List CString) (softerrs : Nat) (acc : σ) (m : μ),
      (Sound pieces ∨ ∀ rest acc m, J rest acc m → ∀ ignored, M.Ignores m (.sys (.badLine reader ignored))) →
      J (entriesOf softerrs pieces) acc m →
      Wp M (fun r m' => J [] r.1 m') E (forEntries reader body softerrs pieces acc) m := by
  intro pieces
  induction pieces with
  | nil =>
    intro softerrs acc m _ hm
    obtain ⟨-, hend, -⟩ := hM _ _ _ hm
    refine Wp.ite (fun _ => hm) fun _ => ?_
    refine ⟨hend.1, fun (err : Bool) _ => ?_⟩
    show J [] acc (M.next m (.fgetsEnd reader) err)
    rw [show M.next m (.fgetsEnd reader) err = m from hend.2 err]
    exact hm
  | cons piece pieces ih =>
    intro softerrs acc m hbad hm
    obtain ⟨hmalloc, -, hE⟩ := hM _ _ _ hm
    have hrest := hbad.imp_left fun hsound piece hpiece => hsound piece (List.mem_cons_of_mem _ hpiece)
    rw [entriesOf] at hm
    refine Wp.ite (fun h => ?_) fun h => ?_
    · rw [if_pos h] at hm
      exact hm
    · rw [if_neg h] at hm
      apply (wp_readLine hmalloc hE piece).bind
      rintro line _ ⟨rfl, rfl⟩
      cases hline : parseLine piece with
      | blank =>
        rw [hline] at hm
        exact ih softerrs acc _ hrest hm
      | tooLong =>
        rw [hline] at hm
        obtain hsound | hmute := hbad
        · exact absurd hline (hsound piece List.mem_cons_self).2
        · apply (wp_message (hmute _ _ _ hm true)).bind
          rintro _ _ rfl
          exact hm
      | bad =>
        rw [hline] at hm
        obtain hsound | hmute := hbad
        · exact absurd hline (hsound piece List.mem_cons_self).1
        · apply (wp_message (hmute _ _ _ hm _)).bind
          rintro _ _ rfl
          exact ih (softerrs + 1) acc _ hrest hm
      | entry mnt =>
        rw [hline] at hm
        apply (hbody mnt _ acc _ hm).bind
        intro step m' hstep
        cases step with
        | done acc' => exact (hstep acc').2 rfl
        | yield acc' => exact ih softerrs acc' m' hrest ((hstep acc').1 rfl)

end Rules

/-- One file system, and a machine on which every call succeeds. -/
def oneMount : CString := ['a', ' ', '/', 'm', ' ', 'x', ' ', 'r', ' ', '0', ' ', '0', '\n']

def allWell : (q : Call) → Answer q
  | .sys _ => true
  | .malloc => true
  | .calloc => true
  | .fopen _ => some (readable oneMount)
  | .fgetsEnd _ => false
  | .lstatMounted => Stat.other
  | .lstatLock => Stat.other
  | .umount _ => none
  | .opendirProc => none
  | .getsid _ => (0 : Int)
  | .fstab => none
  | .ifconf => none
  | .reboot _ => ()

theorem copyable_oneMount : ∀ mnt ∈ table oneMount, Copyable mnt := by
  have htable : table oneMount = [⟨['a'], ['/', 'm'], ['x'], ['r'], 0, 0⟩] := by decide +kernel
  rw [htable]
  rintro mnt (_ | ⟨_, _ | _⟩)
  refine ⟨⟨nofun, by decide, nofun, nofun, nofun, le_rfl, le_rfl⟩, ?_⟩
  rw [lineOf, lineWords]
  simp only [toString_nonneg le_rfl]
  decide

theorem sound_oneMount : Sound (readable oneMount) := by
  have hreadable : readable oneMount = [oneMount] := by decide +kernel
  have hline : parseLine oneMount = .entry ⟨['a'], ['/', 'm'], ['x'], ['r'], 0, 0⟩ := by rfl
  intro piece hpiece
  rw [hreadable, List.mem_singleton] at hpiece
  rw [hpiece, hline]
  exact ⟨nofun, nofun⟩

/-! ## The new version -/

/-- The entries that are kept, and their text. -/
def kept (dir : CString) (entries : List Mntent) : List Mntent := entries.filter fun mnt => mnt.dir ≠ dir

section Copy
variable {A : Machine → (q : Call) → Answer q → Prop} {I : Machine → Prop} {mtab : CString}
  {us : List (CString × Option Errno)}

/-- Looking and locking change nothing. -/
theorem ignores_lock {m : Machine} (hm : I m) {q : Call} (hq : (plainCall q || lockCall q) = true) :
    ((machineOf A).asserting I).Ignores m q := by
  refine ⟨hm, fun r => ?_⟩
  show Machine.next m q r = m
  rw [Bool.or_eq_true] at hq
  unfold Machine.next
  split
  case h_7 => rfl
  all_goals exact absurd hq (by simp [plainCall, lockCall, closeCall])

theorem still_lock {α : Type} {p : P α} (hp : OnlyLock p) {m : Machine} (hm : I m) :
    Wp ((machineOf A).asserting I) (fun _ m' => m' = m) I p m :=
  hp.still (fun _ hq => ignores_lock hm hq) hm

theorem wp_die {α : Type} {Q : α → Machine → Prop} {m : Machine} (hm : I m) (g : Mtab) (err : Int) :
    Wp ((machineOf A).asserting I) Q I (die g err) m := by
  apply (still_lock (lock_of_close (only_unlockMtab g)) hm).bind
  rintro _ _ rfl
  exact hm

/-- One more line. -/
theorem wp_myAddmntent (hI : ∀ t, I ⟨mtab, t, us⟩) (mnt : Mntent) (t : CString) :
    Wp ((machineOf A).asserting I)
      (fun failed m' => (failed = false ∧ m' = ⟨mtab, t ++ lineOf mnt, us⟩) ∨ (failed = true ∧ m' = ⟨mtab, t, us⟩)) I
      (myAddmntent mnt) ⟨mtab, t, us⟩ := by
  have hmangle : ∀ s, Wp ((machineOf A).asserting I) (fun w m' => w = escape s ∧ m' = ⟨mtab, t, us⟩) I (mangle s)
      ⟨mtab, t, us⟩ := fun s =>
    (still_lock (lock_of_plain only_xmalloc) (hI t)).bind fun _ _ h => ⟨rfl, h⟩
  refine ⟨hI t, fun (ok : Bool) _ => ?_⟩
  refine Wp.ite (fun _ => Or.inr ⟨rfl, rfl⟩) fun _ => ?_
  apply (hmangle mnt.fsname).bind
  rintro _ _ ⟨rfl, rfl⟩
  apply (hmangle mnt.dir).bind
  rintro _ _ ⟨rfl, rfl⟩
  apply (hmangle mnt.type).bind
  rintro _ _ ⟨rfl, rfl⟩
  apply (hmangle mnt.opts).bind
  rintro _ _ ⟨rfl, rfl⟩
  refine ⟨hI t, fun (ok : Bool) _ => ?_⟩
  cases ok with
  | false => exact Or.inr ⟨rfl, rfl⟩
  | true =>
    refine Or.inl ⟨rfl, congrArg (fun l => Machine.mk mtab (t ++ l) us) ?_⟩
    simp [lineOf, lineWords, join]

/-- The copy: at its end the new version has the lines of what was kept. -/
theorem wp_copyMtab (hA : ∀ m (ok : Bool), A m (.sys .fchmodTemp) ok → ok = true) (hI : ∀ t, I ⟨mtab, t, us⟩)
    (dir : CString) (g : Mtab) {file : List CString} (hsound : Sound file) {text : CString}
    (htext : (kept dir (entriesOf 0 file)).flatMap lineOf = text) :
    Wp ((machineOf A).asserting I) (fun _ m' => m' = ⟨mtab, text, us⟩ ∨ m' = ⟨text, text, us⟩) I (copyMtab dir g file)
      ⟨mtab, [], us⟩ := by
  -- What is there and what is still to come make the text.
  have hloop : Wp ((machineOf A).asserting I) (fun _ m' => m' = ⟨mtab, text, us⟩) I
      (forEntries .update (copyEntry dir g) 0 file ()) ⟨mtab, [], us⟩ := by
    refine (wp_forEntries (J := fun rest _ m => ∃ t, m = ⟨mtab, t, us⟩ ∧ t ++ (kept dir rest).flatMap lineOf = text)
      ?_ ?_ file 0 () _ (Or.inl hsound) ⟨[], rfl, htext⟩).mono ?_ fun _ h => h
    · rintro rest - - ⟨t, rfl, -⟩
      exact ⟨ignores_lock (hI t) rfl, ignores_lock (hI t) rfl, hI t⟩
    · rintro mnt rest - - ⟨t, rfl, ht⟩
      refine Wp.ite (fun hdir => ?_) fun hdir => ?_
      · have hkept : kept dir (mnt :: rest) = mnt :: kept dir rest :=
          List.filter_cons_of_pos (decide_eq_true hdir)
        rw [hkept, List.flatMap_cons, ← List.append_assoc] at ht
        apply (wp_myAddmntent hI mnt t).bind
        rintro failed _ (⟨rfl, rfl⟩ | ⟨rfl, rfl⟩)
        · exact fun _ => ⟨fun _ => ⟨_, rfl, ht⟩, nofun⟩
        · exact (wp_die (Q := fun _ _ => False) (hI t) g exFileio).bind fun _ _ h => h.elim
      · have hkept : kept dir (mnt :: rest) = kept dir rest :=
          List.filter_cons_of_neg fun h => hdir (of_decide_eq_true h)
        rw [hkept] at ht
        exact fun _ => ⟨fun _ => ⟨t, rfl, ht⟩, nofun⟩
    · rintro _ _ ⟨t, rfl, ht⟩
      rw [← ht]
      exact congrArg (fun t => Machine.mk mtab t us) (List.append_nil t).symm
  apply hloop.bind
  rintro _ _ rfl
  refine ⟨hI text, fun (ok : Bool) hok => ?_⟩
  obtain rfl := hA _ ok hok
  refine ⟨hI text, fun (ok : Bool) _ => ?_⟩
  cases ok with
  | false => exact Or.inl rfl
  | true => exact Or.inr rfl

/-- The new version gets its mode. -/
def GetsMode : (q : Call) → Answer q → Prop
  | .sys .fchmodTemp, (ok : Bool) => ok = true
  | _, _ => True

theorem getsMode_allWell (q : Call) : GetsMode q (allWell q) := by
  cases q with
  | sys s => cases s <;> first | exact rfl | exact trivial
  | _ => exact trivial

/-- **What the new version holds.** In every run that copies a file without bad lines to its end, and sets the
mode of the new version, that version has exactly the entries that were to be kept, if and only if each of them
can be copied. -/
theorem new_version_iff (dir : CString) (g : Mtab) (file : List CString) (hsound : Sound file) (m : Machine)
    (hm : m.temp = []) (env : Nat → (q : Call) → Answer q) (hmode : ∀ k q, GetsMode q (env k q)) (n : Nat)
    (hret : (copyMtab dir g file).result env n = some ()) :
    table ((machineOf fun _ _ _ => True).after m ((copyMtab dir g file).trace env n)).temp =
        kept dir (entriesOf 0 file) ↔
      ∀ mnt ∈ kept dir (entriesOf 0 file), Copyable mnt := by
  obtain ⟨mtab, t, us⟩ := m
  obtain rfl : t = [] := hm
  have hwp : Wp _ _ _ _ (Machine.mk mtab [] us) :=
    wp_copyMtab (A := fun _ q r => GetsMode q r) (I := fun _ => True) (fun _ _ h => h) (fun _ => trivial) dir g
      hsound rfl
  have hgets : ∀ e ∈ (copyMtab dir g file).trace env n, GetsMode e.1 e.2 := by
    intro e he
    obtain ⟨k, hk⟩ := mem_trace he
    rw [hk]
    exact hmode k e.1
  have hend := (hwp.sound env n (Monitor.follows_of_forall (fun _ _ _ h => h) _ hgets)).2
  rw [hret] at hend
  have htemp : ((machineOf fun _ _ _ => True).after ⟨mtab, [], us⟩ ((copyMtab dir g file).trace env n)).temp =
      (kept dir (entriesOf 0 file)).flatMap lineOf := by
    rcases hend with h | h
    · exact congrArg Machine.temp h
    · exact congrArg Machine.temp h
  rw [htemp]
  exact table_lines_iff fun mnt hmnt => cEntry_entriesOf mnt (List.mem_filter.mp hmnt).1

theorem new_version_iff_oneMount :
    table ((machineOf fun _ _ _ => True).after ⟨oneMount, [], []⟩
      ((copyMtab [] {} (readable oneMount)).trace (fun _ => allWell) 0)).temp = kept [] (table oneMount) :=
  (new_version_iff [] {} (readable oneMount) sound_oneMount ⟨oneMount, [], []⟩ rfl (fun _ => allWell)
    (fun _ => getsMode_allWell) 0 (by decide +kernel)).mpr
    fun mnt hmnt => copyable_oneMount mnt (List.mem_filter.mp hmnt).1

end Copy

/-! ## While file systems are unmounted -/

/-- The directory was unmounted, by itself or by the device on it, or it was no mount point. -/
def Released (us : List (CString × Option Errno)) (dir : CString) : Prop :=
  (dir, none) ∈ us ∨ (∃ err spec, [(dir, some err), (spec, none)] <:+: us) ∨
    ∃ err : Errno, (dir, some err) ∈ us ∧ (err.val = einval ∨ err.val = enoent)

theorem Released.append {us : List (CString × Option Errno)} {dir : CString} (h : Released us dir)
    (more : List (CString × Option Errno)) : Released (us ++ more) dir := by
  rcases h with h | ⟨err, spec, h⟩ | ⟨err, h, herr⟩
  · exact Or.inl (List.mem_append_left more h)
  · exact Or.inr (Or.inl ⟨err, spec, h.trans (List.prefix_append us more).isInfix⟩)
  · exact Or.inr (Or.inr ⟨err, List.mem_append_left more h, herr⟩)

/-- The entries of `/etc/mtab` are those of `text`, less some that were released, and none of its lines
is bad. -/
def Kept (text : CString) (m : Machine) : Prop :=
  (∃ dirs : List CString, (∀ dir ∈ dirs, Released m.umounts dir) ∧
    table m.mtab = (table text).filter fun mnt => mnt.dir ∉ dirs) ∧ Sound (readable m.mtab)

section Unmounting
variable {text : CString} {mtab t : CString} {us : List (CString × Option Errno)}

theorem Kept.append (h : Kept text ⟨mtab, t, us⟩) (more : List (CString × Option Errno)) (t' : CString) :
    Kept text ⟨mtab, t', us ++ more⟩ := by
  obtain ⟨⟨dirs, hdirs, htable⟩, hsound⟩ := h
  exact ⟨⟨dirs, fun dir hdir => (hdirs dir hdir).append more, htable⟩, hsound⟩

theorem Kept.temp (h : Kept text ⟨mtab, t, us⟩) (t' : CString) : Kept text ⟨mtab, t', us⟩ := h

/-- The new version, without the entries of a directory that was released. -/
theorem Kept.copy (htext : ∀ mnt ∈ table text, Copyable mnt) (h : Kept text ⟨mtab, t, us⟩) {dir : CString}
    (hdir : Released us dir) (t' : CString) :
    Kept text ⟨(kept dir (table mtab)).flatMap lineOf, t', us⟩ := by
  obtain ⟨⟨dirs, hdirs, htable⟩, -⟩ := h
  have hmem : ∀ mnt ∈ kept dir (table mtab), mnt ∈ table text := by
    intro mnt hmnt
    have hold : mnt ∈ table mtab := (List.mem_filter.mp hmnt).1
    rw [show table mtab = _ from htable] at hold
    exact (List.mem_filter.mp hold).1
  have hread : table ((kept dir (table mtab)).flatMap lineOf) = kept dir (table mtab) :=
    (table_lines_iff fun mnt hmnt => cEntry_entriesOf mnt (hmem mnt hmnt)).mpr fun mnt hmnt =>
      htext mnt (hmem mnt hmnt)
  refine ⟨⟨dir :: dirs, ?_, ?_⟩, sound_lines (fun mnt hmnt => cEntry_entriesOf mnt (hmem mnt hmnt)) fun mnt hmnt =>
    htext mnt (hmem mnt hmnt)⟩
  · intro d hd
    rcases List.mem_cons.mp hd with rfl | hd
    · exact hdir
    · exact hdirs d hd
  · show table ((kept dir (table mtab)).flatMap lineOf) = _
    rw [hread, show table mtab = _ from htable]
    unfold kept
    rw [List.filter_filter]
    apply List.filter_congr
    intro mnt _
    simp [List.mem_cons, not_or]

/-- The table was read, and this is what is in it. -/
def Have (chain : List Mntent) (g : Mtab) : Prop := g.gotMtab = true ∧ g.mounttable = some chain

/-- Watching whether `/etc/mtab` is as it should be. -/
abbrev watched (text : CString) : Monitor Call Answer Machine := machine.asserting (Kept text)

variable {chain : List Mntent} {m₀ : Machine}

theorem undisturbed (h₀ : Kept text m₀) : Undisturbed (watched text) (Kept text) (Have chain) m₀ where
  ignores q hq := ignores_lock h₀ (by rw [hq]; rfl)
  exits := h₀
  noteStat g st hg := by cases st <;> exact hg
  writable _ _ hg := hg

theorem triple_lock (h₀ : Kept text m₀) {α : Type} {p : P α} (hp : OnlyLock p) :
    TripleS (watched text) (Kept text) (At (Have chain) m₀) (liftM p : M α) fun _ => At (Have chain) m₀ := by
  apply TripleS.lift
  rintro g _ ⟨hg, rfl⟩
  exact (still_lock hp h₀).mono (fun _ _ hm => ⟨hg, hm⟩) fun _ h => h

theorem triple_lockMtab (h₀ : Kept text m₀) :
    TripleS (watched text) (Kept text) (At (Have chain) m₀) lockMtab fun _ => At (Have chain) m₀ := by
  apply triple_get.bind
  intro g
  refine triple_forget (fun _ h => h.2) (TripleS.ite (fun _ => ?_) fun _ => triple_ret ())
  apply (triple_plain (undisturbed h₀) (plain_ask .lstatLock rfl)).bind
  intro st
  refine TripleS.bind (triple_modify (L := Have chain) ?_) fun _ => ?_
  · exact fun _ hg => hg
  · apply triple_get.bind
    intro g
    apply triple_forget fun _ h => h.2
    exact (triple_lock h₀ (only_openLock g)).bind fun _ => triple_modify fun _ hg => hg

theorem getmntfile_have {g : Mtab} (hg : Have chain g) (name : CString) :
    getmntfile name g = .ret (chain.find? (fun mc => mc.dir = name || mc.fsname = name), g) := by
  have hhead := mtabHead_got hg.1
  rw [hg.2] at hhead
  show Prog.bind (Prog.bind (mtabHead g) _) _ = _
  rw [hhead]
  rfl

/-- The table is there, so an entry of it is found. -/
theorem triple_findMounted (spec : CString) {node : CString} (hnode : ∃ mc ∈ chain, mc.dir = node) :
    TripleS (watched text) (Kept text) (At (Have chain) m₀) (findMounted spec node)
      fun mc g m => mc ≠ none ∧ At (Have chain) m₀ g m := by
  rintro g m ⟨hg, hm⟩
  show Wp _ _ _ (Prog.bind (getmntfile spec g) _) m
  rw [getmntfile_have hg spec]
  cases hspec : chain.find? (fun mc => mc.dir = spec || mc.fsname = spec) with
  | some mc => exact ⟨Option.some_ne_none mc, hg, hm⟩
  | none =>
    show Wp _ _ _ (getmntfile node g) m
    rw [getmntfile_have hg node]
    refine ⟨?_, hg, hm⟩
    obtain ⟨mc, hmem, hdir⟩ := hnode
    intro hnone
    have hno := List.find?_eq_none.mp hnone mc hmem
    simp [hdir] at hno

theorem wp_mySetmntent_mounted (h₀ : Kept text m₀) :
    Wp (watched text) (fun file m => m = m₀ ∧ ∀ pieces, file = some pieces → pieces = readable m₀.mtab) (Kept text)
      (mySetmntent .mounted) m₀ := by
  have hmalloc : Wp (watched text) (fun _ m => m = m₀) (Kept text) xmalloc m₀ :=
    still_lock (lock_of_plain only_xmalloc) h₀
  apply hmalloc.bind
  rintro _ _ rfl
  refine ⟨h₀, fun (file : Option (List CString)) hfile => ?_⟩
  apply hmalloc.bind
  rintro _ _ rfl
  refine ⟨rfl, ?_⟩
  rintro pieces rfl
  exact of_decide_eq_true hfile

theorem wp_mySetmntentTemp (h : Kept text ⟨mtab, t, us⟩) :
    Wp (watched text) (fun ok m => (ok = true → m = ⟨mtab, [], us⟩) ∧ (ok = false → m = ⟨mtab, t, us⟩)) (Kept text)
      mySetmntentTemp ⟨mtab, t, us⟩ := by
  have hmalloc : ∀ t', Wp (watched text) (fun _ m => m = ⟨mtab, t', us⟩) (Kept text) xmalloc ⟨mtab, t', us⟩ :=
    fun t' => still_lock (lock_of_plain only_xmalloc) (h.temp t')
  apply (hmalloc t).bind
  rintro _ _ rfl
  refine ⟨h, fun (ok : Bool) _ => ?_⟩
  cases ok with
  | false =>
    apply (hmalloc t).bind
    rintro _ _ rfl
    exact ⟨nofun, fun _ => rfl⟩
  | true =>
    apply (hmalloc []).bind
    rintro _ _ rfl
    exact ⟨fun _ => rfl, nofun⟩

/-- Between two `umount`s. -/
def Between (text : CString) (chain : List Mntent) (us : List (CString × Option Errno)) (g : Mtab) (m : Machine) : Prop :=
  Have chain g ∧ Kept text m ∧ m.umounts = us

theorem Between.of_rest {g : Mtab} {m : Machine} (h₀ : Kept text m₀) (h : At (Have chain) m₀ g m) :
    Between text chain m₀.umounts g m := by
  obtain ⟨hg, rfl⟩ := h
  exact ⟨hg, h₀, rfl⟩

/-- From a state between two `umount`s there is nothing but that state to think of. -/
theorem triple_between {α : Type} {x : M α} {J : α → Mtab → Machine → Prop}
    (h : ∀ m₀, Kept text m₀ → m₀.umounts = us → TripleS (watched text) (Kept text) (At (Have chain) m₀) x J) :
    TripleS (watched text) (Kept text) (Between text chain us) x J :=
  fun g m hm => h m hm.2.1 hm.2.2 g m ⟨hm.1, rfl⟩

theorem between_lift {α : Type} {p : P α} (hp : OnlyLock p) :
    TripleS (watched text) (Kept text) (Between text chain us) (liftM p : M α) fun _ => Between text chain us :=
  triple_between fun _ h₀ hus => (triple_lock h₀ hp).conseq (fun _ _ h => h) fun _ _ _ h =>
    hus ▸ Between.of_rest h₀ h

/-- **An update of `/etc/mtab`** leaves it as it was, or without the entries of the directory. -/
theorem triple_updateMtab (htext : ∀ mnt ∈ table text, Copyable mnt) {dir : CString} (hdir : Released us dir) :
    TripleS (watched text) (Kept text) (Between text chain us) (updateMtab dir) fun _ => Between text chain us := by
  have hleave : TripleS (watched text) (Kept text) (Between text chain us)
      (get >>= fun g => liftM (unlockMtab g) : M Unit) fun _ => Between text chain us :=
    (TripleS.get.conseq (fun _ _ h => h) fun _ _ _ h => h.2).bind fun g => between_lift (lock_of_close (only_unlockMtab g))
  have herror : TripleS (watched text) (Kept text) (Between text chain us)
      (liftM error >>= fun _ => get >>= fun g => liftM (unlockMtab g) : M Unit) fun _ => Between text chain us :=
    (between_lift (lock_of_plain only_xmalloc)).bind fun _ => hleave
  apply triple_between
  rintro ⟨mtab, t, us⟩ h₀ rfl
  apply (triple_mtabDoesNotExist (undisturbed h₀)).bind
  intro missing
  apply (triple_mtabIsASymlink (undisturbed h₀)).bind
  intro symlink
  refine TripleS.ite (fun _ => TripleS.pure fun _ _ h => Between.of_rest h₀ h) fun _ => ?_
  apply (triple_lockMtab h₀).bind
  intro _
  have hopen : TripleS (watched text) (Kept text) (At (Have chain) ⟨mtab, t, us⟩) (liftM (mySetmntent .mounted) : M _)
      fun file g m => At (Have chain) ⟨mtab, t, us⟩ g m ∧ ∀ pieces, file = some pieces → pieces = readable mtab := by
    apply TripleS.lift
    rintro g _ ⟨hg, rfl⟩
    exact (wp_mySetmntent_mounted h₀).mono (fun _ _ h => ⟨⟨hg, h.1⟩, h.2⟩) fun _ h => h
  have hopenTemp : TripleS (watched text) (Kept text) (At (Have chain) ⟨mtab, t, us⟩) (liftM mySetmntentTemp : M _)
      fun ok g m => Have chain g ∧ (ok = true → m = ⟨mtab, [], us⟩) ∧ (ok = false → m = ⟨mtab, t, us⟩) := by
    apply TripleS.lift
    rintro g _ ⟨hg, rfl⟩
    exact (wp_mySetmntentTemp h₀).mono (fun _ _ h => ⟨hg, h⟩) fun _ h => h
  apply hopen.bind
  intro file
  cases file with
  | none => exact herror.conseq (fun _ _ h => Between.of_rest h₀ h.1) fun _ _ _ h => h
  | some pieces =>
    by_cases hpieces : pieces = readable mtab
    · subst hpieces
      refine TripleS.conseq (I := At (Have chain) ⟨mtab, t, us⟩) ?_ (fun _ _ h => h.1) fun _ _ _ h => h
      apply hopenTemp.bind
      intro ok
      refine TripleS.ite (fun hok => ?_) fun hok => ?_
      · refine TripleS.conseq (I := At (Have chain) ⟨mtab, [], us⟩) ?_ (fun _ _ h => ⟨h.1, h.2.1 hok⟩) fun _ _ _ h => h
        apply triple_get.bind
        intro g'
        apply triple_forget fun _ h => h.2
        refine TripleS.bind (TripleS.lift ?_) fun _ => hleave
        rintro g _ ⟨hg, rfl⟩
        refine (wp_copyMtab (fun _ _ h => h) h₀.temp dir g' h₀.2 rfl).mono ?_ fun _ h => h
        rintro _ _ (rfl | rfl)
        · exact ⟨hg, h₀.temp _, rfl⟩
        · exact ⟨hg, h₀.copy htext hdir _, rfl⟩
      · refine herror.conseq (fun g m h => Between.of_rest h₀ ⟨h.1, h.2.2 ?_⟩) fun _ _ _ h => h
        exact Bool.eq_false_iff.mpr hok
    · exact fun _ _ h => absurd (h.2 pieces rfl) hpieces

theorem triple_umounted (htext : ∀ mnt ∈ table text, Copyable mnt) (spec : CString) {node : CString}
    (hnode : ∃ mc ∈ chain, mc.dir = node) (hdir : Released us node) :
    TripleS (watched text) (Kept text) (Between text chain us) (umounted spec node) fun _ => Between text chain us := by
  have hupdate : TripleS (watched text) (Kept text) (Between text chain us)
      (updateMtab node >>= fun _ => pure false : M Bool) fun _ => Between text chain us :=
    (triple_updateMtab htext hdir).bind fun _ => TripleS.pure fun _ _ h => h
  apply triple_between
  intro m₀ h₀ hus
  have hrest : ∀ {α : Type} (a : α), TripleS (watched text) (Kept text) (At (Have chain) m₀) (pure a : M α)
      fun _ => Between text chain us := fun a => TripleS.pure fun _ _ h => hus ▸ Between.of_rest h₀ h
  apply triple_get.bind
  intro g
  refine triple_forget (fun _ h => h.2) (TripleS.ite (fun _ => hrest false) fun _ => ?_)
  apply (triple_mtabIsWritable (undisturbed h₀)).bind
  intro writable
  refine TripleS.ite (fun _ => hrest false) fun _ => ?_
  apply (triple_findMounted spec hnode).bind
  intro mc
  cases mc with
  | none => exact fun _ _ h => absurd rfl h.1
  | some mc =>
    refine TripleS.conseq (I := At (Have chain) m₀) ?_ (fun _ _ h => h.2) fun _ _ _ h => h
    apply (triple_lock h₀ (lock_of_plain (only_clearLoop spec mc))).bind
    intro failed
    refine TripleS.ite (fun _ => hrest true) fun _ => ?_
    exact hupdate.conseq (fun _ _ h => hus ▸ Between.of_rest h₀ h) fun _ _ _ h => h

theorem triple_umountFailed (htext : ∀ mnt ∈ table text, Copyable mnt) {node : CString} {tried : Tried}
    (hdir : tried.err = einval ∨ tried.err = enoent → Released us node) :
    TripleS (watched text) (Kept text) (Between text chain us) (umountFailed node tried)
      fun _ => Between text chain us := by
  have hcomplain : TripleS (watched text) (Kept text) (Between text chain us) (liftM (complaints tried) : M Unit)
      fun _ => Between text chain us := between_lift (lock_of_plain (only_complaints tried))
  refine TripleS.bind (TripleS.get.conseq (fun _ _ h => h) fun _ _ _ h => h.2) fun g => ?_
  refine TripleS.ite (fun herr => ?_) fun _ => hcomplain
  exact (triple_updateMtab htext (hdir herr.2)).bind fun _ => hcomplain

/-- Whether the directory is released, one knows from the answers. -/
theorem wp_umountTried (h₀ : Kept text m₀) (spec node : CString) :
    Wp (watched text) (fun tried m => Kept text m ∧
      (tried.ok = true ∨ tried.err = einval ∨ tried.err = enoent → Released m.umounts node)) (Kept text)
      (umountTried spec node) m₀ := by
  obtain ⟨mtab, t, us⟩ := m₀
  refine ⟨h₀, fun (err : Option Errno) _ => ?_⟩
  cases err with
  | none => exact ⟨h₀.append _ t, fun _ => Or.inl (List.mem_append_right us List.mem_cons_self)⟩
  | some err =>
    have hmem : (node, some err) ∈ us ++ [(node, some err)] := List.mem_append_right us List.mem_cons_self
    have hobsolete : err.val = einval ∨ err.val = enoent → Released (us ++ [(node, some err)]) node := fun herr =>
      Or.inr (Or.inr ⟨err, hmem, herr⟩)
    refine Wp.ite (fun _ => ?_) fun _ => ?_
    · refine ⟨h₀.append _ t, fun (err2 : Option Errno) _ => ?_⟩
      cases err2 with
      | none =>
        refine ⟨(h₀.append _ t).append _ t, fun _ => Or.inr (Or.inl ⟨err, spec, us, [], ?_⟩)⟩
        show us ++ [(node, some err), (spec, none)] ++ [] = us ++ [(node, some err)] ++ [(spec, none)]
        simp
      | some err2 =>
        refine ⟨(h₀.append _ t).append _ t, fun h => ?_⟩
        exact (hobsolete (h.resolve_left Bool.false_ne_true)).append _
    · exact ⟨h₀.append _ t, fun h => hobsolete (h.resolve_left Bool.false_ne_true)⟩

/-- One file system of the table. -/
theorem triple_umountNode (htext : ∀ mnt ∈ table text, Copyable mnt) (spec : CString) {node : CString}
    (hnode : ∃ mc ∈ chain, mc.dir = node) :
    TripleS (watched text) (Kept text) (fun g m => Have chain g ∧ Kept text m) (umountNode spec node)
      fun _ g m => Have chain g ∧ Kept text m := by
  have htried : TripleS (watched text) (Kept text) (fun g m => Have chain g ∧ Kept text m)
      (liftM (umountTried spec node) : M Tried) fun tried g m => Between text chain m.umounts g m ∧
        (tried.ok = true ∨ tried.err = einval ∨ tried.err = enoent → Released m.umounts node) := by
    apply TripleS.lift
    rintro g m ⟨hg, hm⟩
    exact (wp_umountTried hm spec node).mono (fun _ _ h => ⟨⟨hg, h.1, rfl⟩, h.2⟩) fun _ h => h
  apply htried.bind
  rintro tried g ⟨mtab, t, us⟩ ⟨hm, hrel⟩
  have hfailed : TripleS (watched text) (Kept text) (Between text chain us)
      (umountFailed node tried >>= fun _ => pure true : M Bool) fun _ g m => Have chain g ∧ Kept text m :=
    (triple_umountFailed htext fun h => hrel (Or.inr h)).bind fun _ => TripleS.pure fun _ _ h => ⟨h.1, h.2.1⟩
  refine TripleS.ite (fun hok => ?_) (fun _ => hfailed) g _ hm
  apply (triple_umounted htext spec hnode (hrel (Or.inl hok))).bind
  intro failed
  exact TripleS.ite (fun _ => TripleS.pure fun _ _ h => ⟨h.1, h.2.1⟩) fun _ => hfailed

theorem triple_umountOne (htext : ∀ mnt ∈ table text, Copyable mnt) (spec : CString) {node : CString}
    (hnode : ∃ mc ∈ chain, mc.dir = node) :
    TripleS (watched text) (Kept text) (fun g m => Have chain g ∧ Kept text m) (umountOne spec node)
      fun _ g m => Have chain g ∧ Kept text m := by
  refine TripleS.ite (fun _ => ?_) fun _ => triple_umountNode htext spec hnode
  refine TripleS.bind (TripleS.modify ?_) fun _ => triple_umountNode htext spec hnode
  exact fun _ _ h => h

/-- The table is read, unless it was, and `/etc/mtab` is left alone. -/
theorem triple_mtabHead : TripleS (watched text) (Kept text) (fun _ m => Kept text m) mtabHead
    fun head g m => (∀ chain, head = some chain → Have chain g) ∧ Kept text m := by
  have hread : TripleS (watched text) (Kept text) (fun _ m => Kept text m) readMounttable
      fun _ g m => g.gotMtab = true ∧ Kept text m := by
    refine TripleS.bind (J := fun _ g m => g.gotMtab = true ∧ Kept text m) (TripleS.modify fun _ _ h => ⟨rfl, h⟩)
      fun _ => TripleS.bind (J := fun _ g m => g.gotMtab = true ∧ Kept text m) (TripleS.lift ?_)
        fun _ => TripleS.modify fun _ _ h => h
    rintro g m ⟨hg, hm⟩
    exact (still_lock (lock_of_plain only_readTable) hm).mono (fun _ _ h => ⟨hg, h ▸ hm⟩) fun _ h => h
  have hhead : TripleS (watched text) (Kept text) (fun g m => g.gotMtab = true ∧ Kept text m)
      (get >>= fun g => pure g.mounttable : M (Option (List Mntent)))
      fun head g m => (∀ chain, head = some chain → Have chain g) ∧ Kept text m := by
    apply TripleS.get.bind
    intro g
    apply TripleS.pure
    rintro _ m ⟨rfl, hg, hm⟩
    exact ⟨fun chain h => ⟨hg, h⟩, hm⟩
  apply TripleS.get.bind
  intro g
  refine TripleS.ite (fun _ => ?_) fun hgot => ?_
  · exact TripleS.bind (hread.conseq (fun _ _ h => h.2) fun _ _ _ h => h) fun _ => hhead
  · refine hhead.conseq ?_ fun _ _ _ h => h
    rintro _ m ⟨rfl, hm⟩
    exact ⟨by simpa using hgot, hm⟩

theorem triple_umountAll (htext : ∀ mnt ∈ table text, Copyable mnt) :
    TripleS (watched text) (Kept text) (fun _ m => Kept text m) umountAll fun _ _ m => Kept text m := by
  apply triple_mtabHead.bind
  intro head
  cases head with
  | none =>
    refine TripleS.bind TripleS.get fun g => TripleS.lift ?_
    rintro _ m ⟨-, -, hm⟩
    exact wp_die hm g 2
  | some chain =>
    refine TripleS.conseq (I := fun g m => Have chain g ∧ Kept text m) ?_ (fun _ _ h => ⟨h.1 chain rfl, h.2⟩)
      fun _ _ _ h => h
    refine TripleS.bind (TripleS.forM fun mc hmc => ?_) fun _ => TripleS.lift ?_
    · refine TripleS.ite (fun _ => ?_) fun _ => TripleS.pure fun _ _ h => h
      exact (triple_umountOne htext mc.fsname ⟨mc, List.mem_reverse.mp hmc, rfl⟩).bind fun _ =>
        TripleS.pure fun _ _ h => h
    · rintro g m ⟨-, hm⟩
      exact ⟨hm, fun _ _ => hm⟩

/-- **`/etc/mtab` through a shutdown.** At every moment of every run of `umount_all`, also where the run ends in
an exit, the file has the entries it had at the start, in their order, less those of directories that were
unmounted or were not mounted; given that it had no bad lines. -/
theorem table_kept (hsound : Sound (readable text)) (htext : ∀ mnt ∈ table text, Copyable mnt) (g : Mtab)
    (env : Nat → (q : Call) → Answer q) (hmachine : machine.Follows ⟨text, t, []⟩ ((umountAll g).trace env 0))
    {pre post : List (Sigma Answer)} (htrace : (umountAll g).trace env 0 = pre ++ post) :
    ∃ dirs : List CString, (∀ dir ∈ dirs, Released (machine.after ⟨text, t, []⟩ pre).umounts dir) ∧
      table (machine.after ⟨text, t, []⟩ pre).mtab = (table text).filter fun mnt => mnt.dir ∉ dirs := by
  have hstart : Kept text ⟨text, t, []⟩ :=
    ⟨⟨[], nofun, (List.filter_eq_self.mpr fun _ _ => by simp).symm⟩, hsound⟩
  exact ((triple_umountAll htext g _ hstart).always hmachine htrace).1

end Unmounting

theorem table_kept_oneMount :
    ∃ dirs : List CString,
      (∀ dir ∈ dirs,
        Released (machine.after ⟨oneMount, [], []⟩ ((umountAll {}).trace (fun _ => allWell) 0)).umounts dir) ∧
      table (machine.after ⟨oneMount, [], []⟩ ((umountAll {}).trace (fun _ => allWell) 0)).mtab =
        (table oneMount).filter fun mnt => mnt.dir ∉ dirs :=
  table_kept sound_oneMount copyable_oneMount {} (fun _ => allWell) (by decide +kernel) (List.append_nil _).symm

end Watchdog.Shutdown
