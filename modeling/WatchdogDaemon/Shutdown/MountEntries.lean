import WatchdogDaemon.Shutdown.Calls

/- Mount table entries: `mntent.c`.

   A mount table is read line by line. A line is blank, an entry of four words and two
   numbers, or bad; a piece without a newline is an extremely long line, after which the
   file is given up, as it is after five bad lines. In an entry blanks, newlines and
   backslashes are written in octal. Each word of an entry gets memory of its own, so
   reading one entry can fail four times.

   What is proved: reading and writing entries comes back unless an answer is fatal
   (`steady_forEntries`, `steady_myAddmntent`), and a table that was read without a fatal
   answer was read without a read error.

   Correspondence (C ↔ Lean):
     `struct mntent`                        ↔ `Mntent`
     `skip_spaces`, `skip_nonspaces`        ↔ `skipSpaces`, `skipNonspaces`
     `mangle`, `unmangle`                   ↔ `mangle`, `unmangle`
     `my_setmntent`                         ↔ `mySetmntent`, `mySetmntentTemp`
     `my_getmntent`, one line of it         ↔ `readLine`
     `while ((mnt = my_getmntent (mfp)))`   ↔ `forEntries`
     `my_addmntent`                         ↔ `myAddmntent` -/
namespace Watchdog.Shutdown
open CallTree

structure Mntent where
  fsname : CString
  dir : CString
  type : CString
  opts : CString
  freq : Int
  passno : Int
  deriving DecidableEq

/-! ## Words -/

def isSpaceOrTab (c : Char) : Bool := c == ' ' || c == '\t'

def skipSpaces (s : CString) : CString := s.dropWhile isSpaceOrTab

def skipNonspaces (s : CString) : CString := s.dropWhile fun c => !isSpaceOrTab c

/-- `((a) & ~7) == '0'`. -/
def isOctal (c : Char) : Bool := '0' ≤ c && c ≤ '7'

/-- The value of three octal digits, as a `char`. -/
def octal (a b c : Char) : Char :=
  Char.ofNat ((64 * (a.toNat % 8) + 8 * (b.toNat % 8) + c.toNat % 8) % 256)

/-- A word with its escapes replaced. -/
def unescape : CString → CString
  | '\\' :: a :: b :: c :: rest =>
    if isOctal a && isOctal b && isOctal c then octal a b c :: unescape rest
    else '\\' :: unescape (a :: b :: c :: rest)
  | c :: rest => c :: unescape rest
  | [] => []

/-- The first word of `s` as a string of its own: it ends at a NUL it escapes. -/
def unmangle (s : CString) : P CString := do
  xmalloc
  return (unescape (s.takeWhile fun c => !isSpaceOrTab c)).takeWhile fun c => c.toNat ≠ 0

/-- The characters `need_escaping`. -/
def needEscaping (c : Char) : Bool := c == ' ' || c == '\t' || c == '\n' || c == '\\'

def octalDigit (n : Nat) : Char := Char.ofNat ('0'.toNat + n % 8)

def escape : CString → CString
  | [] => []
  | c :: rest =>
    if needEscaping c then
      '\\' :: octalDigit (c.toNat / 64) :: octalDigit (c.toNat / 8) :: octalDigit c.toNat :: escape rest
    else c :: escape rest

def mangle (s : CString) : P CString := do
  xmalloc
  return escape s

/-! ## Lines -/

def digits (s : CString) : CString := s.takeWhile Char.isDigit

/-- `atoi` of a string of digits, with the overflow of glibc's. -/
def atoiDigits (s : CString) : Int :=
  toInt (min (2 ^ 63 - 1) (s.foldl (fun n c => 10 * n + (c.toNat - '0'.toNat)) 0))

/-- A number and what follows it; 0 when there is none. -/
def number (s : CString) : Int × CString := (atoiDigits (digits s), s.dropWhile Char.isDigit)

/-- What `my_getmntent` makes of a piece that `fgets` returned. -/
inductive Line where
  | blank
  | tooLong
  | bad
  | entry (mnt : Mntent)

/-- A number is followed by a blank or by nothing. -/
def endsWord (s : CString) : Bool := s.head?.all isSpaceOrTab

/-- The two numbers at the end of an entry, if the line is good. -/
def numbers (s : CString) : Option (Int × Int) :=
  let (freq, s) := number s
  if endsWord s then
    let (passno, s) := number (skipSpaces s)
    if endsWord s then some (freq, passno) else none
  else none

def readLine (buf : CString) : P Line := do
  -- A last line without its newline counts as too long as well.
  if !buf.contains '\n' then
    return .tooLong
  let s := skipSpaces (buf.takeWhile (· ≠ '\n'))
  if s.isEmpty || s.head? = some '#' then
    return .blank
  let fsname ← unmangle s
  let s := skipSpaces (skipNonspaces s)
  let dir ← unmangle s
  let s := skipSpaces (skipNonspaces s)
  let type ← unmangle s
  let s := skipSpaces (skipNonspaces s)
  let opts ← unmangle s
  let s := skipSpaces (skipNonspaces s)
  -- A bad line has cost its four words already.
  match numbers s with
  | none => return .bad
  | some (freq, passno) => return .entry ⟨fsname, dir, type, opts, freq, passno⟩

def errMax : Nat := 5

/-- The loop over the entries of a file: `body` on each, until it is done. `pieces` is
what is left of the file and `softerrs` the bad lines so far. The answer says whether
reading failed. -/
def forEntries {σ : Type} (reader : Reader) (body : σ → Mntent → P (ForInStep σ)) :
    Nat → List CString → σ → P (σ × Bool)
  | softerrs, [], acc =>
    if errMax ≤ softerrs then return (acc, false)
    else do
      let err ← fgetsEnd reader
      return (acc, err)
  | softerrs, piece :: pieces, acc =>
    if errMax ≤ softerrs then return (acc, false)
    else do
      match ← readLine piece with
      | .blank => forEntries reader body softerrs pieces acc
      | .tooLong =>
        attempt (.badLine reader true)
        return (acc, false)
      | .bad =>
        attempt (.badLine reader (errMax ≤ softerrs + 1))
        forEntries reader body (softerrs + 1) pieces acc
      | .entry mnt =>
        match ← body acc mnt with
        | .done acc => return (acc, false)
        | .yield acc => forEntries reader body softerrs pieces acc

/-- A mount table opened for reading, `none` if that failed; its name is kept either way. -/
def mySetmntent (path : MntPath) : P (Option (List CString)) := do
  xmalloc
  let file ← fopen path
  xmalloc
  return file

/-- The new version of `/etc/mtab` opened for writing. -/
def mySetmntentTemp : P Bool := do
  xmalloc
  let ok ← sys .fopenTemp
  xmalloc
  return ok

/-- The line of an entry, and whether it could not be written. -/
def myAddmntent (mnt : Mntent) : P Bool := do
  if !(← sys .fseekTemp) then
    return true
  let m1 ← mangle mnt.fsname
  let m2 ← mangle mnt.dir
  let m3 ← mangle mnt.type
  let m4 ← mangle mnt.opts
  let line := m1 ++ [' '] ++ m2 ++ [' '] ++ m3 ++ [' '] ++ m4 ++ [' '] ++ (toString mnt.freq).toList ++
    [' '] ++ (toString mnt.passno).toList ++ ['\n']
  let ok ← sys (.fprintfTemp line)
  return !ok

/-! ## Coming back -/

section Rules
variable {su : Setup} {cmd : RebootCmd}

theorem quiet_unmangle (s : CString) : Quiet su cmd (unmangle s) :=
  quiet_bind quiet_xmalloc fun _ => quiet_pure _

theorem quiet_mangle (s : CString) : Quiet su cmd (mangle s) :=
  quiet_bind quiet_xmalloc fun _ => quiet_pure _

theorem quiet_readLine (buf : CString) : Quiet su cmd (readLine buf) := by
  apply Steady.ite
  · intro _
    exact quiet_pure _
  · intro _
    apply Steady.ite
    · intro _
      exact quiet_pure _
    · intro _
      -- Four words, each with memory of its own.
      apply quiet_bind (quiet_unmangle _)
      intro fsname
      apply quiet_bind (quiet_unmangle _)
      intro dir
      apply quiet_bind (quiet_unmangle _)
      intro type
      apply quiet_bind (quiet_unmangle _)
      intro opts
      dsimp only
      split
      · exact quiet_pure _
      · exact quiet_pure _

/-- Reading a table to its end: the answer after a fatal read error says so. -/
theorem steady_fgetsEnd (reader : Reader) :
    Steady (isReboot cmd) (Fatal su) (fun err => reader = .table → err = false)
      (fun err => reader = .table ∧ err = true) (fgetsEnd reader) := by
  refine ⟨rfl, fun (err : Bool) => ?_⟩
  cases reader with
  | update => exact ⟨fun h => h.elim, fun _ h => nomatch h⟩
  | table => exact ⟨fun h => ⟨rfl, h⟩, fun h _ => Bool.eq_false_iff.mpr h⟩

variable {σ : Type} {reader : Reader} {body : σ → Mntent → P (ForInStep σ)}

/-- **The loop over the entries of a mount table comes back** when its body does, and a
table that was read without a fatal answer was read without a read error. -/
theorem steady_forEntries (hbody : ∀ acc mnt, Quiet su cmd (body acc mnt)) :
    ∀ (pieces : List CString) (softerrs : Nat) (acc : σ),
      Steady (isReboot cmd) (Fatal su) (fun r => reader = .table → r.2 = false)
        (fun r => reader = .table ∧ r.2 = true) (forEntries reader body softerrs pieces acc) := by
  intro pieces
  induction pieces with
  | nil =>
    intro softerrs acc
    apply Steady.ite
    · intro _
      exact Steady.pure fun _ => rfl
    · intro _
      exact (steady_fgetsEnd reader).bind (fun _ h => Steady.pure h) (fun _ h => h)
  | cons piece pieces ih =>
    intro softerrs acc
    apply Steady.ite
    · intro _
      exact Steady.pure fun _ => rfl
    · intro _
      apply (quiet_readLine piece).seq
      intro line _
      cases line with
      | blank => exact ih softerrs acc
      | tooLong =>
        apply (quiet_attempt (.badLine reader true) fun _ h => h).seq
        exact fun _ _ => Steady.pure fun _ => rfl
      | bad =>
        apply (quiet_attempt (.badLine reader (errMax ≤ softerrs + 1)) fun _ h => h).seq
        exact fun _ _ => ih (softerrs + 1) acc
      | entry mnt =>
        apply (hbody acc mnt).seq
        intro step _
        cases step with
        | done acc' => exact Steady.pure fun _ => rfl
        | yield acc' => exact ih softerrs acc'

theorem quiet_mySetmntent_mounted : Quiet su cmd (mySetmntent .mounted) := by
  apply quiet_bind quiet_xmalloc
  intro _
  apply quiet_bind (quiet_ask (c := .fopen .mounted) rfl fun _ h => h)
  intro file
  exact quiet_bind quiet_xmalloc fun _ => quiet_pure _

/-- `/proc/mounts` is the last table there is to try. -/
theorem steady_mySetmntent_procMounts :
    Steady (isReboot cmd) (Fatal su) (fun file => file ≠ none) (fun file => file = none)
      (mySetmntent .procMounts) := by
  apply quiet_xmalloc.seq
  intro _ _
  refine ⟨rfl, fun (file : Option (List CString)) => ⟨fun h => ?_, fun h => ?_⟩⟩
  · apply (doomed_of_quiet fun _ => quiet_xmalloc).bind
    intro _ _
    exact h
  · exact quiet_xmalloc.seq fun _ _ => Steady.pure h

theorem quiet_mySetmntentTemp : Quiet su cmd mySetmntentTemp := by
  apply quiet_bind quiet_xmalloc
  intro _
  apply quiet_bind (quiet_sys .fopenTemp fun _ h => h)
  intro ok
  exact quiet_bind quiet_xmalloc fun _ => quiet_pure _

/-- An entry is written unless an answer is fatal, and then the caller is told. -/
theorem steady_myAddmntent (mnt : Mntent) :
    Steady (isReboot cmd) (Fatal su) (fun failed => failed = false) (fun failed => failed = true)
      (myAddmntent mnt) := by
  apply steady_sys_bind .fseekTemp fun _ => Iff.rfl
  · apply (quiet_mangle mnt.fsname).seq
    intro m1 _
    apply (quiet_mangle mnt.dir).seq
    intro m2 _
    apply (quiet_mangle mnt.type).seq
    intro m3 _
    apply (quiet_mangle mnt.opts).seq
    intro m4 _
    apply steady_sys_bind _ fun _ => Iff.rfl
    · exact Steady.pure rfl
    · exact rfl
  · exact rfl

end Rules

end Watchdog.Shutdown
