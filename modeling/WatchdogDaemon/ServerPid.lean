import WatchdogDaemon.TextFile

/- The PID files of other servers: `pidfile.c`.

   A server is alive when `kill (pid, 0)` succeeds on the number in its PID file. The
   number gets there through a 19-byte buffer and `atoi`, and `kill` gives 0, -1 and the
   other negative numbers a meaning of their own: the daemon's group, every process, and a
   group. So an empty file (0) is always alive, and a number that was cut or wrapped is
   some other process.

   What is proved: `pidfile_names_live_iff` — the check is right for every set of live
   processes exactly when the file starts with a positive number below 2^31 that lies
   within the first 19 bytes (or when these spell 2^31 modulo 2^32, which `kill` always
   refuses).

   Correspondence (C ↔ Lean):
     `check_pidfile`                        ↔ `checkPidfile`
     `kill (pid, 0)`                        ↔ `ProcessSet.kill`
   The daemon runs as root: `kill` finds no process it may not signal. -/
namespace Watchdog
open Shutdown (isSpace digits atoi)

def esrch : Int := 3

/-! ## Processes -/

/-- A `pid_t` that can be a process or a group. -/
abbrev Pid := { p : Int // 0 < p ∧ p < 2 ^ 31 }

structure LiveProcess where
  pid : Pid
  pgid : Pid

/-- The live processes: the daemon itself and the others. -/
structure ProcessSet where
  self : LiveProcess
  others : List LiveProcess
  nodup : ((self :: others).map LiveProcess.pid).Nodup

namespace ProcessSet

def all (t : ProcessSet) : List LiveProcess := t.self :: t.others

def Alive (t : ProcessSet) (pid : Int) : Prop := ∃ p ∈ t.all, p.pid.1 = pid

/-- The processes a number stands for in a call of `kill`. -/
def addressed (t : ProcessSet) (pid : Int) : List LiveProcess :=
  if 0 < pid then t.all.filter fun p => p.pid.1 == pid
  else if pid = 0 then t.all.filter fun p => p.pgid.1 == t.self.pgid.1
  -- Every process but `init` and the caller.
  else if pid = -1 then t.others.filter fun p => 1 < p.pid.1
  else t.all.filter fun p => p.pgid.1 == -pid

def kill (t : ProcessSet) (pid : Int) : Option Errno :=
  if (t.addressed pid).isEmpty then some ⟨esrch, by decide⟩ else none

end ProcessSet

/-! ## The check -/

/-- Whatever follows the number in the buffer does not matter, a NUL included. -/
def checkPidfile (kill : Int → Option Errno) (file : Except Errno FileCalls) : Int :=
  match file with
  | .error err => err
  | .ok calls =>
    match calls.lseek with
    | some err => err
    | none =>
      match calls.read with
      | .error err => err
      | .ok bytes =>
        let pid := atoi (bytes.take 19)
        match calls.close with
        | some err => err
        | none =>
          match kill pid with
          | some err => err
          | none => enoerr

/-- The file starts with a positive number, and the process of that number is alive. -/
def NamesLiveProcess (bytes : CString) (t : ProcessSet) : Prop :=
  0 < startNumber bytes ∧ t.Alive (startNumber bytes)

/-! ## What the number is -/

theorem le_ofDigitChars (ds : CString) (n : Nat) : n ≤ Nat.ofDigitChars 10 ds n := by
  rw [Nat.ofDigitChars_eq_ofDigitChars_zero]
  calc n ≤ 10 ^ ds.length * n := Nat.le_mul_of_pos_left _ (Nat.pow_pos (by decide))
    _ ≤ 10 ^ ds.length * n + Nat.ofDigitChars 10 ds 0 := Nat.le_add_right _ _

theorem frontNumber_append (s rest : CString) : frontNumber s ≤ frontNumber (s ++ rest) := by
  unfold frontNumber digits
  rw [List.takeWhile_append]
  split
  · next hall =>
    have hself : s.takeWhile Char.isDigit = s := (List.takeWhile_prefix _).eq_of_length hall
    rw [hself, Nat.ofDigitChars_append]
    exact le_ofDigitChars _ _
  · exact Nat.le_refl _

theorem signedNumber_append {s rest : CString} (hne : s ≠ []) (h : 0 < signedNumber (s ++ rest)) :
    0 ≤ signedNumber s ∧ signedNumber s ≤ signedNumber (s ++ rest) := by
  obtain ⟨c, s, rfl⟩ := List.exists_cons_of_ne_nil hne
  have hfront := frontNumber_append (c :: s) rest
  have htail := frontNumber_append s rest
  rw [List.cons_append] at h hfront ⊢
  by_cases hminus : c = '-'
  · rw [hminus, signedNumber] at h
    omega
  by_cases hplus : c = '+'
  · rw [hplus, signedNumber, signedNumber]
    omega
  rw [signedNumber_plain hminus hplus, signedNumber_plain hminus hplus]
  omega

/-- Cutting a text that starts with a positive number leaves a number that is not larger. -/
theorem startNumber_append (s rest : CString) (h : 0 < startNumber (s ++ rest)) :
    0 ≤ startNumber s ∧ startNumber s ≤ startNumber (s ++ rest) := by
  unfold startNumber at h ⊢
  rw [List.dropWhile_append] at h ⊢
  split at h
  · next hempty =>
    rw [if_pos hempty]
    rw [List.isEmpty_iff] at hempty
    rw [hempty]
    exact ⟨Int.le_refl 0, Int.le_of_lt h⟩
  · next hne =>
    rw [if_neg hne]
    rw [List.isEmpty_iff] at hne
    exact signedNumber_append hne h

theorem startNumber_take {bytes : CString} {k : Nat} (h : 0 < startNumber bytes) :
    0 ≤ startNumber (bytes.take k) ∧ startNumber (bytes.take k) ≤ startNumber bytes := by
  have happ := startNumber_append (bytes.take k) (bytes.drop k)
  rw [List.take_append_drop] at happ
  exact happ h

/-- The number `atoi` makes of the cut text is the one in the file only if the cut left it
whole. -/
theorem startNumber_take_of_atoi {bytes : CString} {k : Nat} (h : 0 < startNumber bytes)
    (hatoi : atoi (bytes.take k) = startNumber bytes) :
    startNumber (bytes.take k) = startNumber bytes := by
  obtain ⟨hnonneg, hle⟩ := startNumber_take (k := k) h
  rw [atoi_eq, max_eq_right (by omega)] at hatoi
  have hlow := toInt_le (x := min (2 ^ 63 - 1) (startNumber (bytes.take k))) (by omega)
  omega

/-! ## What `kill` finds -/

namespace ProcessSet

theorem kill_eq_none {t : ProcessSet} {pid : Int} : t.kill pid = none ↔ t.addressed pid ≠ [] := by
  unfold kill
  split <;> simp_all

theorem kill_pos {t : ProcessSet} {pid : Int} (h : 0 < pid) : t.kill pid = none ↔ t.Alive pid := by
  rw [kill_eq_none, addressed, if_pos h, Ne, List.filter_eq_nil_iff]
  simp [Alive]

/-- No group has the number 2^31, so `INT_MIN` is no process. -/
theorem kill_min (t : ProcessSet) : t.kill (-2 ^ 31) ≠ none := by
  rw [Ne, kill_eq_none, not_not, addressed, if_neg (by decide), if_neg (by decide),
    if_neg (by decide), List.filter_eq_nil_iff]
  intro p _
  have := p.pgid.2.2
  simp only [beq_iff_eq]
  omega

theorem exists_fresh (m n : Int) : ∃ p : Pid, 1 < p.1 ∧ p.1 ≠ m ∧ p.1 ≠ n := by
  have hfree : ∃ x : Int, 1 < x ∧ x < 2 ^ 31 ∧ x ≠ m ∧ x ≠ n := by
    by_cases h₂ : m = 2 ∨ n = 2
    · by_cases h₃ : m = 3 ∨ n = 3
      · exact ⟨4, by omega⟩
      · exact ⟨3, by omega⟩
    · exact ⟨2, by omega⟩
  obtain ⟨x, hlow, hhigh, hm, hn⟩ := hfree
  exact ⟨⟨x, by omega, hhigh⟩, hlow, hm, hn⟩

/-- Every other number can be answered for by a process that is not `n`. -/
theorem exists_kill (pid n : Int) (hlow : -2 ^ 31 < pid) (hhigh : pid < 2 ^ 31) (hne : n ≠ pid) :
    ∃ t : ProcessSet, t.kill pid = none ∧ ¬ t.Alive n := by
  obtain ⟨a, ha, han, hap⟩ := exists_fresh n pid
  obtain ⟨b, hb, hbn, hba⟩ := exists_fresh n a
  obtain hpos | rfl | rfl | hneg : 0 < pid ∨ pid = 0 ∨ pid = -1 ∨ pid < -1 := by omega
  · let p : Pid := ⟨pid, hpos, hhigh⟩
    refine ⟨⟨⟨a, a⟩, [⟨p, p⟩], ?_⟩, ?_, ?_⟩
    · simpa [p, Subtype.ext_iff] using hap
    · rw [kill_pos hpos]
      exact ⟨⟨p, p⟩, by simp [all], rfl⟩
    · simpa [Alive, all, p] using ⟨han, hne.symm⟩
  · refine ⟨⟨⟨a, a⟩, [], by simp⟩, ?_, ?_⟩
    · simp [kill_eq_none, addressed, all]
    · simpa [Alive, all] using han
  · refine ⟨⟨⟨a, a⟩, [⟨b, b⟩], ?_⟩, ?_, ?_⟩
    · simpa [Subtype.ext_iff] using hba.symm
    · simpa [kill_eq_none, addressed] using hb
    · simpa [Alive, all] using ⟨han, hbn⟩
  · let g : Pid := ⟨-pid, by omega, by omega⟩
    refine ⟨⟨⟨a, g⟩, [], by simp⟩, ?_, ?_⟩
    · rw [kill_eq_none, addressed, if_neg (by omega), if_neg (by omega), if_neg (by omega)]
      simp [all, g]
    · simpa [Alive, all] using han

end ProcessSet

/-! ## When the check is right -/

theorem checkPidfile_enoerr {kill : Int → Option Errno} {lseek close : Option Errno}
    {bytes : CString} :
    checkPidfile kill (.ok ⟨lseek, .ok bytes, close⟩) = enoerr ↔
      lseek = none ∧ close = none ∧ kill (atoi (bytes.take 19)) = none := by
  have hpos (err : Errno) : err.1 ≠ enoerr := by
    have := err.2
    unfold enoerr
    omega
  unfold checkPidfile
  cases lseek <;> cases close <;> cases hkill : kill (atoi (bytes.take 19)) <;> simp [hkill, hpos]

/-- The file starts with a positive number that is a `pid_t`, all of it in the buffer. -/
def WholePid (bytes : CString) : Prop :=
  0 < startNumber bytes ∧ startNumber bytes < 2 ^ 31 ∧
    startNumber (bytes.take 19) = startNumber bytes

/-- The buffer spells 2^31, modulo 2^32 and after the saturation of `strtol`. -/
def NoGroup (bytes : CString) : Prop :=
  max (-2 ^ 63) (min (2 ^ 63 - 1) (startNumber (bytes.take 19))) % 2 ^ 32 = 2 ^ 31

theorem noGroup_iff (bytes : CString) : NoGroup bytes ↔ atoi (bytes.take 19) = -2 ^ 31 := by
  rw [atoi_eq, NoGroup, toInt, Int.bmod_def]
  split <;> omega

/-- **When a server that is reported alive is the one in the file.** The check answers
`ENOERR` only if the file starts with a positive number and the process of that number
exists, for every set of live processes, exactly when the number is a whole `pid_t` or the
buffer holds the one number `kill` always refuses. -/
theorem pidfile_names_live_iff (bytes : CString) :
    (∀ (t : ProcessSet) (lseek close : Option Errno),
      checkPidfile t.kill (.ok ⟨lseek, .ok bytes, close⟩) = enoerr → NamesLiveProcess bytes t) ↔
    WholePid bytes ∨ NoGroup bytes := by
  constructor
  · intro h
    have hlive : ∀ t : ProcessSet, t.kill (atoi (bytes.take 19)) = none →
        NamesLiveProcess bytes t := fun t hkill =>
      h t none none (checkPidfile_enoerr.2 ⟨rfl, rfl, hkill⟩)
    by_cases hmin : atoi (bytes.take 19) = -2 ^ 31
    · exact .inr ((noGroup_iff bytes).2 hmin)
    obtain ⟨hlow, hhigh⟩ : -2 ^ 31 ≤ atoi (bytes.take 19) ∧ atoi (bytes.take 19) < 2 ^ 31 := by
      rw [atoi_eq]
      exact toInt_bounds _
    -- Some process answers for the number, and it can be told from any other.
    obtain ⟨t, hkill, -⟩ := ProcessSet.exists_kill (atoi (bytes.take 19))
      (atoi (bytes.take 19) + 1) (by omega) hhigh (by omega)
    have hpos := (hlive t hkill).1
    have hsame : startNumber bytes = atoi (bytes.take 19) := by
      by_contra hne
      obtain ⟨t, hkill, hdead⟩ := ProcessSet.exists_kill _ _ (by omega) hhigh hne
      exact hdead (hlive t hkill).2
    exact .inl ⟨hpos, by omega, startNumber_take_of_atoi hpos hsame.symm⟩
  · intro h t lseek close henoerr
    obtain ⟨-, -, hkill⟩ := checkPidfile_enoerr.1 henoerr
    obtain ⟨hpos, hlt, hwhole⟩ | hmin := h
    · rw [atoi_of_lt (by omega) (by omega), hwhole] at hkill
      exact ⟨hpos, (ProcessSet.kill_pos hpos).1 hkill⟩
    · rw [(noGroup_iff bytes).1 hmin] at hkill
      exact absurd hkill (ProcessSet.kill_min t)

/-- An emptied file is alive: 0 is the daemon's own group. -/
theorem pidfile_empty :
    let daemon : LiveProcess := ⟨⟨100, by decide⟩, ⟨100, by decide⟩⟩
    let t : ProcessSet := ⟨daemon, [], by simp⟩
    checkPidfile t.kill (.ok ⟨none, .ok [], none⟩) = enoerr ∧ ¬ NamesLiveProcess [] t := by
  refine ⟨by decide, ?_⟩
  intro h
  exact absurd h.1 (by decide)

end Watchdog
