import WatchdogDaemon.Shutdown.DoShutdown

/- Numbers in small text files.

   Most checks read a line or two of text (`/proc/loadavg`, `/proc/meminfo`, a PID file)
   into a buffer and take numbers out of it with `atoi`. What a decimal number in the text
   becomes is worked out once: white space before it is skipped, it ends at the first
   character that is no digit, it saturates at the limits of a `long`, and `atoi` then
   keeps its low 32 bits.

   Correspondence (C ↔ Lean):
     `lseek`, `read`, `close` of a check    ↔ `FileCalls` (what they answer)
     `atoi`                                 ↔ `atoi` (of the shutdown), `atoi_eq` -/
namespace Watchdog
open Shutdown (isSpace digits atoiDigits atoi)

/-- What the calls on an open file answer: an error, or the bytes of the file. A `read` at
the start returns as many of them as fit into the buffer. -/
structure FileCalls where
  lseek : Option Errno := none
  read : Except Errno CString
  close : Option Errno := none

/-! ## Numerals -/

/-- A decimal number as it is written: one digit or more, leading zeros allowed. -/
structure Numeral where
  chars : CString
  ne_nil : chars ≠ []
  isDigit : ∀ c ∈ chars, c.isDigit = true

def Numeral.value (d : Numeral) : Nat := Nat.ofDigitChars 10 d.chars 0

/-- The numeral that `printf` prints. -/
def Numeral.ofNat (n : Nat) : Numeral where
  chars := Nat.toDigits 10 n
  ne_nil := Nat.toDigits_ne_nil
  isDigit := fun _ hc => Nat.isDigit_of_mem_toDigits (by decide) (by decide) hc

@[simp] theorem Numeral.value_ofNat (n : Nat) : (Numeral.ofNat n).value = n :=
  Nat.ofDigitChars_ten_toDigits

/-- The text does not go on with a digit. -/
def EndsNumber (rest : CString) : Prop := (rest.head?.all fun c => !c.isDigit) = true

instance (rest : CString) : Decidable (EndsNumber rest) :=
  inferInstanceAs (Decidable ((rest.head?.all fun c => !c.isDigit) = true))

theorem digits_append {ds rest : CString} (hds : ∀ c ∈ ds, c.isDigit = true)
    (hrest : EndsNumber rest) : digits (ds ++ rest) = ds := by
  unfold digits
  rw [List.takeWhile_append_of_pos hds]
  cases rest with
  | nil => simp
  | cons c rest =>
    have hc : c.isDigit = false := by simpa [EndsNumber] using hrest
    rw [List.takeWhile_cons_of_neg (by rw [hc]; decide), List.append_nil]

/-! ## `atoi` -/

theorem not_isSpace_of_isDigit {c : Char} (h : c.isDigit = true) : isSpace c = false := by
  have hlow : '0' ≤ c := by
    simp only [Char.isDigit, Bool.and_eq_true, decide_eq_true_eq] at h
    exact h.1
  have hne : (c == ' ') = false := by
    rw [beq_eq_false_iff_ne]
    intro hcase
    obtain rfl := hcase
    exact absurd hlow (by decide)
  have hhigh : ¬ c ≤ '\r' := fun hle => absurd (Char.le_trans hlow hle) (by decide)
  simp [isSpace, hne, hhigh]

theorem foldl_digits {ds : CString} (hds : ∀ c ∈ ds, c.isDigit = true) (n : Nat) :
    ds.foldl (fun (n : Int) c => 10 * n + (c.toNat - '0'.toNat)) n = Nat.ofDigitChars 10 ds n := by
  induction ds generalizing n with
  | nil => rfl
  | cons c ds ih =>
    have hc := hds c List.mem_cons_self
    have hlow : '0'.toNat ≤ c.toNat := by
      simp only [Char.isDigit, Bool.and_eq_true, decide_eq_true_eq] at hc
      exact hc.1
    have hstep := ih (fun d hd => hds d (List.mem_cons_of_mem _ hd)) (10 * n + (c.toNat - '0'.toNat))
    rw [List.foldl_cons, Nat.ofDigitChars_cons, ← hstep]
    congr 1
    omega

/-- The number the digits at the front of a string spell, 0 when there are none. -/
def frontNumber (s : CString) : Nat := Nat.ofDigitChars 10 (digits s) 0

def signedNumber : CString → Int
  | '-' :: s => -frontNumber s
  | '+' :: s => frontNumber s
  | s => frontNumber s

theorem signedNumber_plain {c : Char} (hminus : c ≠ '-') (hplus : c ≠ '+') (s : CString) :
    signedNumber (c :: s) = frontNumber (c :: s) :=
  signedNumber.eq_3 _ (fun _ h => hminus (List.cons.inj h).1) fun _ h => hplus (List.cons.inj h).1

/-- The number a text starts with, after white space and a sign. -/
def startNumber (s : CString) : Int := signedNumber (s.dropWhile isSpace)

theorem isDigit_of_mem_digits {s : CString} : ∀ c ∈ digits s, c.isDigit = true :=
  fun _ hc => List.all_eq_true.1 List.all_takeWhile _ hc

theorem atoiDigits_digits (s : CString) :
    atoiDigits (digits s) = toInt (min (2 ^ 63 - 1) (frontNumber s)) := by
  have hfold := foldl_digits (isDigit_of_mem_digits (s := s)) 0
  unfold atoiDigits
  rw [← Int.ofNat_zero, hfold]
  rfl

/-- `atoi` is `strtol`, which saturates, and the conversion to `int`, which wraps. -/
theorem atoi_eq (s : CString) :
    atoi s = toInt (max (-2 ^ 63) (min (2 ^ 63 - 1) (startNumber s))) := by
  unfold atoi startNumber
  generalize s.dropWhile isSpace = t
  split
  · rw [signedNumber, min_eq_right (by omega)]
    rfl
  · rw [atoiDigits_digits, signedNumber, max_eq_right (by omega)]
  · next hminus hplus =>
    rw [atoiDigits_digits, signedNumber.eq_3 _ hminus hplus, max_eq_right (by omega)]

theorem atoi_of_lt {s : CString} (h₁ : -2 ^ 31 ≤ startNumber s) (h₂ : startNumber s < 2 ^ 31) :
    atoi s = startNumber s := by
  rw [atoi_eq, min_eq_right (by omega), max_eq_right (by omega), toInt_eq_self h₁ h₂]

theorem startNumber_space {w : CString} (hw : ∀ c ∈ w, isSpace c = true) (s : CString) :
    startNumber (w ++ s) = startNumber s := by
  unfold startNumber
  rw [List.dropWhile_append_of_pos hw]

theorem frontNumber_numeral (d : Numeral) {rest : CString} (hrest : EndsNumber rest) :
    frontNumber (d.chars ++ rest) = d.value := by
  unfold frontNumber Numeral.value
  rw [digits_append d.isDigit hrest]

/-- A numeral starts neither with white space nor with a sign. -/
theorem Numeral.dropWhile_isSpace (d : Numeral) (rest : CString) :
    (d.chars ++ rest).dropWhile isSpace = d.chars ++ rest := by
  obtain ⟨c, cs, hcons⟩ := List.exists_cons_of_ne_nil d.ne_nil
  have hc : c.isDigit = true := d.isDigit c (by rw [hcons]; exact List.mem_cons_self)
  rw [hcons, List.cons_append, List.dropWhile_cons_of_neg]
  rw [not_isSpace_of_isDigit hc]
  decide

theorem Numeral.ne_sign (d : Numeral) {rest s : CString} {x : Char} (hx : x.isDigit = false) :
    d.chars ++ rest ≠ x :: s := by
  intro h
  obtain ⟨c, cs, hcons⟩ := List.exists_cons_of_ne_nil d.ne_nil
  have hc : c.isDigit = true := d.isDigit c (by rw [hcons]; exact List.mem_cons_self)
  rw [hcons, List.cons_append, List.cons.injEq] at h
  rw [h.1, hx] at hc
  exact absurd hc (by decide)

/-- A numeral is read as its value. -/
theorem startNumber_numeral (d : Numeral) {rest : CString} (hrest : EndsNumber rest) :
    startNumber (d.chars ++ rest) = d.value := by
  have hminus : ∀ s, d.chars ++ rest = '-' :: s → False := fun _ => d.ne_sign rfl
  have hplus : ∀ s, d.chars ++ rest = '+' :: s → False := fun _ => d.ne_sign rfl
  unfold startNumber
  rw [d.dropWhile_isSpace, signedNumber.eq_3 _ hminus hplus, frontNumber_numeral d hrest]

end Watchdog
