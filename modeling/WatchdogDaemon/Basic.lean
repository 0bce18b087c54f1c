import Mathlib.Algebra.Order.Ring.Int
import Mathlib.Tactic.Common

/- Error codes, wait statuses and settings: the vocabulary the checks share.

   A check answers an `int`: `enoerr`, a system error number, or one of the
   codes `watch_err.h` reserves from 245 on. A finished child answers a wait
   status, a word that packs an exit code or a signal; the `<sys/wait.h>` macros
   take it apart. The macros are defined on every integer, since `repair` also
   applies one to a word that is not a wait status.

   Correspondence (C ↔ Lean):
     `include/watch_err.h`                  ↔ `enoerr` .. `edontknow` (those used)
     `WEXITSTATUS`, `WTERMSIG`              ↔ `wexitstatus`, `wtermsig`
     `WIFEXITED`, `WIFSIGNALED`             ↔ `wifexited`, `wifsignaled`
     `(int)` of a wider integer             ↔ `toInt`
     `%d` of `printf`                       ↔ `decimal`
     a `char` array up to its NUL           ↔ `CString`
     the globals of `configfile.c`          ↔ `Config` (those used) -/
namespace Watchdog

/-- A C string: its bytes before the NUL, each as the character of that code. -/
abbrev CString := List Char

/-- What a failed system call leaves in `errno`. -/
abbrev Errno := { e : Int // 0 < e }

/-! ## `watch_err.h` -/

def enoerr : Int := 0
def ereboot : Int := 255
def ereset : Int := 254
def emaxload : Int := 253
def etoohot : Int := 252
def echkill : Int := 248
def etoolong : Int := 247
def edontknow : Int := 245

/-! The system error numbers the model names. -/

def enoent : Int := 2
def eintr : Int := 4
def echild : Int := 10
def eagain : Int := 11
def enomem : Int := 12
def ebusy : Int := 16
def einval : Int := 22
def enetunreach : Int := 101

/-! ## Machine integers -/

/-- The conversion to a 32-bit `int`. -/
def toInt (x : Int) : Int := x.bmod (2 ^ 32)

theorem toInt_eq_self {x : Int} (h₁ : -2 ^ 31 ≤ x) (h₂ : x < 2 ^ 31) : toInt x = x := by
  unfold toInt
  rw [Int.bmod_eq_of_le] <;> omega

/-- The first wrap-around. -/
theorem toInt_wrapped {x : Int} (h₁ : 2 ^ 31 ≤ x) (h₂ : x < 2 ^ 31 + 2 ^ 32) :
    toInt x = x - 2 ^ 32 := by
  rw [toInt, ← Int.sub_bmod_right]
  exact Int.bmod_eq_of_le (by omega) (by omega)

theorem toInt_bounds (x : Int) : -2 ^ 31 ≤ toInt x ∧ toInt x < 2 ^ 31 := by
  have hlow := Int.le_bmod (x := x) (m := 2 ^ 32) (by decide)
  have hhigh := Int.bmod_lt (x := x) (m := 2 ^ 32) (by decide)
  unfold toInt
  omega

theorem toInt_le {x : Int} (h : 0 ≤ x) : toInt x ≤ x := by
  have hbounds := toInt_bounds x
  by_cases hx : x < 2 ^ 31
  · rw [toInt_eq_self (by omega) hx]
  · omega

/-! ## Decimal text -/

/-- The conversion `%d`. -/
def decimal (n : Int) : CString :=
  if n < 0 then '-' :: Nat.toDigits 10 n.natAbs else Nat.toDigits 10 n.natAbs

theorem decimal_nonneg {n : Int} (h : 0 ≤ n) : decimal n = Nat.toDigits 10 n.natAbs := by
  rw [decimal, if_neg (by omega)]

theorem newline_not_mem_decimal (n : Int) : '\n' ∉ decimal n := by
  have hdigits : '\n' ∉ Nat.toDigits 10 n.natAbs := by
    intro h
    have hd := Nat.isDigit_of_mem_toDigits (by decide) (by decide) h
    exact absurd hd (by decide)
  unfold decimal
  split
  · rw [List.mem_cons, not_or]
    exact ⟨by decide, hdigits⟩
  · exact hdigits

/-! ## Wait statuses -/

/-- Bits 8 to 15, whatever the word is. -/
def wexitstatus (status : Int) : Int := status / 256 % 256

/-- Bits 0 to 6. -/
def wtermsig (status : Int) : Int := status % 128

def wifexited (status : Int) : Bool := wtermsig status == 0

/-- `((signed char) ((status & 0x7f) + 1) >> 1) > 0`: 0 is an exit and 0x7f a
stop. -/
def wifsignaled (status : Int) : Bool := 0 < wtermsig status && wtermsig status < 127

/-- How a child ends: `exit` with its low byte, or death of signal `sig + 1`. -/
inductive Term where
  | exit (code : UInt8)
  | signal (sig : Fin 64) (core : Bool)
  deriving DecidableEq, Repr

/-- The status word `waitpid` stores for it. -/
def Term.status : Term → Int
  | .exit code => 256 * code.toNat
  | .signal sig core => sig.val + 1 + (if core then 128 else 0)

theorem wifexited_exit (code : UInt8) : wifexited (Term.exit code).status = true := by
  have : (256 * (code.toNat : Int)) % 128 = 0 := by omega
  simp [wifexited, wtermsig, Term.status, this]

theorem wexitstatus_exit (code : UInt8) : wexitstatus (Term.exit code).status = code.toNat := by
  have := code.toNat_lt
  simp only [wexitstatus, Term.status]
  omega

theorem wtermsig_signal (sig : Fin 64) (core : Bool) :
    wtermsig (Term.signal sig core).status = sig.val + 1 := by
  have := sig.isLt
  cases core <;> simp [wtermsig, Term.status] <;> omega

theorem wifexited_signal (sig : Fin 64) (core : Bool) :
    wifexited (Term.signal sig core).status = false := by
  unfold wifexited
  rw [wtermsig_signal]
  simp only [beq_eq_false_iff_ne]
  omega

theorem wifsignaled_signal (sig : Fin 64) (core : Bool) :
    wifsignaled (Term.signal sig core).status = true := by
  have := sig.isLt
  unfold wifsignaled
  rw [wtermsig_signal]
  simp only [Bool.and_eq_true, decide_eq_true_eq]
  omega

/-- A signal leaves the exit-code bits clear: taken for an exit, it reads 0. -/
theorem wexitstatus_signal (sig : Fin 64) (core : Bool) :
    wexitstatus (Term.signal sig core).status = 0 := by
  have := sig.isLt
  cases core <;> simp [wexitstatus, Term.status] <;> omega

/-! ## Settings -/

/-- The settings the modelled code reads, with the defaults of `configfile.c`.
`noAct` is the `--no-action` flag of `watchdog.c`. -/
structure Config where
  repairMax : Int := 1
  testTimeout : Int := 60
  repairTimeout : Int := 60
  retryTimeout : Int := 60
  softboot : Bool := false
  noAct : Bool := false

end Watchdog
