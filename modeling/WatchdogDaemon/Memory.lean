import WatchdogDaemon.TextFile

/- The free-memory check: `memory.c`.

   The text of `/proc/meminfo` is searched for two tags, and the number after each goes
   through `atoi` into an `unsigned int`. Their sum is kept modulo 2^32, the limit is an
   `int` product that the comparison takes for an `unsigned int`. All of it happens in
   kilobytes, so 2^32 of them are four terabytes: the comparison is one of the low 32 bits
   of both sides, and nothing looks at the rest.

   What is proved: `memory_exact_iff` — the answer is the one the true quantities give
   exactly when both sides have the same multiple of 2^32, or their low halves compare the
   way the multiples do.

   Correspondence (C ↔ Lean):
     `strstr`                               ↔ `strstr`
     `open_memcheck`                        ↔ `openMemcheck`
     `check_memory`                         ↔ `checkMemory`
   `EXEC_PAGESIZE` is the system's. The product wraps where it does not fit an `int`, as
   it does on the machines the daemon runs on. -/
namespace Watchdog
open Shutdown (isSpace atoi)

def einvmem : Int := 249

/-- The conversion to an `unsigned int`. -/
def toUnsigned (x : Int) : Int := x % 2 ^ 32

theorem toUnsigned_toInt (x : Int) : toUnsigned (toInt x) = x % 2 ^ 32 := Int.bmod_emod

/-! ## The check -/

def freeMem : CString := "MemFree:".toList
def freeSwap : CString := "SwapFree:".toList

/-- The text from the first `tag` on. -/
def strstr (tag : CString) : CString → Option CString
  | [] => if tag = [] then some [] else none
  | c :: s => if tag.isPrefixOf (c :: s) then some (c :: s) else strstr tag s

/-- What is read of the file, up to a NUL. -/
def memBuffer (bytes : CString) : CString := (bytes.take 1023).takeWhile fun c => c.toNat ≠ 0

/-- `memFd` is -1 (`none`), or a file whose calls answer as they do. -/
def openMemcheck (minpages : Int) (file : Except Errno FileCalls) : Option FileCalls :=
  if 0 < minpages then file.toOption else none

def checkMemory (execPagesize : Nat) (minpages : Int) (memFd : Option FileCalls) : Int :=
  match memFd with
  | none => enoerr
  | some calls =>
    match calls.lseek with
    | some err => err
    | none =>
      match calls.read with
      | .error err => err
      | .ok bytes =>
        let buf := memBuffer bytes
        match strstr freeMem buf, strstr freeSwap buf with
        | some ptr1, some ptr2 =>
          let freemem := toUnsigned (atoi (ptr1.drop freeMem.length))
          let freeswap := toUnsigned (atoi (ptr2.drop freeSwap.length))
          let free := toUnsigned (freemem + freeswap)
          if free < toUnsigned (toInt (minpages * (execPagesize / 1024 : Nat))) then enomem
          else enoerr
        | _, _ => einvmem

/-! ## The text -/

/-- The first `tag` of the text is followed by the number `n`. -/
def HasField (tag buf : CString) (n : Nat) : Prop :=
  ∃ (pre blanks : CString) (d : Numeral) (rest : CString),
    buf = pre ++ tag ++ (blanks ++ (d.chars ++ rest)) ∧
    (∀ i < pre.length, ¬ tag <+: buf.drop i) ∧
    (∀ c ∈ blanks, isSpace c = true) ∧ EndsNumber rest ∧ d.value = n

theorem strstr_first {tag pre post : CString}
    (hfirst : ∀ i < pre.length, ¬ tag <+: (pre ++ tag ++ post).drop i) :
    strstr tag (pre ++ tag ++ post) = some (tag ++ post) := by
  induction pre with
  | nil =>
    rw [List.nil_append]
    cases hs : tag ++ post with
    | nil =>
      rw [List.append_eq_nil_iff] at hs
      rw [strstr, if_pos hs.1]
    | cons c s =>
      have hpre : tag.isPrefixOf (c :: s) = true := by
        rw [List.isPrefixOf_iff_prefix, ← hs]
        exact List.prefix_append _ _
      rw [strstr, if_pos hpre]
  | cons c pre ih =>
    have hnot : ¬ tag.isPrefixOf (c :: (pre ++ tag ++ post)) = true := by
      rw [List.isPrefixOf_iff_prefix]
      exact hfirst 0 (by simp)
    have hrest : ∀ i < pre.length, ¬ tag <+: (pre ++ tag ++ post).drop i := fun i hi =>
      hfirst (i + 1) (by simpa using hi)
    rw [List.cons_append, List.cons_append, strstr, if_neg hnot, ih hrest]

/-- The number of a field, as the check keeps it. -/
theorem HasField.read {tag buf : CString} {n : Nat} (h : HasField tag buf n) :
    ∃ ptr, strstr tag buf = some ptr ∧
      toUnsigned (atoi (ptr.drop tag.length)) = min (2 ^ 63 - 1) (n : Int) % 2 ^ 32 := by
  obtain ⟨pre, blanks, d, rest, rfl, hfirst, hblanks, hrest, rfl⟩ := h
  refine ⟨_, strstr_first hfirst, ?_⟩
  rw [List.drop_left, atoi_eq, startNumber_space hblanks, startNumber_numeral d hrest,
    max_eq_right (by omega), toUnsigned_toInt]

/-! ## When the answer is right -/

/-- The free memory and swap in kilobytes, as the check keeps their sum. -/
def keptFree (mem swap : Nat) : Int :=
  (min (2 ^ 63 - 1) (mem : Int) + min (2 ^ 63 - 1) (swap : Int)) % 2 ^ 32

/-- The limit, in kilobytes. -/
def limitKb (execPagesize : Nat) (minpages : Int) : Int := minpages * (execPagesize / 1024 : Nat)

/-- Both quantities have the same multiple of 2^32, or what is kept of them compares as the
multiples do. -/
def SameOrder (free kept limit : Int) : Prop :=
  free / 2 ^ 32 = limit / 2 ^ 32 ∨
  (free / 2 ^ 32 < limit / 2 ^ 32 ∧ kept < limit % 2 ^ 32) ∨
  (limit / 2 ^ 32 < free / 2 ^ 32 ∧ limit % 2 ^ 32 ≤ kept)

theorem checkMemory_fields {execPagesize : Nat} {minpages : Int} {bytes : CString}
    {mem swap : Nat} (hmem : HasField freeMem (memBuffer bytes) mem)
    (hswap : HasField freeSwap (memBuffer bytes) swap) :
    checkMemory execPagesize minpages (some { read := .ok bytes }) =
      if keptFree mem swap < limitKb execPagesize minpages % 2 ^ 32 then enomem else enoerr := by
  obtain ⟨ptr1, hptr1, hread1⟩ := hmem.read
  obtain ⟨ptr2, hptr2, hread2⟩ := hswap.read
  have hsum : toUnsigned (min (2 ^ 63 - 1) (mem : Int) % 2 ^ 32 +
      min (2 ^ 63 - 1) (swap : Int) % 2 ^ 32) = keptFree mem swap := (Int.add_emod _ _ _).symm
  simp only [checkMemory, hptr1, hptr2, hread1, hread2, hsum, toUnsigned_toInt]
  rfl

theorem limitKb_lt {execPagesize : Nat} {minpages : Int} (hpage : execPagesize < 2 ^ 31)
    (hpos : 0 < minpages) (hint : minpages < 2 ^ 31) :
    0 ≤ limitKb execPagesize minpages ∧ limitKb execPagesize minpages < 2 ^ 52 := by
  have hk : ((execPagesize / 1024 : Nat) : Int) ≤ 2 ^ 21 := by omega
  constructor
  · exact Int.mul_nonneg (by omega) (by omega)
  · calc limitKb execPagesize minpages ≤ minpages * 2 ^ 21 :=
        Int.mul_le_mul_of_nonneg_left hk (by omega)
      _ < 2 ^ 52 := by omega

theorem sameOrder_iff {mem swap : Nat} {limit : Int} (hlow : 0 ≤ limit) (hhigh : limit < 2 ^ 52) :
    (keptFree mem swap < limit % 2 ^ 32 ↔ (mem + swap : Int) < limit) ↔
      SameOrder (mem + swap) (keptFree mem swap) limit := by
  have hblock : (mem + swap : Int) / 2 ^ 32 = limit / 2 ^ 32 →
      keptFree mem swap = (mem + swap : Int) % 2 ^ 32 := by
    intro h
    unfold keptFree
    rw [min_eq_right (by omega), min_eq_right (by omega)]
  unfold SameOrder
  generalize keptFree mem swap = kept at hblock ⊢
  omega

/-- **When the free memory is compared as it is.** For every limit and every text with both
fields, the check answers `ENOMEM` when the free memory and swap are less than the limit
and `ENOERR` otherwise, as quantities without a width, exactly when `SameOrder` holds of
them. -/
theorem memory_exact_iff (execPagesize : Nat) (minpages : Int) {bytes : CString}
    {mem swap : Nat} (hpage : execPagesize < 2 ^ 31) (hpos : 0 < minpages)
    (hint : minpages < 2 ^ 31) (hmem : HasField freeMem (memBuffer bytes) mem)
    (hswap : HasField freeSwap (memBuffer bytes) swap) :
    checkMemory execPagesize minpages (some { read := .ok bytes }) =
      (if (mem + swap : Int) < limitKb execPagesize minpages then enomem else enoerr) ↔
    SameOrder (mem + swap) (keptFree mem swap) (limitKb execPagesize minpages) := by
  obtain ⟨hlow, hhigh⟩ := limitKb_lt hpage hpos hint
  have hne : enomem ≠ enoerr := by decide
  have hite (p q : Prop) [Decidable p] [Decidable q] :
      ((if p then enomem else enoerr) = if q then enomem else enoerr) ↔ (p ↔ q) := by
    by_cases hp : p <;> by_cases hq : q <;> simp [hp, hq, hne, hne.symm]
  rw [checkMemory_fields hmem hswap, ← sameOrder_iff hlow hhigh]
  exact hite _ _

/-- Four terabytes are taken for nothing. -/
theorem memory_wraps :
    let bytes := "MemFree: 4294967296 kB\nSwapFree: 0 kB\n".toList
    HasField freeMem (memBuffer bytes) 4294967296 ∧ HasField freeSwap (memBuffer bytes) 0 ∧
    checkMemory 4096 1 (some { read := .ok bytes }) = enomem ∧
    ¬ (4294967296 + 0 : Int) < limitKb 4096 1 := by
  refine ⟨⟨[], [' '], Numeral.ofNat 4294967296, " kB\nSwapFree: 0 kB\n".toList, ?_⟩,
    ⟨"MemFree: 4294967296 kB\n".toList, [' '], Numeral.ofNat 0, " kB\n".toList, ?_⟩, ?_, ?_⟩
  · exact ⟨by decide +kernel, by simp, by simp [isSpace], by decide, by simp⟩
  · exact ⟨by decide +kernel, by decide +kernel, by simp [isSpace], by decide, by simp⟩
  · decide +kernel
  · decide

/-- A gigabyte of memory and a megabyte of swap, with a limit of a thousand pages. -/
theorem memory_exact_gigabyte :
    let bytes := "MemTotal: 2097152 kB\nMemFree: 1048576 kB\nSwapFree: 1024 kB\n".toList
    HasField freeMem (memBuffer bytes) 1048576 ∧ HasField freeSwap (memBuffer bytes) 1024 ∧
    checkMemory 4096 1000 (some { read := .ok bytes }) = enoerr := by
  have hmem : HasField freeMem (memBuffer
      "MemTotal: 2097152 kB\nMemFree: 1048576 kB\nSwapFree: 1024 kB\n".toList) 1048576 :=
    ⟨"MemTotal: 2097152 kB\n".toList, [' '], Numeral.ofNat 1048576,
      " kB\nSwapFree: 1024 kB\n".toList,
      by decide +kernel, by decide +kernel, by simp [isSpace], by decide, by simp⟩
  have hswap : HasField freeSwap (memBuffer
      "MemTotal: 2097152 kB\nMemFree: 1048576 kB\nSwapFree: 1024 kB\n".toList) 1024 :=
    ⟨"MemTotal: 2097152 kB\nMemFree: 1048576 kB\n".toList, [' '], Numeral.ofNat 1024,
      " kB\n".toList,
      by decide +kernel, by decide +kernel, by simp [isSpace], by decide, by simp⟩
  exact ⟨hmem, hswap, (memory_exact_iff 4096 1000
    (by decide) (by decide) (by decide) hmem hswap).2 (.inl (by decide))⟩

end Watchdog
