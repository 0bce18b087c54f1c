import WatchdogDaemon.Lib.OnesComplement
import WatchdogDaemon.Ping

/- The checksum of a ping: `in_cksum()` of `net.c`.

   The 16-bit words of a message are added up in an `int`, the part above 16 bits is added
   to the part below it twice, and the complement of what is left goes into the message. A
   receiver adds up the message with the checksum in it and finds all ones.

   The sum is one's-complement arithmetic (`OnesComplement`), which does not depend on the
   order of the bytes in a word, so both byte orders are modelled; an odd last byte is the
   first byte of a word that a 0 fills up, in either order (`htons_odd`).

   What is proved:
     1. `checksum_verifies` — for every buffer of up to 65536 bytes with a word that is 0:
        with the checksum stored there, the checksum is 0; the accumulator never overflows,
        and the two foldings leave the one's-complement sum.
     2. `echoRequest_verifies` — so every request that `check_net` sends verifies.

   Correspondence (C ↔ Lean):
     the loop of `in_cksum`, the odd byte   ↔ `cksumLoop`
     the two folding steps                  ↔ `foldTwice`
     `in_cksum`                             ↔ `inCksumOn`, with the byte order
     `htons`                                ↔ `ByteOrder.htons` -/
namespace Watchdog

inductive ByteOrder where
  | little
  | big

namespace ByteOrder

/-- The word at two bytes of memory. -/
def word : ByteOrder → UInt8 → UInt8 → Nat
  | .little, b₀, b₁ => b₀.toNat + 256 * b₁.toNat
  | .big, b₀, b₁ => 256 * b₀.toNat + b₁.toNat

/-- The two bytes a word is stored in. -/
def bytes : ByteOrder → UInt16 → List UInt8
  | .little, w => [UInt8.ofNat (w.toNat % 256), UInt8.ofNat (w.toNat / 256)]
  | .big, w => [UInt8.ofNat (w.toNat / 256), UInt8.ofNat (w.toNat % 256)]

/-- A 16-bit value in network order, as a number of the machine. -/
def htons : ByteOrder → Nat → Nat
  | .little, x => 256 * (x % 256) + x / 256 % 256
  | .big, x => x % 65536

/-- The words of a buffer, the last one filled up with a 0. -/
def words (o : ByteOrder) : List UInt8 → List Nat
  | [] => []
  | [b] => [o.word b 0]
  | b₀ :: b₁ :: rest => o.word b₀ b₁ :: o.words rest

end ByteOrder

/-! ## The routine -/

/-- The loop, with the 32-bit accumulator `sum`. -/
def cksumLoop (o : ByteOrder) : List UInt8 → Int → Int
  | [], sum => sum
  | [b], sum => toInt (sum + o.htons (256 * b.toNat))
  | b₀ :: b₁ :: rest, sum => cksumLoop o rest (toInt (sum + o.word b₀ b₁))

/-- Add high 16 to low 16, add carry. -/
def foldTwice (sum : Int) : Int :=
  let sum := toInt (sum / 65536 + sum % 65536)
  toInt (sum + sum / 65536)

def inCksumOn (o : ByteOrder) (bytes : List UInt8) : UInt16 :=
  -- The complement of an `int`, truncated to 16 bits.
  UInt16.ofNat ((-foldTwice (cksumLoop o bytes 0) - 1) % 65536).toNat

/-! ## The words of a buffer -/

section Words
variable (o : ByteOrder)

theorem word_lt (b₀ b₁ : UInt8) : o.word b₀ b₁ < 65536 := by
  have h₀ := b₀.toNat_lt
  have h₁ := b₁.toNat_lt
  cases o <;> simp only [ByteOrder.word] <;> omega

/-- The odd byte is the first one of a word, whatever the byte order. -/
theorem htons_odd (b : UInt8) : o.htons (256 * b.toNat) = o.word b 0 := by
  have hb := b.toNat_lt
  cases o <;> simp only [ByteOrder.htons, ByteOrder.word, UInt8.toNat_zero] <;> omega

theorem words_lt : ∀ (bytes : List UInt8), ∀ w ∈ o.words bytes, w < 65536
  | [] => by simp [ByteOrder.words]
  | [b] => by simp [ByteOrder.words, word_lt]
  | b₀ :: b₁ :: rest => by
    intro w hw
    rw [ByteOrder.words, List.mem_cons] at hw
    obtain rfl | hw := hw
    · exact word_lt o b₀ b₁
    · exact words_lt rest w hw

theorem length_words : ∀ (bytes : List UInt8), (o.words bytes).length = (bytes.length + 1) / 2
  | [] => rfl
  | [_] => by simp [ByteOrder.words]
  | b₀ :: b₁ :: rest => by
    simp only [ByteOrder.words, List.length_cons, length_words rest]
    omega

theorem words_append : ∀ {pre : List UInt8}, pre.length % 2 = 0 → ∀ rest : List UInt8,
    o.words (pre ++ rest) = o.words pre ++ o.words rest
  | [], _, _ => rfl
  | [_], h, _ => by simp at h
  | b₀ :: b₁ :: pre, h, rest => by
    have hpre : pre.length % 2 = 0 := by
      simp only [List.length_cons] at h
      omega
    simp only [List.cons_append, ByteOrder.words, words_append hpre rest]

theorem words_bytes (w : UInt16) (rest : List UInt8) :
    o.words (o.bytes w ++ rest) = w.toNat :: o.words rest := by
  have hw := w.toNat_lt
  cases o <;> simp only [ByteOrder.bytes, List.cons_append, List.nil_append, ByteOrder.words,
    ByteOrder.word, UInt8.toNat_ofNat', List.cons.injEq, and_true] <;> omega

theorem sum_words_le (words : List Nat) (hwords : ∀ w ∈ words, w < 65536) :
    words.sum ≤ 65535 * words.length := by
  induction words with
  | nil => simp
  | cons w words ih =>
    have hw := hwords w List.mem_cons_self
    have hrest := ih fun v hv => hwords v (List.mem_cons_of_mem _ hv)
    simp only [List.sum_cons, List.length_cons]
    omega

/-- The first words of a buffer of 65536 bytes add up to an `int`. -/
theorem sum_take_words_lt {bytes : List UInt8} (hlen : bytes.length ≤ 65536) (k : Nat) :
    ((o.words bytes).take k).sum < 2 ^ 31 := by
  have hle := sum_words_le ((o.words bytes).take k) fun w hw => words_lt o bytes w (List.mem_of_mem_take hw)
  have hcount := length_words o bytes
  rw [List.length_take] at hle
  omega

theorem sum_words_lt {bytes : List UInt8} (hlen : bytes.length ≤ 65536) :
    (o.words bytes).sum < 2 ^ 31 := by
  have h := sum_take_words_lt o hlen (o.words bytes).length
  rwa [List.take_length] at h

/-- Without an overflow the loop adds up the words. -/
theorem cksumLoop_eq : ∀ (bytes : List UInt8) (sum : Nat), sum + (o.words bytes).sum < 2 ^ 31 →
    cksumLoop o bytes sum = (sum + (o.words bytes).sum : Nat)
  | [], sum, _ => by simp [cksumLoop, ByteOrder.words]
  | [b], sum, h => by
    simp only [ByteOrder.words, List.sum_cons, List.sum_nil, Nat.add_zero] at h ⊢
    rw [cksumLoop, htons_odd, toInt_eq_self (by omega) (by omega)]
    rfl
  | b₀ :: b₁ :: rest, sum, h => by
    simp only [ByteOrder.words, List.sum_cons, ← Nat.add_assoc] at h ⊢
    have hstep : toInt (sum + o.word b₀ b₁) = (sum + o.word b₀ b₁ : Nat) := by
      rw [toInt_eq_self (by omega) (by omega)]
      rfl
    rw [cksumLoop, hstep, cksumLoop_eq rest _ h]

end Words

/-! ## The sum that is left -/

/-- The two steps leave the one's-complement word of the sum. -/
theorem foldTwice_rep {s : Nat} (hs : s < 2 ^ 31) :
    foldTwice s % 65536 = (OnesComplement.rep 65536 s : Nat) := by
  have hfold := OnesComplement.fold_fold (show 2 ≤ 65536 by decide) (show s < 65536 * 65536 by omega)
  have hfirst : toInt ((s : Int) / 65536 + s % 65536) = (OnesComplement.fold 65536 s : Nat) := by
    rw [toInt_eq_self (by omega) (by omega), OnesComplement.fold]
    omega
  have hle : OnesComplement.fold 65536 s < 2 ^ 17 := by
    unfold OnesComplement.fold
    omega
  rw [← hfold]
  unfold foldTwice
  rw [hfirst, toInt_eq_self (by omega) (by omega)]
  omega

section Answer
variable (o : ByteOrder) {bytes : List UInt8} (hlen : bytes.length ≤ 65536)
include hlen

theorem foldTwice_words :
    foldTwice (cksumLoop o bytes 0) % 65536 = (OnesComplement.sum 65536 (o.words bytes) : Nat) := by
  have hsum := sum_words_lt o hlen
  have hloop := cksumLoop_eq o bytes 0 (by omega)
  rw [Nat.cast_zero, Nat.zero_add] at hloop
  rw [hloop, foldTwice_rep hsum, OnesComplement.sum_eq_rep (by decide) (words_lt o bytes)]

/-- The answer is the complement of the one's-complement sum. -/
theorem toNat_inCksumOn :
    (inCksumOn o bytes).toNat = 65535 - OnesComplement.rep 65536 (o.words bytes).sum := by
  have hfold := foldTwice_words o hlen
  have hrep := OnesComplement.rep_lt (show 2 ≤ 65536 by decide) (o.words bytes).sum
  rw [OnesComplement.sum_eq_rep (by decide) (words_lt o bytes)] at hfold
  rw [inCksumOn, UInt16.toNat_ofNat']
  omega

end Answer

/-! ## The checksum in place -/

/-- Storing a word where the buffer has a 0 adds it to the sum. -/
theorem sum_words_store (o : ByteOrder) {pre : List UInt8} (heven : pre.length % 2 = 0)
    (w : UInt16) (post : List UInt8) :
    (o.words (pre ++ (o.bytes w ++ post))).sum =
      (o.words (pre ++ ([0, 0] ++ post))).sum + w.toNat := by
  have hzero : o.words ([0, 0] ++ post) = 0 :: o.words post := by
    cases o <;> simp [ByteOrder.words, ByteOrder.word]
  rw [words_append o heven, words_append o heven, words_bytes, hzero]
  simp only [List.sum_append, List.sum_cons]
  omega

theorem length_bytes (o : ByteOrder) (w : UInt16) : (o.bytes w).length = 2 := by
  cases o <;> rfl

/-- The checksum of a buffer with its checksum in it. -/
theorem inCksumOn_store (o : ByteOrder) (pre post : List UInt8) (heven : pre.length % 2 = 0)
    (hlen : pre.length + 2 + post.length ≤ 65536) :
    inCksumOn o (pre ++ (o.bytes (inCksumOn o (pre ++ ([0, 0] ++ post))) ++ post)) = 0 := by
  have hbefore : (pre ++ ([0, 0] ++ post)).length ≤ 65536 := by
    simp only [List.length_append, List.length_cons, List.length_nil]
    omega
  have hafter : ∀ w, (pre ++ (o.bytes w ++ post)).length ≤ 65536 := by
    intro w
    simp only [List.length_append, length_bytes]
    omega
  rw [← UInt16.toNat_inj, toNat_inCksumOn o (hafter _), sum_words_store o heven,
    toNat_inCksumOn o hbefore, OnesComplement.rep_add_complement (show 2 ≤ 65536 by decide)]
  rfl

/-- On a little-endian machine, the checksum of the model of `check_net`. -/
theorem inCksum_eq {bytes : List UInt8} (hlen : bytes.length ≤ 65536) :
    inCksum bytes = inCksumOn .little bytes := by
  have hsum : ∀ bytes : List UInt8, wordSum bytes = (ByteOrder.little.words bytes).sum := by
    intro bytes
    induction bytes using wordSum.induct with
    | case1 => rfl
    | case2 b => simp [wordSum, ByteOrder.words, ByteOrder.word]
    | case3 lo hi rest ih => simp [wordSum, ByteOrder.words, ByteOrder.word, ih]
  have hlt := sum_words_lt .little hlen
  have hfold := OnesComplement.fold_fold (show 2 ≤ 65536 by decide)
    (show (ByteOrder.little.words bytes).sum < 65536 * 65536 by omega)
  have hrep := OnesComplement.rep_lt (show 2 ≤ 65536 by decide) (ByteOrder.little.words bytes).sum
  rw [← UInt16.toNat_inj, toNat_inCksumOn .little hlen, ← hfold]
  unfold inCksum OnesComplement.fold
  simp only [hsum, UInt16.toNat_not, UInt16.toNat_ofNat']
  rfl

/-- **Every request verifies.** -/
theorem echoRequest_verifies (daemonPid : Int) (i : Nat) : inCksum (echoRequest daemonPid i) = 0 := by
  have hlen : ∀ sum, (echoMessage icmpEcho sum daemonPid i).length = 64 := by
    intro sum
    simp [echoMessage, htons]
  have hsplit : ∀ sum, echoMessage icmpEcho sum daemonPid i =
      [icmpEcho, 0] ++ (ByteOrder.little.bytes sum ++
        (htons daemonPid ++ htons (i + 1) ++ List.replicate 56 0)) := by
    intro sum
    simp [echoMessage, ByteOrder.bytes]
  have hstore := inCksumOn_store .little [icmpEcho, 0]
    (htons daemonPid ++ htons (i + 1) ++ List.replicate 56 0) (by decide) (by simp [htons])
  rw [echoRequest, inCksum_eq (by rw [hlen]; decide), inCksum_eq (by rw [hlen]; decide), hsplit, hsplit]
  exact hstore

end Watchdog
