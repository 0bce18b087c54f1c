import Mathlib.Algebra.BigOperators.Group.List.Basic
import Mathlib.Algebra.Order.Ring.Int
import Mathlib.Tactic.Common

/- One's-complement arithmetic on words below a base.

   A word is a number below `base`; the carry out of an addition is added back at the low
   end (`add`), so numbers count modulo `base - 1`, and 0 has two words: 0 itself and
   `base - 1`. A sum of words is the second one unless every word is 0. `rep s` is the word
   that a sum `s` of words comes to: `sum_eq_rep` says so for any number of words, and every
   other fact goes through `rep`. `fold` adds the part above the base to the part below it,
   as the usual routines do to a wide accumulator after the last word: it keeps `rep`
   (`rep_fold`), and doing it twice leaves the word of every accumulator that is no larger
   than the square of the base (`fold_fold`). -/
namespace OnesComplement

variable (base : Nat)

/-- Addition with the carry added back. -/
def add (a b : Nat) : Nat := if a + b < base then a + b else a + b - base + 1

def sum (words : List Nat) : Nat := words.foldl (add base) 0

/-- The word of a number: its remainder by `base - 1`, with 0 for 0 only. -/
def rep (s : Nat) : Nat := if s = 0 then 0 else (s - 1) % (base - 1) + 1

/-- The part above the base added to the part below it. -/
def fold (s : Nat) : Nat := s / base + s % base

variable {base}

theorem rep_of_lt {s : Nat} (h : s < base) : rep base s = s := by
  unfold rep
  split
  · omega
  · rw [Nat.mod_eq_of_lt (by omega)]
    omega

theorem rep_lt (hbase : 2 ≤ base) (s : Nat) : rep base s < base := by
  have := Nat.mod_lt (s - 1) (show 0 < base - 1 by omega)
  unfold rep
  split <;> omega

/-- Multiples of `base - 1` do not count, but for the difference between none and some. -/
theorem rep_add_mul {s : Nat} (hs : 0 < s) (k : Nat) : rep base (s + (base - 1) * k) = rep base s := by
  have hsub : s + (base - 1) * k - 1 = s - 1 + (base - 1) * k := by omega
  unfold rep
  rw [if_neg (by omega), if_neg (by omega), hsub, Nat.add_mul_mod_self_left]

/-- A number is its word and a multiple of `base - 1`. -/
theorem eq_rep_add (base s : Nat) : ∃ k, s = rep base s + (base - 1) * k := by
  by_cases hs : s = 0
  · exact ⟨0, by simp [rep, hs]⟩
  · refine ⟨(s - 1) / (base - 1), ?_⟩
    have hdiv := Nat.div_add_mod (s - 1) (base - 1)
    simp only [rep, hs, if_false]
    omega

theorem rep_pos (base s : Nat) : 0 < rep base s ↔ 0 < s := by
  unfold rep
  split <;> omega

theorem rep_rep_add (s t : Nat) : rep base (rep base s + t) = rep base (s + t) := by
  obtain ⟨k, hk⟩ := eq_rep_add base s
  by_cases hpos : 0 < rep base s + t
  · have hsum : s + t = rep base s + t + (base - 1) * k := by omega
    rw [hsum, rep_add_mul hpos]
  · have hs : ¬ 0 < s := by
      rw [← rep_pos base]
      omega
    have hzero : s + t = rep base s + t := by omega
    rw [hzero]

/-! ## Sums -/

theorem add_eq_rep {a b : Nat} (ha : a < base) (hb : b < base) : add base a b = rep base (a + b) := by
  unfold add
  split
  · rw [rep_of_lt ‹_›]
  · have hsplit : a + b = a + b - base + 1 + (base - 1) * 1 := by omega
    conv_rhs => rw [hsplit, rep_add_mul (by omega), rep_of_lt (by omega)]

/-- The carries may be left for later. -/
theorem sum_eq_rep (hbase : 2 ≤ base) {words : List Nat} (hwords : ∀ w ∈ words, w < base) :
    sum base words = rep base words.sum := by
  have hfrom : ∀ s, words.foldl (add base) (rep base s) = rep base (s + words.sum) := by
    induction words with
    | nil => simp
    | cons w words ih =>
      intro s
      have hw := hwords w List.mem_cons_self
      have hrest := ih (fun v hv => hwords v (List.mem_cons_of_mem _ hv)) (s + w)
      rw [List.foldl_cons, add_eq_rep (rep_lt hbase s) hw, rep_rep_add, hrest, List.sum_cons,
        Nat.add_assoc]
  have hzero := hfrom 0
  rwa [Nat.zero_add] at hzero

/-! ## Folding -/

theorem fold_add (hbase : 2 ≤ base) (s : Nat) : s = fold base s + (base - 1) * (s / base) := by
  have hdiv := Nat.div_add_mod s base
  have hmul : (base - 1) * (s / base) + s / base = base * (s / base) := by
    rw [← Nat.succ_mul, Nat.succ_eq_add_one, Nat.sub_add_cancel (by omega)]
  unfold fold
  omega

theorem rep_fold (hbase : 2 ≤ base) (s : Nat) : rep base (fold base s) = rep base s := by
  have hs := fold_add hbase s
  by_cases hpos : 0 < fold base s
  · conv_rhs => rw [hs, rep_add_mul hpos]
  · have hfold : s / base + s % base = 0 := Nat.eq_zero_of_not_pos hpos
    obtain ⟨hquot, hrem⟩ := Nat.add_eq_zero_iff.1 hfold
    have hzero : s = 0 := by rw [← Nat.div_add_mod s base, hquot, hrem, Nat.mul_zero]
    rw [hzero]
    simp [fold]

/-- Two steps are enough: the second carry goes into the low word, and its own is cut off. -/
theorem fold_fold (hbase : 2 ≤ base) {s : Nat} (hs : s < base * base) :
    (fold base s + fold base s / base) % base = rep base s := by
  have hquot : s / base < base := Nat.div_lt_of_lt_mul hs
  have hrem := Nat.mod_lt s (show 0 < base by omega)
  have hle : fold base s ≤ base - 1 + (base - 1) := by
    unfold fold
    omega
  rw [← rep_fold hbase]
  by_cases hlt : fold base s < base
  · rw [Nat.div_eq_of_lt hlt, Nat.add_zero, Nat.mod_eq_of_lt hlt, rep_of_lt hlt]
  · have hone : fold base s / base = 1 := by
      rw [Nat.div_eq_iff (by omega)]
      omega
    have hsplit : fold base s = fold base s + 1 - base + (base - 1) * 1 := by omega
    have hmod : (fold base s + 1) % base = fold base s + 1 - base := by
      rw [Nat.mod_eq_sub_mod (by omega), Nat.mod_eq_of_lt (by omega)]
    rw [hone, hmod]
    conv_rhs => rw [hsplit, rep_add_mul (by omega), rep_of_lt (by omega)]

/-! ## Complements -/

/-- A number and the complement of its word come to the word of all ones. -/
theorem rep_add_complement (hbase : 2 ≤ base) (s : Nat) :
    rep base (s + (base - 1 - rep base s)) = base - 1 := by
  have hlt := rep_lt hbase s
  rw [← rep_rep_add, Nat.add_sub_cancel' (by omega), rep_of_lt (by omega)]

end OnesComplement
