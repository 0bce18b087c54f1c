import Mathlib.Algebra.BigOperators.Group.Finset.Basic
import Mathlib.Algebra.Order.BigOperators.Group.Finset
import Mathlib.Tactic.IntervalCases
import Mathlib.Tactic.Ring
import WatchdogDaemon.Ping

/- How long `check_net()` waits: the interval, shared out among its pings.

   A ping waits for `tmax`: the quotient of interval and number of pings in seconds, and
   the remainder once more divided in microseconds. The device is refreshed once in an
   interval, so the pings of a call may not take longer than that together.

   What is proved: `pings_share_interval` — `tmax` is a normalised time, its computation
   stays within a `long`, `count` times `tmax` falls short of the interval by less than
   `count` microseconds, and as long as each ping of a call is still waiting, the waits
   add up to no more than the interval. That a ping is waiting is what the loop tests
   (`awaitReply_leaves`). -/
namespace Watchdog

/-! ## Times in microseconds -/

def Timeval.micros (t : Timeval) : Int := t.sec * 1000000 + t.usec

/-- As `gettimeofday` returns them. -/
structure Timeval.Normal (t : Timeval) : Prop where
  nonneg : 0 ≤ t.usec
  lt : t.usec < 1000000

@[simp] theorem micros_timeradd (a b : Timeval) : (timeradd a b).micros = a.micros + b.micros := by
  unfold timeradd Timeval.micros
  split <;> simp only [] <;> omega

@[simp] theorem micros_timersub (a b : Timeval) : (timersub a b).micros = a.micros - b.micros := by
  unfold timersub Timeval.micros
  split <;> simp only [] <;> omega

theorem Timeval.Normal.timeradd {a b : Timeval} (ha : a.Normal) (hb : b.Normal) :
    (timeradd a b).Normal := by
  have ha' := ha.lt
  have hb' := hb.lt
  have ha0 := ha.nonneg
  have hb0 := hb.nonneg
  unfold Watchdog.timeradd
  split
  · refine ⟨?_, ?_⟩ <;> simp only [] <;> omega
  · refine ⟨?_, ?_⟩ <;> simp only [] <;> omega

theorem Timeval.Normal.timersub {a b : Timeval} (ha : a.Normal) (hb : b.Normal) :
    (timersub a b).Normal := by
  have ha' := ha.lt
  have hb' := hb.lt
  have ha0 := ha.nonneg
  have hb0 := hb.nonneg
  unfold Watchdog.timersub
  split
  · refine ⟨?_, ?_⟩ <;> simp only [] <;> omega
  · refine ⟨?_, ?_⟩ <;> simp only [] <;> omega

/-- The sign of a normalised time is that of its seconds. -/
theorem Timeval.Normal.sec_nonneg_iff {t : Timeval} (h : t.Normal) : 0 ≤ t.sec ↔ 0 ≤ t.micros := by
  have hlt := h.lt
  have hnonneg := h.nonneg
  unfold Timeval.micros
  omega

/-! ## The share of a ping -/

/-- The values a `long` can hold. -/
def InLong (x : Int) : Prop := -2 ^ 63 ≤ x ∧ x < 2 ^ 63

section Share
variable {time count : Int}

theorem tmax_eq (htime : 0 < time) (hcount : 1 ≤ count) :
    tmax time count = ⟨time / count, time % count * 1000000 / count⟩ := by
  have hrem : 0 ≤ time % count * 1000000 := by
    have := Int.emod_nonneg time (show count ≠ 0 by omega)
    omega
  unfold tmax
  rw [Int.tdiv_eq_ediv_of_nonneg (by omega), Int.tmod_eq_emod_of_nonneg (by omega),
    Int.tdiv_eq_ediv_of_nonneg hrem]

/-- Quotient and scaled remainder together are the interval in microseconds, divided. -/
theorem micros_tmax (htime : 0 < time) (hcount : 1 ≤ count) :
    (tmax time count).micros = time * 1000000 / count := by
  have hsplit : time * 1000000 = time % count * 1000000 + time / count * 1000000 * count := by
    calc time * 1000000
        = (count * (time / count) + time % count) * 1000000 := by rw [Int.mul_ediv_add_emod]
      _ = time % count * 1000000 + time / count * 1000000 * count := by ring
  rw [tmax_eq htime hcount, hsplit, Int.add_mul_ediv_right _ _ (by omega)]
  simp only [Timeval.micros]
  omega

theorem tmax_normal (htime : 0 < time) (hcount : 1 ≤ count) : (tmax time count).Normal := by
  have hrem := Int.emod_nonneg time (show count ≠ 0 by omega)
  have hlt := Int.emod_lt_of_pos time (show 0 < count by omega)
  rw [tmax_eq htime hcount]
  refine ⟨?_, ?_⟩
  · exact Int.ediv_nonneg (by omega) (by omega)
  · show time % count * 1000000 / count < 1000000
    rw [Int.ediv_lt_iff_lt_mul (by omega)]
    omega

end Share

/-! ## A call -/

/-- At the time `now` the wait for ping `i` is not over. -/
def Waiting (c : NetCall) (i : Nat) (now : Timeval) : Prop :=
  0 ≤ (timersub (timeradd (c.env i).tstart (tmax c.time c.count)) now).sec

instance (c : NetCall) (i : Nat) (now : Timeval) : Decidable (Waiting c i now) :=
  inferInstanceAs (Decidable (0 ≤ _))

/-- It is the test of the loop: the wait is over at the first reading at which the ping is not waiting any more, and what
would be read from there on makes no difference. -/
theorem awaitReply_leaves (accept : Heard → Bool) {c : NetCall} {i : Nat} {now : Timeval} (h : ¬ Waiting c i now)
    (before : List (Timeval × Recv)) (recv : Recv) (after : List (Timeval × Recv)) (mask : Bool) (buf : PacketBuf) :
    awaitReply accept (timeradd (c.env i).tstart (tmax c.time c.count)) i mask buf (before ++ (now, recv) :: after) =
      awaitReply accept (timeradd (c.env i).tstart (tmax c.time c.count)) i mask buf before := by
  induction before generalizing mask buf with
  | nil =>
    rw [List.nil_append]
    simp only [awaitReply, if_pos (Int.not_le.mp h)]
  | cons turn before ih =>
    obtain ⟨t, r⟩ := turn
    simp only [List.cons_append, awaitReply, ih]

/-- An unanswered ping is left there: the call goes on to the next one. -/
theorem unanswered_leaves {accept : Heard → Bool} {c : NetCall} {i : Nat} {now : Timeval} (h : ¬ Waiting c i now)
    {before : List (Timeval × Recv)} (hworks : ∀ turn ∈ before, turn.2.fatal? = none) (buf : PacketBuf)
    (hunanswered : ∀ heard ∈ inBuffer buf ((waitPackets (timeradd (c.env i).tstart (tmax c.time c.count)) before).map
      (Arrival.mk i)), accept heard = false) (recv : Recv) (after : List (Timeval × Recv)) :
    (awaitReply accept (timeradd (c.env i).tstart (tmax c.time c.count)) i true buf (before ++ (now, recv) :: after)).code =
      none := by
  rw [awaitReply_leaves accept h]
  rcases awaitReply_stops (timeradd (c.env i).tstart (tmax c.time c.count)) i before buf with
    hwait | ⟨-, pre, g, post, hs⟩
  · rw [hwait.code_eq, waitFailure_none hworks]
    rfl
  · have haccepted := hs.accepted
    rw [hunanswered g (by rw [hs.heard_eq]; exact List.mem_append_right _ List.mem_cons_self)] at haccepted
    cases haccepted

theorem Waiting.elapsed_le {c : NetCall} (htime : 0 < c.time) (hcount : 1 ≤ c.count) {i : Nat}
    {now : Timeval} (hstart : (c.env i).tstart.Normal) (hnow : now.Normal) (h : Waiting c i now) :
    now.micros - (c.env i).tstart.micros ≤ (tmax c.time c.count).micros := by
  have hdeadline := hstart.timeradd (tmax_normal htime hcount)
  have hleft := (hdeadline.timersub hnow).sec_nonneg_iff.1 h
  simp only [micros_timersub, micros_timeradd] at hleft
  omega

/-- All values that occur in the computation of `tmax`. -/
def tmaxValues (time count : Int) : List Int :=
  [time.tdiv count, time.tmod count, time.tmod count * 1000000,
    (time.tmod count * 1000000).tdiv count]

/-- The remainder is at most the interval, which is an `int`. -/
theorem tmaxValues_inLong {time count : Int} (htime : 0 < time) (hint : time < 2 ^ 31)
    (hcount : 1 ≤ count) : ∀ x ∈ tmaxValues time count, InLong x := by
  have hquot := Int.ediv_nonneg (show 0 ≤ time by omega) (show 0 ≤ count by omega)
  have hquot' := Int.ediv_le_self count (show 0 ≤ time by omega)
  have hrem := Int.emod_nonneg time (show count ≠ 0 by omega)
  have hrem' : time % count ≤ time := by
    have hdiv := Int.mul_ediv_add_emod time count
    have hmul : 0 ≤ count * (time / count) := Int.mul_nonneg (by omega) hquot
    omega
  have husec := (tmax_normal htime hcount).nonneg
  have husec' := (tmax_normal htime hcount).lt
  have htmax := tmax_eq htime hcount
  rw [htmax] at husec husec'
  rw [tmax, Timeval.mk.injEq] at htmax
  unfold tmaxValues InLong
  rw [htmax.1, htmax.2, Int.tmod_eq_emod_of_nonneg (by omega)]
  simp only [List.mem_cons, List.not_mem_nil, or_false, forall_eq_or_imp, forall_eq] at husec husec' ⊢
  omega

/-- **The pings share out the interval.** For every call with a positive interval and at
least one ping: `tmax` is normalised and computed without overflow, `count` times `tmax` is
at most the interval and falls short of it by less than `count` microseconds, and as long
as every ping is waiting, at whatever times, the waits together are at most the interval. -/
theorem pings_share_interval (c : NetCall) (htime : 0 < c.time) (hint : c.time < 2 ^ 31)
    (hcount : 1 ≤ c.count) :
    let wait := tmax c.time c.count
    (0 ≤ wait.usec ∧ wait.usec < 1000000) ∧
    (∀ x ∈ tmaxValues c.time c.count, InLong x) ∧
    c.count * (wait.sec * 1000000 + wait.usec) ≤ c.time * 1000000 ∧
    c.time * 1000000 - c.count * (wait.sec * 1000000 + wait.usec) < c.count ∧
    ∀ now : Nat → Timeval,
      (∀ i < c.count.toNat, (c.env i).tstart.Normal ∧ (now i).Normal ∧ Waiting c i (now i)) →
      ∑ i ∈ Finset.range c.count.toNat, ((now i).micros - (c.env i).tstart.micros) ≤
        c.time * 1000000 := by
  intro wait
  have hmicros : wait.sec * 1000000 + wait.usec = c.time * 1000000 / c.count := micros_tmax htime hcount
  have hdiv := Int.mul_ediv_add_emod (c.time * 1000000) c.count
  have hrem := Int.emod_nonneg (c.time * 1000000) (show c.count ≠ 0 by omega)
  have hlt := Int.emod_lt_of_pos (c.time * 1000000) (show 0 < c.count by omega)
  have hnormal : wait.Normal := tmax_normal htime hcount
  refine ⟨⟨hnormal.nonneg, hnormal.lt⟩, tmaxValues_inLong htime hint hcount, ?_, ?_, ?_⟩
  · rw [hmicros]
    omega
  · rw [hmicros]
    omega
  · intro now hnow
    calc ∑ i ∈ Finset.range c.count.toNat, ((now i).micros - (c.env i).tstart.micros)
        ≤ ∑ _i ∈ Finset.range c.count.toNat, wait.micros := by
          apply Finset.sum_le_sum
          intro i hi
          obtain ⟨hstart, hnormal', hwaiting⟩ := hnow i (Finset.mem_range.1 hi)
          exact hwaiting.elapsed_le htime hcount hstart hnormal'
      _ = c.count * (c.time * 1000000 / c.count) := by
          have hcast : (c.count.toNat : Int) = c.count := Int.toNat_of_nonneg (by omega)
          rw [Finset.sum_const, Finset.card_range, nsmul_eq_mul, hcast, ← hmicros]
          rfl
      _ ≤ c.time * 1000000 := by omega

/-- Three pings in ten seconds, none of them answered. -/
theorem pings_share_ten :
    let c : NetCall := ⟨10, 3, fun i => ⟨none, ⟨4 * i, 0⟩, []⟩⟩
    tmax c.time c.count = ⟨3, 333333⟩ ∧
    ∑ i ∈ Finset.range 3, ((⟨4 * i + 3, 333333⟩ : Timeval).micros - (c.env i).tstart.micros) ≤ 10000000 := by
  intro c
  refine ⟨by decide, ?_⟩
  obtain ⟨-, -, -, -, hwaits⟩ := pings_share_interval c (by decide) (by decide) (by decide)
  refine hwaits (fun i => ⟨4 * i + 3, 333333⟩) fun i hi => ?_
  have hi3 : i < 3 := hi
  refine ⟨⟨Int.le_refl 0, by simp [c]⟩, ⟨by simp, by simp⟩, ?_⟩
  interval_cases i <;> decide

end Watchdog
