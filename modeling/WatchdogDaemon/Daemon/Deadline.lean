import Mathlib.Data.List.Chain
import Mathlib.Tactic.Ring
import WatchdogDaemon.Daemon.Entries

/- How long a fault can last.

   A fault of a list entry is waited for, then repaired up to `repair_max` times, with the
   wait started anew after each repair, and then the system goes down. The timer is only
   looked at when the entry is checked, so that every wait may take one check longer, and a
   new one starts with the check after the repair.

   What is proved: `fault_ends` — in every run of the main loop, with every configuration that
   has a positive retry time-out and limit of repairs, and without `--no-action`: if the checks
   of an entry are at most `gap` seconds apart and fail from some check on, the entry is never
   looked at again later than (repair_max + 1) retry periods and (2 repair_max + 1) gaps after
   it; the system went down before. It does not matter which check it is, what the repair
   program does and answers, or whether there is one. The clock readings of the run are
   positive, are not set back and span less than 2^31 seconds. -/
namespace Watchdog

/-! ## One entry -/

section Entry
variable {cfg : Config} {rbinary : Option CString} {act : Entry} {c : ActionCall}

/-- The repairs that are counted, as long as nothing was asked for. -/
def CountFits (cfg : Config) (act : Entry) : Prop := 0 ≤ act.repairCount ∧ act.repairCount ≤ cfg.repairMax

/-- The time between two repairs, at most. -/
def lap (cfg : Config) (gap : Int) : Int := cfg.retryTimeout + 2 * gap

/-- An entry that has failed since `since` and was last looked at at `last`: after each repair at most one lap more, and
the timer has not run out. -/
structure Waits (cfg : Config) (gap since : Int) (act : Entry) (last : Int) : Prop where
  fits : CountFits cfg act
  off : act.lastTime = 0 → last + gap ≤ since + act.repairCount * lap cfg gap
  on : act.lastTime ≠ 0 → act.lastTime ≤ since + act.repairCount * lap cfg gap ∧ last ≤ act.lastTime + cfg.retryTimeout

/-- No call comes later than this after the first that failed. -/
def deadline (cfg : Config) (gap : Int) : Int := (cfg.repairMax + 1) * cfg.retryTimeout + (2 * cfg.repairMax + 1) * gap

theorem deadline_eq (cfg : Config) (gap : Int) :
    deadline cfg gap = cfg.repairMax * lap cfg gap + cfg.retryTimeout + gap := by
  unfold deadline lap
  ring

/-- The next look is in time. -/
theorem Waits.next {gap since last now : Int} (h : Waits cfg gap since act last) (hret : 0 < cfg.retryTimeout)
    (hgap : 0 ≤ gap) (hnext : now ≤ last + gap) : now ≤ since + deadline cfg gap := by
  have hlap : 0 ≤ lap cfg gap := by
    unfold lap
    omega
  have hle : act.repairCount * lap cfg gap ≤ cfg.repairMax * lap cfg gap := Int.mul_le_mul_of_nonneg_right h.fits.2 hlap
  rw [deadline_eq]
  by_cases hoff : act.lastTime = 0
  · have := h.off hoff
    omega
  · have := h.on hoff
    omega

/-- The timer of the entry and the clock of the call. -/
structure Timed (act : Entry) (c : ActionCall) : Prop where
  pos : 0 < c.now
  elapsed : act.lastTime ≠ 0 → act.lastTime ≤ c.now ∧ toInt (c.now - act.lastTime) = c.now - act.lastTime

variable (hint : cfg.repairMax < 2 ^ 31 - 1) (hret : 0 < cfg.retryTimeout) (hmax : 0 < cfg.repairMax)
include hint hret hmax

/-- What a repairable error does: it starts the timer, waits, is repaired, or asks for a shutdown. -/
theorem actOn_cases (hfits : CountFits cfg act) (rbinary : Option CString) (h : repairable c.result = true) :
    (act.lastTime = 0 ∧ (actOn cfg rbinary act c).act = some { act with lastTime := c.now }) ∨
    (act.lastTime ≠ 0 ∧ toInt (c.now - act.lastTime) ≤ cfg.retryTimeout ∧
      (actOn cfg rbinary act c).act = some act) ∨
    (act.lastTime ≠ 0 ∧ act.repairCount < cfg.repairMax ∧
      (actOn cfg rbinary act c).act = some { act with repairCount := act.repairCount + 1, lastTime := 0 }) ∨
    (actOn cfg rbinary act c).request = some (cfg.request c.result) := by
  by_cases hoff : act.lastTime = 0
  · exact Or.inl ⟨hoff, by rw [actOn_first hret h hoff]⟩
  · by_cases hearly : toInt (c.now - act.lastTime) ≤ cfg.retryTimeout
    · exact Or.inr (Or.inl ⟨hoff, hearly, by rw [actOn_early hret h hoff hearly]⟩)
    · have hlate : cfg.retryTimeout < toInt (c.now - act.lastTime) := Int.not_le.mp hearly
      obtain ⟨hpos, hle⟩ := hfits
      have hmore : toInt (act.repairCount + 1) = act.repairCount + 1 := toInt_eq_self (by omega) (by omega)
      by_cases hcount : act.repairCount < cfg.repairMax
      · refine Or.inr (Or.inr (Or.inl ⟨hoff, hcount, ?_⟩))
        rw [actOn_repair hret hmax h hoff hlate (by omega), hmore]
      · refine Or.inr (Or.inr (Or.inr ?_))
        rw [actOn_exhausted hret hmax h hoff hlate (by omega)]

theorem CountFits.step (h : CountFits cfg act) (hquiet : (actOn cfg rbinary act c).request = none) :
    CountFits cfg ((actOn cfg rbinary act c).act.getD act) := by
  have hfits := h
  obtain ⟨hpos, hle⟩ := h
  rcases result_cases c.result with hr | hr | hr | hr
  · rw [actOn_ok hr]
    exact ⟨Int.le_refl 0, Int.le_of_lt hmax⟩
  · rw [actOn_dontKnow hr]
    exact ⟨hpos, hle⟩
  · rw [actOn_unconditional hr] at hquiet
    cases hquiet
  · rcases actOn_cases hint hret hmax hfits rbinary hr with ⟨-, h⟩ | ⟨-, -, h⟩ | ⟨-, hlt, h⟩ | h
    · rw [h]
      exact ⟨hpos, hle⟩
    · rw [h]
      exact ⟨hpos, hle⟩
    · rw [h]
      refine ⟨?_, ?_⟩
      · show 0 ≤ act.repairCount + 1
        omega
      · show act.repairCount + 1 ≤ cfg.repairMax
        omega
    · rw [h] at hquiet
      cases hquiet

/-- The first call that fails, and is not answered by a request. -/
theorem Waits.first {gap : Int} (hfits : CountFits cfg act) (hgap : 0 ≤ gap) (htimed : Timed act c)
    (hr : repairable c.result = true) (hquiet : (actOn cfg rbinary act c).request = none) :
    Waits cfg gap c.now ((actOn cfg rbinary act c).act.getD act) c.now := by
  have hlap : gap ≤ lap cfg gap := by
    unfold lap
    omega
  have hfits' := hfits.step hint hret hmax hquiet
  have hcount : 0 ≤ act.repairCount * lap cfg gap := Int.mul_nonneg hfits.1 (by omega)
  rcases actOn_cases hint hret hmax hfits rbinary hr with ⟨-, h⟩ | ⟨hon, hearly, h⟩ | ⟨-, -, h⟩ | h
  · rw [h] at hfits' ⊢
    refine ⟨hfits', fun hoff => absurd hoff (Int.ne_of_gt htimed.pos), fun _ => ⟨?_, ?_⟩⟩
    · show c.now ≤ c.now + act.repairCount * lap cfg gap
      omega
    · show c.now ≤ c.now + cfg.retryTimeout
      omega
  · obtain ⟨hle, helapsed⟩ := htimed.elapsed hon
    rw [h] at hfits' ⊢
    refine ⟨hfits', fun hoff => absurd hoff hon, fun _ => ⟨?_, ?_⟩⟩
    · show act.lastTime ≤ c.now + act.repairCount * lap cfg gap
      omega
    · show c.now ≤ act.lastTime + cfg.retryTimeout
      omega
  · rw [h] at hfits' ⊢
    refine ⟨hfits', fun _ => ?_, fun hon => absurd rfl hon⟩
    show c.now + gap ≤ c.now + (act.repairCount + 1) * lap cfg gap
    rw [Int.add_mul, Int.one_mul]
    omega
  · rw [h] at hquiet
    cases hquiet

/-- A later call that fails. -/
theorem Waits.step {gap since last : Int} (hwaits : Waits cfg gap since act last) (hnext : c.now ≤ last + gap)
    (htimed : Timed act c) (hr : repairable c.result = true) (hquiet : (actOn cfg rbinary act c).request = none) :
    Waits cfg gap since ((actOn cfg rbinary act c).act.getD act) c.now := by
  have hfits' := hwaits.fits.step hint hret hmax hquiet
  rcases actOn_cases hint hret hmax hwaits.fits rbinary hr with ⟨hoff, h⟩ | ⟨hon, hearly, h⟩ | ⟨hon, -, h⟩ | h
  · have hbefore := hwaits.off hoff
    rw [h] at hfits' ⊢
    refine ⟨hfits', fun hoff => absurd hoff (Int.ne_of_gt htimed.pos), fun _ => ⟨?_, ?_⟩⟩
    · show c.now ≤ since + act.repairCount * lap cfg gap
      omega
    · show c.now ≤ c.now + cfg.retryTimeout
      omega
  · obtain ⟨-, helapsed⟩ := htimed.elapsed hon
    rw [h] at hfits' ⊢
    refine ⟨hfits', fun hoff => absurd hoff hon, fun _ => ⟨(hwaits.on hon).1, ?_⟩⟩
    show c.now ≤ act.lastTime + cfg.retryTimeout
    omega
  · obtain ⟨hstart, hlast⟩ := hwaits.on hon
    rw [h] at hfits' ⊢
    refine ⟨hfits', fun _ => ?_, fun hon => absurd rfl hon⟩
    show c.now + gap ≤ since + (act.repairCount + 1) * lap cfg gap
    have hlap : lap cfg gap = cfg.retryTimeout + 2 * gap := rfl
    rw [Int.add_mul, Int.one_mul]
    omega
  · rw [h] at hquiet
    cases hquiet

end Entry

section Window
variable {cfg : Config} {rbinary : Option CString} {name : CString} {version : Int}

/-- The entry after the calls. -/
def retriedAfter (cfg : Config) (rbinary : Option CString) (name : CString) (version : Int) (calls : List ActionCall) :
    RetryState :=
  Runs.run (retryStep cfg rbinary) ⟨freshEntry name version, []⟩ calls

theorem retriedAfter_concat (calls : List ActionCall) (c : ActionCall) :
    retriedAfter cfg rbinary name version (calls ++ [c]) =
      retryStep cfg rbinary (retriedAfter cfg rbinary name version calls) c :=
  Runs.run_append _ _ _ _

/-- No call asked for anything. -/
def Quiet (s : RetryState) : Prop := ∀ d ∈ s.made, d.request = none

theorem Quiet.split {s : RetryState} {c : ActionCall} (h : Quiet (retryStep cfg rbinary s c)) :
    (actOn cfg rbinary s.act c).request = none ∧ Quiet s :=
  List.forall_mem_cons.mp h

theorem exists_last {α : Type} {l : List α} (h : l ≠ []) : ∃ a, a ∈ l.getLast? :=
  ⟨l.getLast h, List.getLast?_eq_some_getLast h⟩

section Limits
variable (hint : cfg.repairMax < 2 ^ 31 - 1) (hret : 0 < cfg.retryTimeout) (hmax : 0 < cfg.repairMax)
include hint hret hmax

theorem countFits_after (calls : List ActionCall)
    (hquiet : Quiet (retriedAfter cfg rbinary name version calls)) :
    CountFits cfg (retriedAfter cfg rbinary name version calls).act := by
  induction calls using List.reverseRecOn with
  | nil => exact ⟨Int.le_refl 0, Int.le_of_lt hmax⟩
  | append_singleton calls c ih =>
    rw [retriedAfter_concat] at hquiet ⊢
    exact (ih hquiet.split.2).step hint hret hmax hquiet.split.1

/-- As long as nothing was asked for, all calls can be counted. -/
theorem allFit_of_quiet (pre : List ActionCall) :
    ∀ post, Clocked (pre ++ post) → Quiet (retriedAfter cfg rbinary name version pre) →
      AllFit cfg rbinary ⟨freshEntry name version, []⟩ pre := by
  induction pre using List.reverseRecOn with
  | nil => exact fun _ _ _ => trivial
  | append_singleton pre c ih =>
    intro post hclock hquiet
    rw [List.append_assoc] at hclock
    rw [retriedAfter_concat] at hquiet
    have hbefore := ih _ hclock hquiet.split.2
    have htracks := run_tracks hret hmax (tracks_fresh hmax name version) ([c] ++ post) pre hclock hbefore
    have hcount := (countFits_after hint hret hmax pre hquiet.split.2).2
    have hroom : overdueSinceOk cfg (retriedAfter cfg rbinary name version pre).made < 2 ^ 31 - 1 := by
      have hsame : (retriedAfter cfg rbinary name version pre).act.repairCount = _ := htracks.count
      change _ = (overdueSinceOk cfg (retriedAfter cfg rbinary name version pre).made : Int) at hsame
      omega
    exact Runs.allowed_append.2 ⟨hbefore, fun _ => hroom, trivial⟩

theorem timed_after {pre post : List ActionCall} {c : ActionCall} (hclock : Clocked (pre ++ c :: post))
    (hquiet : Quiet (retriedAfter cfg rbinary name version pre)) :
    Timed (retriedAfter cfg rbinary name version pre).act c := by
  have htracks : Tracks cfg (retriedAfter cfg rbinary name version pre) :=
    run_tracks hret hmax (tracks_fresh hmax name version) (c :: post) pre hclock
      (allFit_of_quiet hint hret hmax pre _ hclock hquiet)
  have hok : ClockOk (retriedAfter cfg rbinary name version pre) c :=
    Clocked.clockOk hclock cfg rbinary (freshEntry name version)
  refine ⟨hok.pos, fun hon => ?_⟩
  have htimer := htracks.timer
  cases hfault : pendingFault (retriedAfter cfg rbinary name version pre).made with
  | none =>
    rw [hfault] at htimer
    exact absurd htimer hon
  | some f =>
    obtain ⟨-, hle, hspan⟩ := hok.fault f hfault
    rw [hfault] at htimer
    rw [htimer]
    exact ⟨hle, toInt_eq_self (by show -2 ^ 31 ≤ c.now - f.now; omega) hspan⟩

/-- Failing from `first` on, the entry waits. -/
theorem waits_after {gap : Int} (hgap : 0 ≤ gap) (pre : List ActionCall) (first : ActionCall) (mid : List ActionCall) :
    ∀ post, Clocked (pre ++ first :: mid ++ post) → (first :: mid).IsChain (fun a b => b.now ≤ a.now + gap) →
      (∀ c ∈ first :: mid, repairable c.result = true) →
      Quiet (retriedAfter cfg rbinary name version (pre ++ first :: mid)) →
      ∀ last ∈ (first :: mid).getLast?,
        Waits cfg gap first.now (retriedAfter cfg rbinary name version (pre ++ first :: mid)).act last.now := by
  induction mid using List.reverseRecOn with
  | nil =>
    intro post hclock _ hfail hquiet last hlast
    obtain rfl : first = last := Option.some.inj hlast
    rw [List.append_assoc] at hclock
    rw [retriedAfter_concat] at hquiet ⊢
    exact Waits.first hint hret hmax (countFits_after hint hret hmax pre hquiet.split.2) hgap
      (timed_after hint hret hmax hclock hquiet.split.2) (hfail first List.mem_cons_self) hquiet.split.1
  | append_singleton mid c ih =>
    intro post hclock hchain hfail hquiet last hlast
    rw [← List.cons_append] at hclock hchain hfail hquiet hlast ⊢
    rw [List.getLast?_concat] at hlast
    obtain rfl : c = last := Option.some.inj hlast
    rw [← List.append_assoc] at hclock hquiet ⊢
    rw [retriedAfter_concat] at hquiet ⊢
    rw [List.append_assoc _ [c]] at hclock
    obtain ⟨hbefore, -, hnext⟩ := List.isChain_append.mp hchain
    -- The call before `c`.
    obtain ⟨prev, hprev⟩ := exists_last (List.cons_ne_nil first mid)
    have hwaits := ih ([c] ++ post) hclock hbefore (fun x hx => hfail x (List.mem_append_left _ hx)) hquiet.split.2
      prev hprev
    exact hwaits.step hint hret hmax (hnext prev hprev c rfl) (timed_after hint hret hmax hclock hquiet.split.2)
      (hfail c (List.mem_append_right _ List.mem_cons_self)) hquiet.split.1

end Limits

/-- **A fault comes to an end.** Failing from `first` on, with at most `gap` from a call to the next, the entry is not
looked at after the deadline, unless something was asked for. -/
theorem ends_in_time (hret : 0 < cfg.retryTimeout) (hmax : 0 < cfg.repairMax) {gap : Int} (hgap : 0 ≤ gap)
    {pre mid post : List ActionCall} {first c : ActionCall} (hclock : Clocked (pre ++ first :: mid ++ c :: post))
    (hchain : (first :: mid ++ [c]).IsChain (fun a b => b.now ≤ a.now + gap))
    (hfail : ∀ x ∈ first :: mid, repairable x.result = true)
    (hquiet : Quiet (retriedAfter cfg rbinary name version (pre ++ first :: mid))) :
    c.now ≤ first.now + deadline cfg gap := by
  by_cases hint : cfg.repairMax < 2 ^ 31 - 1
  · obtain ⟨hbefore, -, hnext⟩ := List.isChain_append.mp hchain
    obtain ⟨prev, hprev⟩ := exists_last (List.cons_ne_nil first mid)
    have hwaits := waits_after hint hret hmax hgap pre first mid (c :: post) hclock hbefore hfail hquiet prev hprev
    exact hwaits.next hret hgap (hnext prev hprev c rfl)
  · -- So many repairs take longer than the clock can tell.
    have hspan : c.now - first.now < 2 ^ 31 := hclock.span first (by simp) c (by simp)
    have hrepairs : cfg.repairMax + 1 ≤ (cfg.repairMax + 1) * cfg.retryTimeout :=
      le_mul_of_one_le_right (by omega) (by omega)
    have hgaps : 0 ≤ (2 * cfg.repairMax + 1) * gap := Int.mul_nonneg (by omega) hgap
    unfold deadline
    omega

/-- The deadline is met: a check every 60 seconds, a retry period of 60, and one repair. -/
example :
    let calls := [⟨5, 100, 0⟩, ⟨5, 160, 0⟩, ⟨5, 220, 0⟩, ⟨5, 280, 0⟩, ⟨5, 340, 0⟩]
    (∀ d ∈ (retriedAfter {} (some ['r']) ['t'] 0 calls).made, d.request = none) ∧ 400 = 100 + deadline {} 60 := by
  decide

/-- What was made stays, with one more for each call. -/
theorem made_grows (s : RetryState) (calls : List ActionCall) :
    ∃ more, (Runs.run (retryStep cfg rbinary) s calls).made = more ++ s.made ∧ more.length = calls.length := by
  induction calls generalizing s with
  | nil => exact ⟨[], rfl, rfl⟩
  | cons c calls ih =>
    obtain ⟨more, hmade, hlength⟩ := ih (retryStep cfg rbinary s c)
    refine ⟨more ++ [⟨c, (actOn cfg rbinary s.act c).repaired, (actOn cfg rbinary s.act c).request⟩], ?_, ?_⟩
    · rw [Runs.run_cons, hmade, List.append_assoc]
      rfl
    · rw [List.length_append, hlength]
      rfl

/-- All that is asked for is a shutdown. -/
theorem actOn_request {act : Entry} {c : ActionCall} {q : Request} (h : (actOn cfg rbinary act c).request = some q) :
    ∃ code, q = cfg.request code := by
  have hconsider : ∀ {result : Int}, consider cfg result = some q → ∃ code, q = cfg.request code := by
    intro result h
    unfold consider at h
    split at h
    · cases h
    · exact ⟨result, (Option.some.inj h).symm⟩
  unfold actOn at h
  rw [wdAction_eq] at h
  split at h
  · next out hplan =>
    unfold plan at hplan
    repeat' split at hplan
    all_goals cases hplan
    · cases h
    · cases h
    · exact hconsider h
    · exact hconsider h
    · cases h
  · exact hconsider h

theorem made_request (act : Entry) (calls : List ActionCall) :
    ∀ d ∈ (Runs.run (retryStep cfg rbinary) ⟨act, []⟩ calls).made,
      ∀ q, d.request = some q → ∃ code, q = cfg.request code := by
  refine Runs.run_inv
    (I := fun s : RetryState => ∀ d ∈ s.made, ∀ q, d.request = some q → ∃ code, q = cfg.request code) ?_
    (fun _ hd => absurd hd List.not_mem_nil)
    (Runs.allowed_of_forall (P := fun _ => True) fun _ _ => trivial)
  intro s c hs _
  exact List.forall_mem_cons.mpr ⟨fun _ h => actOn_request h, hs⟩

end Window

end Watchdog

namespace Watchdog.Daemon
open CallTree

/-! ## The entries of the daemon -/

/-- The reports of one entry, the first one first. -/
def reportsOf (i : Nat) (reports : List Report) : List Report := (reports.filter fun d => d.source = .entry i).reverse

/-- What is left of a list without its first member. -/
theorem tail_filter_subset {α : Type} (p : α → Bool) (l : List α) : (l.filter p).tail ⊆ l.tail := by
  cases l with
  | nil => exact List.Subset.refl _
  | cons a l =>
    by_cases hp : p a = true
    · rw [List.filter_cons_of_pos hp]
      exact List.filter_sublist.subset
    · rw [List.filter_cons_of_neg hp]
      exact fun x hx => List.filter_sublist.subset (List.mem_of_mem_tail hx)

/-- What the machine did for an entry before its last call asked for nothing. -/
theorem quiet_before_last {cfg : Config} (hact : cfg.noAct = false) {rbinary : Option CString} {acts : List Entry}
    {i : Nat} {e : Entry} (hi : acts[i]? = some e) (calls : List ActionCall) :
    ∀ d ∈ ((mainAfter cfg rbinary acts calls).of (.entry i)).tail, d.request = none := by
  intro d hd
  obtain ⟨own, halone⟩ := entry_alone cfg rbinary hi calls
  cases hrequest : d.request with
  | none => rfl
  | some q =>
    exfalso
    have hmem : d ∈ (Runs.run (retryStep cfg rbinary) ⟨e, []⟩ own).made := by
      rw [← halone.made]
      exact List.mem_of_mem_tail hd
    obtain ⟨code, rfl⟩ := made_request e own d hmem q hrequest
    rw [Config.request, hact, if_neg Bool.false_ne_true] at hrequest
    unfold MainState.of at hd
    rw [← List.map_tail] at hd
    obtain ⟨x, hx, rfl⟩ := List.mem_map.mp hd
    obtain ⟨before, after, hsplit⟩ := List.append_of_mem (tail_filter_subset _ _ hx)
    cases hmade : (mainAfter cfg rbinary acts calls).made with
    | nil =>
      rw [hmade] at hsplit
      exact absurd hsplit.symm (List.append_ne_nil_of_right_ne_nil _ (List.cons_ne_nil _ _))
    | cons y rest =>
      rw [hmade] at hsplit
      change rest = before ++ x :: after at hsplit
      have hlast := (shutdown_last calls (y :: before) after x code (by rw [hmade, hsplit]; rfl) hrequest).1
      cases hlast

/-- The reports of an entry are the calls made for it, without what is not seen of them. -/
theorem reportsOf_calls {rbinary : Option CString} {acts : List Entry} {i : Nat} {own : List ActionCall} {s : MainState}
    (hcalls : (s.of (.entry i)).map (·.call) = own.reverse) :
    (reportsOf i (s.made.map (report rbinary acts))).map Report.call = own.map bare := by
  have hown : own = ((s.of (.entry i)).map (·.call)).reverse := by rw [hcalls, List.reverse_reverse]
  rw [hown]
  unfold reportsOf MainState.of
  rw [List.filter_map, List.map_reverse, List.map_reverse, List.map_map, List.map_map, List.map_map]
  rfl

/-- The same for the machine: a chain of calls for an entry that fail from `first` on. -/
theorem machine_ends {cfg : Config} (hact : cfg.noAct = false) (hret : 0 < cfg.retryTimeout) (hmax : 0 < cfg.repairMax)
    {rbinary : Option CString} {acts : List Entry} {i : Nat} {name : CString} {version : Int}
    (hi : acts[i]? = some (freshEntry name version)) {calls own : List ActionCall}
    (halone : Alone cfg rbinary i (freshEntry name version) own (mainAfter cfg rbinary acts calls)) (hclock : Clocked own)
    {gap : Int} (hgap : 0 ≤ gap) (hchain : own.IsChain (fun a b => b.now ≤ a.now + gap)) {pre mid post : List ActionCall}
    {first c : ActionCall} (hown : own = pre ++ first :: mid ++ c :: post)
    (hfail : ∀ x ∈ first :: mid, repairable x.result = true) : c.now ≤ first.now + deadline cfg gap := by
  subst hown
  obtain ⟨more, hgrown, hlength⟩ := made_grows (retriedAfter cfg rbinary name version (pre ++ first :: mid)) (c :: post)
  have hmade : (mainAfter cfg rbinary acts calls).of (.entry i) =
      more ++ (retriedAfter cfg rbinary name version (pre ++ first :: mid)).made := by
    rw [halone.made, Runs.run_append]
    exact hgrown
  have hquiet : Quiet (retriedAfter cfg rbinary name version (pre ++ first :: mid)) := by
    intro d hd
    apply quiet_before_last hact hi calls
    rw [hmade]
    cases more with
    | nil => cases hlength
    | cons x more => exact List.mem_append_right _ hd
  have hinfix : (first :: mid ++ [c]).IsChain (fun a b => b.now ≤ a.now + gap) := by
    have hsplit : pre ++ first :: mid ++ c :: post = pre ++ ((first :: mid ++ [c]) ++ post) := by simp
    rw [hsplit] at hchain
    exact hchain.right_of_append.left_of_append
  exact ends_in_time hret hmax hgap hclock hinfix hfail hquiet

theorem reportsOf_sublist (i : Nat) (reports : List Report) : (reportsOf i reports).Sublist reports.reverse :=
  List.reverse_sublist.mpr List.filter_sublist

/-- From the machine to the loop. -/
theorem loop_ends {o : Options} (hact : o.noAct = false) {g : Globals} (hret : 0 < (g (.int .retryTimeout) : Int))
    (hmax : 0 < (g (.int .repairMax) : Int)) {cycles : Nat} {answers : Nat → (q : Call) → Answer q} {n i : Nat}
    {name : CString} {version : Int} (hi : (entries g)[i]? = some (freshEntry name version)) {gap : Int} (hgap : 0 ≤ gap)
    {m : Seen} (hm : m = seen ((mainLoop o g cycles (State.first g)).trace answers n))
    (hclock : Clocked (m.reports.reverse.map Report.call))
    (hchain : (reportsOf i m.reports).IsChain (fun a b => b.now ≤ a.now + gap)) {pre mid post : List Report}
    {first d : Report} (hsplit : reportsOf i m.reports = pre ++ first :: mid ++ d :: post)
    (hfail : ∀ x ∈ first :: mid, repairable x.result = true) : d.now ≤ first.now + deadline (config o g) gap := by
  obtain ⟨calls, hreports, -⟩ := loop_refines o g (State.first g) cycles answers n
  change (seen ((mainLoop o g cycles (State.first g)).trace answers n)).reports =
    (mainAfter (config o g) (g (.str .repairBin)) (entries g) calls).made.map
      (report (g (.str .repairBin)) (entries g)) at hreports
  rw [← hm] at hreports
  obtain ⟨own, halone⟩ := entry_alone (config o g) (g (.str .repairBin)) hi calls
  have hcalls : ((mainAfter (config o g) (g (.str .repairBin)) (entries g) calls).of (.entry i)).map (·.call) =
      own.reverse := by
    rw [halone.made, made_calls]
    exact List.append_nil _
  have hkey : (reportsOf i m.reports).map Report.call = own.map bare := by
    rw [hreports]
    exact reportsOf_calls hcalls
  have hownClock : Clocked own := by
    refine clocked_of_sublist hclock ?_
    have hnow : own.map (·.now) = ((reportsOf i m.reports).map Report.call).map (·.now) := by
      rw [hkey, List.map_map]
      rfl
    rw [hnow]
    exact ((reportsOf_sublist i m.reports).map _).map _
  have hownChain : own.IsChain (fun a b => b.now ≤ a.now + gap) := by
    have hseen : ((reportsOf i m.reports).map Report.call).IsChain (fun a b => b.now ≤ a.now + gap) :=
      (List.isChain_map _).mpr hchain
    rw [hkey] at hseen
    exact (List.isChain_map _).mp hseen
  rw [hsplit, List.map_append, List.map_append, List.map_cons, List.map_cons] at hkey
  obtain ⟨front, back, hown, hfront, hback⟩ := List.map_eq_append_iff.mp hkey.symm
  obtain ⟨pre', rest, rfl, -, hrest⟩ := List.map_eq_append_iff.mp hfront
  obtain ⟨first', mid', rfl, hfirst, -⟩ := List.map_eq_cons_iff.mp hrest
  obtain ⟨c, post', rfl, hc, -⟩ := List.map_eq_cons_iff.mp hback
  have hownFail : ∀ x ∈ first' :: mid', repairable x.result = true := by
    intro x hx
    have hmem : bare x ∈ (first :: mid).map Report.call := by
      rw [List.map_cons, ← hrest]
      exact List.mem_map_of_mem hx
    obtain ⟨r, hr, hbare⟩ := List.mem_map.mp hmem
    have hresult : r.result = x.result := congrArg ActionCall.result hbare
    rw [← hresult]
    exact hfail r hr
  have hbound := machine_ends hact hret hmax hi halone hownClock hgap hownChain hown hownFail
  have hfirstNow : first'.now = first.now := congrArg ActionCall.now hfirst
  have hcNow : c.now = d.now := congrArg ActionCall.now hc
  rw [hfirstNow, hcNow] at hbound
  exact hbound

/-- **A fault of the running daemon comes to an end.** With every configuration that has a retry time-out and a limit of
repairs, in every run of the loop of `main` and for every list entry: if its checks are at most `gap` seconds apart and fail
from `first` on, the entry is not looked at later than the deadline after it. -/
theorem fault_ends (env : ConfEnv) (o : Options) (hact : o.noAct = false) (configfile : Option CString) (g₀ : Globals)
    (hread : readConfig env (startGlobals o) configfile = .ok g₀)
    (hret : 0 < (zeroRetry g₀ (.int .retryTimeout) : Int)) (hmax : 0 < (zeroRetry g₀ (.int .repairMax) : Int))
    (cycles : Nat) (answers : Nat → (q : Call) → Answer q) (n i : Nat) (e : Entry)
    (hi : (entries (zeroRetry g₀))[i]? = some e) (gap : Int) (hgap : 0 ≤ gap) :
    let m := seen ((mainLoop o (zeroRetry g₀) cycles (State.first (zeroRetry g₀))).trace answers n)
    Clocked (m.reports.reverse.map Report.call) →
      (reportsOf i m.reports).IsChain (fun a b => b.now ≤ a.now + gap) →
      ∀ pre first mid d post, reportsOf i m.reports = pre ++ first :: mid ++ d :: post →
        (∀ x ∈ first :: mid, repairable x.result = true) →
          d.now ≤ first.now + deadline (config o (zeroRetry g₀)) gap := by
  rw [entries_fresh (allFresh_zeroRetry (allFresh_of_read hread)) hi] at hi
  intro m hclock hchain pre first mid d post hsplit hfail
  exact loop_ends hact hret hmax hi hgap rfl hclock hchain hsplit hfail

/-- The file that stays away, with its two checks less than a thousand seconds apart. -/
theorem fault_ends_broken :
    ∃ first d, reportsOf 0 brokenSeen.reports = [first, d] ∧
      d.now ≤ first.now + deadline (config {} brokenGlobals) 1000 := by
  have hclock : Clocked (brokenSeen.reports.reverse.map Report.call) :=
    ⟨by decide +kernel, by decide +kernel, by decide +kernel⟩
  have hchain : (reportsOf 0 brokenSeen.reports).IsChain (fun a b => b.now ≤ a.now + 1000) := by decide +kernel
  have hfail : ∀ x ∈ reportsOf 0 brokenSeen.reports, repairable x.result = true := by decide +kernel
  have htwo : (reportsOf 0 brokenSeen.reports).length = 2 := by decide +kernel
  obtain ⟨first, d, hreports⟩ := List.length_eq_two.mp htwo
  refine ⟨first, d, hreports, ?_⟩
  exact fault_ends _ {} rfl _ _ (rfl : brokenConfig = .ok _) (by decide +kernel) (by decide +kernel) 2 broken 0 0
    { name := "/f".toList, version := 0 } (by decide +kernel) 1000 (by decide) hclock hchain [] first [] d [] hreports
    fun x hx => hfail x (by rw [hreports, List.mem_singleton.mp hx]; exact List.mem_cons_self)

end Watchdog.Daemon
