import Mathlib.Data.List.Induction
import Mathlib.Tactic.ByContra
import WatchdogDaemon.Action
import WatchdogDaemon.Lib.Runs

/- The retry and repair decisions of one entry, over whole runs.

   A run is any sequence of `wd_action` calls on one entry, each with its result, its
   clock reading and what `repair()` answers if the call runs it. The specification
   speaks of the calls only: a fault is overdue when it has lasted longer than
   `retry_timeout` since the first repairable call after the last success and the last
   repair, and a repair is due while fewer than `repair_max` ran since the last success.
   `retry_exact` says that every call of a run does what the specification says exactly
   when no call is one overdue call too many for an `int` since the last success;
   `Tracks`, the invariant behind it, says what the two fields of the entry hold.

   The clock readings are positive and do not go back, and their span fits an `int`:
   `last_time` uses 0 as "timer off", and the elapsed time is cast to `int`. A run here
   goes on after a request, as the daemon does under `--no-action`; without it the
   daemon's runs are the ones that stop there. -/
namespace Watchdog

/-- One call: the result, the clock, and the answer of `repair()` should it run. -/
structure ActionCall where
  result : Int
  now : Int
  answer : Int
  deriving DecidableEq

/-- A call that was made, and what it did. -/
structure Made where
  call : ActionCall
  repaired : Option Int
  request : Option Request
  deriving DecidableEq

/-- The entry and the calls made on it, the last one first. -/
structure RetryState where
  act : Entry
  made : List Made

/-- `wd_action` on the entry, as the call meets it. -/
def actOn (cfg : Config) (rbinary : Option CString) (act : Entry) (c : ActionCall) : Outcome :=
  Id.run (wdAction (fun _ _ _ _ => pure c.answer) cfg c.now c.result rbinary (some act))

def retryStep (cfg : Config) (rbinary : Option CString) (s : RetryState) (c : ActionCall) :
    RetryState :=
  let out := actOn cfg rbinary s.act c
  ⟨out.act.getD s.act, ⟨c, out.repaired, out.request⟩ :: s.made⟩

/-! ## The specification -/

/-- A success or a repair: what ends the wait for the retry period. -/
def Made.resets (d : Made) : Bool := d.call.result == enoerr || d.repaired.isSome

/-- The first repairable call after the last success and the last repair. -/
def pendingFault (made : List Made) : Option ActionCall :=
  ((made.takeWhile fun d => !d.resets).reverse.map (·.call)).find? fun c => repairable c.result

/-- The call meets an error that has lasted longer than the retry period. -/
def Overdue (cfg : Config) (made : List Made) (c : ActionCall) : Prop :=
  repairable c.result = true ∧ cfg.retryTimeout < c.now - ((pendingFault made).getD c).now

/-- The repairs since the last success. -/
def repairsSinceOk (made : List Made) : Nat :=
  (made.takeWhile fun d => d.call.result != enoerr).countP fun d => d.repaired.isSome

instance (cfg : Config) (made : List Made) (c : ActionCall) : Decidable (Overdue cfg made c) :=
  inferInstanceAs (Decidable (_ ∧ _))

/-- The overdue calls since the last success, whether they were repaired or not. -/
def overdueSinceOk (cfg : Config) : List Made → Nat
  | [] => 0
  | d :: made =>
    if d.call.result = enoerr then 0
    else overdueSinceOk cfg made + if Overdue cfg made d.call then 1 else 0

/-- The call can be counted: it is not overdue, or fewer than 2^31 - 1 overdue calls came
before it since the last success. -/
def CanCount (cfg : Config) (made : List Made) (c : ActionCall) : Prop :=
  Overdue cfg made c → overdueSinceOk cfg made < 2 ^ 31 - 1

/-- What the call asks for: the code of a reboot command, of a repair that failed, or
of the error when the repairs are used up. -/
def Asks (cfg : Config) (made : List Made) (c : ActionCall) (repaired : Option Int) (code : Int) :
    Prop :=
  (unconditional c.result = true ∧ code = c.result) ∨
  (∃ answer, repaired = some answer ∧ answer ≠ enoerr ∧ code = answer) ∨
  (Overdue cfg made c ∧ cfg.repairMax ≤ repairsSinceOk made ∧ code = c.result)

/-- Clock readings that are positive, do not go back, and span less than 2^31 s. -/
structure Clocked (calls : List ActionCall) : Prop where
  pos : ∀ c ∈ calls, 0 < c.now
  mono : calls.Pairwise fun a b => a.now ≤ b.now
  span : ∀ a ∈ calls, ∀ b ∈ calls, b.now - a.now < 2 ^ 31

/-! ## What one call does -/

section Call
variable {cfg : Config} {rbinary : Option CString} {act : Entry} {c : ActionCall}

theorem actOn_ok (h : c.result = enoerr) :
    actOn cfg rbinary act c = ⟨some { act with lastTime := 0, repairCount := 0 }, none, none⟩ := by
  simp [actOn, wdAction, h]

theorem actOn_dontKnow (h : c.result = edontknow) :
    actOn cfg rbinary act c = ⟨some act, none, none⟩ := by
  simp [actOn, wdAction, h, enoerr, edontknow]

theorem actOn_unconditional (h : unconditional c.result = true) :
    actOn cfg rbinary act c = ⟨some act, none, some (cfg.request c.result)⟩ := by
  have h₁ : c.result ≠ enoerr := by
    intro he; rw [he] at h; exact absurd h (by decide)
  have h₂ : c.result ≠ edontknow := by
    intro he; rw [he] at h; exact absurd h (by decide)
  simp [actOn, wdAction, h, h₁, h₂, consider]

/-- A repairable error while the timer is off starts it. -/
theorem actOn_first (hret : 0 < cfg.retryTimeout) (h : repairable c.result = true)
    (hoff : act.lastTime = 0) :
    actOn cfg rbinary act c = ⟨some { act with lastTime := c.now }, none, none⟩ := by
  obtain ⟨h₁, h₂, h₃⟩ := repairable_ne h
  simp [actOn, wdAction, h₁, h₂, h₃, retryTimer, hret, hoff]

/-- A repairable error within the retry period changes nothing. -/
theorem actOn_early (hret : 0 < cfg.retryTimeout) (h : repairable c.result = true)
    (hon : act.lastTime ≠ 0) (hearly : toInt (c.now - act.lastTime) ≤ cfg.retryTimeout) :
    actOn cfg rbinary act c = ⟨some act, none, none⟩ := by
  obtain ⟨h₁, h₂, h₃⟩ := repairable_ne h
  have hnot : ¬ cfg.retryTimeout < toInt (c.now - act.lastTime) := by omega
  simp [actOn, wdAction, h₁, h₂, h₃, retryTimer, hret, hon, hnot]

/-- An overdue error is repaired while the count allows it. -/
theorem actOn_repair (hret : 0 < cfg.retryTimeout) (hmax : 0 < cfg.repairMax)
    (h : repairable c.result = true) (hon : act.lastTime ≠ 0)
    (hlate : cfg.retryTimeout < toInt (c.now - act.lastTime))
    (hcount : toInt (act.repairCount + 1) ≤ cfg.repairMax) :
    actOn cfg rbinary act c =
      ⟨some { act with repairCount := toInt (act.repairCount + 1), lastTime := 0 }, some c.answer,
        consider cfg c.answer⟩ := by
  obtain ⟨h₁, h₂, h₃⟩ := repairable_ne h
  have hnot : ¬ cfg.repairMax < toInt (act.repairCount + 1) := by omega
  simp [actOn, wdAction, h₁, h₂, h₃, retryTimer, countRepair, hret, hon, hlate, hmax, hnot]

/-- An overdue error after the last repair asks for a shutdown. -/
theorem actOn_exhausted (hret : 0 < cfg.retryTimeout) (hmax : 0 < cfg.repairMax)
    (h : repairable c.result = true) (hon : act.lastTime ≠ 0)
    (hlate : cfg.retryTimeout < toInt (c.now - act.lastTime))
    (hcount : cfg.repairMax < toInt (act.repairCount + 1)) :
    actOn cfg rbinary act c =
      ⟨some { act with repairCount := toInt (act.repairCount + 1) }, none,
        some (cfg.request c.result)⟩ := by
  obtain ⟨h₁, h₂, h₃⟩ := repairable_ne h
  simp [actOn, wdAction, h₁, h₂, h₃, retryTimer, countRepair, hret, hon, hlate, hmax, hcount,
    consider]

end Call

/-! ## The history a call extends -/

theorem pendingFault_reset {d : Made} (made : List Made) (h : d.resets = true) :
    pendingFault (d :: made) = none := by
  simp [pendingFault, h]

theorem pendingFault_keep {d : Made} (made : List Made) (h : d.resets = false) :
    pendingFault (d :: made) = (pendingFault made).or
      (if repairable d.call.result then some d.call else none) := by
  simp [pendingFault, h, List.find?_append]

theorem repairsSinceOk_ok {d : Made} (made : List Made) (h : d.call.result = enoerr) :
    repairsSinceOk (d :: made) = 0 := by
  simp [repairsSinceOk, h]

theorem repairsSinceOk_keep {d : Made} (made : List Made) (h : d.call.result ≠ enoerr) :
    repairsSinceOk (d :: made) = repairsSinceOk made + (if d.repaired.isSome then 1 else 0) := by
  simp [repairsSinceOk, h, List.countP_cons]

theorem overdueSinceOk_ok {cfg : Config} {d : Made} (made : List Made) (h : d.call.result = enoerr) :
    overdueSinceOk cfg (d :: made) = 0 := by
  rw [overdueSinceOk, if_pos h]

theorem overdueSinceOk_keep {cfg : Config} {d : Made} (made : List Made)
    (h : d.call.result ≠ enoerr) : overdueSinceOk cfg (d :: made) =
      overdueSinceOk cfg made + if Overdue cfg made d.call then 1 else 0 := by
  rw [overdueSinceOk, if_neg h]

theorem pendingFault_mem {made : List Made} {f : ActionCall} (h : pendingFault made = some f) :
    f ∈ made.map (·.call) := by
  have hmem := List.mem_of_find?_eq_some h
  simp only [List.mem_map, List.mem_reverse] at hmem ⊢
  obtain ⟨d, hd, rfl⟩ := hmem
  exact ⟨d, List.takeWhile_sublist _ |>.subset hd, rfl⟩

/-- The calls of a run are the calls made, the last one first. -/
theorem made_calls (cfg : Config) (rbinary : Option CString) (s : RetryState)
    (calls : List ActionCall) :
    (Runs.run (retryStep cfg rbinary) s calls).made.map (·.call) =
      calls.reverse ++ s.made.map (·.call) := by
  induction calls generalizing s with
  | nil => simp
  | cons c calls ih => simp [ih, retryStep]

/-! ## The invariant -/

/-- What the two fields hold: the time of the first fault that still waits, 0 when
there is none, and the overdue calls since the last success, of which the first
`repair_max` were repaired. -/
structure Tracks (cfg : Config) (s : RetryState) : Prop where
  timer : s.act.lastTime = ((pendingFault s.made).map (·.now)).getD 0
  count : s.act.repairCount = overdueSinceOk cfg s.made
  repairs : (repairsSinceOk s.made : Int) = min (overdueSinceOk cfg s.made : Int) cfg.repairMax
  fits : overdueSinceOk cfg s.made ≤ 2 ^ 31 - 1

/-- The clock of a call, against the first fault that still waits. -/
structure ClockOk (s : RetryState) (c : ActionCall) : Prop where
  pos : 0 < c.now
  fault : ∀ f, pendingFault s.made = some f → 0 < f.now ∧ f.now ≤ c.now ∧ c.now - f.now < 2 ^ 31

theorem Clocked.clockOk {pre post : List ActionCall} {c : ActionCall}
    (h : Clocked (pre ++ c :: post)) (cfg : Config) (rbinary : Option CString) (act : Entry) :
    ClockOk (Runs.run (retryStep cfg rbinary) ⟨act, []⟩ pre) c := by
  have hc : c ∈ pre ++ c :: post := by simp
  refine ⟨h.pos c hc, ?_⟩
  intro f hf
  have hmem := pendingFault_mem hf
  rw [made_calls] at hmem
  have hpre : f ∈ pre := by simpa using hmem
  have hall : f ∈ pre ++ c :: post := List.mem_append_left _ hpre
  have hle := (List.pairwise_append.mp h.mono).2.2 f hpre c List.mem_cons_self
  exact ⟨h.pos f hall, hle, h.span f hall c hc⟩

/-- Every result is a success, unknown, a reboot command or repairable. -/
theorem result_cases (result : Int) :
    result = enoerr ∨ result = edontknow ∨ unconditional result = true ∨
      repairable result = true := by
  by_cases h₁ : result = enoerr
  · exact Or.inl h₁
  · by_cases h₂ : result = edontknow
    · exact Or.inr (Or.inl h₂)
    · cases h₃ : unconditional result
      · exact Or.inr (Or.inr (Or.inr (by simp [repairable, h₁, h₂, h₃])))
      · exact Or.inr (Or.inr (Or.inl rfl))

/-- What a call does and what the specification says of it. -/
structure Exact (cfg : Config) (made : List Made) (c : ActionCall) (out : Outcome) : Prop where
  repairs : out.repaired.isSome = true ↔
    Overdue cfg made c ∧ (repairsSinceOk made : Int) < cfg.repairMax
  answer : ∀ r, out.repaired = some r → r = c.answer
  requests : ∀ code, out.request = some (cfg.request code) ↔ Asks cfg made c out.repaired code
  noOther : ∀ q, out.request = some q → ∃ code, q = cfg.request code

theorem request_inj {cfg : Config} {a b : Int} : cfg.request a = cfg.request b ↔ a = b := by
  unfold Config.request
  cases cfg.noAct <;> simp

section Step
variable {cfg : Config} {rbinary : Option CString} {s : RetryState} {c : ActionCall}

theorem not_overdue (h : repairable c.result = false) : ¬ Overdue cfg s.made c := by
  intro ho
  rw [ho.1] at h
  cases h

/-- A call that neither repairs nor asks for anything, on an error that is not
overdue and not a reboot command. -/
theorem exact_quiet (hover : ¬ Overdue cfg s.made c) (hun : unconditional c.result = false)
    (act : Option Entry) : Exact cfg s.made c ⟨act, none, none⟩ := by
  refine ⟨?_, ?_, ?_, ?_⟩
  · simp [hover]
  · intro r hr; cases hr
  · intro code
    simp [Asks, hover, hun]
  · intro q hq; cases hq

/-- A call that only asks for something, with the code of its result. -/
theorem exact_asks (act : Option Entry)
    (h : unconditional c.result = true ∨
      (Overdue cfg s.made c ∧ cfg.repairMax ≤ repairsSinceOk s.made)) :
    Exact cfg s.made c ⟨act, none, some (cfg.request c.result)⟩ := by
  have hnot : ¬ (Overdue cfg s.made c ∧ (repairsSinceOk s.made : Int) < cfg.repairMax) := by
    intro hcase
    obtain ⟨ho, hlt⟩ := hcase
    rcases h with h | ⟨_, hge⟩
    · have := (repairable_ne ho.1).2.2
      rw [h] at this; cases this
    · omega
  refine ⟨?_, ?_, ?_, ?_⟩
  · simp [hnot]
  · intro r hr; cases hr
  · intro code
    simp only [Option.some.injEq, request_inj, Asks, reduceCtorEq, false_and, exists_false, false_or]
    constructor
    · intro hcase
      obtain rfl := hcase
      rcases h with h | ⟨ho, hge⟩
      · exact Or.inl ⟨h, rfl⟩
      · exact Or.inr ⟨ho, hge, rfl⟩
    · rintro (⟨_, rfl⟩ | ⟨_, _, rfl⟩) <;> rfl
  · intro q hq
    exact ⟨c.result, by simpa using hq.symm⟩

/-- A call that repairs asks for something when the repair failed. -/
theorem exact_repair (act : Option Entry) (ho : Overdue cfg s.made c)
    (hlt : (repairsSinceOk s.made : Int) < cfg.repairMax) :
    Exact cfg s.made c ⟨act, some c.answer, consider cfg c.answer⟩ := by
  have hun := (repairable_ne ho.1).2.2
  have hle : ¬ cfg.repairMax ≤ repairsSinceOk s.made := by omega
  refine ⟨?_, ?_, ?_, ?_⟩
  · simp [ho, hlt]
  · intro r hr
    cases hr; rfl
  · intro code
    by_cases hz : c.answer = enoerr
    · simp only [consider, hz, if_true, Asks, hun, hle, Bool.false_eq_true, false_and, and_false,
        or_false, false_or, reduceCtorEq, false_iff, not_exists, not_and]
      intro r hr hne
      rw [Option.some.injEq] at hr
      exact absurd hr.symm hne
    · simp only [consider, hz, if_false, Option.some.injEq, request_inj, Asks, hun, hle]
      constructor
      · rintro rfl; exact Or.inr (Or.inl ⟨c.answer, rfl, hz, rfl⟩)
      · intro hcase
        obtain ⟨h, _⟩ | ⟨r, rfl, _, rfl⟩ | ⟨_, h, _⟩ := hcase
        · cases h
        · rfl
        · exact h.elim
  · intro q hq
    unfold consider at hq
    split at hq
    · cases hq
    · exact ⟨c.answer, by simpa using hq.symm⟩

/-- A call that leaves the entry alone: the history has no new fault to wait for, and
nothing more to count. -/
theorem Tracks.keep (ht : Tracks cfg s) {d : Made} (hne : d.call.result ≠ enoerr)
    (hrep : d.repaired = none) (hnot : ¬ Overdue cfg s.made d.call)
    (hold : repairable d.call.result = true → (pendingFault s.made).isSome = true) :
    Tracks cfg ⟨s.act, d :: s.made⟩ := by
  have htimer := ht.timer
  have hover : overdueSinceOk cfg (d :: s.made) = overdueSinceOk cfg s.made := by
    rw [overdueSinceOk_keep _ hne, if_neg hnot, Nat.add_zero]
  refine ⟨?_, ?_, ?_, ?_⟩
  · rw [pendingFault_keep _ (by simp [Made.resets, hne, hrep])]
    cases hf : pendingFault s.made with
    | none =>
      rw [hf] at hold htimer
      cases hr : repairable d.call.result with
      | true => exact absurd (hold hr) (by simp)
      | false => exact htimer
    | some f =>
      rw [hf] at htimer
      exact htimer
  · rw [hover]
    exact ht.count
  · rw [hover, repairsSinceOk_keep _ hne]
    simpa [hrep] using ht.repairs
  · rw [hover]
    exact ht.fits

/-- What one call has to do: what the specification says, and the fields keep tracking the
history. -/
def StepExact (cfg : Config) (rbinary : Option CString) (s : RetryState) (c : ActionCall) : Prop :=
  Exact cfg s.made c (actOn cfg rbinary s.act c) ∧ Tracks cfg (retryStep cfg rbinary s c)

/-- A success clears timer and counter. -/
theorem step_ok (hmax : 0 < cfg.repairMax) (h : c.result = enoerr) : StepExact cfg rbinary s c := by
  have hr : repairable c.result = false := by rw [h]; decide
  have hout : actOn cfg rbinary s.act c = _ := actOn_ok h
  refine ⟨by rw [hout]; exact exact_quiet (not_overdue hr) (by rw [h]; decide) _, ?_⟩
  simp only [retryStep, hout, Option.getD_some]
  refine ⟨?_, ?_, ?_, ?_⟩
  · rw [pendingFault_reset _ (by simp [Made.resets, h])]; rfl
  · rw [overdueSinceOk_ok _ h]; rfl
  · rw [repairsSinceOk_ok _ h, overdueSinceOk_ok _ h]
    omega
  · rw [overdueSinceOk_ok _ h]
    omega

/-- An unknown result changes nothing. -/
theorem step_dontKnow (ht : Tracks cfg s) (h : c.result = edontknow) : StepExact cfg rbinary s c := by
  have hr : repairable c.result = false := by rw [h]; decide
  have hout : actOn cfg rbinary s.act c = _ := actOn_dontKnow h
  refine ⟨by rw [hout]; exact exact_quiet (not_overdue hr) (by rw [h]; decide) _, ?_⟩
  simp only [retryStep, hout, Option.getD_some]
  apply ht.keep (by rw [h]; decide) rfl (not_overdue hr)
  intro hr'
  rw [hr] at hr'
  cases hr'

/-- A reboot command is asked for at once, and changes nothing. -/
theorem step_unconditional (ht : Tracks cfg s) (h : unconditional c.result = true) :
    StepExact cfg rbinary s c := by
  have hne : c.result ≠ enoerr := by
    intro he
    rw [he] at h
    exact absurd h (by decide)
  have hr : repairable c.result = false := by simp [repairable, h]
  have hout : actOn cfg rbinary s.act c = _ := actOn_unconditional h
  refine ⟨by rw [hout]; exact exact_asks _ (Or.inl h), ?_⟩
  simp only [retryStep, hout, Option.getD_some]
  apply ht.keep hne rfl (not_overdue hr)
  intro hr'
  rw [hr] at hr'
  cases hr'

/-- A first offence starts the timer. -/
theorem step_first (hret : 0 < cfg.retryTimeout) (ht : Tracks cfg s) (h : repairable c.result = true)
    (hf : pendingFault s.made = none) : StepExact cfg rbinary s c := by
  obtain ⟨hne, -, hun⟩ := repairable_ne h
  have hoff : s.act.lastTime = 0 := by rw [ht.timer, hf]; rfl
  have hout : actOn cfg rbinary s.act c = _ := actOn_first hret h hoff
  have hnot : ¬ Overdue cfg s.made c := by
    intro ho
    have := ho.2
    simp only [hf, Option.getD_none] at this
    omega
  refine ⟨by rw [hout]; exact exact_quiet hnot hun _, ?_⟩
  simp only [retryStep, hout, Option.getD_some]
  have hover : overdueSinceOk cfg (⟨c, none, none⟩ :: s.made) = overdueSinceOk cfg s.made := by
    rw [overdueSinceOk_keep _ hne, if_neg hnot, Nat.add_zero]
  refine ⟨?_, ?_, ?_, ?_⟩
  · rw [pendingFault_keep _ (by simp [Made.resets, hne]), hf]
    simp [h]
  · rw [hover]
    exact ht.count
  · rw [hover, repairsSinceOk_keep _ hne]
    simpa using ht.repairs
  · rw [hover]
    exact ht.fits

/-- The timer of an offence that is not the first one. -/
theorem timer_used (ht : Tracks cfg s) (hc : ClockOk s c) {f : ActionCall}
    (hf : pendingFault s.made = some f) :
    s.act.lastTime = f.now ∧ s.act.lastTime ≠ 0 ∧ toInt (c.now - s.act.lastTime) = c.now - f.now := by
  obtain ⟨hfpos, hfle, hfspan⟩ := hc.fault f hf
  have hlast : s.act.lastTime = f.now := by rw [ht.timer, hf]; rfl
  refine ⟨hlast, by omega, ?_⟩
  rw [hlast]
  exact toInt_eq_self (by omega) hfspan

/-- An overdue call that can be counted: repaired, or given up. -/
theorem step_overdue (hret : 0 < cfg.retryTimeout) (hmax : 0 < cfg.repairMax) (ht : Tracks cfg s)
    (hc : ClockOk s c) (hfits : CanCount cfg s.made c) {f : ActionCall}
    (hf : pendingFault s.made = some f) (hover : Overdue cfg s.made c) :
    StepExact cfg rbinary s c := by
  obtain ⟨hne, -, -⟩ := repairable_ne hover.1
  obtain ⟨hlast, hon, hused⟩ := timer_used ht hc hf
  have hlate : cfg.retryTimeout < toInt (c.now - s.act.lastTime) := by
    rw [hused]
    simpa [hf] using hover.2
  have hroom := hfits hover
  have hcount : toInt (s.act.repairCount + 1) = overdueSinceOk cfg s.made + 1 := by
    rw [ht.count]
    exact toInt_eq_self (by omega) (by omega)
  have hmore (d : Made) (hd : d.call = c) :
      overdueSinceOk cfg (d :: s.made) = overdueSinceOk cfg s.made + 1 := by
    rw [overdueSinceOk_keep _ (by rw [hd]; exact hne), hd, if_pos hover]
  have hrepairs := ht.repairs
  by_cases hlt : (overdueSinceOk cfg s.made : Int) < cfg.repairMax
  · have hout : actOn cfg rbinary s.act c = _ :=
      actOn_repair hret hmax hover.1 hon hlate (by omega)
    refine ⟨by rw [hout]; exact exact_repair _ hover (by omega), ?_⟩
    simp only [retryStep, hout, Option.getD_some]
    refine ⟨?_, ?_, ?_, ?_⟩
    · rw [pendingFault_reset _ (by simp [Made.resets])]; rfl
    · rw [hmore _ rfl]
      exact hcount
    · rw [hmore _ rfl, repairsSinceOk_keep _ hne]
      simp only [Option.isSome_some, if_true]
      omega
    · rw [hmore _ rfl]
      omega
  · have hout : actOn cfg rbinary s.act c = _ :=
      actOn_exhausted hret hmax hover.1 hon hlate (by omega)
    refine ⟨by rw [hout]; exact exact_asks _ (Or.inr ⟨hover, by omega⟩), ?_⟩
    simp only [retryStep, hout, Option.getD_some]
    refine ⟨?_, ?_, ?_, ?_⟩
    · rw [pendingFault_keep _ (by simp [Made.resets, hne]), hf]
      simpa using hlast
    · rw [hmore _ rfl]
      exact hcount
    · rw [hmore _ rfl, repairsSinceOk_keep _ hne]
      simp only [Option.isSome_none, Bool.false_eq_true, if_false]
      omega
    · rw [hmore _ rfl]
      omega

/-- An offence within the retry period. -/
theorem step_early (hret : 0 < cfg.retryTimeout) (ht : Tracks cfg s) (hc : ClockOk s c)
    (h : repairable c.result = true) {f : ActionCall} (hf : pendingFault s.made = some f)
    (hnot : ¬ Overdue cfg s.made c) : StepExact cfg rbinary s c := by
  obtain ⟨hne, -, hun⟩ := repairable_ne h
  obtain ⟨-, hon, hused⟩ := timer_used ht hc hf
  have hearly : toInt (c.now - s.act.lastTime) ≤ cfg.retryTimeout := by
    rw [hused]
    by_contra hlate
    exact hnot ⟨h, by rw [hf]; exact Int.not_le.1 hlate⟩
  have hout : actOn cfg rbinary s.act c = _ := actOn_early hret h hon hearly
  refine ⟨by rw [hout]; exact exact_quiet hnot hun _, ?_⟩
  simp only [retryStep, hout, Option.getD_some]
  exact ht.keep hne rfl hnot fun _ => by rw [hf]; rfl

/-- One call that can be counted does what the specification says. The cases are the
branches of `wd_action`. -/
theorem step_exact (hret : 0 < cfg.retryTimeout) (hmax : 0 < cfg.repairMax) (ht : Tracks cfg s)
    (hc : ClockOk s c) (hfits : CanCount cfg s.made c) : StepExact cfg rbinary s c := by
  rcases result_cases c.result with h | h | h | h
  · exact step_ok hmax h
  · exact step_dontKnow ht h
  · exact step_unconditional ht h
  · cases hf : pendingFault s.made with
    | none => exact step_first hret ht h hf
    | some f =>
      by_cases hover : Overdue cfg s.made c
      · exact step_overdue hret hmax ht hc hfits hf hover
      · exact step_early hret ht hc h hf hover

/-- A first offence is not overdue. -/
theorem pending_of_overdue (hret : 0 < cfg.retryTimeout) (hover : Overdue cfg s.made c) :
    ∃ f, pendingFault s.made = some f := by
  cases hf : pendingFault s.made with
  | some f => exact ⟨f, rfl⟩
  | none =>
    have hlate := hover.2
    rw [hf, Option.getD_none] at hlate
    omega

/-- A call that cannot be counted is repaired once more, whatever the limit. -/
theorem not_exact (hret : 0 < cfg.retryTimeout) (hmax : 0 < cfg.repairMax)
    (hint : cfg.repairMax < 2 ^ 31) (ht : Tracks cfg s) (hc : ClockOk s c)
    (hfits : ¬ CanCount cfg s.made c) : ¬ Exact cfg s.made c (actOn cfg rbinary s.act c) := by
  obtain ⟨hover, hfull⟩ := Classical.not_imp.1 hfits
  obtain ⟨f, hf⟩ := pending_of_overdue hret hover
  obtain ⟨-, hon, hused⟩ := timer_used ht hc hf
  have hlate : cfg.retryTimeout < toInt (c.now - s.act.lastTime) := by
    rw [hused]
    simpa [hf] using hover.2
  have hfull' : overdueSinceOk cfg s.made = 2 ^ 31 - 1 := by
    have := ht.fits
    omega
  have hwrapped : toInt (s.act.repairCount + 1) = -2 ^ 31 := by
    rw [ht.count, hfull']
    decide
  have hout : actOn cfg rbinary s.act c = _ := actOn_repair hret hmax hover.1 hon hlate (by omega)
  intro hexact
  have hrun : (actOn cfg rbinary s.act c).repaired.isSome = true := by
    rw [hout]
    rfl
  have hlt := (hexact.repairs.1 hrun).2
  have hrepairs := ht.repairs
  omega

end Step

/-! ## Whole runs -/

theorem tracks_fresh {cfg : Config} (hmax : 0 < cfg.repairMax) (name : CString) (version : Int) :
    Tracks cfg ⟨freshEntry name version, []⟩ := by
  refine ⟨rfl, rfl, ?_, Nat.zero_le _⟩
  show ((0 : Nat) : Int) = min ((0 : Nat) : Int) cfg.repairMax
  omega

/-- Every call of the run can be counted. -/
def AllFit (cfg : Config) (rbinary : Option CString) : RetryState → List ActionCall → Prop :=
  Runs.Allowed (retryStep cfg rbinary) fun s c => CanCount cfg s.made c

/-- Every call of the run does what the specification says. -/
def AllExact (cfg : Config) (rbinary : Option CString) : RetryState → List ActionCall → Prop :=
  Runs.Allowed (retryStep cfg rbinary) fun s c => Exact cfg s.made c (actOn cfg rbinary s.act c)

section Run
variable {cfg : Config} {rbinary : Option CString} {act : Entry} (hret : 0 < cfg.retryTimeout)
  (hmax : 0 < cfg.repairMax) (h0 : Tracks cfg ⟨act, []⟩)
include hret hmax h0

theorem run_tracks (post : List ActionCall) : ∀ (pre : List ActionCall), Clocked (pre ++ post) →
    AllFit cfg rbinary ⟨act, []⟩ pre →
    Tracks cfg (Runs.run (retryStep cfg rbinary) ⟨act, []⟩ pre) := by
  intro pre
  -- From the right: the clock facts of a call speak of the calls before it.
  induction pre using List.reverseRecOn generalizing post with
  | nil => intro _ _; exact h0
  | append_singleton pre c ih =>
    intro hclock hfit
    rw [List.append_assoc] at hclock
    obtain ⟨hbefore, hlast, -⟩ := Runs.allowed_append.1 hfit
    rw [Runs.run_append]
    exact (step_exact hret hmax (ih _ hclock hbefore)
      (Clocked.clockOk hclock cfg rbinary act) hlast).2

/-- What the specification says of one call of a run that can be counted. -/
theorem exact_after (pre : List ActionCall) (c : ActionCall) (post : List ActionCall)
    (hclock : Clocked (pre ++ c :: post)) (hfit : AllFit cfg rbinary ⟨act, []⟩ (pre ++ [c])) :
    let s := Runs.run (retryStep cfg rbinary) ⟨act, []⟩ pre
    Exact cfg s.made c (actOn cfg rbinary s.act c) := by
  obtain ⟨hbefore, hlast, -⟩ := Runs.allowed_append.1 hfit
  exact (step_exact hret hmax (run_tracks hret hmax h0 (c :: post) pre hclock hbefore)
    (Clocked.clockOk hclock cfg rbinary act) hlast).1

/-- The run does what the specification says as long as its calls can be counted, and the
first that cannot does not. -/
theorem allExact_iff (hint : cfg.repairMax < 2 ^ 31) (post : List ActionCall) :
    ∀ (pre : List ActionCall), Clocked (pre ++ post) →
    (AllExact cfg rbinary ⟨act, []⟩ pre ↔ AllFit cfg rbinary ⟨act, []⟩ pre) := by
  intro pre
  induction pre using List.reverseRecOn generalizing post with
  | nil => intro _; exact Iff.rfl
  | append_singleton pre c ih =>
    intro hclock
    rw [List.append_assoc] at hclock
    have hpre := ih ([c] ++ post) hclock
    have hclockOk := Clocked.clockOk hclock cfg rbinary act
    unfold AllExact AllFit at hpre ⊢
    rw [Runs.allowed_append, Runs.allowed_append, hpre]
    refine and_congr_right fun hfit => ?_
    have ht := run_tracks hret hmax h0 ([c] ++ post) pre hclock hfit
    constructor
    · intro h
      by_contra hnot
      exact not_exact hret hmax hint ht hclockOk (fun hfits => hnot ⟨hfits, trivial⟩) h.1
    · intro h
      exact ⟨(step_exact hret hmax ht hclockOk h.1).1, trivial⟩

end Run

/-- **When the retry and repair decisions are exact.** A run on a fresh entry does what the
specification says in every call: it runs `repair()` exactly when the error is overdue and
fewer than `repair_max` repairs ran since the last success, and asks for a shutdown exactly
for a reboot command, a repair that failed, or an overdue error with the repairs used up,
each with its own code. It does so if and only if no call is overdue after 2^31 - 1 others
since the last success, with which `repair_count` is full. -/
theorem retry_exact (cfg : Config) (hret : 0 < cfg.retryTimeout) (hmax : 0 < cfg.repairMax)
    (hint : cfg.repairMax < 2 ^ 31) (rbinary : Option CString) (name : CString) (version : Int)
    (calls : List ActionCall) (hclock : Clocked calls) :
    AllExact cfg rbinary ⟨freshEntry name version, []⟩ calls ↔
      AllFit cfg rbinary ⟨freshEntry name version, []⟩ calls :=
  allExact_iff hret hmax (tracks_fresh hmax name version) hint [] calls
    (by rw [List.append_nil]; exact hclock)

/-- A fault of error 5 at second 100 that is still there at second 161, with the
default settings: the second call is overdue and runs the repair. -/
theorem retry_exact_second_call :
    let calls : List ActionCall := [⟨5, 100, 0⟩, ⟨5, 161, 0⟩]
    let s := Runs.run (retryStep {} (some ['r'])) ⟨freshEntry ['t'] 0, []⟩ [⟨5, 100, 0⟩]
    AllExact {} (some ['r']) ⟨freshEntry ['t'] 0, []⟩ calls ∧
      (actOn {} (some ['r']) s.act ⟨5, 161, 0⟩).repaired = some 0 := by
  have hclock : Clocked [⟨5, 100, 0⟩, ⟨5, 161, 0⟩] := ⟨by decide, by decide, by decide⟩
  have hfit : AllFit {} (some ['r']) ⟨freshEntry ['t'] 0, []⟩ [⟨5, 100, 0⟩, ⟨5, 161, 0⟩] :=
    ⟨fun _ => by decide, fun _ => by decide, trivial⟩
  exact ⟨(retry_exact {} (by decide) (by decide) (by decide) _ _ _ _ hclock).2 hfit, by decide⟩

theorem overdueSinceOk_le (cfg : Config) (made : List Made) :
    overdueSinceOk cfg made ≤ made.length := by
  induction made with
  | nil => exact Nat.le_refl 0
  | cons d made ih =>
    rw [overdueSinceOk, List.length_cons]
    split
    · omega
    · split <;> omega

/-- A run of less than 2^31 calls can be counted. -/
theorem allFit_of_length {cfg : Config} {rbinary : Option CString} {calls : List ActionCall} :
    ∀ {s : RetryState}, s.made.length + calls.length < 2 ^ 31 → AllFit cfg rbinary s calls := by
  induction calls with
  | nil => exact fun _ => trivial
  | cons c calls ih =>
    intro s hlen
    rw [List.length_cons] at hlen
    refine ⟨fun _ => ?_, ih ?_⟩
    · have := overdueSinceOk_le cfg s.made
      omega
    · show (s.made.length + 1) + calls.length < 2 ^ 31
      omega

/-! A fault that goes on for ever under `--no-action`. -/

/-- The entry after `n` calls on a fault whose repair is used up. -/
theorem run_exhausted {cfg : Config} {rbinary : Option CString} {c : ActionCall}
    (hret : 0 < cfg.retryTimeout) (hmax : 0 < cfg.repairMax) (h : repairable c.result = true) :
    ∀ (n : Nat) (s : RetryState), s.act.lastTime ≠ 0 →
      cfg.retryTimeout < toInt (c.now - s.act.lastTime) → cfg.repairMax ≤ s.act.repairCount →
      s.act.repairCount + n < 2 ^ 31 →
      Runs.run (retryStep cfg rbinary) s (List.replicate n c) =
        ⟨{ s.act with repairCount := s.act.repairCount + n },
          List.replicate n ⟨c, none, some (cfg.request c.result)⟩ ++ s.made⟩ := by
  intro n
  induction n with
  | zero => intro s _ _ _ _; simp
  | succ n ih =>
    intro s hon hlate hfull hroom
    have hcount : toInt (s.act.repairCount + 1) = s.act.repairCount + 1 :=
      toInt_eq_self (by omega) (by omega)
    have hout : actOn cfg rbinary s.act c = _ := actOn_exhausted hret hmax h hon hlate (by omega)
    have hstep : retryStep cfg rbinary s c = ⟨{ s.act with repairCount := s.act.repairCount + 1 },
        ⟨c, none, some (cfg.request c.result)⟩ :: s.made⟩ := by
      simp only [retryStep, hout, hcount, Option.getD_some]
    have hrest := ih ⟨{ s.act with repairCount := s.act.repairCount + 1 },
        ⟨c, none, some (cfg.request c.result)⟩ :: s.made⟩ hon hlate
      (by show cfg.repairMax ≤ s.act.repairCount + 1; omega)
      (by show s.act.repairCount + 1 + n < 2 ^ 31; omega)
    rw [List.replicate_succ, Runs.run_cons, hstep, hrest, ← List.singleton_append,
      ← List.append_assoc, ← List.replicate_succ']
    simp only [Nat.cast_succ, Int.add_assoc, Int.add_comm 1]

/-- Under `--no-action`: a fault from second 100 on, repaired at 161 and failing on, then
looked at `n` times at second 222. -/
def endlessFault (n : Nat) : List ActionCall :=
  [⟨5, 100, 0⟩, ⟨5, 161, 0⟩, ⟨5, 161, 0⟩] ++ List.replicate n ⟨5, 222, 0⟩

theorem clocked_endlessFault (n : Nat) : Clocked (endlessFault n) := by
  have hmem : ∀ c ∈ endlessFault n, c = ⟨5, 100, 0⟩ ∨ c = ⟨5, 161, 0⟩ ∨ c = ⟨5, 222, 0⟩ := by
    intro c hc
    simp only [endlessFault, List.cons_append, List.nil_append, List.mem_cons,
      List.mem_replicate] at hc
    tauto
  refine ⟨?_, ?_, ?_⟩
  · intro c hc
    obtain rfl | rfl | rfl := hmem c hc <;> decide
  · have hlater : ∀ c ∈ List.replicate n (⟨5, 222, 0⟩ : ActionCall), c.now = 222 := fun c hc => by
      rw [List.eq_of_mem_replicate hc]
    refine List.pairwise_append.2 ⟨by decide, List.pairwise_replicate.2 (Or.inr le_rfl), ?_⟩
    intro a ha b hb
    rw [hlater b hb]
    exact (show ∀ a ∈ ([⟨5, 100, 0⟩, ⟨5, 161, 0⟩, ⟨5, 161, 0⟩] : List ActionCall), a.now ≤ 222 by decide) a ha
  · intro a ha b hb
    obtain rfl | rfl | rfl := hmem a ha <;> obtain rfl | rfl | rfl := hmem b hb <;> decide

/-- The entry when its fault goes on after the repair. -/
def repairUsed : RetryState :=
  ⟨⟨['t'], 0, 161, 1⟩, [⟨⟨5, 161, 0⟩, none, none⟩, ⟨⟨5, 161, 0⟩, some 0, none⟩,
    ⟨⟨5, 100, 0⟩, none, none⟩]⟩

theorem run_endlessFault {n : Nat} (hn : n < 2 ^ 31 - 1) :
    let s := Runs.run (retryStep { noAct := true } (some ['r'])) ⟨freshEntry ['t'] 0, []⟩ (endlessFault n)
    s.act.lastTime = 161 ∧ s.act.repairCount = n + 1 ∧ repairsSinceOk s.made = 1 := by
  have hstart : Runs.run (retryStep { noAct := true } (some ['r'])) ⟨freshEntry ['t'] 0, []⟩
      (endlessFault n) =
      Runs.run (retryStep { noAct := true } (some ['r'])) repairUsed
        (List.replicate n ⟨5, 222, 0⟩) := by
    rw [endlessFault, Runs.run_append]
    rfl
  have hrun := @run_exhausted { noAct := true } (some ['r']) ⟨5, 222, 0⟩ (by decide) (by decide) (by decide) n
    repairUsed (by decide) (by decide) (by decide) (by show (1 : Int) + n < 2 ^ 31; omega)
  have hnone (k : Nat) (made : List Made) : repairsSinceOk
      (List.replicate k ⟨⟨5, 222, 0⟩, none, some (Request.blocked 5)⟩ ++ made) =
        repairsSinceOk made := by
    induction k with
    | zero => rfl
    | succ k ih =>
      rw [List.replicate_succ, List.cons_append, repairsSinceOk_keep _ (by decide), ih]
      rfl
  dsimp only
  rw [hstart, hrun]
  exact ⟨rfl, Int.add_comm 1 _, (hnone n _).trans (by decide)⟩

theorem repairs_once_more {n : Nat} (hn : n = 2 ^ 31 - 2) :
    let s := Runs.run (retryStep { noAct := true } (some ['r'])) ⟨freshEntry ['t'] 0, []⟩ (endlessFault n)
    (actOn { noAct := true } (some ['r']) s.act ⟨5, 222, 0⟩).repaired = some 0 ∧
      ¬ Exact { noAct := true } s.made ⟨5, 222, 0⟩ (actOn { noAct := true } (some ['r']) s.act ⟨5, 222, 0⟩) := by
  intro s
  obtain ⟨hlast, hcount, hrepairs⟩ : s.act.lastTime = 161 ∧ s.act.repairCount = n + 1 ∧
      repairsSinceOk s.made = 1 := run_endlessFault (by omega)
  have hwrapped : toInt (s.act.repairCount + 1) = -2 ^ 31 := by
    rw [hcount, hn]
    decide
  have hout := @actOn_repair { noAct := true } (some ['r']) s.act ⟨5, 222, 0⟩ (by decide) (by decide) (by decide)
    (by omega) (by rw [hlast]; decide) (by rw [hwrapped]; decide)
  rw [hout]
  refine ⟨rfl, fun hexact => ?_⟩
  have hlt := (hexact.repairs.1 rfl).2
  rw [hrepairs] at hlt
  exact absurd hlt (by decide)

/-- After 2^31 - 1 overdue calls the count wraps around, and the one repair allowed is run
a second time. -/
theorem repair_count_wraps :
    let s := Runs.run (retryStep { noAct := true } (some ['r'])) ⟨freshEntry ['t'] 0, []⟩
      (endlessFault (2 ^ 31 - 2))
    Clocked (endlessFault (2 ^ 31 - 2 + 1)) ∧
    (actOn { noAct := true } (some ['r']) s.act ⟨5, 222, 0⟩).repaired = some 0 ∧
    ¬ Exact { noAct := true } s.made ⟨5, 222, 0⟩
      (actOn { noAct := true } (some ['r']) s.act ⟨5, 222, 0⟩) :=
  ⟨clocked_endlessFault _, repairs_once_more rfl⟩

end Watchdog
