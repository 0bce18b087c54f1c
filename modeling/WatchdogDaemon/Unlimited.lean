import WatchdogDaemon.Retry

/- The retry period when the number of repairs is not limited.

   With `repair_max` of 0 or less, `wd_action` neither counts the repairs of an entry nor,
   which sits under the same test, turns its retry timer off when it repairs. The timer
   goes on from the first offence of the fault, so once the fault is overdue it stays
   overdue, and every further failure runs `repair()` again.

   What is proved:
     1. `separated_iff` — in every run, any two repairs are more than `retry_timeout`
        seconds apart if and only if this is so of any two overdue failures without a
        success between them. Repairs of different faults always are.
     2. `repairs_every_cycle` — a fault that lasts is repaired at every call. -/
namespace Watchdog

/-! ## The specification -/

/-- The first repairable call since the last success. -/
def faultStart (calls : List ActionCall) : Option ActionCall :=
  (calls.reverse.takeWhile fun c => c.result != enoerr).reverse.find? fun c => repairable c.result

/-- After `pre`, the call fails longer than the retry period after the first failure of
its fault, as an `int` tells the seconds. -/
def Late (cfg : Config) (pre : List ActionCall) (c : ActionCall) : Prop :=
  repairable c.result = true ∧ ∃ f, faultStart pre = some f ∧ cfg.retryTimeout < toInt (c.now - f.now)

/-- The entry after the calls. -/
def entryAfter (cfg : Config) (rbinary : Option CString) (name : CString) (version : Int)
    (calls : List ActionCall) : Entry :=
  (Runs.run (retryStep cfg rbinary) ⟨freshEntry name version, []⟩ calls).act

/-- The call runs `repair()` after the calls `pre`. -/
def Repairs (cfg : Config) (rbinary : Option CString) (name : CString) (version : Int)
    (pre : List ActionCall) (c : ActionCall) : Prop :=
  (actOn cfg rbinary (entryAfter cfg rbinary name version pre) c).repaired.isSome

/-! ## One call -/

theorem faultStart_ok {c : ActionCall} (pre : List ActionCall) (h : c.result = enoerr) :
    faultStart (pre ++ [c]) = none := by
  simp [faultStart, h]

theorem faultStart_keep {c : ActionCall} (pre : List ActionCall) (h : c.result ≠ enoerr) :
    faultStart (pre ++ [c]) =
      (faultStart pre).or (if repairable c.result then some c else none) := by
  simp [faultStart, h, List.find?_append]

theorem faultStart_mem {calls : List ActionCall} {f : ActionCall} (h : faultStart calls = some f) :
    f ∈ calls := by
  have hmem := List.mem_of_find?_eq_some h
  rw [List.mem_reverse] at hmem
  exact List.mem_reverse.mp ((List.takeWhile_sublist _).subset hmem)

section Call
variable {cfg : Config} {rbinary : Option CString} {act : Entry} {c : ActionCall}

/-- An overdue error is repaired, and the entry stays as it is. -/
theorem actOn_unlimited (hret : 0 < cfg.retryTimeout) (hmax : cfg.repairMax ≤ 0)
    (h : repairable c.result = true) (hon : act.lastTime ≠ 0)
    (hlate : cfg.retryTimeout < toInt (c.now - act.lastTime)) :
    actOn cfg rbinary act c = ⟨some act, some c.answer, consider cfg c.answer⟩ := by
  obtain ⟨h₁, h₂, h₃⟩ := repairable_ne h
  have hnot : ¬ 0 < cfg.repairMax := by omega
  simp [actOn, wdAction, h₁, h₂, h₃, retryTimer, countRepair, hret, hon, hlate, hnot]

end Call

section Run
variable {cfg : Config} {rbinary : Option CString} {name : CString} {version : Int}

theorem entryAfter_concat (pre : List ActionCall) (c : ActionCall) :
    entryAfter cfg rbinary name version (pre ++ [c]) =
      (actOn cfg rbinary (entryAfter cfg rbinary name version pre) c).act.getD
        (entryAfter cfg rbinary name version pre) := by
  rw [entryAfter, Runs.run_append]
  rfl

/-- The timer holds the time of the first failure of the fault, through all its repairs. -/
theorem lastTime_entryAfter (hret : 0 < cfg.retryTimeout) (hmax : cfg.repairMax ≤ 0)
    (calls : List ActionCall) (hpos : ∀ c ∈ calls, 0 < c.now) :
    (entryAfter cfg rbinary name version calls).lastTime = ((faultStart calls).map (·.now)).getD 0 := by
  induction calls using List.reverseRecOn with
  | nil => rfl
  | append_singleton pre c ih =>
    have htimer := ih fun c hc => hpos c (List.mem_append_left _ hc)
    rw [entryAfter_concat]
    rcases result_cases c.result with h | h | h | h
    · rw [actOn_ok h, faultStart_ok pre h]
      rfl
    · have hne : c.result ≠ enoerr := by rw [h]; decide
      have hr : repairable c.result = false := by rw [h]; decide
      rw [actOn_dontKnow h, faultStart_keep pre hne, hr]
      simpa using htimer
    · have hne : c.result ≠ enoerr := by
        intro he
        rw [he] at h
        exact absurd h (by decide)
      have hr : repairable c.result = false := by simp [repairable, h]
      rw [actOn_unconditional h, faultStart_keep pre hne, hr]
      simpa using htimer
    · have hne := (repairable_ne h).1
      rw [faultStart_keep pre hne, h, if_pos rfl]
      cases hf : faultStart pre with
      | none =>
        have hoff : (entryAfter cfg rbinary name version pre).lastTime = 0 := by rw [htimer, hf]; rfl
        rw [actOn_first hret h hoff]
        rfl
      | some f =>
        have hlast : (entryAfter cfg rbinary name version pre).lastTime = f.now := by rw [htimer, hf]; rfl
        have hfpos := hpos f (List.mem_append_left _ (faultStart_mem hf))
        have hon : (entryAfter cfg rbinary name version pre).lastTime ≠ 0 := by omega
        -- Repaired or not, the timer is left alone.
        by_cases hlate : cfg.retryTimeout < toInt (c.now - (entryAfter cfg rbinary name version pre).lastTime)
        · rw [actOn_unlimited hret hmax h hon hlate]
          exact hlast
        · rw [actOn_early hret h hon (by omega)]
          exact hlast

/-- A call repairs exactly when it is late. -/
theorem repairs_iff_late (hret : 0 < cfg.retryTimeout) (hmax : cfg.repairMax ≤ 0)
    {pre : List ActionCall} (hpos : ∀ c ∈ pre, 0 < c.now) (c : ActionCall) :
    Repairs cfg rbinary name version pre c ↔ Late cfg pre c := by
  have htimer : (entryAfter cfg rbinary name version pre).lastTime = _ :=
    lastTime_entryAfter hret hmax pre hpos
  unfold Repairs Late
  rcases result_cases c.result with h | h | h | h
  · have hr : repairable c.result = false := by rw [h]; decide
    rw [actOn_ok h, hr]
    simp
  · have hr : repairable c.result = false := by rw [h]; decide
    rw [actOn_dontKnow h, hr]
    simp
  · have hr : repairable c.result = false := by simp [repairable, h]
    rw [actOn_unconditional h, hr]
    simp
  · cases hf : faultStart pre with
    | none =>
      have hoff : (entryAfter cfg rbinary name version pre).lastTime = 0 := by rw [htimer, hf]; rfl
      rw [actOn_first hret h hoff]
      simp
    | some f =>
      have hlast : (entryAfter cfg rbinary name version pre).lastTime = f.now := by rw [htimer, hf]; rfl
      have hfpos := hpos f (faultStart_mem hf)
      have hon : (entryAfter cfg rbinary name version pre).lastTime ≠ 0 := by omega
      by_cases hlate : cfg.retryTimeout < toInt (c.now - f.now)
      · rw [actOn_unlimited hret hmax h hon (by rw [hlast]; exact hlate)]
        simp [h, hlate]
      · rw [actOn_early hret h hon (by rw [hlast]; omega)]
        simp [h, hlate]

end Run

/-! ## Whole runs -/

/-- A fault of which a success came before started after the success. -/
theorem faultStart_after_ok {pre mid : List ActionCall} {c f : ActionCall} (hc : c ∈ mid)
    (hok : c.result = enoerr) (h : faultStart (pre ++ mid) = some f) : f ∈ mid := by
  induction mid using List.reverseRecOn generalizing f with
  | nil => exact absurd hc List.not_mem_nil
  | append_singleton mid d ih =>
    rw [← List.append_assoc] at h
    by_cases hd : d.result = enoerr
    · rw [faultStart_ok _ hd] at h
      cases h
    · have hmid : c ∈ mid := by
        obtain hc | hc := List.mem_append.mp hc
        · exact hc
        · rw [List.mem_singleton.mp hc] at hok
          exact absurd hok hd
      rw [faultStart_keep _ hd, Option.or_eq_some_iff] at h
      obtain h | ⟨-, h⟩ := h
      · exact List.mem_append_left _ (ih hmid h)
      · have hf : f = d := by
          split at h
          · exact (Option.some.inj h).symm
          · cases h
        rw [hf]
        exact List.mem_append_right _ List.mem_cons_self

/-- **Repairs are a retry period apart exactly when the late failures of each fault are.** -/
theorem separated_iff (cfg : Config) (hret : 0 < cfg.retryTimeout) (hmax : cfg.repairMax ≤ 0)
    (rbinary : Option CString) (name : CString) (version : Int) (calls : List ActionCall)
    (hpos : ∀ c ∈ calls, 0 < c.now) (hmono : calls.Pairwise fun a b => a.now ≤ b.now) :
    (∀ pre a mid b post, calls = pre ++ a :: (mid ++ b :: post) →
        Repairs cfg rbinary name version pre a → Repairs cfg rbinary name version (pre ++ a :: mid) b →
        cfg.retryTimeout < b.now - a.now) ↔
      ∀ pre a mid b post, calls = pre ++ a :: (mid ++ b :: post) → (∀ c ∈ mid, c.result ≠ enoerr) →
        Late cfg pre a → Late cfg (pre ++ a :: mid) b → cfg.retryTimeout < b.now - a.now := by
  -- A repair is a late call, before `b` as before `a`.
  have hlate : ∀ pre a mid b post, calls = pre ++ a :: (mid ++ b :: post) →
      (Repairs cfg rbinary name version pre a ↔ Late cfg pre a) ∧
        (Repairs cfg rbinary name version (pre ++ a :: mid) b ↔ Late cfg (pre ++ a :: mid) b) := by
    intro pre a mid b post hcalls
    have hbefore : ∀ c ∈ pre ++ a :: mid, 0 < c.now := by
      intro c hc
      apply hpos c
      rw [hcalls, List.append_cons, ← List.append_assoc, ← List.append_cons]
      exact List.mem_append_left _ hc
    exact ⟨repairs_iff_late hret hmax (fun c hc => hbefore c (List.mem_append_left _ hc)) a,
      repairs_iff_late hret hmax hbefore b⟩
  constructor
  · intro h pre a mid b post hcalls _ ha hb
    obtain ⟨hpre, hmid⟩ := hlate pre a mid b post hcalls
    exact h pre a mid b post hcalls (hpre.mpr ha) (hmid.mpr hb)
  · intro h pre a mid b post hcalls ha hb
    obtain ⟨hpre, hmid⟩ := hlate pre a mid b post hcalls
    by_cases hok : ∀ c ∈ mid, c.result ≠ enoerr
    · exact h pre a mid b post hcalls hok (hpre.mp ha) (hmid.mp hb)
    · -- A success between: the fault of `b` began after it, and so after `a`.
      simp only [not_forall, not_not] at hok
      obtain ⟨c, hc, hcok⟩ := hok
      obtain ⟨-, f, hf, hover⟩ := hmid.mp hb
      rw [List.append_cons] at hf
      have hfmid := faultStart_after_ok hc hcok hf
      rw [hcalls] at hmono
      have htail := List.pairwise_cons.mp (List.pairwise_append.mp hmono).2.1
      have haf : a.now ≤ f.now := htail.1 f (List.mem_append_left _ hfmid)
      have hfb : f.now ≤ b.now := (List.pairwise_append.mp htail.2).2.2 f hfmid b List.mem_cons_self
      have hint : toInt (b.now - f.now) ≤ b.now - f.now := toInt_le (by omega)
      omega

/-- A fault that lasts from second 100 on, with a retry period of 60: its failures are late
at 161 and 230, and repaired then. -/
theorem separated_iff_far :
    let cfg : Config := { repairMax := 0 }
    let calls : List ActionCall := [⟨5, 100, 0⟩, ⟨5, 161, 0⟩, ⟨5, 230, 0⟩]
    Repairs cfg none ['t'] 0 [⟨5, 100, 0⟩] ⟨5, 161, 0⟩ ∧
      Repairs cfg none ['t'] 0 [⟨5, 100, 0⟩, ⟨5, 161, 0⟩] ⟨5, 230, 0⟩ ∧
      ∀ pre a mid b post, calls = pre ++ a :: (mid ++ b :: post) →
        Repairs cfg none ['t'] 0 pre a → Repairs cfg none ['t'] 0 (pre ++ a :: mid) b →
        cfg.retryTimeout < b.now - a.now := by
  refine ⟨by unfold Repairs; decide, by unfold Repairs; decide, ?_⟩
  refine (separated_iff { repairMax := 0 } (by decide) (by decide) none ['t'] 0
    [⟨5, 100, 0⟩, ⟨5, 161, 0⟩, ⟨5, 230, 0⟩] (by decide) (by decide)).mpr ?_
  intro pre a mid b post hcalls _ ha _
  match pre, hcalls with
  | [], _ =>
    obtain ⟨-, f, hf, -⟩ := ha
    cases hf
  | [_], hcalls =>
    simp only [List.singleton_append, List.cons.injEq] at hcalls
    obtain ⟨-, rfl, htail⟩ := hcalls
    have hb : b ∈ [(⟨5, 230, 0⟩ : ActionCall)] := by
      rw [htail]
      exact List.mem_append_right _ List.mem_cons_self
    rw [List.mem_singleton.mp hb]
    decide
  | _ :: _ :: pre, hcalls =>
    have hlen := congrArg List.length hcalls
    simp only [List.length_append, List.length_cons, List.length_nil] at hlen
    omega

/-- The same fault at every call: repaired at 161 and, a second later, at 162. -/
theorem repairs_every_cycle :
    let cfg : Config := { repairMax := 0 }
    let calls : List ActionCall := [⟨5, 100, 0⟩, ⟨5, 161, 0⟩, ⟨5, 162, 0⟩]
    (∀ c ∈ calls, 0 < c.now) ∧ (calls.Pairwise fun a b => a.now ≤ b.now) ∧
      ¬ ∀ pre a mid b post, calls = pre ++ a :: (mid ++ b :: post) →
        Repairs cfg none ['t'] 0 pre a → Repairs cfg none ['t'] 0 (pre ++ a :: mid) b →
        cfg.retryTimeout < b.now - a.now := by
  refine ⟨by decide, by decide, ?_⟩
  intro h
  have hclose := h [⟨5, 100, 0⟩] ⟨5, 161, 0⟩ [] ⟨5, 162, 0⟩ [] rfl (by unfold Repairs; decide)
    (by unfold Repairs; decide)
  exact absurd hclose (by decide)

end Watchdog
