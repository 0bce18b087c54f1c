import WatchdogDaemon.Config.Values
import WatchdogDaemon.Daemon.Lifecycle

/- What the main loop counts: `count`, `ticker` and `--loop-exit`.

   `count` is the number of cycles done. `ticker` counts down from `logtick` and is set back
   when it comes to 0, and `ticker` and `logtick` are one setting, so that a message is logged
   at the multiples of it. Both are `int`s: a negative `logtick` is counted down to the end of
   the range, wraps, and comes to 0 after 2^32 cycles less. `--loop-exit` lets the loop end at a
   count.

   What is proved, for whole runs of `main`, with whatever the calls answer:
     1. `loop_exit_exact` — with `--loop-exit N`, enough cycles for it always bring the process
        to its end; it has then gone through N cycles, or fewer, when a signal, a shutdown or
        the start stopped it.
     2. `still_alive_exact` — the counts in the messages are the multiples of `logtick`, as an
        unsigned number, up to the number of cycles, in order; there is none without `verbose`
        or with a `logtick` of 0.

   `count`, a `long`, is taken as the number of cycles itself: no run has 2^63 of them. -/
namespace Watchdog.Daemon
open CallTree

/-! ## A run, counted -/

/-- The cycles of a trace: each gathers the finished tests once. -/
def gathers (tr : List (Sigma Answer)) : Nat := (tr.map (·.1)).count .gather

/-- The counts in the messages of a trace. -/
def messages (tr : List (Sigma Answer)) : List Int :=
  tr.filterMap fun e => match e.1 with
    | .stillAlive count => some count
    | _ => none

theorem gathers_concat (tr : List (Sigma Answer)) (q : Call) (r : Answer q) :
    gathers (tr ++ [⟨q, r⟩]) = gathers tr + if q = .gather then 1 else 0 := by
  unfold gathers
  rw [List.map_append, List.count_append, List.map_singleton, List.count_singleton]
  simp [beq_iff_eq]

theorem gathers_quiet (tr : List (Sigma Answer)) {q : Call} (r : Answer q) (hq : q ≠ .gather) :
    gathers (tr ++ [⟨q, r⟩]) = gathers tr := by
  rw [gathers_concat, if_neg hq, Nat.add_zero]

theorem messages_quiet (tr : List (Sigma Answer)) {q : Call} (r : Answer q) (hq : ∀ n, q ≠ .stillAlive n) :
    messages (tr ++ [⟨q, r⟩]) = messages tr := by
  unfold messages
  rw [List.filterMap_append]
  cases q with
  | stillAlive n => exact absurd rfl (hq n)
  | _ => exact List.append_nil _

theorem messages_stillAlive (tr : List (Sigma Answer)) (n : Int) (r : Answer (.stillAlive n)) :
    messages (tr ++ [⟨.stillAlive n, r⟩]) = messages tr ++ [n] := by
  unfold messages
  rw [List.filterMap_append]
  rfl

/-- A monitor that only remembers. -/
def recorder : Monitor Call Answer (List (Sigma Answer)) := Monitor.history fun _ _ => True

/-- Neither a cycle nor a message. -/
def Silent (q : Call) : Prop := q ≠ .gather ∧ ∀ n, q ≠ .stillAlive n

/-- The trace has so many cycles and these messages. -/
def Counted (c : Nat) (msgs : List Int) (tr : List (Sigma Answer)) : Prop :=
  gathers tr = c ∧ messages tr = msgs

theorem Counted.concat {c : Nat} {msgs : List Int} {tr : List (Sigma Answer)} (h : Counted c msgs tr)
    {q : Call} (hq : Silent q) (r : Answer q) : Counted c msgs (tr ++ [⟨q, r⟩]) :=
  ⟨(gathers_quiet tr r hq.1).trans h.1, (messages_quiet tr r hq.2).trans h.2⟩

theorem counted_perform {E : List (Sigma Answer) → Prop} {c : Nat} {msgs : List Int} {q : Call} (hq : Silent q) :
    Triple recorder E (Counted c msgs) (perform q) (Counted c msgs) :=
  fun _ h => ⟨trivial, fun r _ => h.concat hq r⟩

/-! ## A cycle -/

theorem checked_counted (o : Options) (c : Nat) (msgs : List Int) :
    Checked recorder (fun tr => Counted c msgs tr ∧ ShutDown tr) (Counted c msgs) o where
  call := by
    intro tr q hq h
    refine ⟨trivial, fun r => h.concat ⟨?_, fun n => ?_⟩ r⟩
    · rintro rfl
      exact hq
    · rintro rfl
      exact hq
  shutdown := fun _ tr code h =>
    ⟨trivial, fun r => ⟨h.concat ⟨by simp, by simp⟩ r, code, r, List.mem_append_right _ (List.mem_singleton.mpr rfl)⟩⟩

/-- The ticker and the messages when `count` cycles are done. -/
def tick (verbose : Bool) (logtick count ticker : Int) (msgs : List Int) : Int × List Int :=
  if verbose && logtick ≠ 0 then
    if toInt (ticker - 1) = 0 then (logtick, msgs ++ [count]) else (toInt (ticker - 1), msgs)
  else (ticker, msgs)

/-- Whether the loop goes on after `count` cycles. -/
def goesOn (o : Options) (count : Int) : Bool := !(0 < o.countMax && o.countMax ≤ count)

theorem wp_logTick {E : List (Sigma Answer) → Prop} (g : Globals) (s : State) {c : Nat} {msgs : List Int}
    {tr : List (Sigma Answer)} (h : Counted c msgs tr) :
    Wp recorder (fun s' tr' => s'.count = s.count ∧ s'.running = s.running ∧
      s'.ticker = (tick (verbose g) (g (.int .logtick)) s.count s.ticker msgs).1 ∧
      Counted c (tick (verbose g) (g (.int .logtick)) s.count s.ticker msgs).2 tr') E
      (logTick g s) tr := by
  unfold logTick tick
  dsimp only
  split
  · split
    · refine ⟨trivial, fun r _ => ⟨rfl, rfl, rfl, ?_, ?_⟩⟩
      · exact (gathers_quiet tr r (by simp)).trans h.1
      · exact (messages_stillAlive tr s.count r).trans (by rw [h.2])
    · exact ⟨rfl, rfl, rfl, h⟩
  · exact ⟨rfl, rfl, rfl, h⟩

theorem wp_countExit {E : List (Sigma Answer) → Prop} (o : Options) (s : State) {c : Nat} {msgs : List Int}
    {tr : List (Sigma Answer)} (h : Counted c msgs tr) :
    Wp recorder (fun s' tr' => s'.count = s.count ∧ s'.running = (s.running && goesOn o s.count) ∧
      s'.ticker = s.ticker ∧ Counted c msgs tr') E (countExit o s) tr := by
  unfold countExit goesOn
  split
  · next hmax =>
    refine ⟨trivial, fun r _ => ⟨rfl, ?_, rfl, h.concat ⟨by simp, by simp⟩ r⟩⟩
    rw [hmax, Bool.not_true, Bool.and_false]
  · next hmax =>
    refine ⟨rfl, ?_, rfl, h⟩
    rw [Bool.eq_false_iff.mpr hmax, Bool.not_false, Bool.and_true]

/-- A cycle is counted once, and logged when it is due. -/
theorem wp_cycle (o : Options) (g : Globals) (s : State) {c : Nat} {msgs : List Int}
    {tr : List (Sigma Answer)} (h : Counted c msgs tr) :
    Wp recorder (fun s' tr' => s'.count = s.count + 1 ∧ s'.running = (s.running && goesOn o (s.count + 1)) ∧
      s'.ticker = (tick (verbose g) (g (.int .logtick)) (s.count + 1) s.ticker msgs).1 ∧
      Counted (c + 1) (tick (verbose g) (g (.int .logtick)) (s.count + 1) s.ticker msgs).2 tr')
      (fun tr' => Counted c msgs tr' ∧ ShutDown tr') (cycle o g s) tr := by
  have hchecked := checked_counted o c msgs
  apply (hchecked.refresh g tr h).bind
  intro _ tr₁ h₁
  apply (hchecked.checks g _ _ tr₁ h₁).bind
  intro acts tr₂ h₂
  apply (hchecked.perform (q := .usleep (useconds swait)) trivial tr₂ h₂).bind
  intro _ tr₃ h₃
  have hgather : Wp recorder (fun _ => Counted (c + 1) msgs) (fun tr' => Counted c msgs tr' ∧ ShutDown tr')
      (perform .gather) tr₃ := by
    refine ⟨trivial, fun r _ => ⟨?_, (messages_quiet tr₃ r (by simp)).trans h₃.2⟩⟩
    exact (gathers_concat tr₃ .gather r).trans (by rw [h₃.1, if_pos rfl])
  apply hgather.bind
  intro _ tr₄ h₄
  apply (counted_perform (q := .usleep (useconds (twait (g (.int .tint))))) ⟨by simp, by simp⟩ tr₄ h₄).bind
  intro _ tr₅ h₅
  apply (wp_logTick g _ h₅).bind
  intro s' tr₆ h₆
  obtain ⟨hcount, hrunning, hticker, hcounted⟩ := h₆
  refine (wp_countExit o s' hcounted).mono ?_ fun _ hexit => hexit
  intro s'' tr₇ h₇
  rw [hcount, hrunning, hticker] at h₇
  exact h₇

/-! ## The exit at a count -/

/-- What stops a run before its count: it never came to the loop, a SIGTERM, a shutdown. -/
def Stopped (tr : List (Sigma Answer)) : Prop :=
  (∀ r, ⟨.running, r⟩ ∉ tr) ∨ (∃ t, ⟨.running, (false, t)⟩ ∈ tr) ∨ ShutDown tr

/-- All cycles were gone through, or something stopped them. -/
def Ended (max : Int) (tr : List (Sigma Answer)) : Prop :=
  (gathers tr : Int) = max ∨ (gathers tr : Int) < max ∧ Stopped tr

/-- The loop runs below its count, with enough cycles left to get there, or has ended. -/
def Counting (max : Int) (cycles : Nat) (s : State) (tr : List (Sigma Answer)) : Prop :=
  if s.running then s.count = gathers tr ∧ s.count < max ∧ max ≤ s.count + cycles else Ended max tr

theorem wp_mainLoop_ends (o : Options) (g : Globals) (hmax : 0 < o.countMax) :
    ∀ (cycles : Nat) (s : State) (tr : List (Sigma Answer)), Counting o.countMax cycles s tr →
      Wp recorder (fun s' tr' => s'.running = false ∧ Ended o.countMax tr') (Ended o.countMax) (mainLoop o g cycles s) tr
  | 0, s, tr, h => by
    unfold Counting at h
    split at h
    · omega
    · next hstop => exact ⟨Bool.eq_false_iff.mpr hstop, h⟩
  | cycles + 1, s, tr, h => by
    unfold Counting at h
    apply Wp.ite
    · intro hrun
      rw [if_pos hrun] at h
      obtain ⟨hcount, hbelow, henough⟩ := h
      refine ⟨trivial, ?_⟩
      rintro ⟨(running : Bool), t⟩ -
      have hsame : gathers (tr ++ [⟨.running, (running, t)⟩]) = gathers tr := gathers_quiet tr _ (by simp)
      show Wp recorder _ _ (if running = true then _ else _) (tr ++ [⟨.running, (running, t)⟩])
      apply Wp.ite
      · intro _
        have hcycle := wp_cycle o g s (c := gathers tr) ⟨hsame, rfl⟩
        refine (hcycle.mono (fun _ _ h => h) ?_).bind ?_
        · -- A shutdown comes before the cycle is counted.
          intro tr' hdown
          refine Or.inr ⟨?_, Or.inr (Or.inr hdown.2)⟩
          rw [hdown.1.1]
          omega
        · intro s' tr' hcycled
          obtain ⟨hcount', hrunning', -, hgathers, -⟩ := hcycled
          apply wp_mainLoop_ends o g hmax cycles s' tr'
          unfold Counting
          rw [hrunning', hrun, Bool.true_and]
          by_cases hlast : o.countMax ≤ s.count + 1
          · have hstop : goesOn o (s.count + 1) = false := by simp [goesOn, hmax, hlast]
            rw [hstop, if_neg Bool.false_ne_true]
            exact Or.inl (by omega)
          · have hgoes : goesOn o (s.count + 1) = true := by simp [goesOn, hlast]
            rw [if_pos hgoes]
            omega
      · intro hterm
        rw [Bool.not_eq_true] at hterm
        subst hterm
        refine ⟨rfl, Or.inr ⟨?_, Or.inr (Or.inl ⟨t, List.mem_append_right _ (List.mem_singleton.mpr rfl)⟩)⟩⟩
        omega
    · intro hstop
      rw [if_neg hstop] at h
      exact ⟨Bool.eq_false_iff.mpr hstop, h⟩

/-- No call of the loop yet. -/
def Before (tr : List (Sigma Answer)) : Prop := Counted 0 [] tr ∧ ∀ r, ⟨.running, r⟩ ∉ tr

theorem before_nil : Before [] := ⟨⟨rfl, rfl⟩, fun _ h => by cases h⟩

theorem started_before (o : Options) {E : List (Sigma Answer) → Prop} (hE : ∀ tr, Before tr → E tr) :
    Started recorder E (fun _ => Before) o := by
  have hcall : ∀ {q : Call} {k : Nat}, stage q = some k → k ≠ 12 → Triple recorder E Before (perform q) Before := by
    intro q k hstage hk tr htr
    have hne : ∀ {q' : Call}, stage q' = some 12 → q ≠ q' := by
      rintro q' h rfl
      exact hk (Option.some.inj (hstage.symm.trans h))
    refine ⟨trivial, fun r _ => ⟨htr.1.concat ⟨hne rfl, fun n => hne rfl⟩ r, fun r' hmem => ?_⟩⟩
    rcases List.mem_append.mp hmem with hmem | hmem
    · exact htr.2 r' hmem
    · exact hne rfl (congrArg Sigma.fst (List.mem_singleton.mp hmem)).symm
  exact {
    step := fun hq hk _ _ => hcall hq (by omega)
    skip := fun _ h => h
    pidFile := Triple.ite (fun _ => triple_insist _ (hcall (k := 5) rfl (by decide)) hE) fun _ _ h => h
    device := Triple.ite (fun _ => (hcall (k := 6) rfl (by decide)).bind fun _ _ h => h) fun _ _ h => h
    exit := fun h => hE _ h }

theorem EndCall.ne {q q' : Call} (h : EndCall q) (h' : stage q' = some 12) : q ≠ q' := by
  rintro rfl
  obtain hq | ⟨k, hq, hle⟩ := h
  · rw [hq] at h'
    cases h'
  · rw [hq, Option.some.injEq] at h'
    omega

theorem Ended.concat {max : Int} {tr : List (Sigma Answer)} (h : Ended max tr) {q : Call} (hq : EndCall q)
    (r : Answer q) : Ended max (tr ++ [⟨q, r⟩]) := by
  have hsame : gathers (tr ++ [⟨q, r⟩]) = gathers tr := gathers_quiet tr r (hq.ne rfl)
  unfold Ended
  rw [hsame]
  refine h.imp_right fun h => ⟨h.1, ?_⟩
  rcases h.2 with hnever | ⟨t, hmem⟩ | ⟨code, r', hmem⟩
  · refine Or.inl fun r' hmem => ?_
    rcases List.mem_append.mp hmem with hmem | hmem
    · exact hnever r' hmem
    · exact hq.ne rfl (congrArg Sigma.fst (List.mem_singleton.mp hmem)).symm
  · exact Or.inr (Or.inl ⟨t, List.mem_append_left _ hmem⟩)
  · exact Or.inr (Or.inr ⟨code, r', List.mem_append_left _ hmem⟩)

/-- **`--loop-exit N` ends after N cycles.** With enough cycles for it, every run of `main`
comes to an exit, after exactly N cycles, or after fewer when the start failed, a SIGTERM came
or the system went down. -/
theorem loop_exit_exact (env : ConfEnv) (minload : Int) (o : Options) (hmax : 0 < o.countMax)
    (configfile : Option CString) (cycles : Nat) (hcycles : o.countMax ≤ cycles)
    (answers : Nat → (q : Call) → Answer q) :
    (main env minload o configfile cycles).result answers 0 = none ∧
      Ended o.countMax ((main env minload o configfile cycles).trace answers 0) := by
  have hbefore : ∀ tr, Before tr → Ended o.countMax tr := by
    intro tr htr
    refine Or.inr ⟨?_, Or.inl htr.2⟩
    rw [htr.1.1]
    exact hmax
  have hend : Triple recorder (Ended o.countMax) (Ended o.countMax) (terminate 0) (fun _ => False) :=
    triple_terminate 0 (fun _ q hq h => ⟨trivial, fun r => h.concat hq r⟩) fun _ h => h
  have hloop : ∀ g, readConfig env (startGlobals o) configfile = .ok g → ∀ tr, Before tr →
      Wp recorder (fun s' tr' => s'.running = false ∧ Ended o.countMax tr') (Ended o.countMax)
        (mainLoop o (zeroRetry g) cycles (State.first (zeroRetry g))) tr := by
    intro g _ tr htr
    apply wp_mainLoop_ends o (zeroRetry g) hmax cycles
    unfold Counting
    rw [State.first, if_pos rfl, htr.1.1]
    dsimp only
    omega
  have hmain : Wp recorder (fun _ _ => False) (Ended o.countMax) (main env minload o configfile cycles) [] := by
    refine wp_main (started_before o hbefore) hloop (fun _ tr h _ => hend tr h.2) ?_ before_nil
    intro s _ h hrun
    rw [h.1] at hrun
    cases hrun
  have hsound := (hmain.sound answers 0 (Monitor.follows_of_allows (fun _ _ _ => trivial) _ _)).2
  rw [recorder, Monitor.history_after, List.nil_append] at hsound
  split at hsound
  · exact hsound.elim
  · next hnone => exact ⟨hnone, hsound⟩

/-- Two cycles are asked for, and all is well. -/
theorem loop_exit_exact_calm :
    (main ⟨true, fun _ => none, fun _ => none⟩ 2 { countMax := 2 } (some []) 3).result calm 0 = none :=
  (loop_exit_exact _ 2 { countMax := 2 } (by decide) (some []) 3 (by decide) calm).1

/-! ## The messages -/

def IsInt (n : Int) : Prop := -2 ^ 31 ≤ n ∧ n < 2 ^ 31

/-- The cycles from one message to the next: counted down from a negative `logtick`, the
ticker wraps once before it comes to 0. -/
def period (logtick : Int) : Nat := (logtick % 2 ^ 32).toNat

theorem period_eq {logtick : Int} (h : IsInt logtick) :
    (period logtick : Int) = if logtick < 0 then 2 ^ 32 + logtick else logtick := by
  unfold IsInt at h
  unfold period
  split <;> omega

/-- The multiples of the period up to the number of cycles. -/
def stillAlives (verbose : Bool) (logtick : Int) (c : Nat) : List Int :=
  if verbose && logtick ≠ 0 then
    (List.range (c / period logtick)).map fun k => (((k + 1) * period logtick : Nat) : Int)
  else []

/-- The next multiple is as many cycles away as the ticker says. -/
def Ticking (logtick : Int) (c : Nat) (ticker : Int) : Prop :=
  ticker = toInt (logtick - (c % period logtick : Nat))

/-- One more cycle: the ticker comes to 0 at a multiple. -/
theorem succ_eq_mul {l c : Nat} (h : c % l + 1 = l) : c + 1 = (c / l + 1) * l := by
  have := Nat.div_add_mod c l
  rw [Nat.add_mul, Nat.one_mul, Nat.mul_comm]
  omega

theorem range_div_succ {l c : Nat} (hl : 0 < l) (h : c % l + 1 = l) :
    (List.range ((c + 1) / l)).map (fun k => (((k + 1) * l : Nat) : Int)) =
      (List.range (c / l)).map (fun k => (((k + 1) * l : Nat) : Int)) ++ [((c + 1 : Nat) : Int)] := by
  have hdiv : (c + 1) / l = c / l + 1 := by
    rw [succ_eq_mul h]
    exact Nat.mul_div_cancel _ hl
  rw [hdiv, List.range_succ, List.map_append, List.map_singleton, ← succ_eq_mul h]

/-- And nowhere else. -/
theorem div_succ_of_lt {l c : Nat} (h : c % l + 1 < l) : (c + 1) / l = c / l ∧ (c + 1) % l = c % l + 1 := by
  have hc : c + 1 = (c % l + 1) + l * (c / l) := by
    have := Nat.div_add_mod c l
    omega
  refine ⟨?_, ?_⟩
  · rw [hc, Nat.add_mul_div_left _ _ (by omega), Nat.div_eq_of_lt h, Nat.zero_add]
  · rw [hc, Nat.add_mul_mod_self_left, Nat.mod_eq_of_lt h]

/-- A decrement wraps as the difference it stands for. -/
theorem toInt_pred (x : Int) : toInt (toInt x - 1) = toInt (x - 1) :=
  Int.bmod_sub_bmod

/-- Within a period the ticker is 0 at its end only. -/
theorem ticker_zero_iff {logtick : Int} {k : Nat} (hk : k ≤ period logtick) (hpos : 0 < k) :
    toInt (logtick - k) = 0 ↔ k = period logtick := by
  unfold toInt period at *
  rw [← Int.dvd_iff_bmod_eq_zero]
  omega

theorem tick_exact {v : Bool} {logtick ticker : Int} {c : Nat}
    (h : v = true → logtick ≠ 0 → IsInt logtick ∧ Ticking logtick c ticker) :
    (v = true → logtick ≠ 0 →
      Ticking logtick (c + 1) (tick v logtick (c + 1) ticker (stillAlives v logtick c)).1) ∧
      (tick v logtick (c + 1) ticker (stillAlives v logtick c)).2 = stillAlives v logtick (c + 1) := by
  by_cases hlogs : v = true ∧ logtick ≠ 0
  · obtain ⟨rfl, hne⟩ := hlogs
    obtain ⟨hint, hticker⟩ := h rfl hne
    have hl : 0 < period logtick := by
      unfold IsInt at hint
      unfold period
      omega
    have hmsgs : ∀ n, stillAlives true logtick n =
        (List.range (n / period logtick)).map fun k => (((k + 1) * period logtick : Nat) : Int) :=
      fun n => by simp [stillAlives, hne]
    have hlt := Nat.mod_lt c hl
    have hnext : toInt (ticker - 1) = toInt (logtick - ((c % period logtick + 1 : Nat) : Int)) := by
      rw [hticker, toInt_pred]
      congr 1
      push_cast
      omega
    have hzero : toInt (logtick - (c % period logtick + 1 : Nat)) = 0 ↔ c % period logtick + 1 = period logtick :=
      ticker_zero_iff (by omega) (by omega)
    rw [hmsgs, hmsgs]
    by_cases hlast : c % period logtick + 1 = period logtick
    · have htick : ∀ msgs, tick true logtick (c + 1) ticker msgs = (logtick, msgs ++ [(c : Int) + 1]) := fun msgs => by
        rw [tick, if_pos (by simpa using hne), hnext, if_pos (hzero.mpr hlast)]
      have hmod : (c + 1) % period logtick = 0 := by
        rw [succ_eq_mul hlast]
        exact Nat.mul_mod_left _ _
      rw [htick, range_div_succ hl hlast]
      refine ⟨fun _ _ => ?_, rfl⟩
      rw [Ticking, hmod, Nat.cast_zero, Int.sub_zero]
      exact (toInt_eq_self hint.1 hint.2).symm
    · have htick : ∀ msgs, tick true logtick (c + 1) ticker msgs =
          (toInt (logtick - ((c % period logtick + 1 : Nat) : Int)), msgs) := fun msgs => by
        rw [tick, if_pos (by simpa using hne), hnext, if_neg (mt hzero.mp hlast)]
      obtain ⟨hdiv, hmod⟩ := div_succ_of_lt (l := period logtick) (c := c) (by omega)
      rw [htick, hdiv]
      refine ⟨fun _ _ => ?_, rfl⟩
      rw [Ticking, hmod]
  · have hmsgs : ∀ n, stillAlives v logtick n = [] := fun n => by
      rw [stillAlives, if_neg (by simpa using hlogs)]
    have htick : ∀ msgs, tick v logtick (c + 1) ticker msgs = (ticker, msgs) := fun msgs => by
      rw [tick, if_neg (by simpa using hlogs)]
    rw [hmsgs, hmsgs, htick]
    exact ⟨fun hv hne => absurd ⟨hv, hne⟩ hlogs, rfl⟩

/-- As many messages as are due, in the loop and where it is left. -/
def Told (g : Globals) (tr : List (Sigma Answer)) : Prop :=
  messages tr = stillAlives (verbose g) (g (.int .logtick)) (gathers tr)

/-- The counters of the loop are right. -/
structure OnTime (g : Globals) (s : State) (tr : List (Sigma Answer)) : Prop where
  told : Told g tr
  count : s.count = gathers tr
  ticking : verbose g = true → (g (.int .logtick) : Int) ≠ 0 →
    Ticking (g (.int .logtick)) (gathers tr) s.ticker

theorem wp_mainLoop_tells (o : Options) (g : Globals) (hint : IsInt (g (.int .logtick))) :
    ∀ (cycles : Nat) (s : State) (tr : List (Sigma Answer)), OnTime g s tr →
      Wp recorder (fun _ => Told g) (Told g) (mainLoop o g cycles s) tr
  | 0, _, _, h => h.told
  | cycles + 1, s, tr, h => by
    refine Wp.ite (fun _ => ⟨trivial, ?_⟩) fun _ => h.told
    rintro ⟨(running : Bool), t⟩ -
    have hcounted : Counted (gathers tr) (messages tr) (tr ++ [⟨.running, (running, t)⟩]) :=
      Counted.concat ⟨rfl, rfl⟩ ⟨by simp, by simp⟩ _
    have htold : ∀ {tr'}, Counted (gathers tr) (messages tr) tr' → Told g tr' := by
      intro tr' h'
      unfold Told
      rw [h'.1, h'.2]
      exact h.told
    show Wp recorder _ _ (if running = true then _ else _) (tr ++ [⟨.running, (running, t)⟩])
    refine Wp.ite (fun _ => ?_) fun _ => htold hcounted
    refine ((wp_cycle o g s hcounted).mono (fun _ _ h => h) fun tr' hdown => htold hdown.1).bind ?_
    intro s' tr' hcycled
    obtain ⟨hcount, -, hticker, hgathers, hmsgs⟩ := hcycled
    obtain ⟨hticking, htells⟩ := tick_exact fun hv hne => ⟨hint, h.ticking hv hne⟩
    rw [h.count, h.told] at hticker hmsgs
    refine wp_mainLoop_tells o g hint cycles s' tr' ⟨?_, ?_, ?_⟩
    · unfold Told
      rw [hmsgs, hgathers]
      exact htells
    · rw [hcount, hgathers, h.count]
      rfl
    · rw [hgathers, hticker]
      exact hticking

/-- `ticker` and `logtick` are the same `int` when the configuration has been read. -/
theorem logtick_of_read {env : ConfEnv} {o : Options} {configfile : Option CString} {g : Globals}
    (h : readConfig env (startGlobals o) configfile = .ok g) : TickersEqual g ∧ IsInt (g (.int .logtick)) := by
  have hinitial : Initial (startGlobals o) := by
    intro v hv
    simp only [List.mem_cons, List.not_mem_nil, or_false, not_or] at hv
    unfold startGlobals
    rw [Globals.setInt, Function.update_of_ne hv.2.1, Globals.setInt, Function.update_of_ne hv.1]
  have hfirst : IsInt (atFirstLine (startGlobals o) (.int .logtick)) := by
    rw [hinitial.atFirstLine (by decide) (by decide) (by decide)]
    exact ⟨by decide, by decide⟩
  have hstep : ∀ (g : Globals) line, IsInt (g (.int .logtick)) → IsInt (readLine g line (.int .logtick)) := by
    intro g line hg
    rcases readLine_logtick g line with hkept | ⟨val, hread⟩
    · rwa [hkept]
    · rw [hread, atoi_eq]
      exact toInt_bounds _
  cases configfile with
  | none => cases h
  | some text =>
    have hlines : Runs.Allowed readLine (fun _ _ => True) (atFirstLine (startGlobals o)) (getLines text) :=
      Runs.allowed_of_forall (P := fun _ => True) fun _ _ => trivial
    have hread : TickersEqual (Runs.run readLine (atFirstLine (startGlobals o)) (getLines text)) :=
      Runs.run_inv (fun _ l h _ => h.readLine l) (tickersEqual_atFirstLine hinitial) hlines
    have hint : IsInt (Runs.run readLine (atFirstLine (startGlobals o)) (getLines text) (.int .logtick)) :=
      Runs.run_inv (I := fun g : Globals => IsInt (g (.int .logtick))) (fun g l h _ => hstep g l h) hfirst hlines
    unfold TickersEqual
    rw [finish_frame h (by decide) (by decide) (by decide), finish_frame h (by decide) (by decide) (by decide)]
    exact ⟨hread, hint⟩

/-- **The messages are the multiples of `logtick`.** In every run of `main`, the counts that
are logged are the multiples of the period up to the number of cycles, each once and in order:
the period is `logtick`, and 2^32 more for a negative one. None is logged without `verbose` or
with a `logtick` of 0. -/
theorem still_alive_exact (env : ConfEnv) (minload : Int) (o : Options) (configfile : Option CString)
    (g : Globals) (hread : readConfig env (startGlobals o) configfile = .ok g) (cycles : Nat)
    (answers : Nat → (q : Call) → Answer q) :
    let tr := (main env minload o configfile cycles).trace answers 0
    messages tr = stillAlives (verbose g) (g (.int .logtick)) (gathers tr) ∧
      (period (g (.int .logtick)) : Int) =
        if (g (.int .logtick) : Int) < 0 then 2 ^ 32 + g (.int .logtick) else g (.int .logtick) := by
  obtain ⟨hequals, hint⟩ := logtick_of_read hread
  refine ⟨?_, period_eq hint⟩
  have hverbose : verbose (zeroRetry g) = verbose g := by
    unfold verbose
    rw [zeroRetry_frame g (by decide)]
  have hnone : stillAlives (verbose g) (g (.int .logtick)) 0 = [] := by
    unfold stillAlives
    split <;> simp
  have hbefore : ∀ tr, Before tr → Told g tr := by
    intro tr htr
    unfold Told
    rw [htr.1.1, htr.1.2, hnone]
  have hzero : ∀ tr, Told (zeroRetry g) tr ↔ Told g tr := by
    intro tr
    unfold Told
    rw [hverbose, zeroRetry_frame g (by decide)]
  have hloop : ∀ g', readConfig env (startGlobals o) configfile = .ok g' → ∀ tr, Before tr →
      Wp recorder (fun _ => Told g) (Told g) (mainLoop o (zeroRetry g') cycles (State.first (zeroRetry g'))) tr := by
    intro g' hread' tr htr
    obtain rfl : g' = g := Except.ok.inj (hread'.symm.trans hread)
    have hzint : IsInt (zeroRetry g' (.int .logtick)) := by
      rwa [zeroRetry_frame g' (by decide)]
    have hontime : OnTime (zeroRetry g') (State.first (zeroRetry g')) tr := by
      refine ⟨(hzero tr).mpr (hbefore tr htr), ?_, fun _ _ => ?_⟩
      · rw [htr.1.1]
        rfl
      · have hequal : (State.first (zeroRetry g')).ticker = (zeroRetry g' (.int .logtick) : Int) := by
          show (zeroRetry g' (.int .ticker) : Int) = _
          rw [zeroRetry_frame g' (by decide), zeroRetry_frame g' (by decide)]
          exact hequals
        rw [Ticking, hequal, htr.1.1, Nat.zero_mod, Nat.cast_zero, Int.sub_zero]
        exact (toInt_eq_self hzint.1 hzint.2).symm
    refine (wp_mainLoop_tells o (zeroRetry g') hzint cycles _ tr hontime).mono ?_ ?_
    · exact fun _ tr' h => (hzero tr').mp h
    · exact fun tr' h => (hzero tr').mp h
  have hend : ∀ tr, Told g tr → Wp recorder (fun _ => Told g) (Told g) (terminate 0) tr := by
    intro tr htr
    refine (triple_terminate 0 ?_ (fun _ h => h) tr htr).mono (fun _ _ h => h.elim) fun _ h => h
    intro tr' q hq h'
    refine ⟨trivial, fun r => ?_⟩
    show Told g (tr' ++ [⟨q, r⟩])
    unfold Told
    rw [messages_quiet tr' r fun n => hq.ne rfl, gathers_quiet tr' r (hq.ne rfl)]
    exact h'
  have hmain : Wp recorder (fun _ => Told g) (Told g) (main env minload o configfile cycles) [] :=
    wp_main (started_before o hbefore) hloop (fun _ tr h _ => hend tr h) (fun _ _ h _ => h) before_nil
  have hsound := (hmain.sound answers 0 (Monitor.follows_of_allows (fun _ _ _ => trivial) _ _)).2
  rw [recorder, Monitor.history_after, List.nil_append] at hsound
  split at hsound
  · exact hsound
  · exact hsound

/-- Three cycles with a `logtick` of 2. -/
theorem still_alive_exact_second :
    messages ((main ⟨true, fun _ => none, fun _ => none⟩ 2 { verbose := true } (some "logtick = 2\n".toList) 3).trace
      calm 0) = [2] := by
  have hread : ∃ g, readConfig ⟨true, fun _ => none, fun _ => none⟩ (startGlobals { verbose := true })
      (some "logtick = 2\n".toList) = .ok g ∧
      verbose g = true ∧ (g (.int .logtick) : Int) = 2 := ⟨_, rfl, by decide +kernel, by decide +kernel⟩
  obtain ⟨g, hread, hverbose, hlogtick⟩ := hread
  refine (still_alive_exact _ 2 { verbose := true } _ g hread 3 calm).1.trans ?_
  rw [hverbose, hlogtick]
  decide +kernel

end Watchdog.Daemon
