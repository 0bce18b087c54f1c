import WatchdogDaemon.Retry

/- The checks that have no list entry, in the main loop.

   `wd_action` keeps the retry timer and the count of repairs in the entry of the check.
   The file table, the load, the memory and the watchdog device itself have none: their
   results come with `act` NULL, and of a fault there nothing is remembered from one cycle
   to the next. Every repairable failure runs `repair()`, and as long as that answers 0
   nothing else ever happens.

   A run is any sequence of results, in the order in which the loop makes its calls of
   `wd_action`; it ends where one asks for a shutdown and `--no-action` is not set.

   What is proved:
     1. `limited_iff` — for every run and every check without an entry: between two
        successes there are at most `repair_max` repairs and the next failure asks for a
        shutdown, if and only if the check never fails repairably more than `repair_max`
        times without a success between.
     2. `repairs_for_ever` — a load that stays too high, repaired twice with a limit of one.

   Correspondence (C ↔ Lean):
     the calls in the loop of `main`        ↔ `doChecks`, `cycleOrder`, `mainStep` -/
namespace Watchdog

/-! ## The loop -/

/-- The checks without an entry. -/
inductive Global where
  | keepAlive
  | syncSystem
  | fileTable
  | load
  | memory
  | allocatable
  deriving DecidableEq

/-- Where a result comes from. `entry i` is the check of the `i`-th entry, all lists in the
order of the loop. -/
inductive Source where
  | global (g : Global)
  | entry (i : Nat)
  deriving DecidableEq

/-- What `do_check` is called with in one cycle, with `n` entries in all lists. -/
def doChecks (n : Nat) : List Source :=
  [.global .syncSystem, .global .fileTable, .global .load, .global .memory, .global .allocatable] ++
    (List.range n).map Source.entry

/-- The calls of `wd_action` in one cycle: `do_check` makes one for `keep_alive ()` after its
own. -/
def cycleOrder (n : Nat) : List Source :=
  .global .keepAlive :: (doChecks n).flatMap fun source => [source, .global .keepAlive]

/-- The source of the `i`-th call of a run. -/
def sourceAt (n i : Nat) : Source :=
  (cycleOrder n).getD (i % (cycleOrder n).length) (.global .keepAlive)

/-- The entry that is handed to `wd_action`. -/
def Source.act (acts : List Entry) : Source → Option Entry
  | .entry i => acts[i]?
  | _ => none

/-- The entries, whether a shutdown has begun, and the calls made, the last one first. -/
structure MainState where
  acts : List Entry
  down : Bool
  made : List (Source × Made)

/-- The entries after `wd_action`. -/
def Source.put (acts : List Entry) : Source → Option Entry → List Entry
  | .entry i, some act => acts.set i act
  | _, _ => acts

def MainState.source (n : Nat) (s : MainState) : Source := sourceAt n s.made.length

/-- `wd_action` on the next result. -/
def MainState.action (cfg : Config) (rbinary : Option CString) (n : Nat) (s : MainState)
    (c : ActionCall) : Outcome :=
  Id.run (wdAction (fun _ _ _ _ => pure c.answer) cfg c.now c.result rbinary ((s.source n).act s.acts))

def mainStep (cfg : Config) (rbinary : Option CString) (n : Nat) (s : MainState) (c : ActionCall) :
    MainState :=
  if s.down then s
  else
    let out := s.action cfg rbinary n c
    { acts := (s.source n).put s.acts out.act
      down := match out.request with
        | some (.doShutdown _) => true
        | _ => false
      made := (s.source n, ⟨c, out.repaired, out.request⟩) :: s.made }

/-- The loop after the results, from the entries as the configuration made them. -/
def mainAfter (cfg : Config) (rbinary : Option CString) (acts : List Entry) (calls : List ActionCall) :
    MainState :=
  Runs.run (mainStep cfg rbinary acts.length) ⟨acts, false, []⟩ calls

/-! ## The specification -/

/-- The calls for one check, the last one first. -/
def MainState.of (s : MainState) (source : Source) : List Made :=
  (s.made.filter fun d => d.1 = source).map (·.2)

/-- The repairable failures since the last success. -/
def failuresSinceOk (made : List Made) : Nat :=
  (made.takeWhile fun d => d.call.result != enoerr).countP fun d => repairable d.call.result

/-- A call keeps the limit: it repairs only while fewer than `repair_max` repairs ran since
the last success, and after these a repairable failure asks for a shutdown. -/
structure Limited (cfg : Config) (made : List Made) (c : ActionCall) (out : Outcome) : Prop where
  repairs : out.repaired.isSome → (repairsSinceOk made : Int) < cfg.repairMax
  asks : repairable c.result = true → cfg.repairMax ≤ repairsSinceOk made →
    out.repaired = none ∧ out.request = some (cfg.request c.result)

/-! ## One call -/

section Call
variable {cfg : Config} {rbinary : Option CString} {n : Nat} {s : MainState} {c : ActionCall}

/-- Without an entry, a call repairs exactly when its failure is repairable. -/
theorem action_global {g : Global} (h : s.source n = .global g) :
    (s.action cfg rbinary n c).repaired.isSome = repairable c.result := by
  have hact : (s.source n).act s.acts = none := by rw [h]; rfl
  unfold MainState.action
  rw [hact]
  rcases result_cases c.result with hr | hr | hr | hr
  · simp [wdAction, hr, repairable]
  · simp [wdAction, hr, repairable, edontknow, enoerr]
  · have hne : c.result ≠ enoerr ∧ c.result ≠ edontknow := by
      refine ⟨?_, ?_⟩ <;> intro he <;> rw [he] at hr <;> exact absurd hr (by decide)
    simp [wdAction, hr, hne, repairable]
  · obtain ⟨h₁, h₂, h₃⟩ := repairable_ne hr
    simp [wdAction, h₁, h₂, h₃, hr, retryTimer, countRepair]

/-- So it keeps the limit exactly when the failure is not one too many. -/
theorem limited_step {g : Global} (h : s.source n = .global g) (made : List Made) :
    Limited cfg made c (s.action cfg rbinary n c) ↔
      (repairable c.result = true → (repairsSinceOk made : Int) < cfg.repairMax) := by
  have hrep : (s.action cfg rbinary n c).repaired.isSome = _ := action_global h
  constructor
  · intro hl hr
    apply hl.repairs
    rw [hrep]
    exact hr
  · intro hlt
    refine ⟨?_, ?_⟩
    · intro hsome
      rw [hrep] at hsome
      exact hlt hsome
    · intro hr hge
      have := hlt hr
      omega

/-- Of a check without an entry, exactly the repairable failures were repaired. -/
def AllRepaired (g : Global) (s : MainState) : Prop :=
  ∀ d ∈ s.of (.global g), d.repaired.isSome = repairable d.call.result

theorem AllRepaired.step {g : Global} (h : AllRepaired g s) (c : ActionCall) :
    AllRepaired g (mainStep cfg rbinary n s c) := by
  unfold mainStep
  split
  · exact h
  · intro d hd
    unfold MainState.of at hd
    by_cases hs : s.source n = .global g
    · rw [List.filter_cons_of_pos (by simpa using hs), List.map_cons] at hd
      obtain rfl | hd := List.mem_cons.mp hd
      · exact action_global hs
      · exact h d hd
    · rw [List.filter_cons_of_neg (by simpa using hs)] at hd
      exact h d hd

end Call

theorem AllRepaired.after (g : Global) (cfg : Config) (rbinary : Option CString) (acts : List Entry)
    (calls : List ActionCall) : AllRepaired g (mainAfter cfg rbinary acts calls) :=
  Runs.run_inv (fun _ c h (_ : True) => h.step c) (fun _ hd => absurd hd List.not_mem_nil)
    (Runs.allowed_of_forall fun _ _ => trivial)

theorem AllRepaired.count {g : Global} {s : MainState} (h : AllRepaired g s) :
    repairsSinceOk (s.of (.global g)) = failuresSinceOk (s.of (.global g)) := by
  unfold repairsSinceOk failuresSinceOk
  apply List.countP_congr
  intro d hd
  rw [h d ((List.takeWhile_sublist _).subset hd)]

/-! ## Whole runs -/

/-- **The limit is kept exactly as long as it is not reached.** -/
theorem limited_iff (cfg : Config) (rbinary : Option CString) (acts : List Entry)
    (calls : List ActionCall) (g : Global) :
    (∀ pre c post, calls = pre ++ c :: post →
        let s := mainAfter cfg rbinary acts pre
        s.down = false → s.source acts.length = .global g →
        Limited cfg (s.of (.global g)) c (s.action cfg rbinary acts.length c)) ↔
      ∀ pre c post, calls = pre ++ c :: post →
        let s := mainAfter cfg rbinary acts pre
        s.down = false → s.source acts.length = .global g → repairable c.result = true →
        (failuresSinceOk (s.of (.global g)) : Int) < cfg.repairMax := by
  have hone : ∀ pre c, (mainAfter cfg rbinary acts pre).source acts.length = .global g →
      (Limited cfg ((mainAfter cfg rbinary acts pre).of (.global g)) c
          ((mainAfter cfg rbinary acts pre).action cfg rbinary acts.length c) ↔
        (repairable c.result = true →
          (failuresSinceOk ((mainAfter cfg rbinary acts pre).of (.global g)) : Int) < cfg.repairMax)) := by
    intro pre c hs
    rw [limited_step hs, (AllRepaired.after g cfg rbinary acts pre).count]
  constructor
  · intro h pre c post hcalls s hdown hs
    exact (hone pre c hs).mp (h pre c post hcalls hdown hs)
  · intro h pre c post hcalls s hdown hs
    exact (hone pre c hs).mpr (h pre c post hcalls hdown hs)

/-- The default limit of one, no list entries, and two cycles up to the load check: the load
is too high in both, and the repair program reports success. -/
def highLoad : List ActionCall :=
  List.replicate 5 ⟨enoerr, 100, 0⟩ ++ [⟨emaxload, 100, 0⟩] ++ List.replicate 10 ⟨enoerr, 160, 0⟩

/-- The load is repaired a second time, with no success between. -/
theorem repairs_for_ever :
    ¬ ∀ pre c post, highLoad ++ [⟨emaxload, 160, 0⟩] = pre ++ c :: post →
      let s := mainAfter {} (some ['r']) [] pre
      s.down = false → s.source 0 = .global .load →
      Limited {} (s.of (.global .load)) c (s.action {} (some ['r']) 0 c) := by
  intro h
  have hlimited := h highLoad ⟨emaxload, 160, 0⟩ [] rfl (by decide) (by decide)
  have hfew := hlimited.repairs (by decide)
  exact absurd hfew (by decide)

end Watchdog
