import WatchdogDaemon.Basic

/- `wd_action()` of `watchdog.c`: what is done about a check's result.

   A success clears the entry's retry timer and repair counter. The codes that ask
   for a reboot do so at once. Any other error waits until it has lasted longer than
   `retry_timeout` (`retryTimer`), is then given to the repair program at most
   `repair_max` times (`countRepair`), and after that asks for a shutdown. Two
   fields of the entry carry the whole decision from call to call: `last_time`,
   which is also 0 for "timer off", and `repair_count`.

   `repair()` is a parameter in a monad, so that the same function runs with a given
   answer, against a kernel that schedules children, or in a process that a `fork`
   splits in two.

   Correspondence (C ↔ Lean):
     `struct list`                  ↔ `Entry` (without `parameter` and `next`)
     `wd_action`, lines 200-223     ↔ `retryTimer`
     `wd_action`, lines 225-241     ↔ `countRepair`
     `wd_action`, lines 252-263     ↔ `consider`
     `wd_action`                    ↔ `wdAction`
   `repair_count` is an `int` that grows by one at every overdue call, also when the
   repairs are used up, and wraps around. -/
namespace Watchdog

/-- An entry of one of the lists of checks. -/
structure Entry where
  name : CString
  version : Int
  lastTime : Int := 0
  repairCount : Int := 0
  deriving DecidableEq

/-- The entry as `add_list` makes it: timer off, nothing counted. -/
def freshEntry (name : CString) (version : Int) : Entry := { name, version }

/-- The end of `wd_action`: a shutdown, or its being blocked by `--no-action`. -/
inductive Request where
  | doShutdown (code : Int)
  | blocked (code : Int)
  deriving DecidableEq

/-- What one call does: the entry after it, the answer of `repair()` if it ran, and
the request if there is one. -/
structure Outcome where
  act : Option Entry
  repaired : Option Int
  request : Option Request
  deriving DecidableEq

def Config.request (cfg : Config) (code : Int) : Request :=
  if cfg.noAct then .blocked code else .doShutdown code

/-- If still error, consider reboot. -/
def consider (cfg : Config) (result : Int) : Option Request :=
  if result = enoerr then none else some (cfg.request result)

/-- The retry timer of a repairable error: the entry with the timer started, and
whether the error has lasted too long. -/
def retryTimer (cfg : Config) (now : Int) : Option Entry → Option Entry × Bool
  | none => (none, true)
  | some act =>
    if 0 < cfg.retryTimeout then
      if act.lastTime = 0 then
        (some { act with lastTime := now }, false)
      else
        (some act, decide (cfg.retryTimeout < toInt (now - act.lastTime)))
    else
      (some act, true)

/-- The count of repair attempts: the entry with this one counted, and whether to
try it. An attempt restarts the retry period. -/
def countRepair (cfg : Config) : Option Entry → Option Entry × Bool
  | none => (none, true)
  | some act =>
    if 0 < cfg.repairMax then
      if cfg.repairMax < toInt (act.repairCount + 1) then
        -- The count goes on growing, and the timer keeps running.
        (some { act with repairCount := toInt (act.repairCount + 1) }, false)
      else
        (some { act with repairCount := toInt (act.repairCount + 1), lastTime := 0 }, true)
    else
      (some act, true)

/-- The codes that are not repairable. -/
def unconditional (result : Int) : Bool :=
  result = ereboot || result = ereset || result = etoohot

/-- An error that `repair()` may be tried on. -/
def repairable (result : Int) : Bool :=
  result != enoerr && result != edontknow && !unconditional result

theorem repairable_ne {result : Int} (h : repairable result = true) :
    result ≠ enoerr ∧ result ≠ edontknow ∧ unconditional result = false := by
  simpa [repairable, and_assoc] using h

def wdAction {m : Type → Type} [Monad m]
    (repair : Option CString → Int → Option CString → Int → m Int) (cfg : Config) (now : Int)
    (result : Int) (rbinary : Option CString) (act : Option Entry) : m Outcome := do
  let name := act.map (·.name)
  let version := match act with
    | none => 0
    | some act => act.version
  -- A version 1 test repairs itself.
  let rbinary := if version = 1 then name else rbinary
  if result = enoerr then
    return ⟨act.map fun act => { act with lastTime := 0, repairCount := 0 }, none, none⟩
  else if result = edontknow then
    return ⟨act, none, none⟩
  else if unconditional result then
    return ⟨act, none, consider cfg result⟩
  else
    -- Without an entry there is nothing to count: the repair is tried every time.
    let (act, timeout) := retryTimer cfg now act
    if timeout then
      let (act, tryRepair) := countRepair cfg act
      if tryRepair then
        let answer ← repair rbinary result name version
        return ⟨act, some answer, consider cfg answer⟩
      else
        return ⟨act, none, consider cfg result⟩
    else
      return ⟨act, none, none⟩

/-! ## The decision and the repair

`wd_action` calls `repair()` at most once, and all it decides before that call is pure. -/

/-- Which program the call would run, with what. -/
def repairBinary (rbinary : Option CString) (act : Option Entry) : Option CString :=
  match act with
  | none => rbinary
  | some act => if act.version = 1 then some act.name else rbinary

/-- The call up to `repair()`: it is settled without it, or it goes on with the entry. -/
inductive Plan where
  | settled (out : Outcome)
  | tryRepair (act : Option Entry)

def plan (cfg : Config) (now result : Int) (act : Option Entry) : Plan :=
  if result = enoerr then
    .settled ⟨act.map fun act => { act with lastTime := 0, repairCount := 0 }, none, none⟩
  else if result = edontknow then
    .settled ⟨act, none, none⟩
  else if unconditional result then
    .settled ⟨act, none, consider cfg result⟩
  else if (retryTimer cfg now act).2 then
    if (countRepair cfg (retryTimer cfg now act).1).2 then
      .tryRepair (countRepair cfg (retryTimer cfg now act).1).1
    else
      .settled ⟨(countRepair cfg (retryTimer cfg now act).1).1, none, consider cfg result⟩
  else
    .settled ⟨(retryTimer cfg now act).1, none, none⟩

theorem wdAction_eq {m : Type → Type} [Monad m]
    (repair : Option CString → Int → Option CString → Int → m Int) (cfg : Config) (now result : Int)
    (rbinary : Option CString) (act : Option Entry) :
    wdAction repair cfg now result rbinary act =
      match plan cfg now result act with
      | .settled out => pure out
      | .tryRepair act' =>
        repair (repairBinary rbinary act) result (act.map (·.name)) ((act.map (·.version)).getD 0) >>=
          fun answer => pure ⟨act', some answer, consider cfg answer⟩ := by
  unfold wdAction plan
  by_cases h₁ : result = enoerr
  · simp only [h₁, if_true]
  · by_cases h₂ : result = edontknow
    · have hne : edontknow ≠ enoerr := by decide
      simp only [h₂, hne, if_true, if_false]
    · cases h₃ : unconditional result with
      | true => simp only [h₁, h₂, if_true, if_false]
      | false =>
        simp only [h₁, h₂, if_false, Bool.false_eq_true]
        cases hr : retryTimer cfg now act with
        | mk act₁ timeout =>
          cases timeout with
          | false => simp
          | true =>
            cases hc : countRepair cfg act₁ with
            | mk act₂ tryRepair =>
              cases tryRepair with
              | false => simp
              | true =>
                cases act with
                | none => simp [repairBinary]
                | some act => simp [repairBinary]

end Watchdog
