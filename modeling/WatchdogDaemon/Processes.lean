import Mathlib.Data.List.Monad
import WatchdogDaemon.Action
import WatchdogDaemon.CheckBin

/- The processes that run the daemon's logic.

   A `fork` returns twice. What the child does then decides whether there is one daemon
   or two: it execs, it exits, or it comes back to the caller and goes on from there
   with a copy of the memory. Here a call yields the list of the processes it comes back
   in, the caller first, so `wd_action` in the list monad is `wd_action` in every process
   that `repair()` comes back in.

   A state is the list of the processes that are in the main loop or in `wd_action`, and
   each turn is one `do_check` of one of them: a check's result, with or without an entry,
   handed to `wd_action`. A process that has called `do_shutdown` is still in `wd_action`.

   What is proved:
     1. `one_daemon_iff` — in every run, there is exactly one process in every state if
        and only if no repair child that a turn forks fails in `execl`.
     2. `repair_child_becomes_daemon` — with `--no-action` and a repair program that is
        not there, the child goes on as a second daemon.

   Correspondence (C ↔ Lean):
     `check_bin`, both sides of its `fork`  ↔ `Check.procs`
     `repair`, both sides of its `fork`     ↔ `repairProcs`
     `do_check`                             ↔ `doCheck`
   The values a check returns to its caller are the environment's here, and so are the
   answers of `waitpid`. -/
namespace Watchdog

/-- The value that comes back to the caller in the forked process, if it does. -/
def ChildEnd.comesBack : ChildEnd → List Int
  | .exit _ => []
  | .exec _ => []
  | .returns value => [value]

/-- A check: one that does not fork, or `check_bin` on the way to its `fork`. -/
inductive Check where
  | plain (result : Int)
  | bin (tbinary : CString) (version : Int) (answer : Int) (child : ChildEnv)

/-- The results of the check, one for each process it comes back in. -/
def Check.procs : Check → List Int
  | .plain result => [result]
  | .bin tbinary version answer child =>
    answer :: (checkBinChild child tbinary version).comesBack

/-- What happens during a `repair()`: to the caller and to the child. -/
structure RepairFork where
  fork : Except Errno Int
  wait : Nat → Wait
  child : ChildEnv

/-- The answers of `repair()`, one for each process it comes back in. -/
def repairProcs (cfg : Config) (env : RepairFork) (rbinary : Option CString) (result : Int)
    (name : Option CString) (version : Int) : List Int :=
  match rbinary with
  | none => [result]
  | some rbinary =>
    repairWith cfg env.fork env.wait rbinary result ::
      if env.fork.isOk then (repairChild env.child rbinary result name version).comesBack else []

/-- A process of the daemon: in the main loop with its entries, or in `do_shutdown`. -/
inductive Daemon where
  | running (acts : List Entry)
  | shutdown (code : Int)
  deriving DecidableEq

/-- One `do_check` of process `proc` on one of its entries, or on none. -/
structure Turn where
  proc : Nat
  check : Check
  entry : Option Nat
  now : Int
  repair : RepairFork

/-- The process after `wd_action`, with the entry put back. -/
def Daemon.next (acts : List Entry) (entry : Option Nat) (out : Outcome) : Daemon :=
  match out.request with
  | some (.doShutdown code) => .shutdown code
  | _ => .running ((entry.bind fun i => out.act.map fun act => acts.set i act).getD acts)

/-- `do_check` in a process with entries `acts`: the processes it comes back in. -/
def doCheck (cfg : Config) (repairBin : Option CString) (acts : List Entry) (t : Turn) :
    List Daemon := do
  let result ← t.check.procs
  let out ← wdAction (repairProcs cfg t.repair) cfg t.now result repairBin
    (t.entry.bind fun i => acts[i]?)
  return Daemon.next acts t.entry out

/-- The turn of a process that is running; any other turn is nobody's. -/
def turn (cfg : Config) (repairBin : Option CString) (procs : List Daemon) (t : Turn) :
    List Daemon :=
  match procs[t.proc]? with
  | some (.running acts) =>
    procs.take t.proc ++ doCheck cfg repairBin acts t ++ procs.drop (t.proc + 1)
  | _ => procs

/-- The processes after the turns of a daemon started with entries `acts`. -/
def procsAfter (cfg : Config) (repairBin : Option CString) (acts : List Entry) (ts : List Turn) :
    List Daemon :=
  Runs.run (turn cfg repairBin) [.running acts] ts

/-! ## Where a call comes back twice -/

/-- The turn forks a repair child: `wd_action` tries a repair, there is a program for it,
and `fork` succeeds. -/
def Turn.Repairs (cfg : Config) (repairBin : Option CString) (acts : List Entry) (t : Turn) : Prop :=
  ∃ result ∈ t.check.procs, ∃ act', plan cfg t.now result (t.entry.bind fun i => acts[i]?) = .tryRepair act' ∧
    (repairBinary repairBin (t.entry.bind fun i => acts[i]?)).isSome ∧ t.repair.fork.isOk

/-- A repair child of the turn can execute its program, unless it exits before. -/
def ExecOk (cfg : Config) (repairBin : Option CString) (procs : List Daemon) (t : Turn) : Prop :=
  ∀ acts, procs[t.proc]? = some (.running acts) → t.Repairs cfg repairBin acts →
    t.repair.child.redirect.isSome ∨ t.repair.child.execl = none

/-- The child of `check_bin` never comes back. -/
theorem checkBinChild_comesBack (env : ChildEnv) (tbinary : CString) (version : Int) :
    (checkBinChild env tbinary version).comesBack = [] := by
  unfold checkBinChild
  cases env.redirect with
  | some err => rfl
  | none => cases env.execl <;> rfl

theorem check_procs (c : Check) : ∃ result, c.procs = [result] := by
  cases c with
  | plain result => exact ⟨result, rfl⟩
  | bin tbinary version answer child =>
    refine ⟨answer, ?_⟩
    rw [Check.procs, checkBinChild_comesBack]

/-- The child of `repair` comes back when it gets to `execl` and that fails. -/
theorem repairChild_comesBack (env : ChildEnv) (rbinary : CString) (result : Int)
    (name : Option CString) (version : Int) :
    (repairChild env rbinary result name version).comesBack.length = 0 ↔
      env.redirect.isSome ∨ env.execl = none := by
  unfold repairChild
  cases env.redirect with
  | some err => simp [ChildEnd.comesBack]
  | none => cases env.execl <;> simp [ChildEnd.comesBack]

theorem repairProcs_length (cfg : Config) (env : RepairFork) (rbinary : Option CString) (result : Int)
    (name : Option CString) (version : Int) :
    (repairProcs cfg env rbinary result name version).length = 1 ↔
      (rbinary.isSome → env.fork.isOk → env.child.redirect.isSome ∨ env.child.execl = none) := by
  unfold repairProcs
  cases rbinary with
  | none => simp
  | some rbinary =>
    rw [List.length_cons, Nat.succ_inj]
    cases env.fork.isOk with
    | false => simp
    | true =>
      rw [if_pos rfl, repairChild_comesBack]
      simp

/-! ## One turn -/

section Turn
variable {cfg : Config} {repairBin : Option CString}

/-- A `do_check` comes back in one process exactly when no repair child it forks fails in
`execl`. -/
theorem doCheck_length (acts : List Entry) (t : Turn) :
    (doCheck cfg repairBin acts t).length = 1 ↔
      (t.Repairs cfg repairBin acts → t.repair.child.redirect.isSome ∨ t.repair.child.execl = none) := by
  obtain ⟨result, hresult⟩ := check_procs t.check
  have hmap : doCheck cfg repairBin acts t =
      (wdAction (repairProcs cfg t.repair) cfg t.now result repairBin
        (t.entry.bind fun i => acts[i]?)).map (Daemon.next acts t.entry) := by
    unfold doCheck
    rw [hresult]
    simp [List.map_eq_flatMap]
  rw [hmap, List.length_map, wdAction_eq]
  unfold Turn.Repairs
  rw [hresult]
  cases hp : plan cfg t.now result (t.entry.bind fun i => acts[i]?) with
  | settled out => simp [hp]
  | tryRepair act' =>
    show (List.length (_ >>= fun answer => pure _)) = 1 ↔ _
    rw [bind_pure_comp, List.map_eq_map, List.length_map, repairProcs_length]
    simp [hp]

theorem turn_length (d : Daemon) (t : Turn) :
    (turn cfg repairBin [d] t).length = 1 ↔ ExecOk cfg repairBin [d] t := by
  unfold turn ExecOk
  cases hp : [d][t.proc]? with
  | none => simp
  | some d' =>
    obtain ⟨hlt, -⟩ := List.getElem?_eq_some_iff.mp hp
    have hzero : t.proc = 0 := by simpa using hlt
    cases d' with
    | shutdown code => simp
    | running acts =>
      rw [hzero]
      simp [doCheck_length]

end Turn

/-! ## Whole runs -/

/-- **One daemon, unless a repair program cannot be executed.** -/
theorem one_daemon_iff (cfg : Config) (repairBin : Option CString) (acts : List Entry)
    (ts : List Turn) :
    (∀ pre post, ts = pre ++ post → (procsAfter cfg repairBin acts pre).length = 1) ↔
      Runs.Allowed (turn cfg repairBin) (ExecOk cfg repairBin) [.running acts] ts := by
  unfold procsAfter
  generalize Daemon.running acts = d
  induction ts generalizing d with
  | nil =>
    refine ⟨fun _ => trivial, fun _ pre post h => ?_⟩
    obtain ⟨rfl, -⟩ := List.append_eq_nil_iff.mp h.symm
    rfl
  | cons t ts ih =>
    constructor
    · intro h
      have hone : (turn cfg repairBin [d] t).length = 1 := h [t] ts rfl
      obtain ⟨d', hd'⟩ := List.length_eq_one_iff.mp hone
      refine ⟨(turn_length d t).mp hone, ?_⟩
      rw [hd']
      apply (ih d').mp
      intro pre post hts
      have := h (t :: pre) post (by rw [hts]; rfl)
      rw [Runs.run_cons, hd'] at this
      exact this
    · intro h pre post hts
      have hone := (turn_length d t).mpr h.1
      obtain ⟨d', hd'⟩ := List.length_eq_one_iff.mp hone
      have hrest := h.2
      rw [hd'] at hrest
      cases pre with
      | nil => rfl
      | cons t' pre =>
        obtain ⟨rfl, htail⟩ := List.cons_eq_cons.mp hts
        rw [Runs.run_cons, hd']
        exact (ih d').mpr hrest pre post htail

/-- The load check fails, `fork` succeeds, the child's `execl` fails with `ENOENT` and the
caller waits in vain. -/
def missingRepairBinary : Turn :=
  ⟨0, .plain emaxload, none, 0, ⟨.ok 100, fun _ => .running, ⟨none, none, none, none, some ⟨enoent, by decide⟩⟩⟩⟩

/-- With `--no-action` two processes go on in the main loop. -/
theorem repair_child_becomes_daemon :
    procsAfter { noAct := true } (some ['r']) [] [missingRepairBinary] = [.running [], .running []] ∧
      ¬ ∀ pre post, [missingRepairBinary] = pre ++ post →
        (procsAfter { noAct := true } (some ['r']) [] pre).length = 1 := by
  have htwo : procsAfter { noAct := true } (some ['r']) [] [missingRepairBinary] =
      [.running [], .running []] := by decide
  refine ⟨htwo, fun h => ?_⟩
  have := h [missingRepairBinary] [] rfl
  rw [htwo] at this
  cases this

end Watchdog
