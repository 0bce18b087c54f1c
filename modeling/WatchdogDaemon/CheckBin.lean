import WatchdogDaemon.Children
import WatchdogDaemon.ProcessTable
import WatchdogDaemon.Lib.Runs

/- `check_bin()` of `test_binary.c` against the kernel.

   A call first gathers the children that have ended, then kills the ones that have
   run too long, then looks its own test up: a test that is still running is left
   alone, a finished one hands its result over, and in both other cases a new child
   is started and recorded. So a result is one call late, and a call for one name
   gathers and kills the children of all of them.

   `Sys` is the process table beside the kernel, with the trace of what happened,
   the last thing first. The trace is what the statements about runs speak of; no
   function reads it. `BinCall` holds what the environment decides during a call: the
   children that end, the order `waitpid` reports them in, the clock, the pid of the
   new child and whether there is memory for its record. A child that ends after the
   gather loop is no different from one that ends after the call, since nothing in the
   rest of a call looks at it.

   What is proved: what a call does, in the form the invariants of the next modules are
   proved from. `checkBin_answered` lists the ways a call for a name can end, and
   `swept_inv` and `checkBin_inv` are the rules for what its two halves keep.

   Correspondence (C ↔ Lean):
     `gather_children`                      ↔ `gatherStep`, `gatherChildren`
     `check_timeouts`                       ↔ `checkTimeouts`
     `check_bin` up to `fork`               ↔ `beforeFork`
     `check_bin`                            ↔ `checkBin`
     `check_bin`, lines 261-291 (the child) ↔ `checkBinChild` -/
namespace Watchdog

/-! ## The child's side -/

def testArgv (tbinary : CString) (version : Int) : List CString :=
  if version = 0 then [tbinary] else [tbinary, "test".toList]

/-- The child of `check_bin`: it exits when `execl` comes back. -/
def checkBinChild (env : ChildEnv) (tbinary : CString) (version : Int) : ChildEnd :=
  match env.redirect with
  | some err => .exit err
  | none =>
    match env.execl with
    | none => .exec (testArgv tbinary version)
    | some err => .exit err

/-! ## The daemon's side -/

/-- What the trace records: a test child is started, `waitpid` reports a child,
`check_timeouts` sends SIGKILL for a record (with the children live at that moment),
`check_bin` returns a code for a name, and `repair` returns. -/
inductive Obs where
  | started (id : Nat) (name : CString)
  | reaped (id : Nat) (t : Term)
  | sigkill (p : Process) (kernel : Kernel)
  | returned (name : CString) (code : Int)
  | repaired (code : Int)

structure Sys where
  head : List Process
  kernel : Kernel
  obs : List Obs

/-- The daemon at its start. -/
def Sys.init : Sys := ⟨[], .init, []⟩

/-- A turn of the gather loop: a child ends in the meantime, or `waitpid` reports one. -/
inductive GatherEv where
  | ends (id : Nat) (t : Term)
  | reports (id : Nat)

/-- A report reaps the child and updates the table by its pid. `waitpid` reports a
child only when it has ended. -/
def gatherStep (s : Sys) : GatherEv → Sys
  | .ends id t => { s with kernel := s.kernel.terminate id t }
  | .reports id =>
    match s.kernel.report id with
    | none => s
    | some (c, t) =>
      ⟨updateProcess c.pid t.status s.head, s.kernel.reap id, .reaped id t :: s.obs⟩

/-- The `do .. while (ret > 0)` loop: it ends with the last report. -/
def gatherChildren (s : Sys) (turns : List GatherEv) : Sys := Runs.run gatherStep s turns

/-- One pass over the table: the records after it, the kernel after the kills, and
the kills. -/
def checkTimeouts (timeout now : Int) : List Process → Kernel → List Obs →
    List Process × Kernel × List Obs
  | [], k, obs => ([], k, obs)
  | current :: next, k, obs =>
    let (rest, k', obs') :=
      if current.overtime timeout now then
        checkTimeouts timeout now next (k.sigkill current.pid) (.sigkill current k :: obs)
      else
        checkTimeouts timeout now next k obs
    (current.expire timeout now :: rest, k', obs')

/-- A call of `check_bin`: its arguments and what the environment does during it.
`clock` and `forkClock` are the readings of `check_timeouts` and `add_process`. -/
structure BinCall where
  tbinary : Option CString
  timeout : Int
  gather : List GatherEv
  clock : Int
  fork : Option Int
  malloc : Bool
  forkClock : Int

/-- The state after `check_timeouts`. -/
def Sys.expired (s : Sys) (timeout now : Int) : Sys :=
  let (head, kernel, obs) := checkTimeouts timeout now s.head s.kernel s.obs
  ⟨head, kernel, obs⟩

/-- The state when `check_processes` looks the test up. -/
def Sys.swept (s : Sys) (c : BinCall) : Sys :=
  let s := gatherChildren s c.gather
  if 0 < c.timeout then s.expired c.timeout c.clock else s

/-- The call for `tbinary` up to `fork`: the state there and the code to return, or the
state at a return without `fork`. -/
def beforeFork (s : Sys) (c : BinCall) (tbinary : CString) : Sys × Option Int :=
  let s := s.swept c
  match checkProcesses tbinary s.head with
  | (.running, _, _) => (s, none)
  -- `ecode` starts as EDONTKNOW and is written when a result is read.
  | (_, ecode, head) => ({ s with head }, some (ecode.getD edontknow))

/-- The rest of the call, from the state at `fork`. -/
def startTest (s : Sys) (c : BinCall) (tbinary : CString) (ecode : Int) : Sys × Int :=
  match c.fork.bind fun pid => (s.kernel.fork pid (some tbinary)).map fun k => (pid, k) with
  | none => (s, ereboot)
  | some (pid, k) =>
    -- An error of `add_process` takes the place of the result that was read.
    let (head, err) := addProcess c.malloc c.forkClock tbinary pid s.kernel.forks s.head
    (⟨head, k, .started s.kernel.forks tbinary :: s.obs⟩, if err ≠ enoerr then err else ecode)

def checkBin (s : Sys) (c : BinCall) : Sys × Int :=
  match c.tbinary with
  | none => (s.swept c, enoerr)
  | some tbinary =>
    let (s, code) :=
      match beforeFork s c tbinary with
      | (s, none) => (s, edontknow)
      | (s, some ecode) => startTest s c tbinary ecode
    ({ s with obs := .returned tbinary code :: s.obs }, code)

/-! ## Runs -/

/-- A `repair()` call, as the table and the kernel see it. -/
structure RepairCall where
  env : RepairEnv
  cfg : Config
  rbinary : Option CString
  result : Int

def runRepair (s : Sys) (r : RepairCall) : Sys :=
  let (code, kernel) := repair r.env.sys r.cfg r.rbinary r.result s.kernel
  { s with kernel, obs := .repaired code :: s.obs }

/-- A child ends, `check_bin` is called, or `repair` is. -/
inductive Ev where
  | ends (id : Nat) (t : Term)
  | checkBin (c : BinCall)
  | repair (r : RepairCall)

def step (s : Sys) : Ev → Sys
  | .ends id t => { s with kernel := s.kernel.terminate id t }
  | .checkBin c => (checkBin s c).1
  | .repair r => runRepair s r

/-- The state after the events, from the daemon's start. -/
def after (es : List Ev) : Sys := Runs.run step .init es

/-! ## What the timeout pass does -/

/-- SIGKILL to the pids of the records. -/
def Kernel.killAll (k : Kernel) (ps : List Process) : Kernel :=
  ps.foldl (fun k p => k.sigkill p.pid) k

@[simp] theorem Kernel.killAll_forks (ps : List Process) (k : Kernel) :
    (k.killAll ps).forks = k.forks := by
  induction ps generalizing k with
  | nil => rfl
  | cons p ps ih => exact ih (k.sigkill p.pid)

/-- The children after the kills are the children before, marked. -/
theorem Kernel.mem_killAll (ps : List Process) (k : Kernel) (d : Child) :
    d ∈ (k.killAll ps).live ↔
      ∃ c ∈ k.live, d = { c with killed := c.killed || (ps.map Process.pid).contains c.pid } := by
  induction ps generalizing k with
  | nil => simp [killAll]
  | cons p ps ih =>
    show d ∈ ((k.sigkill p.pid).killAll ps).live ↔ _
    rw [ih]
    constructor
    · intro hcase
      obtain ⟨c, hc, rfl⟩ := hcase
      obtain ⟨b, hb, rfl⟩ := List.mem_map.mp hc
      refine ⟨b, hb, ?_⟩
      by_cases hp : b.pid = p.pid <;> simp [hp]
    · intro hcase
      obtain ⟨b, hb, rfl⟩ := hcase
      refine ⟨_, List.mem_map_of_mem hb, ?_⟩
      by_cases hp : b.pid = p.pid <;> simp [hp]

/-- The records the pass kills, in order. -/
def overdue (timeout now : Int) (head : List Process) : List Process :=
  head.filter (Process.overtime timeout now)

theorem checkTimeouts_head (timeout now : Int) : ∀ (head : List Process) (k : Kernel) (obs : List Obs),
    (checkTimeouts timeout now head k obs).1 = head.map (Process.expire timeout now)
  | [], _, _ => rfl
  | p :: ps, k, obs => by
    simp only [checkTimeouts, List.map_cons]
    split <;> rw [checkTimeouts_head timeout now ps]

theorem checkTimeouts_kernel (timeout now : Int) :
    ∀ (head : List Process) (k : Kernel) (obs : List Obs),
      (checkTimeouts timeout now head k obs).2.1 = k.killAll (overdue timeout now head)
  | [], _, _ => rfl
  | p :: ps, k, obs => by
    simp only [checkTimeouts, overdue]
    split
    · next h => rw [checkTimeouts_kernel timeout now ps, List.filter_cons_of_pos h]; rfl
    · next h => rw [checkTimeouts_kernel timeout now ps, List.filter_cons_of_neg h]; rfl

/-- The kills of the pass, one for each overdue record, with the children live when it
is sent: those at the start of the pass, some of them already sent a kill. -/
theorem checkTimeouts_obs (timeout now : Int) :
    ∀ (head : List Process) (k : Kernel) (obs : List Obs),
      ∃ kills, (checkTimeouts timeout now head k obs).2.2 = kills ++ obs ∧
        (∀ o ∈ kills, ∃ p ∈ overdue timeout now head, ∃ sent, o = .sigkill p (k.killAll sent)) ∧
        ∀ p ∈ overdue timeout now head, ∃ k', .sigkill p k' ∈ kills
  | [], _, _ => ⟨[], rfl, fun _ h => absurd h List.not_mem_nil, fun _ h => absurd h List.not_mem_nil⟩
  | p :: ps, k, obs => by
    simp only [checkTimeouts, overdue]
    split
    · next h =>
      obtain ⟨kills, hobs, hall, hevery⟩ :=
        checkTimeouts_obs timeout now ps (k.sigkill p.pid) (.sigkill p k :: obs)
      rw [List.filter_cons_of_pos h]
      refine ⟨kills ++ [.sigkill p k], ?_, ?_, ?_⟩
      · rw [hobs, List.append_assoc]; rfl
      · intro o ho
        rcases List.mem_append.mp ho with ho | ho
        · obtain ⟨q, hq, sent, rfl⟩ := hall o ho
          exact ⟨q, List.mem_cons_of_mem p hq, p :: sent, rfl⟩
        · exact ⟨p, List.mem_cons_self, [], List.mem_singleton.mp ho⟩
      · intro q hq
        rcases List.mem_cons.mp hq with rfl | hq
        · exact ⟨k, List.mem_append_right kills List.mem_cons_self⟩
        · obtain ⟨k', hk'⟩ := hevery q hq
          exact ⟨k', List.mem_append_left _ hk'⟩
    · next h =>
      rw [List.filter_cons_of_neg h]
      exact checkTimeouts_obs timeout now ps k obs

theorem expired_head (s : Sys) (timeout now : Int) :
    (s.expired timeout now).head = s.head.map (Process.expire timeout now) :=
  checkTimeouts_head timeout now s.head s.kernel s.obs

theorem expired_kernel (s : Sys) (timeout now : Int) :
    (s.expired timeout now).kernel = s.kernel.killAll (overdue timeout now s.head) :=
  checkTimeouts_kernel timeout now s.head s.kernel s.obs

theorem expired_obs (s : Sys) (timeout now : Int) :
    ∃ kills, (s.expired timeout now).obs = kills ++ s.obs ∧
      (∀ o ∈ kills, ∃ p ∈ overdue timeout now s.head, ∃ sent, o = .sigkill p (s.kernel.killAll sent)) ∧
      ∀ p ∈ overdue timeout now s.head, ∃ k', .sigkill p k' ∈ kills :=
  checkTimeouts_obs timeout now s.head s.kernel s.obs

/-! ## What a call does -/

/-- The rule for the first half of a call: what a child's end, a report and a timeout
pass keep, the sweep keeps. -/
theorem swept_inv {I : Sys → Prop}
    (hends : ∀ s id t, I s → I { s with kernel := s.kernel.terminate id t })
    (hreport : ∀ s id c t, I s → s.kernel.report id = some (c, t) →
      I ⟨updateProcess c.pid t.status s.head, s.kernel.reap id, .reaped id t :: s.obs⟩)
    (hexpire : ∀ s timeout now, I s → I (s.expired timeout now))
    {s : Sys} (c : BinCall) (h : I s) : I (s.swept c) := by
  have hturn : ∀ s e, I s → True → I (gatherStep s e) := by
    intro s e hs _
    cases e with
    | ends id t => exact hends s id t hs
    | reports id =>
      simp only [gatherStep]
      split
      · exact hs
      · next d t hd => exact hreport s id d t hs hd
  have hgather : I (gatherChildren s c.gather) :=
    Runs.run_inv hturn h (Runs.allowed_of_forall fun _ _ => trivial)
  unfold Sys.swept
  split
  · exact hexpire _ _ _ hgather
  · exact hgather

/-- What `check_processes` leaves for the rest of the call: the table and the code. -/
inductive Looked (name : CString) (head : List Process) : List Process → Int → Prop
  | blank (h : ∀ p ∈ head, p.procName ≠ name)
      (hcheck : checkProcesses name head = (.blank, none, head)) : Looked name head head edontknow
  | completed (p : Process) (hp : p ∈ head) (hname : p.procName = name) (hdone : p.isDone = true)
      (hfind : head.find? (·.procName = name) = some p)
      (hcheck : checkProcesses name head = (.completed, some p.ecode, removeProcess p.pid head)) :
      Looked name head (removeProcess p.pid head) p.ecode

theorem Looked.sublist {name : CString} {head head' : List Process} {ecode : Int}
    (h : Looked name head head' ecode) : head'.Sublist head := by
  cases h with
  | blank => exact .refl head
  | completed p => exact removeProcess_sublist p.pid head

theorem Looked.not_running {name : CString} {head head' : List Process} {ecode : Int}
    (h : Looked name head head' ecode) : (checkProcesses name head).1 ≠ .running := by
  cases h with
  | blank _ hcheck => rw [hcheck]; simp
  | completed _ _ _ _ _ hcheck => rw [hcheck]; simp

/-- The record of a new child. -/
def newProcess (name : CString) (pid now : Int) (child : Nat) : Process :=
  ⟨name.take (pathMax - 1), pid, now, 0, false, child⟩

/-- The ways a call for `name` can end, from the swept state `s`: its test is still
running, `fork` fails, there is no memory for the record, or a new child is recorded. -/
inductive Answered (c : BinCall) (name : CString) (s : Sys) : Sys → Int → Prop
  | running (p : Process) (hp : p ∈ s.head) (hname : p.procName = name) (hopen : p.isDone = false) :
      Answered c name s s edontknow
  | failed {head : List Process} {ecode : Int} (look : Looked name s.head head ecode)
      (hfail : ∀ pid, c.fork = some pid → s.kernel.fork pid (some name) = none) :
      Answered c name s { s with head } ereboot
  | freed {head : List Process} {ecode pid : Int} {k : Kernel} (look : Looked name s.head head ecode)
      (hfork : s.kernel.fork pid (some name) = some k) (hmalloc : c.malloc = false) :
      Answered c name s ⟨[], k, .started s.kernel.forks name :: s.obs⟩ enomem
  | added {head : List Process} {ecode pid : Int} {k : Kernel} (look : Looked name s.head head ecode)
      (hpid : c.fork = some pid) (hfork : s.kernel.fork pid (some name) = some k)
      (hmalloc : c.malloc = true) :
      Answered c name s ⟨newProcess name pid c.forkClock s.kernel.forks :: head, k,
        .started s.kernel.forks name :: s.obs⟩ ecode

theorem startTest_answered {s : Sys} {head : List Process} {name : CString} {ecode : Int}
    (look : Looked name s.head head ecode) (c : BinCall) :
    Answered c name s (startTest { s with head } c name ecode).1
      (startTest { s with head } c name ecode).2 := by
  unfold startTest
  cases hf : c.fork with
  | none => exact .failed look fun pid h => by rw [hf] at h; cases h
  | some pid =>
    cases hk : s.kernel.fork pid (some name) with
    | none =>
      simp only [Option.bind_some, hk, Option.map_none]
      exact .failed look fun pid' h => by rw [hf] at h; cases h; exact hk
    | some k =>
      simp only [Option.bind_some, hk, Option.map_some]
      cases hm : c.malloc with
      | false => exact .freed look hk hm
      | true => exact .added look hf hk hm

theorem checkBin_answered (s : Sys) {c : BinCall} {name : CString} (h : c.tbinary = some name) :
    ∃ s' code, Answered c name (s.swept c) s' code ∧
      checkBin s c = ({ s' with obs := .returned name code :: s'.obs }, code) := by
  unfold checkBin
  rw [h]
  simp only [beforeFork]
  obtain ⟨hc, hnone⟩ | ⟨p, hp, hname, hopen, hc⟩ | ⟨p, hp, hname, hdone, hfind, hc⟩ :=
    checkProcesses_cases name (s.swept c).head
  · rw [hc]
    exact ⟨_, _, startTest_answered (.blank hnone hc) c, rfl⟩
  · rw [hc]
    exact ⟨_, _, .running p hp hname hopen, rfl⟩
  · rw [hc]
    exact ⟨_, _, startTest_answered (.completed p hp hname hdone hfind hc) c, rfl⟩

/-- The rule for a whole call: what holds after the sweep, and after every way a call for
a name can end, holds after the call. -/
theorem checkBin_inv {I : Sys → Prop} {s : Sys} {c : BinCall} (hswept : I (s.swept c))
    (hanswered : ∀ name s' code, c.tbinary = some name → Answered c name (s.swept c) s' code →
      I { s' with obs := .returned name code :: s'.obs }) : I (checkBin s c).1 := by
  cases hn : c.tbinary with
  | none =>
    have hnull : checkBin s c = (s.swept c, enoerr) := by simp [checkBin, hn]
    rw [hnull]
    exact hswept
  | some name =>
    obtain ⟨s', code, ha, heq⟩ := checkBin_answered s hn
    rw [heq]
    exact hanswered name s' code hn ha

end Watchdog
