import WatchdogDaemon.Processes
import WatchdogDaemon.TableInv

/- The table of tests when a repair child comes back.

   With `--no-action` a repair child whose `execl` fails goes on in the main loop
   (`Processes`), and it does so with a copy of the table. The records of the copy are about
   children of the first process: the second one is not told when they end, and after its
   time a record is killed by its pid, whoever has it by then.

   A `World` is the list of the processes that are in the main loop, each with its table and
   its children. A pid is handed out only when no process has a live child with it, and forks
   are numbered through all processes. A process that comes back is a child of the one that
   forked it, and does nothing more once it has ended. Without `--no-action` it calls
   `do_shutdown` and looks at the table no more.

   What is proved:
     1. `kills_own_child` — in every run in which no repair child comes back, every SIGKILL of
        `check_timeouts` goes to a pid that is, at that moment, the pid of the child
        `check_bin` forked for that very record and that has not been reaped.
     2. `second_daemon_kills_another` — a repair program that is not there: the second daemon
        kills the child of another test.

   Correspondence (C ↔ Lean):
     a process in the main loop             ↔ `Proc`
     what it does next                      ↔ `ProcEv`
     `repair`, the child's side             ↔ `World.copies` -/
namespace Watchdog

/-! ## The processes -/

/-- A process in the main loop. `parent` is the process that forked it, by its place, and the
number of that fork; the daemon that was started has none. -/
structure Proc where
  head : List Process
  kernel : Kernel
  parent : Option (Nat × Nat)

/-- A SIGKILL of `check_timeouts`: the record, and the children of all processes that are live
at that moment. -/
structure Kill where
  record : Process
  live : List Child
  deriving DecidableEq

structure World where
  procs : List Proc
  kills : List Kill

/-- A child of the process ends, or it calls `check_bin` or `repair`; `child`, `name` and
`version` are for the child's side of that. -/
inductive ProcEv where
  | ends (id : Nat) (t : Term)
  | checkBin (c : BinCall)
  | repair (r : RepairCall) (child : ChildEnv) (name : Option CString) (version : Int)

/-- The next child gets a number that is not below `n`. -/
def Kernel.raise (k : Kernel) (n : Nat) : Kernel :=
  { k with forks := max k.forks n, idsLt := fun c hc => Nat.lt_of_lt_of_le (k.idsLt c hc) (Nat.le_max_left _ _) }

theorem Kernel.raise_evolves (k : Kernel) (n : Nat) : k.Evolves (k.raise n) :=
  ⟨Nat.le_max_left _ _, fun c hc _ => ⟨c, hc, .refl c⟩, fun d hd _ => ⟨d, hd, .refl d⟩⟩

namespace World

/-- The daemon at its start. -/
def start : World := ⟨[⟨[], .init, none⟩], []⟩

def forks (w : World) : Nat := (w.procs.map fun p => p.kernel.forks).foldl max 0

/-- No other process has a live child with this pid. -/
def free (w : World) (i : Nat) (pid : Int) : Bool :=
  (w.procs.eraseIdx i).all fun q => decide (pid ∉ q.kernel.live.map Child.pid)

/-- The pid that `fork` hands out in process `i`, unless another process has a child with it. -/
def hands (w : World) (i : Nat) (fork : Option Int) : Option Int := fork.filter (w.free i)

/-- The process has not ended. -/
def alive (w : World) (p : Proc) : Bool :=
  match p.parent with
  | none => true
  | some (i, id) => w.procs[i]?.any fun q => q.kernel.live.any fun c => c.id = id && c.ended.isNone

/-- The process with an empty trace. -/
def sys (w : World) (p : Proc) : Sys := ⟨p.head, p.kernel.raise w.forks, []⟩

/-- The event in process `i`, with the pids there are. -/
def event (w : World) (i : Nat) : ProcEv → Ev
  | .ends id t => .ends id t
  | .checkBin c => .checkBin { c with fork := w.hands i c.fork }
  | .repair r _ _ _ => .repair { r with env := { r.env with fork := w.hands i r.env.fork } }

/-- `fork` in a `repair()` of process `i`. -/
def repairFork (w : World) (i : Nat) (p : Proc) (r : RepairCall) : Option Kernel :=
  (w.hands i r.env.fork).bind fun pid => (w.sys p).kernel.fork pid none

/-- The processes that come back from the event beside the one that called, process `i`: they
have its table and no children. -/
def copies (w : World) (i : Nat) (p : Proc) : ProcEv → List Proc
  | .repair r child name version =>
    match r.rbinary with
    | none => []
    | some rbinary =>
      if r.cfg.noAct && (w.repairFork i p r).isSome then
        (repairChild child rbinary r.result name version).comesBack.map fun _ =>
          ⟨p.head, Kernel.init.raise (w.forks + 1), some (i, (w.sys p).kernel.forks)⟩
      else []
  | _ => []

end World

/-- The record that `check_timeouts` kills. -/
def Obs.kill? : Obs → Option (Process × Kernel)
  | .sigkill p kernel => some (p, kernel)
  | _ => none

/-- The event happens in process `x.1`, unless there is none. -/
def worldStep (w : World) (x : Nat × ProcEv) : World :=
  match w.procs[x.1]? with
  | none => w
  | some p =>
    if w.alive p then
      let s := step (w.sys p) (w.event x.1 x.2)
      let kills := s.obs.filterMap Obs.kill?
      let others := (w.procs.eraseIdx x.1).flatMap fun q => q.kernel.live
      -- A kill reaches the children of every process.
      let procs := w.procs.map fun q => { q with kernel := q.kernel.killAll (kills.map (·.1)) }
      { procs := procs.set x.1 ⟨s.head, s.kernel, p.parent⟩ ++ w.copies x.1 p x.2
        kills := kills.map (fun kill => ⟨kill.1, kill.2.live ++ others⟩) ++ w.kills }
    else w

def worldAfter (xs : List (Nat × ProcEv)) : World := Runs.run worldStep .start xs

/-! ## One process -/

/-- With `--no-action` a repair child executes its program, or exits before. -/
def RepairRuns (w : World) (x : Nat × ProcEv) : Prop :=
  match x.2 with
  | .repair r child _ _ =>
    r.cfg.noAct = true → r.rbinary.isSome = true →
      (∃ p, w.procs[x.1]? = some p ∧ (w.repairFork x.1 p r).isSome = true) →
        child.redirect.isSome = true ∨ child.execl = none
  | _ => True

/-- Then nothing comes back beside the caller. -/
theorem copies_nil {w : World} {x : Nat × ProcEv} (h : RepairRuns w x) {p : Proc}
    (hp : w.procs[x.1]? = some p) : w.copies x.1 p x.2 = [] := by
  obtain ⟨i, e⟩ := x
  cases e with
  | ends id t => rfl
  | checkBin c => rfl
  | repair r child name version =>
    simp only [World.copies]
    split
    · rfl
    · next rbinary hbin =>
      split
      · next hforks =>
        rw [Bool.and_eq_true] at hforks
        have hruns := h hforks.1 (by rw [hbin]; rfl) ⟨p, hp, hforks.2⟩
        have hnone := (repairChild_comesBack child rbinary r.result name version).mpr hruns
        rw [List.eq_nil_of_length_eq_zero hnone, List.map_nil]
      · rfl

/-- There is one process, its table is in order, and all kills went to the children of their records. -/
structure OneProcess (w : World) : Prop where
  one : ∃ head kernel, w.procs = [⟨head, kernel, none⟩] ∧ Inv head kernel
  own : ∀ kill ∈ w.kills, ∃ c ∈ kill.live, kill.record.Of c

theorem OneProcess.step {w : World} (h : OneProcess w) {x : Nat × ProcEv} (hx : RepairRuns w x) :
    OneProcess (worldStep w x) := by
  obtain ⟨head, kernel, hprocs, hinv⟩ := h.one
  obtain ⟨i, e⟩ := x
  cases i with
  | succ i =>
    have hnone : worldStep w (i + 1, e) = w := by
      unfold worldStep
      rw [hprocs]
      rfl
    rw [hnone]
    exact h
  | zero =>
    have hsome : w.procs[0]? = some ⟨head, kernel, none⟩ := by rw [hprocs]; rfl
    have hnil : w.copies 0 ⟨head, kernel, none⟩ e = [] := copies_nil hx hsome
    have hsys : Inv (w.sys ⟨head, kernel, none⟩).head (w.sys ⟨head, kernel, none⟩).kernel :=
      hinv.evolves (kernel.raise_evolves w.forks)
    have hown : KillsOwn (Watchdog.step (w.sys ⟨head, kernel, none⟩) (w.event 0 e)).obs :=
      KillsOwn.step (fun _ _ hmem => absurd hmem List.not_mem_nil) hsys (w.event 0 e)
    unfold worldStep
    rw [hsome]
    refine ⟨⟨_, _, ?_, hsys.step (w.event 0 e)⟩, fun kill hkill => ?_⟩
    · simp only [World.alive, if_true, hprocs, hnil, List.append_nil]
      rfl
    · rcases List.mem_append.mp hkill with hnew | hold
      · obtain ⟨⟨p, k⟩, hmem, rfl⟩ := List.mem_map.mp hnew
        obtain ⟨o, ho, hkill⟩ := List.mem_filterMap.mp hmem
        cases o with
        | sigkill p' k' =>
          cases hkill
          obtain ⟨c, hc, hof⟩ := hown p k ho
          exact ⟨c, List.mem_append_left _ hc, hof⟩
        | _ => cases hkill
      · exact h.own kill hold

/-- **Timeouts kill live children of their own.** In every run in which no repair child comes
back to the loop, a SIGKILL that `check_timeouts` sends for a record goes to a pid that at that
moment belongs to the child `check_bin` forked for the record, and that child has not been
reaped. -/
theorem kills_own_child (xs : List (Nat × ProcEv)) (hruns : Runs.Allowed worldStep RepairRuns .start xs) :
    ∀ kill ∈ (worldAfter xs).kills, ∃ c ∈ kill.live, kill.record.Of c := by
  have halone : OneProcess (worldAfter xs) := by
    refine Runs.run_inv (I := OneProcess) (fun w x h hx => h.step hx) ?_ hruns
    exact ⟨⟨[], .init, rfl, Inv.init⟩, fun _ hmem => absurd hmem List.not_mem_nil⟩
  exact halone.own

/-- A test is started at second 0 with pid 5 and is still running at second 100. -/
def lateTest : List (Nat × ProcEv) :=
  [(0, .checkBin (callAt 0 (some ['a']) [] 5)), (0, .checkBin (callAt 100 none [] 6))]

theorem kills_own_child_late :
    ∃ kill ∈ (worldAfter lateTest).kills, kill.record.pid = 5 ∧ ∃ c ∈ kill.live, kill.record.Of c := by
  have hpids : (worldAfter lateTest).kills.map (fun kill => kill.record.pid) = [5] := by decide
  obtain ⟨kill, hkills, hpid⟩ := List.map_eq_singleton_iff.mp hpids
  have hmem : kill ∈ (worldAfter lateTest).kills := by
    rw [hkills]
    exact List.mem_singleton.mpr rfl
  exact ⟨kill, hmem, hpid, kills_own_child lateTest ⟨trivial, trivial, trivial⟩ kill hmem⟩

/-- A `repair()` with `--no-action`, for a load that is too high, whose program is not there; the
child gets pid 7. -/
def missingRepair : ProcEv :=
  .repair
    ⟨⟨some 7, fun _ => [], fun _ => none, .exit 0⟩, { noAct := true, repairTimeout := 1 }, some ['r'], emaxload⟩
    missingRepairBinary.repair.child none 0

/-- Test `a` is running with pid 5 when the repair child comes back. It ends, the first process
reaps it and starts test `b`, which gets pid 5; and at second 100 the second process looks at
its table. -/
def lostTest : List (Nat × ProcEv) :=
  [(0, .checkBin (callAt 0 (some ['a']) [] 5)), (0, missingRepair), (0, .ends 0 (.exit 0)),
    (0, .checkBin (callAt 1 (some ['b']) [.reports 0] 5)), (1, .checkBin (callAt 100 none [] 6))]

/-- The second process kills test `b`, for its record of `a`. -/
theorem second_daemon_kills_another :
    let a : Process := ⟨['a'], 5, 0, 0, false, 0⟩
    let b : Child := ⟨2, 5, some ['b'], none, false⟩
    (worldAfter lostTest).kills = [⟨a, [b, ⟨1, 7, none, none, false⟩]⟩] ∧ b.pid = a.pid ∧
      ¬ ∀ kill ∈ (worldAfter lostTest).kills, ∃ c ∈ kill.live, kill.record.Of c := by
  intro a b
  have hkills : (worldAfter lostTest).kills = [⟨a, [b, ⟨1, 7, none, none, false⟩]⟩] := by decide
  refine ⟨hkills, rfl, fun hown => ?_⟩
  obtain ⟨c, hc, hof⟩ := hown _ (by rw [hkills]; exact List.mem_cons_self)
  -- Child 0, the child of the record, has been reaped.
  have hid : c.id = 0 := hof.id
  rcases List.mem_cons.mp hc with rfl | hc
  · cases hid
  · rw [List.mem_singleton.mp hc] at hid
    cases hid

end Watchdog
