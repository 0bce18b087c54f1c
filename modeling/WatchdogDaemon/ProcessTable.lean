import Mathlib.Data.List.Nodup
import WatchdogDaemon.Basic

/- The process table of `test_binary.c`.

   `check_bin` keeps a list of the children it has started, the newest first. A
   record is found by name when its test comes up again (`checkProcesses`) and by pid
   when `waitpid` reports a child (`updateProcess`) or a result is consumed
   (`removeProcess`). The searches stop at the first match, so what they hit depends
   on the order of the list.

   `Process.child` is the number of the `fork` whose child the record is about. The
   code has no such field, and nothing here reads it; it is what a statement about
   "the child of this record" speaks of.

   What is proved:
     1. `updateProcess_spec` — with one open record a pid and it the first of that
        pid, a report goes to exactly the record of the reported child.
     2. `checkProcesses_removes_iff` — the record that was found by name is the one
        removed by pid exactly when no record before it carries its pid.

   Correspondence (C ↔ Lean):
     `struct process`              ↔ `Process` (without `next`)
     `add_process`                 ↔ `addProcess`
     `free_process`                ↔ `freeProcess`
     `remove_process`              ↔ `removeProcess`
     `update_process`              ↔ `updateProcess`, `Process.update`
     `check_timeouts`, the test    ↔ `Process.overtime`, `Process.expire`
     `check_processes`             ↔ `checkProcesses` -/
namespace Watchdog

/-- `PATH_MAX` of `linux/limits.h`. -/
def pathMax : Nat := 4096

structure Process where
  procName : CString
  pid : Int
  time : Int
  ecode : Int
  isDone : Bool
  child : Nat
  deriving DecidableEq

/-- The answers of `check_processes`. -/
inductive TestState where
  | running
  | completed
  | blank
  deriving DecidableEq

/-! ## The operations -/

def freeProcess (_head : List Process) : List Process := []

/-- `malloc` says whether there is memory for the node, `now` is `time (NULL)`. A name
is cut to fit its buffer with the NUL. -/
def addProcess (malloc : Bool) (now : Int) (name : CString) (pid : Int) (child : Nat)
    (head : List Process) : List Process × Int :=
  if malloc then
    (⟨name.take (pathMax - 1), pid, now, 0, false, child⟩ :: head, enoerr)
  else
    (freeProcess head, enomem)

def removeProcess (pid : Int) : List Process → List Process
  | [] => []
  | current :: next => if current.pid ≠ pid then current :: removeProcess pid next else next

/-- What a reported status does to the record of the pid. -/
def Process.update (result : Int) (current : Process) : Process :=
  -- A record closed by the timeout keeps its code.
  if current.isDone then current
  else if wifexited result then
    { current with ecode := wexitstatus result, isDone := true }
  else if wifsignaled result then
    { current with ecode := echkill, isDone := true }
  else current

def updateProcess (pid result : Int) : List Process → List Process
  | [] => []
  | current :: next =>
    if current.pid ≠ pid then current :: updateProcess pid result next
    else current.update result :: next

/-- The record is open and older than the timeout. -/
def Process.overtime (timeout now : Int) (current : Process) : Bool :=
  !current.isDone && timeout < toInt (now - current.time)

/-- What `check_timeouts` makes of a record. -/
def Process.expire (timeout now : Int) (current : Process) : Process :=
  if current.overtime timeout now then { current with isDone := true, ecode := etoolong }
  else current

/-- The answer, `*ecode` when it is written, and the table after. -/
def checkProcesses (name : CString) (head : List Process) :
    TestState × Option Int × List Process :=
  match head.find? (·.procName = name) with
  | none => (.blank, none, head)
  | some current =>
    if current.isDone then
      -- Found by name, removed by pid.
      (.completed, some current.ecode, removeProcess current.pid head)
    else
      (.running, none, head)

/-! ## Records before and after -/

/-- The outcome of a child: its exit code, or that it was killed. -/
def Term.outcome : Term → Int
  | .exit code => code.toNat
  | .signal _ _ => echkill

/-- A report closes an open record with the child's outcome. -/
theorem update_status (t : Term) (p : Process) :
    p.update t.status = if p.isDone then p else { p with ecode := t.outcome, isDone := true } := by
  unfold Process.update
  cases t with
  | exit code => rw [wifexited_exit, wexitstatus_exit]; rfl
  | signal sig core => rw [wifexited_signal, wifsignaled_signal]; rfl

@[simp] theorem expire_pid (timeout now : Int) (p : Process) :
    (p.expire timeout now).pid = p.pid := by
  unfold Process.expire; split <;> rfl

@[simp] theorem expire_procName (timeout now : Int) (p : Process) :
    (p.expire timeout now).procName = p.procName := by
  unfold Process.expire; split <;> rfl

@[simp] theorem expire_child (timeout now : Int) (p : Process) :
    (p.expire timeout now).child = p.child := by
  unfold Process.expire; split <;> rfl

/-- A record is open after the pass when it was open and in time. -/
theorem expire_open {timeout now : Int} {p : Process} (h : (p.expire timeout now).isDone = false) :
    p.isDone = false ∧ p.overtime timeout now = false ∧ p.expire timeout now = p := by
  unfold Process.expire at h ⊢
  split at h
  · cases h
  · next hover => exact ⟨h, by simpa using hover, by rw [if_neg hover]⟩

/-! ## The search by pid -/

theorem removeProcess_sublist (pid : Int) : ∀ (head : List Process),
    (removeProcess pid head).Sublist head
  | [] => .slnil
  | p :: ps => by
    unfold removeProcess
    split
    · exact (removeProcess_sublist pid ps).cons_cons p
    · exact List.sublist_cons_self p ps

/-- With one record a pid, the search by pid is exact. -/
theorem removeProcess_eq_filter (pid : Int) : ∀ {head : List Process},
    (head.map Process.pid).Nodup → removeProcess pid head = head.filter (·.pid ≠ pid)
  | [], _ => rfl
  | p :: ps, h => by
    rw [List.map_cons] at h
    obtain ⟨hp, hps⟩ := List.nodup_cons.mp h
    by_cases hpid : p.pid = pid
    · rw [removeProcess, if_neg (by simpa using hpid), List.filter_cons_of_neg (by simpa using hpid)]
      symm
      apply List.filter_eq_self.mpr
      intro q hq
      have hne : q.pid ≠ pid := by
        intro heq
        exact hp (hpid.trans heq.symm ▸ List.mem_map_of_mem hq)
      simpa using hne
    · rw [removeProcess, if_pos hpid, List.filter_cons_of_pos (by simpa using hpid),
        removeProcess_eq_filter pid hps]

theorem removeProcess_append {pid : Int} {pre post : List Process} (h : ∀ q ∈ pre, q.pid ≠ pid) :
    removeProcess pid (pre ++ post) = pre ++ removeProcess pid post := by
  induction pre with
  | nil => rfl
  | cons q pre ih =>
    have hq := h q List.mem_cons_self
    rw [List.cons_append, removeProcess, if_pos hq, ih fun r hr => h r (List.mem_cons_of_mem q hr)]
    rfl

/-- The first record of the pid is the one that goes. -/
theorem removeProcess_first {p : Process} {pre post : List Process}
    (h : ∀ q ∈ pre, q.pid ≠ p.pid) : removeProcess p.pid (pre ++ p :: post) = pre ++ post := by
  rw [removeProcess_append h, removeProcess, if_neg (by simp)]

/-- With a record of the pid in front, what is behind stays. -/
theorem removeProcess_front {pid : Int} {pre post : List Process} (h : ∃ q ∈ pre, q.pid = pid) :
    ∃ l, removeProcess pid (pre ++ post) = l ++ post ∧ l.Sublist pre := by
  induction pre with
  | nil => obtain ⟨q, hq, -⟩ := h; cases hq
  | cons p pre ih =>
    by_cases hp : p.pid = pid
    · exact ⟨pre, by rw [List.cons_append, removeProcess, if_neg (by simpa using hp)],
        List.sublist_cons_self p pre⟩
    · obtain ⟨q, hq, hpid⟩ := h
      have hq' : q ∈ pre := by
        rcases List.mem_cons.mp hq with rfl | hq
        · exact absurd hpid hp
        · exact hq
      obtain ⟨l, hl, hsub⟩ := ih ⟨q, hq', hpid⟩
      refine ⟨p :: l, ?_, hsub.cons_cons p⟩
      rw [List.cons_append, removeProcess, if_pos hp, hl]
      rfl

/-- The records a report may close: the open ones of the child. -/
def Process.reportTo (child : Nat) (t : Term) (p : Process) : Process :=
  if p.isDone = false ∧ p.child = child then { p with ecode := t.outcome, isDone := true } else p

/-- **A report reaches the record of its child, and no other.** `own` says that an
open record of the pid is about the reported child and the other way round, and the
second hypothesis that an open record is the first of its pid. -/
theorem updateProcess_spec {pid : Int} {child : Nat} (t : Term) : ∀ {head : List Process},
    (∀ p ∈ head, p.isDone = false → (p.pid = pid ↔ p.child = child)) →
    head.Pairwise (fun p q => q.isDone = false → p.pid ≠ q.pid) →
    updateProcess pid t.status head = head.map (Process.reportTo child t)
  | [], _, _ => rfl
  | p :: ps, own, order => by
    have hp := own p List.mem_cons_self
    have hps : ∀ q ∈ ps, q.isDone = false → (q.pid = pid ↔ q.child = child) :=
      fun q hq => own q (List.mem_cons_of_mem p hq)
    obtain ⟨hfirst, htail⟩ := List.pairwise_cons.mp order
    rw [updateProcess, List.map_cons]
    by_cases hpid : p.pid = pid
    · -- The search ends here; any open record behind has another pid.
      rw [if_neg (by simpa using hpid), update_status]
      congr 1
      · unfold Process.reportTo
        cases hd : p.isDone with
        | true => simp
        | false => simp [(hp hd).mp hpid]
      · have hkeep : ∀ q ∈ ps, id q = Process.reportTo child t q := by
          intro q hq
          unfold Process.reportTo
          rw [if_neg]
          · rfl
          · intro h
            exact hfirst q hq h.1 (hpid.trans ((hps q hq h.1).mpr h.2).symm)
        calc ps = ps.map id := (List.map_id ps).symm
          _ = ps.map (Process.reportTo child t) := List.map_congr_left hkeep
    · rw [if_pos hpid, updateProcess_spec t hps htail]
      congr 1
      unfold Process.reportTo
      rw [if_neg]
      intro h
      exact hpid ((hp h.1).mpr h.2)

/-! ## The search by name -/

/-- What `check_processes` finds: no record of the name, an open one, or a closed one
that it then removes by pid. -/
theorem checkProcesses_cases (name : CString) (head : List Process) :
    (checkProcesses name head = (.blank, none, head) ∧ ∀ p ∈ head, p.procName ≠ name) ∨
    (∃ p ∈ head, p.procName = name ∧ p.isDone = false ∧
      checkProcesses name head = (.running, none, head)) ∨
    (∃ p ∈ head, p.procName = name ∧ p.isDone = true ∧ head.find? (·.procName = name) = some p ∧
      checkProcesses name head = (.completed, some p.ecode, removeProcess p.pid head)) := by
  unfold checkProcesses
  cases hf : head.find? (·.procName = name) with
  | none =>
    refine Or.inl ⟨rfl, ?_⟩
    intro p hp
    simpa using List.find?_eq_none.mp hf p hp
  | some p =>
    have hmem := List.mem_of_find?_eq_some hf
    have hname : p.procName = name := by simpa using List.find?_some hf
    cases hd : p.isDone with
    | false => exact Or.inr (Or.inl ⟨p, hmem, hname, hd, by simp [hd]⟩)
    | true => exact Or.inr (Or.inr ⟨p, hmem, hname, hd, rfl, by simp [hd]⟩)

/-- The record found first by name is the one removed by pid exactly when no record in
front of it has its pid. -/
theorem checkProcesses_removes_iff {name : CString} {p : Process} {pre post : List Process}
    (hname : p.procName = name) (hpre : ∀ q ∈ pre, q.procName ≠ name) (hdone : p.isDone = true) :
    (checkProcesses name (pre ++ p :: post)).2.2 = pre ++ post ↔ ∀ q ∈ pre, q.pid ≠ p.pid := by
  have hfind : (pre ++ p :: post).find? (·.procName = name) = some p := by
    rw [List.find?_append, List.find?_eq_none.mpr (by simpa using hpre)]
    simp [hname]
  have hcheck : (checkProcesses name (pre ++ p :: post)).2.2 = removeProcess p.pid (pre ++ p :: post) := by
    simp [checkProcesses, hfind, hdone]
  rw [hcheck]
  constructor
  · intro heq
    by_contra hne
    push Not at hne
    obtain ⟨l, hl, hsub⟩ := removeProcess_front hne
    -- The record `p` is still there, at a place where `pre ++ post` has other names.
    rw [hl] at heq
    have hcount : ∀ l' : List Process, l'.Sublist pre → l'.countP (·.procName = name) = 0 := by
      intro l' hl'
      apply List.countP_eq_zero.mpr
      intro q hq
      simpa using hpre q (hl'.subset hq)
    have := congrArg (List.countP (·.procName = name)) heq
    rw [List.countP_append, List.countP_append, hcount l hsub, hcount pre (.refl pre),
      List.countP_cons_of_pos (by simpa using hname)] at this
    omega
  · intro h
    exact removeProcess_first h

end Watchdog
