import WatchdogDaemon.Basic

/- `repair()` of `watchdog.c`: run the repair program and read its verdict.

   The call forks. The child redirects its output and execs the program
   (`repairChild`); the parent waits for it, polling once a second while
   `repair_timeout` lasts or blocking when it is not positive, and turns what
   `waitpid` said into an error code (`repair`). One variable, `result`, is the
   incoming error code until a successful `waitpid` overwrites it with a wait
   status, and the exit code is cut out of it either way.

   What is proved:
     1. `repair_honest_iff` — the parent reports a repair as good only when the
        child exited with 0, and every other ending as an error, exactly when no
        deciding `waitpid` reports a child that did not exit with clear exit-code
        bits, or fails without `softboot` on a code with clear exit-code bits.
     2. `repair_takes_killed_child_for_success` — a child killed by a signal is
        such an ending: it is reported as a good repair.

   Correspondence (C ↔ Lean):
     `repair`, lines 79-80 and 125-160      ↔ `repair`
     `repair`, lines 86-124 (the child)     ↔ `repairChild`
     the `do .. while (left > 0)` loop      ↔ `pollRepair`
   `log_message` and the `keep_alive` between two polls are left out: nothing here
   reads what they do. -/
namespace Watchdog

/-! ## The child's side -/

/-- Where a forked process's side of a call ends: it leaves by `exit`, it becomes
another program, or it comes back to the caller. -/
inductive ChildEnd where
  | exit (code : Int)
  | exec (argv : List CString)
  | returns (value : Int)
  deriving DecidableEq

/-- What the child's system calls answer; `none` is success. -/
structure ChildEnv where
  openStdout : Option Errno
  dupStdout : Option Errno
  openStderr : Option Errno
  dupStderr : Option Errno
  execl : Option Errno

/-- The first failure while standard output and error are redirected: the child
exits with it. -/
def ChildEnv.redirect (env : ChildEnv) : Option Errno :=
  env.openStdout <|> env.dupStdout <|> env.openStderr <|> env.dupStderr

/-- The argument vector of the repair program. -/
def repairArgv (rbinary : CString) (result : Int) (name : Option CString) (version : Int) :
    List CString :=
  let parm := (toString result).toList
  if version = 0 then
    match name with
    | none => [rbinary, parm]
    | some name => [rbinary, parm, name]
  else
    match name with
    | none => [rbinary, "repair".toList, parm]
    | some name => [rbinary, "repair".toList, parm, name]

/-- The child of `repair`. When `execl` comes back, so does the child: it returns
`errno` to `wd_action`. -/
def repairChild (env : ChildEnv) (rbinary : CString) (result : Int) (name : Option CString)
    (version : Int) : ChildEnd :=
  match env.redirect with
  | some err => .exit err
  | none =>
    match env.execl with
    | none => .exec (repairArgv rbinary result name version)
    -- `return (errno)`, where every other way out of the child is an `exit`
    | some err => .returns err

/-! ## The parent's side -/

/-- What `waitpid` on the repair child answers: 0, the child's pid with its status,
or -1. -/
inductive Wait where
  | running
  | reaped (status : Int)
  | failed (err : Errno)
  deriving DecidableEq

/-- The system calls of the parent: `fork`, and `waitpid` on the child it made
(`block` without `WNOHANG`), asked for the `n`-th time. -/
structure RepairSys (m : Type → Type) where
  fork : m (Except Errno Int)
  waitpid : (childPid : Int) → (block : Bool) → (n : Nat) → m Wait

/-- At most `left` polls, one a second, until one answers something. -/
def pollRepair {m : Type → Type} [Monad m] (poll : Nat → m Wait) : Nat → Nat → m Wait
  | 0, _ => pure .running
  | left + 1, n => do
    match ← poll n with
    | .running => pollRepair poll left (n + 1)
    | answer => pure answer

/-- The error code of an answer. A failed `waitpid` has left the incoming code in
`result`. -/
def repairVerdict (softboot : Bool) (result : Int) : Wait → Int
  | .running => ereboot
  | .reaped status => wexitstatus status
  | .failed err => if softboot then err else wexitstatus result

def repair {m : Type → Type} [Monad m] (sys : RepairSys m) (cfg : Config)
    (rbinary : Option CString) (result : Int) : m Int := do
  if rbinary.isNone then
    return result
  match ← sys.fork with
  | .error _ => return ereboot
  | .ok childPid =>
    let answer ←
      if 0 < cfg.repairTimeout then
        pollRepair (sys.waitpid childPid false) cfg.repairTimeout.toNat 0
      else
        sys.waitpid childPid true 0
    return repairVerdict cfg.softboot result answer

/-! ## The deciding answer -/

/-- The `waitpid` calls a parent with this `repair_timeout` makes: as long as the
child is running, and one when it blocks. -/
def Polled (cfg : Config) (wait : Nat → Wait) (n : Nat) : Prop :=
  (∀ k < n, wait k = .running) ∧ (n : Int) < max cfg.repairTimeout 1

/-- What a parent whose `waitpid` calls answer `wait` gets back, forked or not. -/
def repairWith (cfg : Config) (fork : Except Errno Int) (wait : Nat → Wait) (rbinary : CString)
    (result : Int) : Int :=
  Id.run (repair ⟨pure fork, fun _ _ n => pure (wait n)⟩ cfg (some rbinary) result)

/-- The answer the polls end with. -/
def lastPoll (wait : Nat → Wait) (left n : Nat) : Wait :=
  Id.run (pollRepair (fun n => pure (wait n)) left n)

theorem lastPoll_running {wait : Nat → Wait} {left n : Nat} (h : wait n = .running) :
    lastPoll wait (left + 1) n = lastPoll wait left (n + 1) := by
  simp [lastPoll, pollRepair, h]

theorem lastPoll_answer {wait : Nat → Wait} {left n : Nat} (h : wait n ≠ .running) :
    lastPoll wait (left + 1) n = wait n := by
  cases hw : wait n with
  | running => exact absurd hw h
  | reaped status => simp [lastPoll, pollRepair, hw]
  | failed err => simp [lastPoll, pollRepair, hw]

/-- The polls end with the first answer that is not 0, or with 0 after the last. -/
theorem lastPoll_spec (wait : Nat → Wait) : ∀ (left n : Nat),
    (lastPoll wait left n = .running ∧ ∀ k < left, wait (n + k) = .running) ∨
    ∃ k < left, (∀ j < k, wait (n + j) = .running) ∧ wait (n + k) ≠ .running ∧
      lastPoll wait left n = wait (n + k)
  | 0, n => Or.inl ⟨rfl, fun k hk => absurd hk (Nat.not_lt_zero k)⟩
  | left + 1, n => by
    by_cases hw : wait n = .running
    · rw [lastPoll_running hw]
      have shift : ∀ k, wait (n + 1 + k) = wait (n + (k + 1)) := fun k => by
        rw [Nat.add_right_comm, Nat.add_assoc]
      rcases lastPoll_spec wait left (n + 1) with ⟨h, hall⟩ | ⟨k, hk, hbefore, hne, h⟩
      · refine Or.inl ⟨h, fun k hk => ?_⟩
        cases k with
        | zero => exact hw
        | succ k => rw [← shift]; exact hall k (by omega)
      · refine Or.inr ⟨k + 1, by omega, fun j hj => ?_, by rw [← shift]; exact hne, by rw [h, shift]⟩
        cases j with
        | zero => exact hw
        | succ j => rw [← shift]; exact hbefore j (by omega)
    · exact Or.inr ⟨0, by omega, fun j hj => absurd hj (Nat.not_lt_zero j), hw, lastPoll_answer hw⟩

/-- The parent's answer: 0 when every poll it made answered 0, else that of the one
poll that did not. -/
theorem repairWith_cases (cfg : Config) (pid : Int) (wait : Nat → Wait) (rbinary : CString)
    (result : Int) :
    (repairWith cfg (.ok pid) wait rbinary result = ereboot ∧
      ∀ n, Polled cfg wait n → wait n = .running) ∨
    ∃ n, Polled cfg wait n ∧ wait n ≠ .running ∧
      repairWith cfg (.ok pid) wait rbinary result = repairVerdict cfg.softboot result (wait n) := by
  by_cases ht : 0 < cfg.repairTimeout
  · have hrun : repairWith cfg (.ok pid) wait rbinary result =
        repairVerdict cfg.softboot result (lastPoll wait cfg.repairTimeout.toNat 0) := by
      simp [repairWith, repair, ht, lastPoll]
    rw [hrun]
    rcases lastPoll_spec wait cfg.repairTimeout.toNat 0 with ⟨h, hall⟩ | ⟨k, hk, hbefore, hne, h⟩
    · refine Or.inl ⟨by rw [h]; rfl, fun n hn => ?_⟩
      have := hn.2
      have := hall n (by omega)
      rwa [Nat.zero_add] at this
    · simp only [Nat.zero_add] at hbefore hne h
      exact Or.inr ⟨k, ⟨hbefore, by omega⟩, hne, by rw [h]⟩
  · have hrun : repairWith cfg (.ok pid) wait rbinary result =
        repairVerdict cfg.softboot result (wait 0) := by
      simp [repairWith, repair, ht]
    rw [hrun]
    by_cases hw : wait 0 = .running
    · refine Or.inl ⟨by rw [hw]; rfl, fun n hn => ?_⟩
      have := hn.2
      obtain rfl : n = 0 := by omega
      exact hw
    · exact Or.inr ⟨0, ⟨fun k hk => absurd hk (Nat.not_lt_zero k), by omega⟩, hw, rfl⟩

/-- A parent makes one deciding call: two polls that answer something are one. -/
theorem Polled.unique {cfg : Config} {wait : Nat → Wait} {n k : Nat} (hn : Polled cfg wait n)
    (hk : Polled cfg wait k) (hn' : wait n ≠ .running) (hk' : wait k ≠ .running) : n = k := by
  rcases Nat.lt_trichotomy n k with h | h | h
  · exact absurd (hk.1 n h) hn'
  · exact h
  · exact absurd (hn.1 k h) hk'

/-! ## When a good repair is a good repair -/

/-- `repair()` reports no failed repair as good: it answers `enoerr` only for a
child that was reaped and had exited with 0, `ereboot` when the time runs out, and
an error for a child that died of a signal and for a failing `waitpid`. -/
structure Honest (cfg : Config) (fork : Except Errno Int) (wait : Nat → Wait) (ret : Int) :
    Prop where
  success : ret = enoerr → ∃ n status, fork.isOk ∧ Polled cfg wait n ∧ wait n = .reaped status ∧
    wifexited status = true ∧ wexitstatus status = 0
  timeout : 0 < cfg.repairTimeout → (∀ n < cfg.repairTimeout.toNat, wait n = .running) →
    ret = ereboot
  killed : ∀ n status, fork.isOk → Polled cfg wait n → wait n = .reaped status →
    wifexited status = false → ret ≠ enoerr
  failed : ∀ n err, fork.isOk → Polled cfg wait n → wait n = .failed err → ret ≠ enoerr

/-- The answers whose exit-code bits are clear although no child exited with 0. -/
def FalseZero (cfg : Config) (result : Int) : Wait → Prop
  | .running => False
  | .reaped status => wifexited status = false ∧ wexitstatus status = 0
  | .failed _ => cfg.softboot = false ∧ wexitstatus result = 0

/-- Every death by a signal is one. -/
theorem falseZero_signal (cfg : Config) (result : Int) (sig : Fin 64) (core : Bool) :
    FalseZero cfg result (.reaped (Term.signal sig core).status) :=
  ⟨wifexited_signal sig core, wexitstatus_signal sig core⟩

theorem repairVerdict_eq_zero {cfg : Config} {result : Int} {answer : Wait} :
    repairVerdict cfg.softboot result answer = enoerr ↔
      (∃ status, answer = .reaped status ∧ wifexited status = true ∧ wexitstatus status = 0) ∨
      FalseZero cfg result answer := by
  cases answer with
  | running => simp [repairVerdict, FalseZero, ereboot, enoerr]
  | reaped status => cases h : wifexited status <;> simp [repairVerdict, FalseZero, enoerr, h]
  | failed err =>
    have := err.2
    cases hs : cfg.softboot <;> simp [repairVerdict, FalseZero, enoerr, hs]
    omega

theorem repair_honest_iff (cfg : Config) (fork : Except Errno Int) (wait : Nat → Wait)
    (rbinary : CString) (result : Int) :
    Honest cfg fork wait (repairWith cfg fork wait rbinary result) ↔
      (fork.isOk → ∀ n, Polled cfg wait n → ¬ FalseZero cfg result (wait n)) := by
  cases fork with
  | error err =>
    -- No child: the answer is `ereboot` whatever the polls would have been.
    have hrun : repairWith cfg (.error err) wait rbinary result = ereboot := by
      simp [repairWith, repair]
    refine ⟨fun _ hf => absurd hf (by simp [Except.isOk, Except.toBool]), fun _ => ?_⟩
    rw [hrun]
    exact ⟨fun h => absurd h (by decide), fun _ _ => rfl,
      fun _ _ hf => absurd hf (by simp [Except.isOk, Except.toBool]),
      fun _ _ hf => absurd hf (by simp [Except.isOk, Except.toBool])⟩
  | ok pid =>
    have hok : (Except.ok pid : Except Errno Int).isOk = true := rfl
    rcases repairWith_cases cfg pid wait rbinary result with ⟨h, hall⟩ | ⟨n, hp, hne, h⟩
    · rw [h]
      refine ⟨fun _ _ n hn => by rw [hall n hn]; exact id, fun _ => ?_⟩
      refine ⟨fun h => absurd h (by decide), fun _ _ => rfl, fun n status _ hn hw => ?_,
        fun n err _ hn hw => ?_⟩
      · rw [hall n hn] at hw; cases hw
      · rw [hall n hn] at hw; cases hw
    · rw [h]
      constructor
      · intro honest _ k hk hfalse
        have hkne : wait k ≠ .running := fun hw => by rw [hw] at hfalse; exact hfalse
        obtain rfl := hp.unique hk hne hkne
        have hzero := repairVerdict_eq_zero.mpr (Or.inr hfalse)
        obtain ⟨j, status, _, hj, hw, hexit, _⟩ := honest.success hzero
        obtain rfl := hp.unique hj hne (by rw [hw]; simp)
        rw [hw] at hfalse
        simp [FalseZero, hexit] at hfalse
      · intro hcond
        have hfalse := hcond hok n hp
        refine ⟨fun hzero => ?_, fun ht hall => ?_, fun k status _ hk hw hkilled hzero => ?_,
          fun k err _ hk hw hzero => ?_⟩
        · rcases repairVerdict_eq_zero.mp hzero with ⟨status, hw, hexit, hcode⟩ | hf
          · exact ⟨n, status, hok, hp, hw, hexit, hcode⟩
          · exact absurd hf hfalse
        · have := hp.2
          exact absurd (hall n (by omega)) hne
        · obtain rfl := hp.unique hk hne (by rw [hw]; simp)
          rcases repairVerdict_eq_zero.mp hzero with ⟨st, hst, hexit, _⟩ | hf
          · rw [hw] at hst; cases hst; rw [hkilled] at hexit; cases hexit
          · exact hfalse hf
        · obtain rfl := hp.unique hk hne (by rw [hw]; simp)
          rcases repairVerdict_eq_zero.mp hzero with ⟨st, hst, _, _⟩ | hf
          · rw [hw] at hst; cases hst
          · exact hfalse hf

/-- The repair program is killed by SIGKILL and the call reports a good repair. -/
theorem repair_takes_killed_child_for_success :
    repairWith {} (.ok 100) (fun _ => .reaped (Term.signal 8 false).status) ['r'] etoolong = enoerr ∧
      ¬ Honest {} (.ok 100) (fun _ => .reaped (Term.signal 8 false).status)
        (repairWith {} (.ok 100) (fun _ => .reaped (Term.signal 8 false).status) ['r'] etoolong) := by
  have hpoll : Polled {} (fun _ => .reaped (Term.signal 8 false).status) 0 :=
    ⟨fun k hk => absurd hk (Nat.not_lt_zero k), by decide⟩
  have hret : repairWith {} (.ok 100) (fun _ => .reaped (Term.signal 8 false).status) ['r'] etoolong =
      enoerr := repairVerdict_eq_zero.mpr (Or.inr (falseZero_signal {} etoolong 8 false))
  refine ⟨hret, fun honest => ?_⟩
  exact honest.killed 0 _ rfl hpoll rfl (wifexited_signal 8 false) hret

end Watchdog
