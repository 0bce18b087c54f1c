import WatchdogDaemon.PidFile

/- Who `killall5()` kills.

   The shutdown stops every process, lists them, and signals those of the list that are
   not the daemon, not of its session and not the kernel's, before it lets them all go on.
   The daemon knows itself by `daemon_pid`, which `write_pid_file` sets, and finds its
   session by looking itself up in the list. Both can go wrong: `--force` starts the daemon
   without a PID file, and a list that was cut short for want of memory is not used at all,
   though `readproc` keeps it for that.

   What is proved:
     1. `spares_itself_iff` — for every way to start the daemon and every complete list
        that it is in, no signal goes to the daemon or its session if and only if it was
        started without `--force`, or its session id reads 0 or -1.
     2. `kills_itself` — started with `--force`, the daemon kills itself.
     3. `kills_listed_iff` — with an allocation that fails anywhere in the list, all
        processes to be killed are killed if and only if there are none among those listed.
     4. `kills_nobody` — one listed process, and no signal for it.

   Correspondence (C ↔ Lean):
     `main`, lines 478-488                  ↔ `Options.mainPid`, `tuckPid`
   The model of `killall5` and `readproc` is that of the whole shutdown. -/
namespace Watchdog.Shutdown
open CallTree

/-! ## Who is signalled -/

/-- The processes that a signal is sent to, each by its own `kill`. The two broadcasts that
stop and continue all processes are none of them. -/
def signalled (sig : Int) (calls : List Call) : List Int :=
  calls.filterMap fun
    | .sys (.kill pid s) => if pid ≠ -1 ∧ s = sig then some pid else none
    | _ => none

/-- The processes that `killall5 (sig)` signals, in a run against `env`. -/
def killed (c : Setup) (sig : Int) (env : Nat → (q : Call) → Answer q) : List Int :=
  signalled sig ((killall5 c sig).calls env 0)

/-- What `readproc` answers in that run: it is called after one other call. -/
def listed (env : Nat → (q : Call) → Answer q) : Option (Bool × List Proc) :=
  readproc.result env 1

/-- The test of the second loop of `killall5`. -/
def toKill (c : Setup) (plist : List Proc) (p : Proc) : Bool :=
  p.pid ≠ c.daemonPid && p.sid ≠ ownSid c plist && p.sid ≠ 0

section Calls
variable {env : Nat → (q : Call) → Answer q}

theorem signalled_append (sig : Int) (xs ys : List Call) :
    signalled sig (xs ++ ys) = signalled sig xs ++ signalled sig ys :=
  List.filterMap_append

theorem calls_calloc {α : Type} (f : Bool → P α) (n : Nat) :
    (calloc >>= f).calls env n = .calloc :: (f (env n .calloc)).calls env (n + 1) := rfl

theorem result_calloc {α : Type} (f : Bool → P α) (n : Nat) :
    (calloc >>= f).result env n = (f (env n .calloc)).result env (n + 1) := rfl

theorem calls_opendirProc {α : Type} (f : Option (List CString) → P α) (n : Nat) :
    (opendirProc >>= f).calls env n = .opendirProc :: (f (env n .opendirProc)).calls env (n + 1) := rfl

theorem result_opendirProc {α : Type} (f : Option (List CString) → P α) (n : Nat) :
    (opendirProc >>= f).result env n = (f (env n .opendirProc)).result env (n + 1) := rfl

/-- The walk through `/proc` comes back, and signals nobody. -/
theorem listProcs_calls (sig : Int) (names : List CString) (plist : List Proc) (n : Nat) :
    signalled sig ((listProcs names plist).calls env n) = [] ∧
      ((listProcs names plist).result env n).isSome := by
  induction names generalizing plist n with
  | nil => exact ⟨rfl, rfl⟩
  | cons name names ih =>
    unfold listProcs
    split
    · exact ih plist n
    · rw [calls_calloc, result_calloc]
      generalize (env n .calloc : Bool) = ok
      cases ok with
      | false => exact ⟨rfl, rfl⟩
      | true => exact ih (⟨atoi name, env (n + 1) (.getsid (atoi name))⟩ :: plist) (n + 1 + 1)

theorem readproc_calls (sig : Int) (n : Nat) :
    signalled sig (readproc.calls env n) = [] ∧ (readproc.result env n).isSome := by
  unfold readproc
  rw [calls_opendirProc, result_opendirProc]
  generalize (env n .opendirProc : Option (List CString)) = names
  cases names with
  | none => exact ⟨rfl, rfl⟩
  | some names => exact listProcs_calls sig names [] (n + 1)

/-- The processes up to the daemon itself, which a SIGKILL ends. -/
def upToSelf (c : Setup) (sig : Int) : List Proc → List Proc
  | [] => []
  | p :: ps => if p.pid = c.ownPid ∧ sig = sigkill then [p] else p :: upToSelf c sig ps

theorem mem_of_mem_upToSelf {c : Setup} {sig : Int} {p : Proc} {ps : List Proc} (h : p ∈ upToSelf c sig ps) :
    p ∈ ps := by
  induction ps with
  | nil => exact h
  | cons q ps ih =>
    unfold upToSelf at h
    split at h
    · rw [List.mem_singleton.mp h]
      exact List.mem_cons_self
    · obtain rfl | h := List.mem_cons.mp h
      · exact List.mem_cons_self
      · exact List.mem_cons_of_mem q (ih h)

/-- The daemon itself is not left out. -/
theorem self_mem_upToSelf {c : Setup} {sig : Int} {p : Proc} {ps : List Proc} (h : p ∈ ps) (hown : p.pid = c.ownPid) :
    ∃ q ∈ upToSelf c sig ps, q.pid = c.ownPid := by
  induction ps with
  | nil => cases h
  | cons q ps ih =>
    unfold upToSelf
    split
    · next hself => exact ⟨q, List.mem_cons_self, hself.1⟩
    · obtain rfl | h := List.mem_cons.mp h
      · exact ⟨p, List.mem_cons_self, hown⟩
      · obtain ⟨r, hr, hrown⟩ := ih h
        exact ⟨r, List.mem_cons_of_mem q hr, hrown⟩

/-- The loop over the list: a `kill` for each of the processes to kill. -/
theorem calls_killLoop (env : Nat → (q : Call) → Answer q) (c : Setup) (sig : Int) (plist : List Proc)
    (ps : List Proc) (n : Nat) :
    (ps.forM (killOne c sig plist)).calls env n =
      (upToSelf c sig (ps.filter (toKill c plist))).map fun p => .sys (.kill p.pid sig) := by
  induction ps generalizing n with
  | nil => rfl
  | cons p ps ih =>
    show (killOne c sig plist p >>= fun _ => ps.forM _).calls env n = _
    rw [Prog.calls_bind]
    unfold killOne
    by_cases hp : p.pid ≠ c.daemonPid ∧ p.sid ≠ ownSid c plist ∧ p.sid ≠ 0
    · have hkill : toKill c plist p = true := by simpa [toKill, Bool.and_assoc] using hp
      rw [if_pos hp, List.filter_cons_of_pos hkill, upToSelf]
      by_cases hself : p.pid = c.ownPid ∧ sig = sigkill
      · rw [if_pos hself, if_pos hself]
        rfl
      · rw [if_neg hself, if_neg hself]
        exact congrArg (.sys (.kill p.pid sig) :: ·) (ih (n + 1))
    · have hkill : ¬ toKill c plist p = true := by simpa [toKill, Bool.and_assoc] using hp
      rw [if_neg hp, List.filter_cons_of_neg hkill]
      exact ih n

/-- Those of the kills that are not broadcasts. -/
theorem mem_signalled_kills {sig q : Int} {ps : List Proc} :
    q ∈ signalled sig (ps.map fun p => .sys (.kill p.pid sig)) ↔ q ≠ -1 ∧ ∃ p ∈ ps, p.pid = q := by
  unfold signalled
  simp only [List.mem_filterMap, List.mem_map]
  constructor
  · intro h
    obtain ⟨_, ⟨p, hp, rfl⟩, hq⟩ := h
    simp only [and_true, Option.ite_none_right_eq_some, Option.some.injEq] at hq
    exact ⟨hq.2 ▸ hq.1, p, hp, hq.2⟩
  · intro h
    obtain ⟨hne, p, hp, rfl⟩ := h
    exact ⟨_, ⟨p, hp, rfl⟩, by simp [hne]⟩

/-- What follows the listing. -/
def killListed (c : Setup) (sig : Int) : Bool × List Proc → P Unit
  | (ok, plist) =>
    if ok then plist.forM (killOne c sig plist) >>= fun _ => attempt (.kill (-1) sigcont)
    else attempt (.kill (-1) sigcont)

theorem killall5_eq (c : Setup) (sig : Int) :
    killall5 c sig = attempt (.kill (-1) sigstop) >>= fun _ => readproc >>= killListed c sig := rfl

theorem signalled_broadcast (sig s : Int) : signalled sig [.sys (.kill (-1) s)] = [] := by
  simp [signalled]

theorem signalled_killListed (c : Setup) (sig : Int) (ok : Bool) (plist : List Proc) (n : Nat) :
    signalled sig ((killListed c sig (ok, plist)).calls env n) =
      if ok then
        signalled sig ((upToSelf c sig (plist.filter (toKill c plist))).map fun p => .sys (.kill p.pid sig))
      else [] := by
  cases ok with
  | false => exact signalled_broadcast sig sigcont
  | true =>
    rw [killListed, if_pos rfl, Prog.calls_bind, calls_killLoop, signalled_append]
    split
    · exact List.append_nil _
    · exact (congrArg _ (signalled_broadcast sig sigcont)).trans (List.append_nil _)

/-- **Who is killed**: with a complete list those of it to be killed, up to the daemon itself
if it is one of them, else nobody. -/
theorem mem_killed {c : Setup} {sig q : Int} {ok : Bool} {plist : List Proc}
    (h : listed env = some (ok, plist)) :
    q ∈ killed c sig env ↔
      ok = true ∧ q ≠ -1 ∧ ∃ p ∈ upToSelf c sig (plist.filter (toKill c plist)), p.pid = q := by
  have hcalls : (killall5 c sig).calls env 0 =
      .sys (.kill (-1) sigstop) :: (readproc.calls env 1 ++
        (killListed c sig (ok, plist)).calls env (1 + (readproc.calls env 1).length)) := by
    rw [killall5_eq, Prog.calls_bind]
    show _ :: (readproc >>= killListed c sig).calls env 1 = _
    unfold listed at h
    rw [Prog.calls_bind, h]
  unfold killed
  rw [hcalls, ← List.singleton_append, signalled_append, signalled_append, signalled_broadcast,
    (readproc_calls sig 1).1, signalled_killListed, List.nil_append, List.nil_append]
  cases ok with
  | false => simp
  | true =>
    rw [if_pos rfl, mem_signalled_kills]
    simp

/-- Whoever is killed was to be killed. -/
theorem toKill_of_killed {c : Setup} {sig q : Int} {ok : Bool} {plist : List Proc}
    (h : listed env = some (ok, plist)) (hq : q ∈ killed c sig env) :
    ∃ p ∈ plist, toKill c plist p = true ∧ p.pid = q := by
  obtain ⟨-, -, p, hp, hpid⟩ := (mem_killed h).mp hq
  obtain ⟨hmem, hkill⟩ := List.mem_filter.mp (mem_of_mem_upToSelf hp)
  exact ⟨p, hmem, hkill, hpid⟩

/-- A daemon that is to be killed is. -/
theorem self_killed {c : Setup} {sig : Int} {plist : List Proc} (h : listed env = some (true, plist)) {p : Proc}
    (hp : p ∈ plist) (hkill : toKill c plist p = true) (hown : p.pid = c.ownPid) (hpid : c.ownPid ≠ -1) :
    c.ownPid ∈ killed c sig env :=
  (mem_killed h).mpr ⟨rfl, hpid, self_mem_upToSelf (List.mem_filter.mpr ⟨hp, hkill⟩) hown⟩

end Calls

/-! ## The daemon itself -/

/-- The options of `main` that the start depends on. -/
structure Options where
  force : Bool
  foreground : Bool

/-- The process that goes on to the main loop: the one that was started, or the second child
of `wd_daemon`. -/
def Options.mainPid (opts : Options) (started daemon : Int) : Int :=
  if opts.foreground then started else daemon

/-- Tuck my process id away: the globals of `daemon-pid.c` that `main` goes on with, unless
it exits for want of the lock. -/
def tuckPid (opts : Options) (alive : Int → Bool) (getpid : Int) (opens : Bool) (pidfile : CString)
    (files : Files) : Option PidGlobals :=
  if !opts.force then
    let (rv, g, _) := writePidFile alive getpid opens (some pidfile) {} files
    if rv ≠ 0 then none else some g
  else some {}

/-- A list that the daemon is in, with its session. A process is in one session. -/
structure Listed (own session : Int) (plist : List Proc) : Prop where
  included : ⟨own, session⟩ ∈ plist
  one : ∀ p ∈ plist, ∀ q ∈ plist, p.pid = q.pid → p.sid = q.sid

/-- No signal goes to the daemon or to a process of its session. -/
def Spares (own session : Int) (plist : List Proc) (pids : List Int) : Prop :=
  ∀ p ∈ plist, p.pid = own ∨ p.sid = session → p.pid ∉ pids

/-- Without `--force` the daemon knows its process id, with it it has 0. -/
theorem tuckPid_daemonPid {opts : Options} {alive : Int → Bool} {getpid : Int} {opens : Bool}
    {pidfile : CString} {files : Files} {g : PidGlobals}
    (h : tuckPid opts alive getpid opens pidfile files = some g) :
    g.daemonPid = if opts.force then 0 else getpid := by
  cases hforce : opts.force with
  | true =>
    simp only [tuckPid, hforce, Bool.not_true, Bool.false_eq_true, if_false, Option.some.injEq] at h
    rw [← h]
    rfl
  | false =>
    simp only [tuckPid, hforce, Bool.not_false, if_true] at h
    split at h
    · cases h
    · rw [Option.some.injEq] at h
      rw [← h]
      exact writePidFile_daemonPid opens (some pidfile)

/-- The names that are taken for processes have a number other than 0. -/
theorem listProcs_pid {env : Nat → (q : Call) → Answer q} {names : List CString} {ok : Bool}
    {plist plist' : List Proc} {n : Nat} (h : (listProcs names plist).result env n = some (ok, plist'))
    (hpids : ∀ p ∈ plist, p.pid ≠ 0) : ∀ p ∈ plist', p.pid ≠ 0 := by
  induction names generalizing plist n with
  | nil =>
    cases h
    exact hpids
  | cons name names ih =>
    unfold listProcs at h
    split at h
    · exact ih h hpids
    · next hname =>
      rw [result_calloc] at h
      generalize (env n .calloc : Bool) = ok' at h
      cases ok' with
      | false =>
        cases h
        exact hpids
      | true =>
        refine ih h ?_
        rw [List.forall_mem_cons]
        exact ⟨hname, hpids⟩

theorem listed_pid {env : Nat → (q : Call) → Answer q} {ok : Bool} {plist : List Proc}
    (h : listed env = some (ok, plist)) : ∀ p ∈ plist, p.pid ≠ 0 := by
  unfold listed readproc at h
  rw [result_opendirProc] at h
  generalize (env 1 .opendirProc : Option (List CString)) = names at h
  cases names with
  | none =>
    cases h
    exact fun p hp => absurd hp List.not_mem_nil
  | some names => exact listProcs_pid h fun p hp => absurd hp List.not_mem_nil

section Own
variable {c : Setup} {own session : Int} {plist : List Proc}

/-- A daemon that knows its process id finds its session. -/
theorem ownSid_eq (hlist : Listed own session plist) (hpid : c.daemonPid = own) :
    ownSid c plist = session := by
  unfold ownSid
  cases hfind : plist.find? fun p => p.pid = c.daemonPid with
  | none =>
    have := List.find?_eq_none.mp hfind _ hlist.included
    exact absurd hpid.symm (by simpa using this)
  | some d =>
    have hd : d.pid = c.daemonPid := by simpa using List.find?_some hfind
    exact hlist.one d (List.mem_of_find?_eq_some hfind) _ hlist.included (hd.trans hpid)

/-- One that does not is not found. -/
theorem ownSid_unknown (hpids : ∀ p ∈ plist, p.pid ≠ 0) (hpid : c.daemonPid = 0) :
    ownSid c plist = -1 := by
  unfold ownSid
  rw [hpid, List.find?_eq_none.mpr]
  intro p hp
  simpa using hpids p hp

/-- With its process id, the daemon spares itself and its session. -/
theorem spares_known {env : Nat → (q : Call) → Answer q} (hread : listed env = some (true, plist))
    (hlist : Listed own session plist) (hpid : c.daemonPid = own) (sig : Int) :
    Spares own session plist (killed c sig env) := by
  have hsid := ownSid_eq hlist hpid
  intro p hp hours hkilled
  obtain ⟨q, hq, hkill, hqp⟩ := toKill_of_killed hread hkilled
  simp only [toKill, hpid, hsid, Bool.and_eq_true, decide_eq_true_eq, ne_eq] at hkill
  obtain hown | hsession := hours
  · exact hkill.1.1 (hqp.trans hown)
  · exact hkill.1.2 ((hlist.one q hq p hp hqp).trans hsession)

/-- Without it, the daemon is one of the processes to be killed. -/
theorem spares_unknown_iff {env : Nat → (q : Call) → Answer q}
    (hread : listed env = some (true, plist)) (hlist : Listed own session plist) (hpos : 0 < own)
    (hpid : c.daemonPid = 0) (hown : c.ownPid = own) (sig : Int) :
    Spares own session plist (killed c sig env) ↔ session = 0 ∨ session = -1 := by
  have hpids := listed_pid hread
  have hsid := ownSid_unknown hpids hpid
  have hkill : ∀ p ∈ plist, toKill c plist p = true ↔ p.sid ≠ -1 ∧ p.sid ≠ 0 := by
    intro p hp
    simp [toKill, hpid, hsid, hpids p hp]
  constructor
  · intro h
    have hspared := h _ hlist.included (Or.inl rfl)
    by_contra hnot
    have hself : toKill c plist ⟨own, session⟩ = true := by
      rw [hkill _ hlist.included]
      show session ≠ -1 ∧ session ≠ 0
      omega
    apply hspared
    have hkilled : c.ownPid ∈ killed c sig _ := self_killed hread hlist.included hself hown.symm (by omega)
    rwa [hown] at hkilled
  · intro h p hp hours hkilled
    obtain ⟨q, hq, hqkill, hqp⟩ := toKill_of_killed hread hkilled
    obtain ⟨hne₁, hne₂⟩ := (hkill q hq).mp hqkill
    have hsession : q.sid = session := by
      obtain hown | hsame := hours
      · exact hlist.one q hq _ hlist.included (hqp.trans hown)
      · exact (hlist.one q hq p hp hqp).trans hsame
    omega

end Own

/-- **The daemon is spared, unless it was started with `--force`.** Then it does not know
its process id, and only a session id that is skipped for another reason can save it. -/
theorem spares_itself_iff (opts : Options) (started daemon : Int) (hpos : 0 < opts.mainPid started daemon)
    (alive : Int → Bool) (opens : Bool) (pidfile : CString) (files : Files) (g : PidGlobals)
    (hstart : tuckPid opts alive (opts.mainPid started daemon) opens pidfile files = some g)
    (c : Setup) (sig : Int) (env : Nat → (q : Call) → Answer q) (plist : List Proc)
    (hread : listed env = some (true, plist)) (session : Int)
    (hlist : Listed (opts.mainPid started daemon) session plist) :
    Spares (opts.mainPid started daemon) session plist
        (killed { c with daemonPid := g.daemonPid, ownPid := opts.mainPid started daemon } sig env) ↔
      opts.force = false ∨ session = 0 ∨ session = -1 := by
  have hpid := tuckPid_daemonPid hstart
  cases hforce : opts.force with
  | false =>
    rw [hforce, if_neg Bool.false_ne_true] at hpid
    exact ⟨fun _ => Or.inl rfl, fun _ => spares_known hread hlist hpid sig⟩
  | true =>
    rw [hforce, if_pos rfl] at hpid
    rw [spares_unknown_iff hread hlist hpos hpid rfl sig]
    simp

/-- A machine with the daemon, its own session leader, as process 100, and a shell. -/
def twoProcs : Nat → (q : Call) → Answer q
  | _, .sys _ => true
  | _, .malloc => true
  | _, .calloc => true
  | _, .fopen _ => some []
  | _, .fgetsEnd _ => false
  | _, .lstatMounted => .other
  | _, .lstatLock => .other
  | _, .umount _ => none
  | _, .opendirProc => some [['1', '0', '0'], ['2', '0', '0'], ['s', 'e', 'l', 'f']]
  | _, .getsid pid => pid
  | _, .fstab => some []
  | _, .ifconf => some []
  | _, .reboot _ => ()

/-- Started as usual, the daemon kills the shell and not itself. -/
theorem spares_itself_iff_usual :
    listed twoProcs = some (true, [⟨200, 200⟩, ⟨100, 100⟩]) ∧
      Spares 100 100 [⟨200, 200⟩, ⟨100, 100⟩] (killed { daemonPid := 100 } sigkill twoProcs) ∧
      killed { daemonPid := 100 } sigkill twoProcs = [200] := by
  have hread : listed twoProcs = some (true, [⟨200, 200⟩, ⟨100, 100⟩]) := by decide +kernel
  have hlist : Listed 100 100 [⟨200, 200⟩, ⟨100, 100⟩] := ⟨by decide, by decide⟩
  refine ⟨hread, ?_, by decide +kernel⟩
  exact (spares_itself_iff ⟨false, false⟩ 50 100 (by decide) (fun _ => false) true ['p']
    (fun _ => none) ⟨100, some ['p']⟩ (by decide) { daemonPid := 0 } sigkill twoProcs _ hread 100
    hlist).mpr (Or.inl rfl)

/-- Started with `--force`, it sends itself the SIGKILL. -/
theorem kills_itself :
    let g := tuckPid ⟨true, false⟩ (fun _ => false) 100 true ['p'] (fun _ => none)
    g = some {} ∧ listed twoProcs = some (true, [⟨200, 200⟩, ⟨100, 100⟩]) ∧
      Listed 100 100 [⟨200, 200⟩, ⟨100, 100⟩] ∧
      ¬ Spares 100 100 [⟨200, 200⟩, ⟨100, 100⟩] (killed { daemonPid := 0, ownPid := 100 } sigkill twoProcs) := by
  refine ⟨by decide, by decide +kernel, ⟨by decide, by decide⟩, ?_⟩
  intro h
  exact h ⟨100, 100⟩ (by decide) (Or.inl rfl) (by decide +kernel)

/-! ## Without memory -/

/-- Not the daemon, not of its session, not the kernel's. -/
def Eligible (c : Setup) (session : Int) (p : Proc) : Prop :=
  p.pid ≠ c.daemonPid ∧ p.sid ≠ session ∧ p.sid ≠ 0

/-- **A list that was cut short is not used.** Where the allocation fails, all processes to be
killed of those collected before are killed if and only if there is none among them. -/
theorem kills_listed_iff (c : Setup) (session sig : Int) (env : Nat → (q : Call) → Answer q)
    (plist : List Proc) (hread : listed env = some (false, plist)) :
    (∀ p ∈ plist, Eligible c session p → p.pid ∈ killed c sig env) ↔
      ∀ p ∈ plist, ¬ Eligible c session p := by
  have hnobody : ∀ q, q ∉ killed c sig env := by
    intro q hq
    obtain ⟨hok, -⟩ := (mem_killed hread).mp hq
    cases hok
  constructor
  · intro h p hp heligible
    exact hnobody p.pid (h p hp heligible)
  · intro h p hp heligible
    exact absurd heligible (h p hp)

/-- The machine of above, with memory for one process of the list. -/
def memoryForOne : Nat → (q : Call) → Answer q
  | n, .calloc => decide (n < 4)
  | n, q => twoProcs n q

/-- The process of the list is the daemon, and there is nobody to kill. -/
theorem kills_listed_iff_daemon :
    listed memoryForOne = some (false, [⟨100, 100⟩]) ∧
      ∀ p ∈ [(⟨100, 100⟩ : Proc)], Eligible { daemonPid := 100 } 100 p →
        p.pid ∈ killed { daemonPid := 100 } sigterm memoryForOne := by
  have hread : listed memoryForOne = some (false, [⟨100, 100⟩]) := by decide +kernel
  refine ⟨hread, (kills_listed_iff { daemonPid := 100 } 100 sigterm memoryForOne _ hread).mpr ?_⟩
  intro p hp heligible
  rw [List.mem_singleton.mp hp] at heligible
  exact heligible.1 rfl

/-- It is another process, and stays alive. -/
theorem kills_nobody :
    listed memoryForOne = some (false, [⟨100, 100⟩]) ∧
      ¬ ∀ p ∈ [(⟨100, 100⟩ : Proc)], Eligible { daemonPid := 300 } 300 p →
        p.pid ∈ killed { daemonPid := 300 } sigterm memoryForOne := by
  refine ⟨by decide +kernel, ?_⟩
  intro h
  have hkilled := h ⟨100, 100⟩ List.mem_cons_self ⟨by decide, by decide, by decide⟩
  exact absurd hkilled (by decide +kernel)

end Watchdog.Shutdown
