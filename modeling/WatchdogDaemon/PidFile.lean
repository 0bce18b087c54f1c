import Mathlib.Data.List.Nodup
import WatchdogDaemon.Lib.Runs
import WatchdogDaemon.TextFile

/- The PID file as a lock: `daemon-pid.c`.

   A daemon writes its process id to the file; one that finds the id of another live
   process in it gives up. The file outlives its writer, and ids are used again, so the
   lock is a matter of what the file says and who is alive. `remove_pid_file` unlinks the
   name it was saved under and does not look at the contents: that it never takes away
   another daemon's file rests on the saved name being there only while the file is ours.

   A state is the file system and the live processes; a run is any order of starts, calls
   and deaths, with any file there at the beginning. The log of the calls says who holds
   the file, and `Inv` says what the saved name and the file then are.

   What is proved: `pid_file_exclusive` — after every run, at most one live process holds
   the file, the file contains its id, and every other process is refused and changes
   nothing.

   Correspondence (C ↔ Lean):
     `daemon_pid`, `saved_fname`            ↔ `PidGlobals`
     `check_pid_file`                       ↔ `checkPidFile`
     `write_pid_file`, `remove_pid_file`    ↔ `writePidFile`, `removePidFile`
   A call is one step here; its comment names the small chance of two daemons between
   the check and the write. -/
namespace Watchdog
open Shutdown (isSpace digits atoi)

abbrev Files := CString → Option CString

/-- The globals of `daemon-pid.c`. -/
structure PidGlobals where
  daemonPid : Int := 0
  savedFname : Option CString := none
  deriving DecidableEq

/-- `fscanf (fp, " %d", &pid)`: no number, or the value `atoi` gives it. -/
def fscanfPid (contents : CString) : Option Int :=
  let number := match contents.dropWhile isSpace with
    | '-' :: rest => digits rest
    | '+' :: rest => digits rest
    | rest => digits rest
  if number.isEmpty then none else some (atoi contents)

/-- `alive pid` is whether `kill (pid, 0)` succeeds. -/
def checkPidFile (alive : Int → Bool) (g : PidGlobals) (files : Files) (fname : CString) : Int :=
  match files fname with
  | none => 0
  | some contents =>
    let pid := (fscanfPid contents).getD 0
    if pid ≠ 0 ∧ pid ≠ g.daemonPid then
      -- PID already written, but is it another active process?
      if alive pid then -1 else 0
    else 0

/-- The answer, and what the call leaves. Unlinking a file that is not there fails. -/
def removePidFile (g : PidGlobals) (files : Files) : Int × PidGlobals × Files :=
  match g.savedFname with
  | none => (0, g, files)
  | some fname =>
    (if (files fname).isSome then 0 else -1, { g with savedFname := none },
      Function.update files fname none)

/-- `opens` is whether the file can be opened for writing. -/
def writePidFile (alive : Int → Bool) (getpid : Int) (opens : Bool) (fname : Option CString)
    (g : PidGlobals) (files : Files) : Int × PidGlobals × Files :=
  let g := { g with daemonPid := getpid }
  match fname with
  | none => (-1, g, files)
  | some fname =>
    if checkPidFile alive g files fname ≠ 0 then (-1, g, files)
    else
      -- Remove any previous file we used.
      let (_, g, files) := removePidFile g files
      if opens then
        (0, { g with savedFname := some fname },
          Function.update files fname (some (decimal g.daemonPid ++ ['\n'])))
      else (-1, g, files)

/-! ## Processes -/

/-- A live process; `id` tells it from earlier ones with its pid. -/
structure PidProc where
  id : Nat
  pid : Int
  globals : PidGlobals := {}

/-- A call that returned, with what it answered. -/
inductive PidObs where
  | wrote (id : Nat) (rv : Int)
  | removed (id : Nat)
  deriving DecidableEq

def PidObs.id : PidObs → Nat
  | .wrote id _ => id
  | .removed id => id

/-- The files, the live processes, the next process, and the calls, the last one first. -/
structure PidWorld where
  files : Files
  procs : List PidProc
  next : Nat
  log : List PidObs

inductive PidEv where
  | start (pid : Int)
  | write (id : Nat)
  | remove (id : Nat)
  | die (id : Nat)

def PidWorld.alive (w : PidWorld) (pid : Int) : Bool := w.procs.any (·.pid = pid)

/-- The process with its globals after a call. -/
def PidWorld.put (w : PidWorld) (id : Nat) (g : PidGlobals) : List PidProc :=
  w.procs.map fun p => if p.id = id then { p with globals := g } else p

/-- One step on the file `f`. A new process gets a process id that no live one has. -/
def pidStep (f : CString) (w : PidWorld) : PidEv → PidWorld
  | .start pid =>
    if 0 < pid ∧ pid < 2 ^ 31 ∧ w.alive pid = false then
      { w with procs := { id := w.next, pid } :: w.procs, next := w.next + 1 }
    else w
  | .write id =>
    match w.procs.find? (·.id = id) with
    | none => w
    | some p =>
      let (rv, g, files) := writePidFile w.alive p.pid true (some f) p.globals w.files
      { w with files, procs := w.put id g, log := .wrote id rv :: w.log }
  | .remove id =>
    match w.procs.find? (·.id = id) with
    | none => w
    | some p =>
      let (_, g, files) := removePidFile p.globals w.files
      { w with files, procs := w.put id g, log := .removed id :: w.log }
  | .die id => { w with procs := w.procs.filter (·.id ≠ id) }

/-- After the events, with `files` there at the beginning. -/
def pidAfter (f : CString) (files : Files) (evs : List PidEv) : PidWorld :=
  Runs.run (pidStep f) ⟨files, [], 0, []⟩ evs

/-! ## The specification -/

/-- Its last `write_pid_file` returned 0 and it has not removed the file since. -/
def Holds (log : List PidObs) (id : Nat) : Prop :=
  log.find? (·.id = id) = some (.wrote id 0)

/-- At most one live process holds the file; the file then contains its id, and every
other process is refused and leaves the file alone. -/
structure Exclusive (f : CString) (w : PidWorld) : Prop where
  one : ∀ p ∈ w.procs, ∀ q ∈ w.procs, Holds w.log p.id → Holds w.log q.id → p = q
  contains : ∀ p ∈ w.procs, Holds w.log p.id → (w.files f).bind fscanfPid = some p.pid
  refused : ∀ p ∈ w.procs, Holds w.log p.id → ∀ q ∈ w.procs, q ≠ p → ∀ opens,
    (writePidFile w.alive q.pid opens (some f) q.globals w.files).1 = -1 ∧
      (writePidFile w.alive q.pid opens (some f) q.globals w.files).2.2 = w.files

/-! ## The id that is written is the id that is read -/

theorem fscanfPid_decimal {pid : Int} (hpos : 0 < pid) (hlt : pid < 2 ^ 31) :
    fscanfPid (decimal pid ++ ['\n']) = some pid := by
  have hends : EndsNumber ['\n'] := by decide
  let d := Numeral.ofNat pid.natAbs
  have hnat : (d.value : Int) = pid := by
    rw [Numeral.value_ofNat]
    omega
  have hstart : startNumber (d.chars ++ ['\n']) = pid := by
    rw [startNumber_numeral d hends, hnat]
  have hatoi : atoi (d.chars ++ ['\n']) = pid := by
    rw [atoi_of_lt (by omega) (by omega), hstart]
  have hdecimal : decimal pid = d.chars := decimal_nonneg (by omega)
  unfold fscanfPid
  rw [hdecimal, d.dropWhile_isSpace, hatoi]
  split
  · next h => exact absurd h (d.ne_sign rfl)
  · next h => exact absurd h (d.ne_sign rfl)
  · rw [digits_append d.isDigit hends]
    simp [d.ne_nil]

/-! ## What the calls do -/

section Calls
variable {alive : Int → Bool} {getpid : Int} {g : PidGlobals} {files : Files} {f contents : CString}

theorem writePidFile_refused {pid : Int} (opens : Bool) (hfile : files f = some contents)
    (hpid : fscanfPid contents = some pid) (hne : pid ≠ 0) (hother : pid ≠ getpid)
    (halive : alive pid = true) :
    writePidFile alive getpid opens (some f) g files = (-1, { g with daemonPid := getpid }, files) := by
  simp [writePidFile, checkPidFile, hfile, hpid, hne, hother, halive]

theorem removePidFile_daemonPid (g : PidGlobals) (files : Files) :
    (removePidFile g files).2.1.daemonPid = g.daemonPid := by
  unfold removePidFile
  split <;> rfl

/-- Whatever it answers, the call notes the process id. -/
theorem writePidFile_daemonPid (opens : Bool) (fname : Option CString) :
    (writePidFile alive getpid opens fname g files).2.1.daemonPid = getpid := by
  cases fname with
  | none => rfl
  | some fname =>
    simp only [writePidFile]
    split
    · rfl
    · split
      · exact removePidFile_daemonPid _ _
      · exact removePidFile_daemonPid _ _

/-- A call that is not refused leaves the caller's id in the file and its name saved. -/
theorem writePidFile_cases (alive : Int → Bool) (getpid : Int) (g : PidGlobals) (files : Files)
    (f : CString) :
    writePidFile alive getpid true (some f) g files = (-1, { g with daemonPid := getpid }, files) ∨
      ∃ files', writePidFile alive getpid true (some f) g files = (0, ⟨getpid, some f⟩, files') ∧
        files' f = some (decimal getpid ++ ['\n']) := by
  unfold writePidFile
  by_cases hcheck : checkPidFile alive { g with daemonPid := getpid } files f = 0
  · right
    refine ⟨Function.update (removePidFile { g with daemonPid := getpid } files).2.2 f _, ?_,
      Function.update_self _ _ _⟩
    simp only [hcheck, ne_eq, not_true_eq_false, if_true, if_false, removePidFile_daemonPid]
  · left
    simp [hcheck]

/-- The caller's own id in the file does not keep it out. -/
theorem writePidFile_own (hpid : fscanfPid contents = some getpid) (hfile : files f = some contents) :
    (writePidFile alive getpid true (some f) g files).1 = 0 := by
  simp [writePidFile, checkPidFile, hfile, hpid]

end Calls

/-! ## The invariant -/

/-- The holder, if there is one, has the name saved and its id in the file; nobody else has
a name saved. -/
structure PidInv (f : CString) (w : PidWorld) : Prop where
  ids : (w.procs.map (·.id)).Nodup
  pids : (w.procs.map (·.pid)).Nodup
  range : ∀ p ∈ w.procs, 0 < p.pid ∧ p.pid < 2 ^ 31
  fresh : ∀ p ∈ w.procs, p.id < w.next
  logged : ∀ o ∈ w.log, o.id < w.next
  saved : ∀ p ∈ w.procs, (Holds w.log p.id ∧ p.globals.savedFname = some f) ∨
    (¬ Holds w.log p.id ∧ p.globals.savedFname = none)
  file : ∀ p ∈ w.procs, Holds w.log p.id → w.files f = some (decimal p.pid ++ ['\n'])

theorem holds_cons_other {o : PidObs} {id : Nat} (h : o.id ≠ id) (log : List PidObs) :
    Holds (o :: log) id ↔ Holds log id := by
  unfold Holds
  rw [List.find?_cons_of_neg (by simpa using h)]

theorem holds_cons_own {o : PidObs} {id : Nat} (h : o.id = id) (log : List PidObs) :
    Holds (o :: log) id ↔ o = .wrote id 0 := by
  unfold Holds
  rw [List.find?_cons_of_pos (by simpa using h), Option.some.injEq]

theorem alive_of_mem {w : PidWorld} {p : PidProc} (hp : p ∈ w.procs) : w.alive p.pid = true := by
  rw [PidWorld.alive, List.any_eq_true]
  exact ⟨p, hp, decide_eq_true rfl⟩

section Inv
variable {f : CString} {w : PidWorld} {p : PidProc}

theorem PidInv.eq_of_id (h : PidInv f w) {q : PidProc} (hp : p ∈ w.procs) (hq : q ∈ w.procs)
    (hid : p.id = q.id) : p = q :=
  List.inj_on_of_nodup_map h.ids hp hq hid

theorem PidInv.reads (h : PidInv f w) (hp : p ∈ w.procs) (hhold : Holds w.log p.id) :
    w.files f = some (decimal p.pid ++ ['\n']) ∧ fscanfPid (decimal p.pid ++ ['\n']) = some p.pid := by
  obtain ⟨hpos, hlt⟩ := h.range p hp
  exact ⟨h.file p hp hhold, fscanfPid_decimal hpos hlt⟩

/-- Two holders would have written the same file. -/
theorem PidInv.one (h : PidInv f w) {q : PidProc} (hp : p ∈ w.procs) (hq : q ∈ w.procs)
    (hpHolds : Holds w.log p.id) (hqHolds : Holds w.log q.id) : p = q := by
  obtain ⟨hfile, hread⟩ := h.reads hp hpHolds
  obtain ⟨hfile', hread'⟩ := h.reads hq hqHolds
  have hpid : p.pid = q.pid := by
    have := congrArg (·.bind fscanfPid) (hfile.symm.trans hfile')
    simpa [hread, hread'] using this
  exact List.inj_on_of_nodup_map h.pids hp hq hpid

/-- While somebody holds the file, everybody else is refused. -/
theorem PidInv.refused (h : PidInv f w) {q : PidProc} (hp : p ∈ w.procs) (hhold : Holds w.log p.id)
    (hq : q ∈ w.procs) (hne : q ≠ p) (opens : Bool) :
    writePidFile w.alive q.pid opens (some f) q.globals w.files =
      (-1, { q.globals with daemonPid := q.pid }, w.files) := by
  obtain ⟨hfile, hread⟩ := h.reads hp hhold
  have hpos := (h.range p hp).1
  apply writePidFile_refused opens hfile hread (by omega) _ (alive_of_mem hp)
  intro hpid
  exact hne (List.inj_on_of_nodup_map h.pids hq hp hpid.symm)

theorem PidInv.exclusive (h : PidInv f w) : Exclusive f w where
  one := fun _ hp _ hq hpHolds hqHolds => h.one hp hq hpHolds hqHolds
  contains := by
    intro p hp hhold
    obtain ⟨hfile, hread⟩ := h.reads hp hhold
    rw [hfile, Option.bind_some, hread]
  refused := by
    intro p hp hhold q hq hne opens
    rw [h.refused hp hhold hq hne opens]
    exact ⟨rfl, rfl⟩

/-! ## Steps -/

theorem mem_put {q : PidProc} {id : Nat} {g : PidGlobals} (hq : q ∈ w.put id g) :
    ∃ p ∈ w.procs, q.id = p.id ∧ q.pid = p.pid ∧
      q.globals = if p.id = id then g else p.globals := by
  obtain ⟨p, hp, rfl⟩ := List.mem_map.mp hq
  refine ⟨p, hp, ?_⟩
  split
  · exact ⟨rfl, rfl, rfl⟩
  · exact ⟨rfl, rfl, rfl⟩

/-- What does not depend on the globals stays. -/
theorem put_map {β : Type} (id : Nat) (g : PidGlobals) {k : PidProc → β}
    (hk : ∀ p : PidProc, k { p with globals := g } = k p) : (w.put id g).map k = w.procs.map k := by
  rw [PidWorld.put, List.map_map]
  apply List.map_congr_left
  intro p _
  show k (if p.id = id then { p with globals := g } else p) = k p
  split
  · exact hk p
  · rfl

/-- A call of `p`: it comes to hold the file or it holds nothing, and where another
process holds the file it leaves it alone. -/
theorem PidInv.called (h : PidInv f w) (hp : p ∈ w.procs) {o : PidObs} (ho : o.id = p.id)
    {g : PidGlobals} {files : Files}
    (hown : (o = .wrote p.id 0 ∧ g.savedFname = some f ∧ files f = some (decimal p.pid ++ ['\n'])) ∨
      (o ≠ .wrote p.id 0 ∧ g.savedFname = none))
    (hothers : ∀ q ∈ w.procs, q.id ≠ p.id → Holds w.log q.id → files f = w.files f) :
    PidInv f { w with files, procs := w.put p.id g, log := o :: w.log } where
  ids := by rw [put_map p.id g fun _ => rfl]; exact h.ids
  pids := by rw [put_map p.id g fun _ => rfl]; exact h.pids
  range := by
    intro q hq
    obtain ⟨r, hr, -, hpid, -⟩ := mem_put hq
    rw [hpid]
    exact h.range r hr
  fresh := by
    intro q hq
    obtain ⟨r, hr, hid, -, -⟩ := mem_put hq
    rw [hid]
    exact h.fresh r hr
  logged := by
    intro o' ho'
    obtain rfl | ho' := List.mem_cons.mp ho'
    · rw [ho]
      exact h.fresh p hp
    · exact h.logged o' ho'
  saved := by
    intro q hq
    obtain ⟨r, hr, hid, -, hg⟩ := mem_put hq
    rw [hid, hg]
    by_cases hrp : r.id = p.id
    · rw [if_pos hrp, hrp, holds_cons_own ho]
      obtain ⟨rfl, hsaved, -⟩ | ⟨hne, hsaved⟩ := hown
      · exact Or.inl ⟨rfl, hsaved⟩
      · exact Or.inr ⟨hne, hsaved⟩
    · rw [if_neg hrp, holds_cons_other (by rw [ho]; exact Ne.symm hrp)]
      exact h.saved r hr
  file := by
    intro q hq
    obtain ⟨r, hr, hid, hpid, -⟩ := mem_put hq
    rw [hid, hpid]
    intro hhold
    by_cases hrp : r.id = p.id
    · have hrp' := h.eq_of_id hr hp hrp
      rw [hrp, holds_cons_own ho] at hhold
      obtain ⟨-, -, hfile⟩ | ⟨hne, -⟩ := hown
      · rw [hrp']
        exact hfile
      · exact absurd hhold hne
    · rw [holds_cons_other (by rw [ho]; exact Ne.symm hrp)] at hhold
      exact (hothers r hr hrp hhold).trans (h.file r hr hhold)

theorem PidInv.write (h : PidInv f w) (hp : p ∈ w.procs) :
    let r := writePidFile w.alive p.pid true (some f) p.globals w.files
    PidInv f { w with files := r.2.2, procs := w.put p.id r.2.1, log := .wrote p.id r.1 :: w.log } := by
  obtain hrefused | ⟨files, hwrote, hfile⟩ := writePidFile_cases w.alive p.pid p.globals w.files f
  · -- Refused: then the caller does not hold the file, which would contain its own id.
    have hnot : ¬ Holds w.log p.id := by
      intro hhold
      obtain ⟨hfile, hread⟩ := h.reads hp hhold
      have hown : (writePidFile w.alive p.pid true (some f) p.globals w.files).1 = 0 :=
        writePidFile_own hread hfile
      rw [hrefused] at hown
      exact absurd hown (by simp)
    have hsaved : p.globals.savedFname = none := by
      obtain ⟨hhold, -⟩ | ⟨-, hnone⟩ := h.saved p hp
      · exact absurd hhold hnot
      · exact hnone
    simp only [hrefused]
    exact h.called hp rfl (Or.inr ⟨by simp, hsaved⟩) fun _ _ _ _ => rfl
  · simp only [hwrote]
    apply h.called hp rfl (Or.inl ⟨rfl, rfl, hfile⟩)
    intro q hq hne hhold
    have hrefused := h.refused hq hhold hp (fun heq => hne (by rw [heq])) true
    rw [hwrote] at hrefused
    exact absurd (congrArg (·.1) hrefused) (by simp)

theorem PidInv.remove (h : PidInv f w) (hp : p ∈ w.procs) :
    let r := removePidFile p.globals w.files
    PidInv f { w with files := r.2.2, procs := w.put p.id r.2.1, log := .removed p.id :: w.log } := by
  obtain ⟨hhold, hsaved⟩ | ⟨hnot, hsaved⟩ := h.saved p hp
  · simp only [removePidFile, hsaved]
    apply h.called hp rfl (Or.inr ⟨by simp, rfl⟩)
    intro q hq hne hq'
    exact absurd (congrArg (·.id) (h.one hq hp hq' hhold)) hne
  · simp only [removePidFile, hsaved]
    exact h.called hp rfl (Or.inr ⟨by simp, hsaved⟩) fun _ _ _ _ => rfl

theorem PidInv.start (h : PidInv f w) {pid : Int} (hpos : 0 < pid) (hlt : pid < 2 ^ 31)
    (hfree : w.alive pid = false) :
    PidInv f { w with procs := { id := w.next, pid } :: w.procs, next := w.next + 1 } where
  ids := by
    rw [List.map_cons, List.nodup_cons, List.mem_map]
    refine ⟨?_, h.ids⟩
    intro hmem
    obtain ⟨p, hp, hid⟩ := hmem
    exact absurd (h.fresh p hp) (by rw [hid]; exact Nat.lt_irrefl _)
  pids := by
    rw [List.map_cons, List.nodup_cons, List.mem_map]
    refine ⟨?_, h.pids⟩
    intro hmem
    obtain ⟨p, hp, hpid⟩ := hmem
    have halive := alive_of_mem hp
    rw [hpid, hfree] at halive
    cases halive
  range := by
    rw [List.forall_mem_cons]
    exact ⟨⟨hpos, hlt⟩, h.range⟩
  fresh := by
    rw [List.forall_mem_cons]
    exact ⟨Nat.lt_succ_self _, fun p hp => Nat.lt_succ_of_lt (h.fresh p hp)⟩
  logged := fun o ho => Nat.lt_succ_of_lt (h.logged o ho)
  saved := by
    rw [List.forall_mem_cons]
    refine ⟨Or.inr ⟨?_, rfl⟩, h.saved⟩
    intro hhold
    have := h.logged _ (List.mem_of_find?_eq_some hhold)
    exact absurd this (Nat.lt_irrefl _)
  file := by
    rw [List.forall_mem_cons]
    refine ⟨?_, h.file⟩
    intro hhold
    have := h.logged _ (List.mem_of_find?_eq_some hhold)
    exact absurd this (Nat.lt_irrefl _)

theorem PidInv.die (h : PidInv f w) (id : Nat) :
    PidInv f { w with procs := w.procs.filter (·.id ≠ id) } where
  ids := h.ids.sublist (List.filter_sublist.map _)
  pids := h.pids.sublist (List.filter_sublist.map _)
  range := fun p hp => h.range p (List.mem_filter.mp hp).1
  fresh := fun p hp => h.fresh p (List.mem_filter.mp hp).1
  logged := h.logged
  saved := fun p hp => h.saved p (List.mem_filter.mp hp).1
  file := fun p hp => h.file p (List.mem_filter.mp hp).1

theorem PidInv.step (h : PidInv f w) (ev : PidEv) : PidInv f (pidStep f w ev) := by
  cases ev with
  | start pid =>
    simp only [pidStep]
    split
    · next hok => exact h.start hok.1 hok.2.1 hok.2.2
    · exact h
  | write id =>
    simp only [pidStep]
    cases hp : w.procs.find? (·.id = id) with
    | none => exact h
    | some p =>
      have hid : p.id = id := by simpa using List.find?_some hp
      subst hid
      exact h.write (List.mem_of_find?_eq_some hp)
  | remove id =>
    simp only [pidStep]
    cases hp : w.procs.find? (·.id = id) with
    | none => exact h
    | some p =>
      have hid : p.id = id := by simpa using List.find?_some hp
      subst hid
      exact h.remove (List.mem_of_find?_eq_some hp)
  | die id => exact h.die id

end Inv

/-- **The PID file is a lock.** Over every order of starts, calls and deaths, whatever file
there was: at most one live process holds the file, the file contains its id, and the
others are refused and leave it alone. -/
theorem pid_file_exclusive (f : CString) (files : Files) (evs : List PidEv) :
    Exclusive f (pidAfter f files evs) := by
  have hinit : PidInv f ⟨files, [], 0, []⟩ := by
    constructor <;> simp
  exact (Runs.run_inv (fun _ ev h (_ : True) => h.step ev) hinit
    (Runs.allowed_of_forall fun _ _ => trivial)).exclusive

/-- A daemon dies and its pid is used again: the new process gets the file, the next one
does not. -/
example :
    (pidAfter ['f'] (fun _ => none)
      [.start 7, .write 0, .die 0, .start 7, .start 8, .write 1, .write 2]).log =
      [.wrote 2 (-1), .wrote 1 0, .wrote 0 0] := by
  decide

end Watchdog
