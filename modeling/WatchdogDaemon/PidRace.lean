import WatchdogDaemon.PidFile

/- The PID file when its calls are not atomic: `daemon-pid.c`, step by step.

   `write_pid_file` reads the file, asks whether the process it names is alive, removes the
   file if it is its own, creates it anew and writes it. Its comment says that checking and
   writing are not atomic, and that two processes may think they have the file. Here every
   one of its steps may come between those of others, and a process may die at any of them.
   A file that is open for writing is its inode: a name that was removed meanwhile, or given
   to another file, does not bring it back. Reading the file from `fopen` to `fclose` is one
   step, and what is written to an open file gets there.

   What is proved: `exclusive_without_race` — two moments are all that matters. In every
   order of steps in which a process gets past the check only while no other one is inside
   `write_pid_file`, and reads the file only while no other one is past the check, at most one
   live process has the file, the file names it, and whoever else has read it has read that
   name. So while the file is held, any number of daemons may try to start at once.

   Correspondence (C ↔ Lean):
     `check_pid_file` up to `fclose`        ↔ `RaceEv.call`
     its `kill (pid, 0)`                    ↔ `RaceEv.go` at `Pc.read`
     `remove_pid_file` in `write_pid_file`  ↔ `RaceEv.go` at `Pc.checked`
     `fopen (fname, "w")`                   ↔ `RaceEv.go` at `Pc.unlinked`
     `fprintf` and `fclose`                 ↔ `RaceEv.go` at `Pc.created`
     `remove_pid_file`                      ↔ `RaceEv.remove` -/
namespace Watchdog

/-! ## Steps -/

/-- Where a process is in `write_pid_file`. -/
inductive Pc where
  | idle
  /-- It has read the id of another process. -/
  | read (pid : Int)
  | checked
  | unlinked
  /-- It has the file open for writing. -/
  | created (inode : Nat)
  deriving DecidableEq

def Pc.inside : Pc → Bool
  | .idle => false
  | _ => true

/-- Past the check. -/
def Pc.passed : Pc → Bool
  | .checked => true
  | .unlinked => true
  | .created _ => true
  | _ => false

/-- A live process; `saved` is whether `saved_fname` is the file. -/
structure Racer where
  id : Nat
  pid : Int
  saved : Bool := false
  pc : Pc := .idle
  deriving DecidableEq

/-- The file of the name, if there is one, the contents of all files, and the live processes. -/
structure RaceWorld where
  name : Option Nat
  contents : Nat → CString
  nextInode : Nat
  procs : List Racer
  next : Nat

inductive RaceEv where
  | start (pid : Int)
  | call (id : Nat)
  /-- The next step of a call; `ok` is what `unlink` or opening for writing answers. -/
  | go (id : Nat) (ok : Bool)
  | remove (id : Nat) (ok : Bool)
  | die (id : Nat)

namespace RaceWorld
variable (w : RaceWorld)

def alive (pid : Int) : Bool := w.procs.any (·.pid = pid)

/-- Whether `kill (pid, 0)` succeeds; `groups` is what it answers for process groups. -/
def kill (groups : Int → Bool) (pid : Int) : Bool := if 0 < pid then w.alive pid else groups pid

def find (id : Nat) : Option Racer := w.procs.find? (·.id = id)

/-- The process as it is after its step. -/
def put (p : Racer) : List Racer := w.procs.map fun q => if q.id = p.id then p else q

/-- The id that the process has to ask for, after reading the file. -/
def asks (p : Racer) : Option Int :=
  match w.name with
  | none => none
  | some inode =>
    let pid := (fscanfPid (w.contents inode)).getD 0
    if pid ≠ 0 ∧ pid ≠ p.pid then some pid else none

/-- `unlink`, if the file is the process's own. -/
def unlink (p : Racer) (ok : Bool) : Option Nat := if p.saved ∧ ok then none else w.name

/-- Opening for writing takes the file that is there, or makes one. -/
def inode : Nat := w.name.getD w.nextInode

/-- The next step of a call. -/
def go (groups : Int → Bool) (p : Racer) (ok : Bool) : RaceWorld :=
  match p.pc with
  | .idle => w
  | .read pid => { w with procs := w.put { p with pc := if w.kill groups pid then .idle else .checked } }
  | .checked => { w with name := w.unlink p ok, procs := w.put { p with saved := false, pc := .unlinked } }
  | .unlinked =>
    if ok then
      { w with
        name := some w.inode
        contents := Function.update w.contents w.inode []
        nextInode := w.nextInode + 1
        procs := w.put { p with pc := .created w.inode } }
    else { w with procs := w.put { p with pc := .idle } }
  | .created inode =>
    let text := decimal p.pid ++ ['\n']
    { w with
      contents := Function.update w.contents inode (text ++ (w.contents inode).drop text.length)
      procs := w.put { p with saved := true, pc := .idle } }

end RaceWorld

/-- One step. A new process gets a process id that no live one has. -/
def raceStep (groups : Int → Bool) (w : RaceWorld) : RaceEv → RaceWorld
  | .start pid =>
    if 0 < pid ∧ pid < 2 ^ 31 ∧ w.alive pid = false then
      { w with procs := { id := w.next, pid } :: w.procs, next := w.next + 1 }
    else w
  | .call id =>
    match w.find id with
    | none => w
    | some p =>
      if p.pc = .idle then
        { w with procs := w.put { p with pc := (w.asks p).elim .checked .read } }
      else w
  | .go id ok =>
    match w.find id with
    | none => w
    | some p => w.go groups p ok
  | .remove id ok =>
    match w.find id with
    | none => w
    | some p =>
      if p.pc = .idle then { w with name := w.unlink p ok, procs := w.put { p with saved := false } } else w
  | .die id => { w with procs := w.procs.filter (·.id ≠ id) }

/-- The file with which everything starts. -/
def raceStart (file : Option CString) : RaceWorld where
  name := file.map fun _ => 0
  contents _ := file.getD []
  nextInode := 1
  procs := []
  next := 0

/-! ## The specification -/

/-- The next step of the process takes it past the check. -/
def RaceWorld.passes (w : RaceWorld) (groups : Int → Bool) (p : Racer) : Bool :=
  match p.pc with
  | .idle => (w.asks p).isNone
  | .read pid => !w.kill groups pid
  | _ => false

/-- Nobody else is in the way: a process reads the file only while no other one is past the
check, and gets past the check only while no other one is inside. -/
def NoRace (groups : Int → Bool) (w : RaceWorld) : RaceEv → Prop
  | .call id => ∀ p ∈ w.procs, p.id = id → ∀ q ∈ w.procs, q.id ≠ id →
    q.pc.passed = false ∧ (w.passes groups p = true → q.pc.inside = false)
  | .go id _ => ∀ p ∈ w.procs, p.id = id → p.pc ≠ .idle → ∀ q ∈ w.procs, q.id ≠ id →
    w.passes groups p = true → q.pc.inside = false
  | _ => True

instance (groups : Int → Bool) (w : RaceWorld) : ∀ e, Decidable (NoRace groups w e)
  | .start _ => isTrue trivial
  | .call id => inferInstanceAs (Decidable (∀ p ∈ w.procs, p.id = id → ∀ q ∈ w.procs, q.id ≠ id →
      q.pc.passed = false ∧ (w.passes groups p = true → q.pc.inside = false)))
  | .go id _ => inferInstanceAs (Decidable (∀ p ∈ w.procs, p.id = id → p.pc ≠ .idle → ∀ q ∈ w.procs, q.id ≠ id →
      w.passes groups p = true → q.pc.inside = false))
  | .remove _ _ => isTrue trivial
  | .die _ => isTrue trivial

/-- Whoever has the file has it alone. -/
structure HeldAlone (w : RaceWorld) : Prop where
  one : ∀ p ∈ w.procs, ∀ q ∈ w.procs, p.saved = true → q.saved = true → p = q
  named : ∀ p ∈ w.procs, p.saved = true → ∃ inode, w.name = some inode ∧ fscanfPid (w.contents inode) = some p.pid
  others : ∀ p ∈ w.procs, p.saved = true → ∀ q ∈ w.procs, q ≠ p →
    q.pc.passed = false ∧ ∀ pid, q.pc = .read pid → pid = p.pid

/-! ## The invariant -/

/-- The process has the file or is about to. -/
def Racer.active (p : Racer) : Bool := p.saved || p.pc.passed

/-- What the file is to a process. -/
structure Racer.Good (name : Option Nat) (contents : Nat → CString) (p : Racer) : Prop where
  file : p.saved = true → ∃ inode, name = some inode ∧ contents inode = decimal p.pid ++ ['\n']
  created : ∀ inode, p.pc = .created inode → name = some inode ∧ contents inode = []
  unsaved : p.pc = .unlinked ∨ (∃ inode, p.pc = .created inode) → p.saved = false

/-- What a process is to another one. -/
structure Racer.Clear (p q : Racer) : Prop where
  one : p.active = true → q.active = false
  reads : p.saved = true → ∀ pid, q.pc = .read pid → pid = p.pid
  alone : p.pc.passed = true → q.pc = .idle

structure RaceInv (w : RaceWorld) : Prop where
  ids : (w.procs.map (·.id)).Nodup
  pids : (w.procs.map (·.pid)).Nodup
  range : ∀ p ∈ w.procs, 0 < p.pid ∧ p.pid < 2 ^ 31
  fresh : ∀ p ∈ w.procs, p.id < w.next
  good : ∀ p ∈ w.procs, p.Good w.name w.contents
  clear : ∀ p ∈ w.procs, ∀ q ∈ w.procs, p.id ≠ q.id → p.Clear q

namespace Racer
variable {name : Option Nat} {contents : Nat → CString} {p q : Racer}

theorem active_eq_false : p.active = false ↔ p.saved = false ∧ p.pc.passed = false := by
  simp [active]

/-- A process that is not active has nothing to do with the file. -/
theorem Good.of_inactive (h : p.active = false) : p.Good name contents where
  file hsaved := absurd (hsaved.symm.trans (active_eq_false.mp h).1) nofun
  created inode hpc := by
    have hpassed := (active_eq_false.mp h).2
    rw [hpc] at hpassed
    exact absurd hpassed nofun
  unsaved _ := (active_eq_false.mp h).1

/-- An inactive process is nothing to the others, -/
theorem Clear.of_inactive (h : p.active = false) : p.Clear q where
  one hactive := absurd (hactive.symm.trans h) nofun
  reads hsaved := absurd (hsaved.symm.trans (active_eq_false.mp h).1) nofun
  alone hpassed := absurd (hpassed.symm.trans (active_eq_false.mp h).2) nofun

/-- and an idle one that does not have the file is none to anybody. -/
theorem Clear.of_idle (hsaved : q.saved = false) (hpc : q.pc = .idle) : p.Clear q where
  one _ := active_eq_false.mpr ⟨hsaved, by rw [hpc]; rfl⟩
  reads _ pid h := by rw [hpc] at h; exact Pc.noConfusion h
  alone _ := hpc

end Racer

theorem alive_of_racer {w : RaceWorld} {p : Racer} (hp : p ∈ w.procs) : w.alive p.pid = true := by
  rw [RaceWorld.alive, List.any_eq_true]
  exact ⟨p, hp, decide_eq_true rfl⟩

theorem mem_of_find {w : RaceWorld} {id : Nat} {p : Racer} (h : w.find id = some p) : p ∈ w.procs ∧ p.id = id := by
  have hid := List.find?_some h
  exact ⟨List.mem_of_find?_eq_some h, by simpa using hid⟩

section Inv
variable {groups : Int → Bool} {w : RaceWorld} {p : Racer}

theorem RaceInv.eq_of_id (h : RaceInv w) {q : Racer} (hp : p ∈ w.procs) (hq : q ∈ w.procs) (hid : p.id = q.id) : p = q :=
  List.inj_on_of_nodup_map h.ids hp hq hid

theorem mem_put_racer {p' q : Racer} (hid : p'.id = p.id) (hq : q ∈ w.put p') :
    q = p' ∨ (q ∈ w.procs ∧ q.id ≠ p.id) := by
  obtain ⟨r, hr, rfl⟩ := List.mem_map.mp hq
  by_cases hrp : r.id = p'.id
  · rw [if_pos hrp]
    exact Or.inl rfl
  · rw [if_neg hrp]
    exact Or.inr ⟨hr, fun h => hrp (h.trans hid.symm)⟩

theorem put_map_racer (h : RaceInv w) (hp : p ∈ w.procs) {p' : Racer} (hid : p'.id = p.id) {β : Type} {k : Racer → β}
    (hk : k p' = k p) : (w.put p').map k = w.procs.map k := by
  rw [RaceWorld.put, List.map_map]
  apply List.map_congr_left
  intro q hq
  show k (if q.id = p'.id then p' else q) = k q
  split
  · next hqp => rw [hk, h.eq_of_id hq hp (hqp.trans hid)]
  · rfl

/-- One process changes, and the file. -/
theorem RaceInv.change (h : RaceInv w) (hp : p ∈ w.procs) (p' : Racer) (hid : p'.id = p.id) (hpid : p'.pid = p.pid)
    {name : Option Nat} {contents : Nat → CString} (nextInode : Nat) (hgood : p'.Good name contents)
    (hothers : ∀ q ∈ w.procs, q.id ≠ p.id → q.Good name contents)
    (hclear : ∀ q ∈ w.procs, q.id ≠ p.id → p'.Clear q ∧ q.Clear p') :
    RaceInv ⟨name, contents, nextInode, w.put p', w.next⟩ where
  ids := by rw [put_map_racer h hp hid hid]; exact h.ids
  pids := by rw [put_map_racer h hp hid hpid]; exact h.pids
  range := by
    intro q hq
    rcases mem_put_racer hid hq with rfl | ⟨hq, -⟩
    · rw [hpid]
      exact h.range p hp
    · exact h.range q hq
  fresh := by
    intro q hq
    rcases mem_put_racer hid hq with rfl | ⟨hq, -⟩
    · rw [hid]
      exact h.fresh p hp
    · exact h.fresh q hq
  good := by
    intro q hq
    rcases mem_put_racer hid hq with rfl | ⟨hq, hne⟩
    · exact hgood
    · exact hothers q hq hne
  clear := by
    intro q hq r hr hqr
    rcases mem_put_racer hid hq with rfl | ⟨hq', hqne⟩
    · rcases mem_put_racer hid hr with rfl | ⟨hr', hrne⟩
      · exact absurd rfl hqr
      · exact (hclear r hr' hrne).1
    · rcases mem_put_racer hid hr with rfl | ⟨hr', -⟩
      · exact (hclear q hq' hqne).2
      · exact h.clear q hq' r hr' hqr

/-- Who has the file is found in it. -/
theorem RaceInv.found (h : RaceInv w) (hp : p ∈ w.procs) (hsaved : p.saved = true) :
    ∃ inode, w.name = some inode ∧ fscanfPid (w.contents inode) = some p.pid := by
  obtain ⟨hpos, hlt⟩ := h.range p hp
  obtain ⟨inode, hname, hcontents⟩ := (h.good p hp).file hsaved
  exact ⟨inode, hname, by rw [hcontents]; exact fscanfPid_decimal hpos hlt⟩

/-- and another process that reads the file has to ask for it. -/
theorem RaceInv.asks (h : RaceInv w) (hp : p ∈ w.procs) {q : Racer} (hq : q ∈ w.procs) (hne : q.id ≠ p.id)
    (hsaved : q.saved = true) : w.asks p = some q.pid := by
  obtain ⟨inode, hname, hread⟩ := h.found hq hsaved
  have hpos := (h.range q hq).1
  have hother : q.pid ≠ p.pid := fun hpid => hne (congrArg (·.id) (List.inj_on_of_nodup_map h.pids hq hp hpid))
  unfold RaceWorld.asks
  rw [hname]
  simp only [hread, Option.getD_some]
  rw [if_pos ⟨by omega, hother⟩]

/-- A process that is not past the check leaves the file as it was, and to the others it is what it was. -/
theorem RaceInv.stay (h : RaceInv w) (hp : p ∈ w.procs) {pc : Pc} (hpc : pc = .idle ∨ ∃ pid, pc = .read pid)
    (hothers : ∀ q ∈ w.procs, q.id ≠ p.id →
      (q.saved = true → ∀ pid, pc = .read pid → pid = q.pid) ∧ (q.pc.passed = true → pc = .idle)) :
    RaceInv { w with procs := w.put { p with pc } } := by
  have hpassed : pc.passed = false := by
    obtain rfl | ⟨pid, rfl⟩ := hpc <;> rfl
  refine h.change hp { p with pc } rfl rfl w.nextInode ⟨(h.good p hp).file, ?_, ?_⟩ (fun q hq _ => h.good q hq) ?_
  · rintro inode rfl
    exact absurd hpassed nofun
  · rintro (rfl | ⟨inode, rfl⟩)
    · exact absurd hpassed nofun
    · exact absurd hpassed nofun
  · intro q hq hne
    have hpq := h.clear p hp q hq hne.symm
    have hqp := h.clear q hq p hp hne
    have hsaved : Racer.active { p with pc } = p.saved := by simp [Racer.active, hpassed]
    refine ⟨⟨fun hactive => hpq.one ?_, hpq.reads, fun h => absurd (hpassed.symm.trans h) nofun⟩,
      ⟨fun hactive => ?_, (hothers q hq hne).1, (hothers q hq hne).2⟩⟩
    · rw [hsaved] at hactive
      simp [Racer.active, hactive]
    · rw [hsaved]
      exact (Racer.active_eq_false.mp (hqp.one hactive)).1

/-- A process that is alone: nobody else is active, or in the middle of a call. -/
theorem RaceInv.solo (h : RaceInv w) (hp : p ∈ w.procs) (p' : Racer) (hid : p'.id = p.id) (hpid : p'.pid = p.pid)
    {name : Option Nat} {contents : Nat → CString} (nextInode : Nat) (hgood : p'.Good name contents)
    (halone : ∀ q ∈ w.procs, q.id ≠ p.id → q.active = false ∧ q.pc = .idle) :
    RaceInv ⟨name, contents, nextInode, w.put p', w.next⟩ := by
  refine h.change hp p' hid hpid nextInode hgood (fun q hq hne => ?_) fun q hq hne => ?_
  · exact Racer.Good.of_inactive (halone q hq hne).1
  · obtain ⟨hinactive, hidle⟩ := halone q hq hne
    exact ⟨Racer.Clear.of_idle (Racer.active_eq_false.mp hinactive).1 hidle, Racer.Clear.of_inactive hinactive⟩

/-- Past the check it is. -/
theorem RaceInv.alone (h : RaceInv w) (hp : p ∈ w.procs) (hpassed : p.pc.passed = true) :
    ∀ q ∈ w.procs, q.id ≠ p.id → q.active = false ∧ q.pc = .idle := by
  intro q hq hne
  have hclear := h.clear p hp q hq hne.symm
  have hactive : p.active = true := by simp [Racer.active, hpassed]
  exact ⟨hclear.one hactive, hclear.alone hpassed⟩

/-- Getting past the check, while nobody else is inside and who has the file would have been asked for. -/
theorem RaceInv.pass (h : RaceInv w) (hp : p ∈ w.procs)
    (hothers : ∀ q ∈ w.procs, q.id ≠ p.id → q.saved = false ∧ q.pc.inside = false) :
    RaceInv { w with procs := w.put { p with pc := .checked } } := by
  refine h.solo hp { p with pc := .checked } rfl rfl w.nextInode ⟨(h.good p hp).file, nofun, by simp⟩ fun q hq hne => ?_
  obtain ⟨hsaved, hinside⟩ := hothers q hq hne
  have hidle : q.pc = .idle := by
    cases hpc : q.pc with
    | idle => rfl
    | _ => rw [hpc] at hinside; exact absurd hinside nofun
  exact ⟨Racer.active_eq_false.mpr ⟨hsaved, by rw [hidle]; rfl⟩, hidle⟩

/-- A step of a call. -/
theorem RaceInv.go (h : RaceInv w) (hp : p ∈ w.procs) (ok : Bool) (hrace : NoRace groups w (.go p.id ok)) :
    RaceInv (w.go groups p ok) := by
  have hgood := h.good p hp
  unfold RaceWorld.go
  cases hpc : p.pc with
  | idle => exact h
  | read pid =>
    dsimp only
    cases hkill : w.kill groups pid with
    | true => exact h.stay hp (Or.inl rfl) fun q hq hne => ⟨fun _ pid h => Pc.noConfusion h, fun _ => rfl⟩
    | false =>
      refine h.pass hp fun q hq hne => ⟨?_, ?_⟩
      · -- Who has the file is alive, and is who was asked for.
        rw [Bool.eq_false_iff]
        intro hsaved
        have hpid := (h.clear q hq p hp hne).reads hsaved pid hpc
        rw [hpid, RaceWorld.kill, if_pos (h.range q hq).1, alive_of_racer hq] at hkill
        exact absurd hkill nofun
      · refine hrace p hp rfl (by rw [hpc]; exact Pc.noConfusion) q hq hne ?_
        simp [RaceWorld.passes, hpc, hkill]
  | checked =>
    have halone := h.alone hp (by rw [hpc]; rfl)
    exact h.solo hp { p with saved := false, pc := .unlinked } rfl rfl w.nextInode ⟨nofun, nofun, fun _ => rfl⟩ halone
  | unlinked =>
    have halone := h.alone hp (by rw [hpc]; rfl)
    have hunsaved := hgood.unsaved (Or.inl hpc)
    dsimp only
    split
    · refine h.solo hp { p with pc := .created w.inode } rfl rfl _ ⟨?_, ?_, fun _ => hunsaved⟩ halone
      · exact fun hsaved => absurd (hunsaved.symm.trans hsaved) nofun
      · intro inode hinode
        obtain rfl := Pc.created.inj hinode
        exact ⟨rfl, Function.update_self _ _ _⟩
    · exact h.solo hp { p with pc := .idle } rfl rfl w.nextInode
        (Racer.Good.of_inactive (Racer.active_eq_false.mpr ⟨hunsaved, rfl⟩)) halone
  | created inode =>
    have halone := h.alone hp (by rw [hpc]; rfl)
    obtain ⟨hname, hempty⟩ := hgood.created inode hpc
    refine h.solo hp { p with saved := true, pc := .idle } rfl rfl w.nextInode ⟨fun _ => ⟨inode, hname, ?_⟩, nofun, by simp⟩
      halone
    rw [Function.update_self, hempty, List.drop_nil, List.append_nil]

theorem RaceInv.call (h : RaceInv w) (hp : p ∈ w.procs) (hidle : p.pc = .idle) (hrace : NoRace groups w (.call p.id)) :
    RaceInv { w with procs := w.put { p with pc := (w.asks p).elim .checked .read } } := by
  cases hasks : w.asks p with
  | none =>
    refine h.pass hp fun q hq hne => ⟨?_, ?_⟩
    · rw [Bool.eq_false_iff]
      intro hsaved
      exact absurd (hasks.symm.trans (h.asks hp hq hne hsaved)) nofun
    · refine (hrace p hp rfl q hq hne).2 ?_
      simp [RaceWorld.passes, hidle, hasks]
  | some pid =>
    refine h.stay hp (Or.inr ⟨pid, rfl⟩) fun q hq hne => ⟨fun hsaved pid' hpid' => ?_, fun hpassed => ?_⟩
    · have hsome := hasks.symm.trans (h.asks hp hq hne hsaved)
      exact (Pc.read.inj hpid').symm.trans (Option.some.inj hsome)
    · have hnot := (hrace p hp rfl q hq hne).1
      exact absurd (hnot.symm.trans hpassed) nofun

theorem RaceInv.remove (h : RaceInv w) (hp : p ∈ w.procs) (hidle : p.pc = .idle) (ok : Bool) :
    RaceInv { w with name := w.unlink p ok, procs := w.put { p with saved := false } } := by
  have hinactive : Racer.active { p with saved := false } = false :=
    Racer.active_eq_false.mpr ⟨rfl, by show p.pc.passed = false; rw [hidle]; rfl⟩
  refine h.change hp { p with saved := false } rfl rfl w.nextInode (Racer.Good.of_inactive hinactive) (fun q hq hne => ?_)
    fun q hq hne => ⟨Racer.Clear.of_inactive hinactive, Racer.Clear.of_idle rfl hidle⟩
  unfold RaceWorld.unlink
  split
  · next hown =>
    have hactive : p.active = true := by simp [Racer.active, hown.1]
    exact Racer.Good.of_inactive ((h.clear p hp q hq hne.symm).one hactive)
  · exact h.good q hq

theorem RaceInv.start (h : RaceInv w) {pid : Int} (hpos : 0 < pid) (hlt : pid < 2 ^ 31) (hfree : w.alive pid = false) :
    RaceInv { w with procs := { id := w.next, pid } :: w.procs, next := w.next + 1 } where
  ids := by
    rw [List.map_cons, List.nodup_cons, List.mem_map]
    refine ⟨fun ⟨q, hq, hid⟩ => ?_, h.ids⟩
    exact absurd (h.fresh q hq) (by rw [hid]; exact Nat.lt_irrefl _)
  pids := by
    rw [List.map_cons, List.nodup_cons, List.mem_map]
    refine ⟨fun ⟨q, hq, hpid⟩ => ?_, h.pids⟩
    have halive := alive_of_racer hq
    rw [hpid, hfree] at halive
    exact absurd halive nofun
  range := List.forall_mem_cons.mpr ⟨⟨hpos, hlt⟩, h.range⟩
  fresh := List.forall_mem_cons.mpr ⟨Nat.lt_succ_self _, fun q hq => Nat.lt_succ_of_lt (h.fresh q hq)⟩
  good := List.forall_mem_cons.mpr ⟨Racer.Good.of_inactive rfl, h.good⟩
  clear := by
    intro p hp q hq hne
    rcases List.mem_cons.mp hp with rfl | hp
    · exact Racer.Clear.of_inactive rfl
    · rcases List.mem_cons.mp hq with rfl | hq
      · exact Racer.Clear.of_idle rfl rfl
      · exact h.clear p hp q hq hne

theorem RaceInv.die (h : RaceInv w) (id : Nat) : RaceInv { w with procs := w.procs.filter (·.id ≠ id) } where
  ids := h.ids.sublist (List.filter_sublist.map _)
  pids := h.pids.sublist (List.filter_sublist.map _)
  range p hp := h.range p (List.mem_filter.mp hp).1
  fresh p hp := h.fresh p (List.mem_filter.mp hp).1
  good p hp := h.good p (List.mem_filter.mp hp).1
  clear p hp q hq := h.clear p (List.mem_filter.mp hp).1 q (List.mem_filter.mp hq).1

/-- **One step without a race keeps the invariant.** -/
theorem RaceInv.step (h : RaceInv w) (e : RaceEv) (hrace : NoRace groups w e) : RaceInv (raceStep groups w e) := by
  cases e with
  | start pid =>
    simp only [raceStep]
    split
    · next hpid => exact h.start hpid.1 hpid.2.1 hpid.2.2
    · exact h
  | call id =>
    simp only [raceStep]
    split
    · exact h
    · next p hfind =>
      obtain ⟨hp, rfl⟩ := mem_of_find hfind
      split
      · next hidle => exact h.call hp hidle hrace
      · exact h
  | go id ok =>
    simp only [raceStep]
    split
    · exact h
    · next p hfind =>
      obtain ⟨hp, rfl⟩ := mem_of_find hfind
      exact h.go hp ok hrace
  | remove id ok =>
    simp only [raceStep]
    split
    · exact h
    · next p hfind =>
      obtain ⟨hp, rfl⟩ := mem_of_find hfind
      split
      · next hidle => exact h.remove hp hidle ok
      · exact h
  | die id => exact h.die id

theorem RaceInv.heldAlone (h : RaceInv w) : HeldAlone w where
  one p hp q hq hpSaved hqSaved := by
    by_contra hne
    have hid : p.id ≠ q.id := fun hid => hne (h.eq_of_id hp hq hid)
    have hinactive := (h.clear p hp q hq hid).one (by simp [Racer.active, hpSaved])
    exact absurd ((Racer.active_eq_false.mp hinactive).1.symm.trans hqSaved) nofun
  named p hp hsaved := h.found hp hsaved
  others p hp hsaved q hq hne := by
    have hid : p.id ≠ q.id := fun hid => hne (h.eq_of_id hp hq hid).symm
    have hclear := h.clear p hp q hq hid
    exact ⟨(Racer.active_eq_false.mp (hclear.one (by simp [Racer.active, hsaved]))).2, hclear.reads hsaved⟩

end Inv

theorem RaceInv.init (file : Option CString) : RaceInv (raceStart file) :=
  ⟨List.nodup_nil, List.nodup_nil, nofun, nofun, nofun, nofun⟩

/-- **The PID file is a lock unless there is a race.** In every order of steps without one, whatever file was there
at the start, whoever has the file has it alone. -/
theorem exclusive_without_race (groups : Int → Bool) (file : Option CString) (evs : List RaceEv)
    (hrace : Runs.Allowed (raceStep groups) (NoRace groups) (raceStart file) evs) :
    HeldAlone (Runs.run (raceStep groups) (raceStart file) evs) := by
  have hinv : RaceInv (Runs.run (raceStep groups) (raceStart file) evs) :=
    Runs.run_inv (fun _ e h hok => h.step e hok) (RaceInv.init file) hrace
  exact hinv.heldAlone

/-- Two daemons try to start while a third has the file, which then goes and lets the last one in. -/
theorem exclusive_without_race_three :
    HeldAlone (Runs.run (raceStep fun _ => false) (raceStart none)
      [.start 5, .call 0, .go 0 true, .go 0 true, .go 0 true, .start 6, .start 7, .call 1, .call 2, .go 2 true,
        .go 1 true, .die 0, .call 2, .go 2 true, .go 2 true, .go 2 true, .go 2 true]) :=
  exclusive_without_race (fun _ => false) none _ (by decide)

/-- With a race two daemons have the file. -/
example :
    ((Runs.run (raceStep fun _ => false) (raceStart none)
      [.start 5, .start 6, .call 0, .call 1, .go 0 true, .go 0 true, .go 0 true, .go 1 true, .go 1 true,
        .go 1 true]).procs.map (·.saved)) = [true, true] := by
  decide

end Watchdog
