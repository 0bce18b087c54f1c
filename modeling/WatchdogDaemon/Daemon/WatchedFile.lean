import WatchdogDaemon.Daemon.Deadline

/- A watched file, from its line in the configuration to the end of the machine.

   With `file = f` and `change = N` the daemon looks in every cycle whether `f` was changed
   in the last N seconds: the owner of `f` shows by touching it that it is alive. This module
   puts `check_file_stat` of `file_stat.c` into the loop.

   What is proved, for every run of the loop:
     1. `abandoned_file_ends` — a file that is not changed after `left`, or that cannot be
        looked at, is not looked at later than N seconds, one check and the deadline of
        `Deadline` after that; the system went down before, whatever the repair program did but
        touching the file. As for `Deadline`, the clock is positive, is not set back and goes
        less than 2^31 seconds; the retry time-out and the limit of repairs are positive, and
        it is not a run with `--no-action`.
     2. `kept_file_spared` — a file that is changed in time is never a reason for a repair or
        for a shutdown, whatever else goes wrong.
   In both, the age of the file fits an `int` whenever it is looked at.

   Correspondence (C ↔ Lean):
     `parameter.file.mtime`                 ↔ `ListEntry.mtime`
     `stat`                                 ↔ an error number, or `st_mtime`
     `check_file_stat`                      ↔ `checkFileStat`
     its `log_message` calls                ↔ `FileLog`
   `check_file_stat` reads the clock itself, a little before `wd_action` does. -/
namespace Watchdog

/-! ## The check -/

def enochange : Int := 250

inductive FileLog where
  | cannotStat (name : CString) (err : Errno)
  | notChanged (name : CString) (twait mtime : Int)
  | lastChanged (name : CString) (stMtime twait : Int)
  | statusOk (name : CString)
  deriving DecidableEq

/-- What is only logged now and then. -/
def fileDebug (g : Globals) (log : FileLog) : List FileLog :=
  if g (.int .verbose) ≠ (0 : Int) ∧ g (.int .logtick) ≠ (0 : Int) ∧ g (.int .ticker) = (1 : Int) then [log] else []

/-- The answer and what is logged; `now` is what `time` answers if it is asked. -/
def checkFileStat (g : Globals) (file : ListEntry) (stat : Except Errno Int) (now : Int) : Int × List FileLog :=
  match stat with
  | .error err => (err, [.cannotStat file.name err])
  | .ok stMtime =>
    if file.mtime ≠ 0 then
      let twait := toInt (now - stMtime)
      if file.mtime < twait then (enochange, [.notChanged file.name twait file.mtime])
      else (enoerr, fileDebug g (.lastChanged file.name stMtime twait))
    else (enoerr, fileDebug g (.statusOk file.name))

/-- A file that has an interval is judged by its age. -/
theorem checkFileStat_ok {g : Globals} {file : ListEntry} (hmtime : file.mtime ≠ 0) {stMtime now : Int}
    (hlow : -2 ^ 31 ≤ now - stMtime) (hhigh : now - stMtime < 2 ^ 31) :
    (checkFileStat g file (.ok stMtime) now).1 = if file.mtime < now - stMtime then enochange else enoerr := by
  unfold checkFileStat
  dsimp only
  rw [if_pos hmtime, toInt_eq_self hlow hhigh]
  split
  · rfl
  · rfl

end Watchdog

namespace Watchdog.Daemon
open CallTree

/-! ## The file in the loop -/

/-- The file at the `j`-th place of its list is the entry at this place of the loop. -/
def filePlace (g : Globals) (j : Nat) : Nat := (g (.list .tempList) : List ListEntry).length + j

theorem entries_file {g : Globals} {j : Nat} {file : ListEntry}
    (h : (g (.list .fileList) : List ListEntry)[j]? = some file) :
    (entries g)[filePlace g j]? = some file.toEntry := by
  unfold entries filePlace
  rw [List.flatMap_cons, List.flatMap_cons, List.getElem?_map, List.getElem?_append_right (Nat.le_add_right _ _),
    Nat.add_sub_cancel_left, List.getElem?_append_left (List.getElem?_eq_some_iff.mp h).1, h]
  rfl

/-- The result is that of the check when `stat` answered this and `time`, if it was asked, `now`. The age of the file fits
an `int`. -/
structure Looked (g : Globals) (file : ListEntry) (d : Report) (stat : Except Errno Int) (now : Int) : Prop where
  fits : ∀ stMtime, stat = .ok stMtime → -2 ^ 31 ≤ now - stMtime ∧ now - stMtime < 2 ^ 31
  checked : d.result = (checkFileStat g file stat now).1

/-- The file was not changed after `left`, or cannot be looked at: error numbers of the system are below the codes of
`watch_err.h`. The check read the clock at most `lag` seconds before `wd_action` did. -/
structure Abandoned (left lag : Int) (d : Report) (stat : Except Errno Int) (now : Int) : Prop where
  unchanged : ∀ stMtime, stat = .ok stMtime → stMtime ≤ left
  system : ∀ err, stat = .error err → err.val < edontknow
  soon : d.now ≤ now + lag

theorem Looked.stale {g : Globals} {file : ListEntry} {lag left now : Int} {stat : Except Errno Int} {d : Report}
    (h : Looked g file d stat now) (habandoned : Abandoned left lag d stat now) (hmtime : 0 < file.mtime)
    (hlate : left + file.mtime + lag < d.now) : repairable d.result = true := by
  rw [h.checked]
  cases stat with
  | error err =>
    have hpos := err.property
    have hbelow := habandoned.system err rfl
    have hne : ∀ code, edontknow ≤ code → (err : Int) ≠ code := fun code hcode => by omega
    show repairable (err : Int) = true
    simp [repairable, unconditional, hne edontknow (by decide), hne ereboot (by decide), hne ereset (by decide),
      hne etoohot (by decide), show (err : Int) ≠ enoerr from Int.ne_of_gt hpos]
  | ok stMtime =>
    obtain ⟨hlow, hhigh⟩ := h.fits stMtime rfl
    have hleft := habandoned.unchanged stMtime rfl
    have hsoon := habandoned.soon
    rw [checkFileStat_ok (by omega) hlow hhigh, if_pos (by omega)]
    rfl

theorem Looked.kept {g : Globals} {file : ListEntry} {now stMtime : Int} {d : Report}
    (h : Looked g file d (.ok stMtime) now) (hmtime : 0 < file.mtime) (hkept : now - stMtime ≤ file.mtime) :
    d.result = enoerr := by
  obtain ⟨hlow, hhigh⟩ := h.fits stMtime rfl
  rw [h.checked, checkFileStat_ok (by omega) hlow hhigh, if_neg (by omega)]

/-! ## A file that is abandoned -/

theorem deadline_nonneg {cfg : Config} (hret : 0 < cfg.retryTimeout) (hmax : 0 < cfg.repairMax) {gap : Int}
    (hgap : 0 ≤ gap) : 0 ≤ deadline cfg gap := by
  have hperiods : 0 ≤ (cfg.repairMax + 1) * cfg.retryTimeout := Int.mul_nonneg (by omega) (by omega)
  have hgaps : 0 ≤ (2 * cfg.repairMax + 1) * gap := Int.mul_nonneg (by omega) hgap
  unfold deadline
  omega

/-- The first report after a time comes soon after it. -/
theorem first_after {reports : List Report} {gap limit : Int}
    (hchain : reports.IsChain (fun a b => b.now ≤ a.now + gap)) {early rest : List Report} {d : Report}
    (hsplit : reports = early ++ d :: rest) (hne : early ≠ []) (hearly : ∀ x ∈ early, x.now ≤ limit) :
    d.now ≤ limit + gap := by
  obtain ⟨prev, hprev⟩ := exists_last hne
  rw [hsplit] at hchain
  have hnext := (List.isChain_append.mp hchain).2.2 prev hprev d rfl
  have hbefore := hearly prev (List.mem_of_getLast? hprev)
  omega

/-- The reports of an entry come in the order of the clock. -/
theorem reportsOf_sorted {reports : List Report} (hclock : Clocked (reports.reverse.map Report.call)) (i : Nat) :
    (reportsOf i reports).Pairwise (fun a b => a.now ≤ b.now) :=
  (List.pairwise_map.mp hclock.mono).sublist (reportsOf_sublist i reports)

theorem split_at_time {reports : List Report} (h : reports.Pairwise (fun a b => a.now ≤ b.now)) (limit : Int) :
    ∃ early late, reports = early ++ late ∧ (∀ x ∈ early, x.now ≤ limit) ∧ ∀ x ∈ late, limit < x.now := by
  induction reports with
  | nil => exact ⟨[], [], rfl, nofun, nofun⟩
  | cons d reports ih =>
    obtain ⟨hd, hrest⟩ := List.pairwise_cons.mp h
    by_cases hsoon : d.now ≤ limit
    · obtain ⟨early, late, rfl, hearly, hlate⟩ := ih hrest
      exact ⟨d :: early, late, rfl, List.forall_mem_cons.mpr ⟨hsoon, hearly⟩, hlate⟩
    · refine ⟨[], d :: reports, rfl, nofun, List.forall_mem_cons.mpr ⟨Int.not_le.mp hsoon, fun x hx => ?_⟩⟩
      have := hd x hx
      omega

/-- **An abandoned file takes the machine down.** With every configuration that has a retry time-out and a limit of repairs,
for every file with an interval and in every run of the loop with a clock that goes on: if no look at the file finds it
changed after `left`, it is not looked at later than its interval, one check and the deadline after that time, or after the
first look if that came later. -/
theorem abandoned_file_ends (env : ConfEnv) (o : Options) (hact : o.noAct = false) (configfile : Option CString)
    (g₀ : Globals) (hread : readConfig env (startGlobals o) configfile = .ok g₀)
    (hret : 0 < (zeroRetry g₀ (.int .retryTimeout) : Int)) (hmax : 0 < (zeroRetry g₀ (.int .repairMax) : Int))
    (cycles : Nat) (answers : Nat → (q : Call) → Answer q) (n j : Nat) (file : ListEntry)
    (hfile : (zeroRetry g₀ (.list .fileList) : List ListEntry)[j]? = some file) (hmtime : 0 < file.mtime)
    (gap : Int) (hgap : 0 ≤ gap) (left lag : Int) :
    let m := seen ((mainLoop o (zeroRetry g₀) cycles (State.first (zeroRetry g₀))).trace answers n)
    let looks := reportsOf (filePlace (zeroRetry g₀) j) m.reports
    Clocked (m.reports.reverse.map Report.call) → looks.IsChain (fun a b => b.now ≤ a.now + gap) →
      (∀ d ∈ looks, ∃ stat now, Looked (zeroRetry g₀) file d stat now ∧ Abandoned left lag d stat now) →
      ∀ first rest, looks = first :: rest → ∀ d ∈ looks,
        d.now ≤ max first.now (left + file.mtime + lag) + gap + deadline (config o (zeroRetry g₀)) gap := by
  intro m looks hclock hchain hwatch first rest hfirst d hd
  have hi := entries_file hfile
  rw [entries_fresh (allFresh_zeroRetry (allFresh_of_read hread)) hi] at hi
  have hpositive : 0 ≤ deadline (config o (zeroRetry g₀)) gap := deadline_nonneg hret hmax hgap
  generalize hlimit : max first.now (left + file.mtime + lag) = limit
  -- The looks up to the limit, and those after it, which find the file unchanged.
  obtain ⟨early, late, hlooks, hearly, hlate⟩ :=
    split_at_time (reportsOf_sorted hclock (filePlace (zeroRetry g₀) j)) limit
  change looks = early ++ late at hlooks
  have hne : early ≠ [] := by
    rintro rfl
    have hmem : first ∈ late := by
      rw [← List.nil_append late, ← hlooks, hfirst]
      exact List.mem_cons_self
    have := hlate first hmem
    omega
  rw [hlooks] at hd
  rcases List.mem_append.mp hd with hd | hd
  · have := hearly d hd
    omega
  · obtain ⟨before, post, rfl⟩ := List.append_of_mem hd
    cases before with
    | nil =>
      have := first_after hchain hlooks hne hearly
      omega
    | cons x mid =>
      have hxsoon : x.now ≤ limit + gap := first_after hchain hlooks hne hearly
      have hstale : ∀ y ∈ x :: mid, repairable y.result = true := by
        intro y hy
        have hy' : y ∈ x :: mid ++ d :: post := List.mem_append_left _ hy
        have hmem : y ∈ looks := by
          rw [hlooks]
          exact List.mem_append_right _ hy'
        have hafter := hlate y hy'
        obtain ⟨stat, now, hlooked, habandoned⟩ := hwatch y hmem
        exact hlooked.stale habandoned hmtime (by omega)
      have hsplit : looks = early ++ x :: mid ++ d :: post := by
        rw [hlooks, List.append_assoc]
      have hend := loop_ends hact hret hmax hi hgap rfl hclock hchain hsplit hstale
      omega

/-- A configuration with a file that is to be changed every five seconds. -/
def fileConfig : Except Fatal Globals :=
  readConfig ⟨true, fun _ => none, fun _ => none⟩ (startGlobals {}) (some "file = /f\nchange = 5\n".toList)

def fileGlobals : Globals :=
  match fileConfig with
  | .ok g => zeroRetry g
  | .error _ => defaults

def fileEntry : ListEntry := { toEntry := freshEntry "/f".toList 0, mtime := 5 }

/-- The file is found unchanged, with twenty seconds from one call to the next. -/
def abandoned : Nat → (q : Call) → Answer q
  | _, .check (.entry _) => (enochange, 10)
  | n, q => broken n q

def abandonedSeen : Seen := seen ((mainLoop {} fileGlobals 2 (State.first fileGlobals)).trace abandoned 0)

/-- Two looks at a file that was never changed. -/
theorem abandoned_file_ends_never_changed :
    ∃ first d, reportsOf 0 abandonedSeen.reports = [first, d] ∧
      d.now ≤ max first.now (0 + 5 + 0) + 1000 + deadline (config {} fileGlobals) 1000 := by
  have hclock : Clocked (abandonedSeen.reports.reverse.map Report.call) :=
    ⟨by decide +kernel, by decide +kernel, by decide +kernel⟩
  have hchain : (reportsOf 0 abandonedSeen.reports).IsChain (fun a b => b.now ≤ a.now + 1000) := by decide +kernel
  have hchecked : ∀ d ∈ reportsOf 0 abandonedSeen.reports, -2 ^ 31 ≤ d.now - 0 ∧ d.now - 0 < 2 ^ 31 ∧
      d.result = (checkFileStat fileGlobals fileEntry (.ok 0) d.now).1 := by decide +kernel
  have htwo : (reportsOf 0 abandonedSeen.reports).length = 2 := by decide +kernel
  obtain ⟨first, d, hreports⟩ := List.length_eq_two.mp htwo
  refine ⟨first, d, hreports, ?_⟩
  refine abandoned_file_ends _ {} rfl _ _ (rfl : fileConfig = .ok _) (by decide +kernel) (by decide +kernel) 2 abandoned 0 0
    fileEntry (by decide +kernel) (by decide) 1000 (by decide) 0 0 hclock hchain (fun x hx => ?_) first [d] hreports d ?_
  · obtain ⟨hlow, hhigh, hresult⟩ := hchecked x hx
    refine ⟨.ok 0, x.now, ⟨?_, hresult⟩, ?_, nofun, by omega⟩
    · rintro _ ⟨⟩
      exact ⟨hlow, hhigh⟩
    · rintro _ ⟨⟩
      exact Int.le_refl 0
  · show d ∈ reportsOf 0 abandonedSeen.reports
    rw [hreports]
    exact List.mem_cons_of_mem _ List.mem_cons_self

/-! ## A file that is kept -/

/-- What the machine does about a success: nothing. -/
theorem success_quiet (cfg : Config) (rbinary : Option CString) (acts : List Entry) (calls : List ActionCall) :
    ∀ x ∈ (mainAfter cfg rbinary acts calls).made,
      x.2.call.result = enoerr → x.2.repaired = none ∧ x.2.request = none := by
  refine Runs.run_inv
    (I := fun s : MainState => ∀ x ∈ s.made, x.2.call.result = enoerr → x.2.repaired = none ∧ x.2.request = none) ?_
    (fun _ hx => absurd hx List.not_mem_nil) (Runs.allowed_of_forall (P := fun _ => True) fun _ _ => trivial)
  intro s c hs _
  unfold mainStep
  split
  · exact hs
  · refine List.forall_mem_cons.mpr ⟨fun hok => ?_, hs⟩
    have hok : c.result = enoerr := hok
    simp [MainState.action, wdAction, hok]

/-- **A kept file is no reason for anything.** With every configuration, for every file with an interval and in every run of
the loop, whatever the other checks find: if every look finds the file changed in its interval, with an age that fits an
`int`, none of the looks is followed by a repair or by a shutdown. -/
theorem kept_file_spared (o : Options) (g : Globals) (cycles : Nat) (answers : Nat → (q : Call) → Answer q) (n j : Nat)
    (file : ListEntry) (hmtime : 0 < file.mtime) :
    let m := seen ((mainLoop o g cycles (State.first g)).trace answers n)
    (∀ d ∈ reportsOf (filePlace g j) m.reports, ∃ stMtime now,
      Looked g file d (.ok stMtime) now ∧ now - stMtime ≤ file.mtime) →
      ∀ later d earlier, m.reports = later ++ d :: earlier → d.source = .entry (filePlace g j) →
        d.forked = false ∧ (later = [] → m.down = none) := by
  intro m hwatch later d earlier hsplit hd
  have hmem : d ∈ reportsOf (filePlace g j) m.reports := by
    rw [reportsOf, List.mem_reverse, List.mem_filter, hsplit]
    exact ⟨List.mem_append_right _ List.mem_cons_self, decide_eq_true hd⟩
  obtain ⟨stMtime, now, hlooked, hkept⟩ := hwatch d hmem
  have hok := hlooked.kept hmtime hkept
  obtain ⟨calls, hreports, hend⟩ := loop_refines o g (State.first g) cycles answers n
  change m.reports = (mainAfter (config o g) (g (.str .repairBin)) (entries g) calls).made.map
    (report (g (.str .repairBin)) (entries g)) at hreports
  rw [hreports] at hsplit
  obtain ⟨later', rest, hmade, hlater, hrest⟩ := List.map_eq_append_iff.mp hsplit
  obtain ⟨x, earlier', rfl, rfl, -⟩ := List.map_eq_cons_iff.mp hrest
  have hx : x ∈ (mainAfter (config o g) (g (.str .repairBin)) (entries g) calls).made := by
    rw [hmade]
    exact List.mem_append_right _ List.mem_cons_self
  obtain ⟨hrepaired, hrequest⟩ := success_quiet _ _ _ calls x hx hok
  refine ⟨?_, fun hlast => ?_⟩
  · unfold report
    rw [hrepaired]
    rfl
  · rw [hlast] at hlater
    rw [List.map_eq_nil_iff.mp hlater] at hmade
    split at hend
    · exact hend.2.1
    · obtain ⟨-, code, -, hhead⟩ := hend
      change (mainAfter (config o g) (g (.str .repairBin)) (entries g) calls).made.head?.map (·.2.request) = _ at hhead
      rw [hmade] at hhead
      have hcode := Option.some.inj hhead
      change x.2.request = _ at hcode
      rw [hrequest] at hcode
      cases hcode

/-- Two looks at a file that is changed all the time. -/
theorem kept_file_spared_always :
    let m := seen ((mainLoop {} fileGlobals 2 (State.first fileGlobals)).trace calm 0)
    (reportsOf 0 m.reports).length = 2 ∧ ∀ d ∈ reportsOf 0 m.reports, d.forked = false := by
  intro m
  have hchecked : ∀ d ∈ reportsOf 0 m.reports, d.result = (checkFileStat fileGlobals fileEntry (.ok d.now) d.now).1 := by
    decide +kernel
  refine ⟨by decide +kernel, fun d hd => ?_⟩
  have hmem : d ∈ m.reports ∧ d.source = .entry 0 := by simpa [reportsOf] using hd
  obtain ⟨later, earlier, hsplit⟩ := List.append_of_mem hmem.1
  refine (kept_file_spared {} fileGlobals 2 calm 0 0 fileEntry (by decide) (fun x hx => ?_) later d earlier hsplit hmem.2).1
  refine ⟨x.now, x.now, ⟨?_, hchecked x hx⟩, ?_⟩
  · rintro _ ⟨⟩
    omega
  · show x.now - x.now ≤ 5
    omega

end Watchdog.Daemon
