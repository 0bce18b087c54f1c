import WatchdogDaemon.Basic
import WatchdogDaemon.Lib.Runs

/- The temperature check: `temp.c`.

   Three warning levels stand at 90, 95 and 98 percent of the maximum, moved apart where
   rounding would let them meet. Each sensor has a flag for each level, which says that the
   temperature was above the level when it was last read, and a warning is logged when the
   highest level exceeded is a new one. The branches set and clear the flags in part, on
   the strength of `have3 → have2 → have1`.

   A sensor is a file whose first line is read. An empty one makes `fgets` fail at the end of
   the file, which sets no `errno`: the number `read_temp_sensor` answers is then the one that
   was left there, and with 0 the failure is taken for a temperature of 0.

   What is proved: `temperature_tracks` — after every sequence of readings in which no empty
   file meets an `errno` of 0, the flags are the comparisons with the last successful one, and
   the next reading is reported as its comparison with that one says.

   Correspondence (C ↔ Lean):
     `temp_fd`, `templevel1` .. `templevel3` ↔ `TempGlobals`
     `parameter.temp` of a `struct list`    ↔ `TempSensor`
     `fopen` and `fgets` of a sensor        ↔ `SensorFile`, `fgets`
     `read_temp_sensor`                     ↔ `readTempSensor`
     `open_tempcheck`, `close_tempcheck`    ↔ `openTempcheck`, `closeTempcheck`
     `check_temp`                           ↔ `checkTemp`
     its `log_message` calls                ↔ `TempLog`
   What the text becomes as a number is floating point: `wholeDegrees` stands for
   `(int)(1.0e-5F + 1.0e-3F * atof(buf))`. The debug message with the fraction is left out. -/
namespace Watchdog

/-! ## The sensors -/

structure TempGlobals where
  /-- `temp_fd` is 0, not -1. -/
  inUse : Bool := false
  templevel1 : Int := 0
  templevel2 : Int := 0
  templevel3 : Int := 0

structure TempSensor where
  name : CString
  inUse : Bool := false
  have1 : Bool := false
  have2 : Bool := false
  have3 : Bool := false
  deriving DecidableEq

inductive TempLog where
  | failedToOpen (name : CString) (err : Int)
  | failedToRead (name : CString) (err : Int)
  | increasesAbove (level : Int) (name : CString)
  | nowOk (name : CString)
  | tooHot (temperature maxtemp : Int) (name : CString)
  deriving DecidableEq

/-! ## Reading a sensor -/

/-- What there is under the name of a sensor when it is read. -/
inductive SensorFile where
  | noOpen (err : Errno)
  | noRead (err : Errno)
  | text (contents : CString)
  deriving DecidableEq

/-- A reading: the file, and what `errno` holds before it. -/
structure Reading where
  errno : Int := 0
  file : SensorFile
  deriving DecidableEq

/-- The first line, at most `n` characters of it; nothing when `fgets` returns NULL. -/
def fgets : Nat → CString → CString
  | 0, _ => []
  | _ + 1, [] => []
  | n + 1, c :: rest => if c = '\n' then [c] else c :: fgets n rest

/-- The answer, the temperature after it, and what is logged. -/
def readTempSensor (wholeDegrees : CString → Int) (name : CString) (r : Reading) (val : Int) :
    Int × Int × List TempLog :=
  match r.file with
  | .noOpen err => (err, val, [.failedToOpen name err])
  | .noRead err => (err, val, [.failedToRead name err])
  | .text contents =>
    match fgets 126 contents with
    -- The end of the file is no error.
    | [] => (r.errno, val, [.failedToRead name r.errno])
    | buf => (enoerr, wholeDegrees buf, [])

/-- The temperature of a reading that does not fail. -/
def Reading.temperature (wholeDegrees : CString → Int) (r : Reading) : Option Int :=
  match r.file with
  | .noOpen _ => none
  | .noRead _ => none
  | .text contents =>
    match fgets 126 contents with
    | [] => none
    | buf => some (wholeDegrees buf)

/-- A failure that can be told: not the end of an empty file with `errno` 0. -/
def Reading.Tells (r : Reading) : Prop := ¬ (r.file = .text [] ∧ r.errno = enoerr)

instance (r : Reading) : Decidable r.Tells := inferInstanceAs (Decidable (¬ (_ ∧ _)))

theorem fgets_eq_nil {n : Nat} {contents : CString} (h : fgets (n + 1) contents = []) :
    contents = [] := by
  cases contents with
  | nil => rfl
  | cons c rest =>
    unfold fgets at h
    split at h <;> cases h

theorem readTempSensor_ok {wholeDegrees : CString → Int} {r : Reading} {t : Int}
    (h : r.temperature wholeDegrees = some t) (name : CString) (val : Int) :
    readTempSensor wholeDegrees name r val = (enoerr, t, []) := by
  unfold Reading.temperature at h
  unfold readTempSensor
  repeat' split at h
  all_goals cases h
  rfl

/-- A failed reading leaves the variable alone, and answers an error if it can be told. -/
theorem readTempSensor_failed {wholeDegrees : CString → Int} {r : Reading}
    (h : r.temperature wholeDegrees = none) (htells : r.Tells) (name : CString) (val : Int) :
    ∃ err message, err ≠ enoerr ∧ readTempSensor wholeDegrees name r val = (err, val, [message]) := by
  unfold Reading.temperature at h
  unfold readTempSensor
  cases hfile : r.file with
  | noOpen err => exact ⟨err, _, Int.ne_of_gt err.2, rfl⟩
  | noRead err => exact ⟨err, _, Int.ne_of_gt err.2, rfl⟩
  | text contents =>
    rw [hfile] at h
    dsimp only at h ⊢
    split at h
    · next hnil =>
      refine ⟨r.errno, _, fun hzero => htells ⟨?_, hzero⟩, rfl⟩
      rw [hfile, fgets_eq_nil hnil]
    · cases h

/-! ## Opening -/

def closeTempcheck (g : TempGlobals) : TempGlobals := { g with inUse := false }

/-- `percent` of the maximum, or one less than the level above it. -/
def tempLevel (maxtemp percent above : Int) : Int :=
  let level := (toInt (maxtemp * percent)).tdiv 100
  if above ≤ level then toInt (above - 1) else level

def openTempcheck (wholeDegrees : CString → Int) (maxtemp : Int) (reading : CString → Reading)
    (g : TempGlobals) (tlist : List TempSensor) : TempGlobals × List TempSensor :=
  let g := closeTempcheck g
  if tlist.isEmpty then (g, tlist)
  else
    let sensors := tlist.map fun act =>
      { act with
        have1 := false, have2 := false, have3 := false
        inUse := (readTempSensor wholeDegrees act.name (reading act.name) 0).1 = enoerr }
    let templevel3 := tempLevel maxtemp 98 maxtemp
    let templevel2 := tempLevel maxtemp 95 templevel3
    let templevel1 := tempLevel maxtemp 90 templevel2
    (⟨true, templevel1, templevel2, templevel3⟩, sensors)

/-! ## The check -/

/-- The levels of a reading: the flags after it, and what is logged. -/
def crossLevels (g : TempGlobals) (act : TempSensor) (temperature : Int) :
    TempSensor × List TempLog :=
  if temperature > g.templevel3 then
    if !act.have3 then
      ({ act with have1 := true, have2 := true, have3 := true },
        [.increasesAbove g.templevel3 act.name])
    else (act, [])
  else if temperature > g.templevel2 then
    let (act, log) :=
      if !act.have2 then
        ({ act with have1 := true, have2 := true }, [.increasesAbove g.templevel2 act.name])
      else (act, [])
    ({ act with have3 := false }, log)
  else if temperature > g.templevel1 then
    let (act, log) :=
      if !act.have1 then
        ({ act with have1 := true }, [.increasesAbove g.templevel1 act.name])
      else (act, [])
    ({ act with have2 := false, have3 := false }, log)
  else
    -- Below all thresholds, report clear only if previously set.
    ({ act with have1 := false, have2 := false, have3 := false },
      if act.have1 || act.have2 || act.have3 then [.nowOk act.name] else [])

/-- The answer, the sensor after it, and what is logged. -/
def checkTemp (wholeDegrees : CString → Int) (maxtemp : Int) (g : TempGlobals) (act : TempSensor)
    (r : Reading) : Int × TempSensor × List TempLog :=
  if !g.inUse || !act.inUse then (enoerr, act, [])
  else
    let (err, temperature, failure) := readTempSensor wholeDegrees act.name r 0
    if err ≠ enoerr then (err, act, failure)
    else
      let (act, log) := crossLevels g act temperature
      if temperature ≥ maxtemp then
        (etoohot, act, failure ++ log ++ [.tooHot temperature maxtemp act.name])
      else (enoerr, act, failure ++ log)

/-! ## The levels -/

/-- The levels are distinct and in order, below the maximum. -/
structure TempGlobals.Ordered (g : TempGlobals) (maxtemp : Int) : Prop where
  one_two : g.templevel1 < g.templevel2
  two_three : g.templevel2 < g.templevel3
  three_max : g.templevel3 < maxtemp

theorem tempLevel_lt (maxtemp percent : Int) {above : Int} (hlow : -2 ^ 31 < above)
    (hhigh : above < 2 ^ 31) : tempLevel maxtemp percent above < above := by
  unfold tempLevel
  dsimp only
  split
  · rw [toInt_eq_self (by omega) (by omega)]
    omega
  · omega

theorem le_toInt_tdiv (x : Int) : -21474837 ≤ (toInt x).tdiv 100 := by
  obtain ⟨hlow, -⟩ := toInt_bounds x
  calc (-21474837 : Int) ≤ Int.tdiv (-2 ^ 31) 100 := by decide
    _ ≤ (toInt x).tdiv 100 := Int.tdiv_le_tdiv (by decide) hlow

theorem le_tempLevel (maxtemp percent : Int) {above bound : Int} (hbound : bound ≤ -21474837)
    (hlow : -2 ^ 31 ≤ bound) (habove : bound < above) (hhigh : above < 2 ^ 31) :
    bound ≤ tempLevel maxtemp percent above := by
  have hdiv := le_toInt_tdiv (maxtemp * percent)
  unfold tempLevel
  dsimp only
  split
  · rw [toInt_eq_self (by omega) (by omega)]
    omega
  · omega

theorem openTempcheck_ordered {maxtemp : Int} (hlow : -2 ^ 31 ≤ maxtemp * 98)
    (hhigh : maxtemp * 98 < 2 ^ 31) {wholeDegrees : CString → Int} {reading : CString → Reading}
    {g : TempGlobals} {tlist : List TempSensor} (hne : tlist ≠ []) :
    (openTempcheck wholeDegrees maxtemp reading g tlist).1.Ordered maxtemp := by
  have hopen : ¬ tlist.isEmpty = true := by
    rw [List.isEmpty_iff]
    exact hne
  -- Every level is out of reach of the lower end of `int`.
  have hlow₃ : -2 ^ 30 ≤ tempLevel maxtemp 98 maxtemp :=
    le_tempLevel _ _ (by decide) (by decide) (by omega) (by omega)
  have h₃ : tempLevel maxtemp 98 maxtemp < maxtemp := tempLevel_lt _ _ (by omega) (by omega)
  simp only [openTempcheck, if_neg hopen]
  generalize tempLevel maxtemp 98 maxtemp = level3 at hlow₃ h₃
  have hlow₂ : -2 ^ 30 - 1 ≤ tempLevel maxtemp 95 level3 :=
    le_tempLevel _ _ (by decide) (by decide) (by omega) (by omega)
  have h₂ : tempLevel maxtemp 95 level3 < level3 := tempLevel_lt _ _ (by omega) (by omega)
  generalize tempLevel maxtemp 95 level3 = level2 at hlow₂ h₂
  have h₁ : tempLevel maxtemp 90 level2 < level2 := tempLevel_lt _ _ (by omega) (by omega)
  exact ⟨h₁, h₂, h₃⟩

/-! ## One reading -/

/-- Whether the last successful reading was above a level; none was above any. -/
def above (last : Option Int) (level : Int) : Bool := last.any (level < ·)

/-- The sensor is the one of that name, and its flags are the comparisons with the last
successful reading. -/
structure FlagsTrack (g : TempGlobals) (name : CString) (last : Option Int) (act : TempSensor) :
    Prop where
  name : act.name = name
  inUse : act.inUse = true
  have1 : act.have1 = above last g.templevel1
  have2 : act.have2 = above last g.templevel2
  have3 : act.have3 = above last g.templevel3

/-- The highest level a temperature exceeds. -/
def IsHighest (g : TempGlobals) (temperature level : Int) : Prop :=
  level ∈ [g.templevel1, g.templevel2, g.templevel3] ∧ temperature > level ∧
    ∀ other ∈ [g.templevel1, g.templevel2, g.templevel3], temperature > other → other ≤ level

/-- What a successful reading is to answer, leave and log. -/
structure Reported (maxtemp : Int) (g : TempGlobals) (name : CString) (last : Option Int)
    (temperature : Int) (out : Int × TempSensor × List TempLog) : Prop where
  tracks : FlagsTrack g name (some temperature) out.2.1
  warns : ∀ level, .increasesAbove level name ∈ out.2.2 ↔
    IsHighest g temperature level ∧ above last level = false
  clears : .nowOk name ∈ out.2.2 ↔
    temperature ≤ g.templevel1 ∧ above last g.templevel1 = true
  once : out.2.2.Nodup
  result : out.1 = if temperature ≥ maxtemp then etoohot else enoerr
  hot : out.1 = etoohot → out.2.1.have3 = true

section Step
variable {wholeDegrees : CString → Int} {maxtemp : Int} {g : TempGlobals} {name : CString}
  {last : Option Int} {act : TempSensor}

theorem above_mono (last : Option Int) {level other : Int} (hle : level ≤ other) (h : above last other = true) :
    above last level = true := by
  cases last with
  | none => exact h
  | some t =>
    simp only [above, Option.any_some, decide_eq_true_eq] at h ⊢
    omega

/-- What a reading logs about the levels. -/
def levelLog (g : TempGlobals) (name : CString) (last : Option Int) (temperature : Int) :
    List TempLog :=
  let warn (level : Int) : List TempLog :=
    if above last level then [] else [.increasesAbove level name]
  if temperature > g.templevel3 then warn g.templevel3
  else if temperature > g.templevel2 then warn g.templevel2
  else if temperature > g.templevel1 then warn g.templevel1
  else if above last g.templevel1 then [.nowOk name] else []

/-- Every branch sets the flags to the comparisons: those it does not touch have their
value already, as the flag of a level implies those of the levels below it. -/
theorem FlagsTrack.crossLevels_eq (hord : g.Ordered maxtemp) (h : FlagsTrack g name last act)
    (temperature : Int) :
    crossLevels g act temperature =
      ({ act with
          have1 := temperature > g.templevel1, have2 := temperature > g.templevel2,
          have3 := temperature > g.templevel3 },
        levelLog g name last temperature) := by
  obtain ⟨_, inUse, have1, have2, have3⟩ := act
  obtain ⟨rfl, rfl, rfl, rfl, rfl⟩ := h
  obtain ⟨h₁₂, h₂₃, -⟩ := hord
  have mono₂₁ := above_mono last (Int.le_of_lt h₁₂)
  have mono₃₂ := above_mono last (Int.le_of_lt h₂₃)
  unfold crossLevels levelLog
  by_cases h₃ : temperature > g.templevel3
  · have h₂ : temperature > g.templevel2 := by omega
    have h₁ : temperature > g.templevel1 := by omega
    simp only [h₁, h₂, h₃, if_true]
    cases hw : above last g.templevel3 with
    | false => simp
    | true => simp [mono₃₂ hw, mono₂₁ (mono₃₂ hw)]
  by_cases h₂ : temperature > g.templevel2
  · have h₁ : temperature > g.templevel1 := by omega
    simp only [h₁, h₂, h₃, if_true, if_false]
    cases hw : above last g.templevel2 with
    | false => simp
    | true => simp [mono₂₁ hw]
  by_cases h₁ : temperature > g.templevel1
  · simp only [h₁, h₂, h₃, if_true, if_false]
    cases hw : above last g.templevel1 <;> simp
  · simp only [h₁, h₂, h₃, if_false]
    cases hw : above last g.templevel1 with
    | true => simp
    | false =>
      have hw₂ : above last g.templevel2 = false := by
        by_contra hcase
        simp [mono₂₁ (by simpa using hcase)] at hw
      have hw₃ : above last g.templevel3 = false := by
        by_contra hcase
        simp [mono₃₂ (by simpa using hcase)] at hw₂
      simp [hw₂, hw₃]

theorem FlagsTrack.checkTemp_ok (hord : g.Ordered maxtemp) (hopen : g.inUse = true)
    (h : FlagsTrack g name last act) {r : Reading} {temperature : Int}
    (hr : r.temperature wholeDegrees = some temperature) :
    checkTemp wholeDegrees maxtemp g act r =
      (if temperature ≥ maxtemp then etoohot else enoerr,
        { act with
          have1 := temperature > g.templevel1, have2 := temperature > g.templevel2,
          have3 := temperature > g.templevel3 },
        levelLog g name last temperature ++
          if temperature ≥ maxtemp then [.tooHot temperature maxtemp name] else []) := by
  simp only [checkTemp, hopen, h.inUse, h.name, readTempSensor_ok hr, h.crossLevels_eq hord,
    Bool.not_true, Bool.or_self, Bool.false_eq_true, ne_eq, not_true_eq_false, if_false,
    List.nil_append]
  split <;> simp

theorem mem_levelLog_above (hord : g.Ordered maxtemp) (name : CString) (temperature level : Int) :
    .increasesAbove level name ∈ levelLog g name last temperature ↔
      IsHighest g temperature level ∧ above last level = false := by
  obtain ⟨h₁₂, h₂₃, -⟩ := hord
  have hwarn (l : Int) : TempLog.increasesAbove level name ∈
      (if above last l then [] else [TempLog.increasesAbove l name]) ↔
        level = l ∧ above last l = false := by
    split
    · next h => simp [h]
    · next h => simp [h]
  -- The highest level exceeded is the one of the branch.
  have hhighest {l : Int} (hl : IsHighest g temperature l) :
      IsHighest g temperature level ↔ level = l := by
    constructor
    · intro h
      exact Int.le_antisymm (hl.2.2 level h.1 h.2.1) (h.2.2 l hl.1 hl.2.1)
    · intro h
      rw [h]
      exact hl
  have hbranch {l : Int} (hl : IsHighest g temperature l) :
      (level = l ∧ above last l = false) ↔
        IsHighest g temperature level ∧ above last level = false := by
    rw [hhighest hl]
    constructor
    · intro h
      exact ⟨h.1, by rw [h.1]; exact h.2⟩
    · intro h
      exact ⟨h.1, by rw [← h.1]; exact h.2⟩
  unfold levelLog
  dsimp only
  split
  · rw [hwarn]
    exact hbranch ⟨by simp, by omega, by simp; omega⟩
  split
  · rw [hwarn]
    exact hbranch ⟨by simp, by omega, by simp; omega⟩
  split
  · rw [hwarn]
    exact hbranch ⟨by simp, by omega, by simp; omega⟩
  · have hnone : ¬ IsHighest g temperature level := by
      intro h
      have hmem := h.1
      have hexceeds := h.2.1
      simp only [List.mem_cons, List.not_mem_nil, or_false] at hmem
      omega
    split <;> simp [hnone]

theorem mem_levelLog_ok (hord : g.Ordered maxtemp) (name : CString) (temperature : Int) :
    .nowOk name ∈ levelLog g name last temperature ↔
      temperature ≤ g.templevel1 ∧ above last g.templevel1 = true := by
  obtain ⟨h₁₂, h₂₃, -⟩ := hord
  have hwarn (l : Int) : TempLog.nowOk name ∉
      (if above last l then [] else [TempLog.increasesAbove l name]) := by
    split <;> simp
  unfold levelLog
  dsimp only
  split
  · have : ¬ temperature ≤ g.templevel1 := by omega
    simp only [hwarn, this, false_and]
  split
  · have : ¬ temperature ≤ g.templevel1 := by omega
    simp only [hwarn, this, false_and]
  split
  · have : ¬ temperature ≤ g.templevel1 := by omega
    simp only [hwarn, this, false_and]
  · have : temperature ≤ g.templevel1 := by omega
    split
    · next h => simp [this, h]
    · next h => simp [h]

theorem nodup_levelLog (temperature : Int) :
    (levelLog g name last temperature ++
      if temperature ≥ maxtemp then [TempLog.tooHot temperature maxtemp name] else []).Nodup := by
  unfold levelLog
  dsimp only
  split_ifs <;> simp

/-- A successful reading is reported as it should be. -/
theorem FlagsTrack.reported (hord : g.Ordered maxtemp) (hopen : g.inUse = true)
    (h : FlagsTrack g name last act) {r : Reading} {temperature : Int}
    (hr : r.temperature wholeDegrees = some temperature) :
    Reported maxtemp g name last temperature (checkTemp wholeDegrees maxtemp g act r) := by
  have hmax := hord.three_max
  rw [h.checkTemp_ok hord hopen hr]
  constructor
  case tracks =>
    exact ⟨h.name, h.inUse, rfl, rfl, rfl⟩
  case warns =>
    intro level
    rw [List.mem_append, ← mem_levelLog_above hord name]
    split <;> simp
  case clears =>
    rw [List.mem_append, ← mem_levelLog_ok hord name]
    split <;> simp
  case once => exact nodup_levelLog temperature
  case result => rfl
  case hot =>
    intro hhot
    have hge : temperature ≥ maxtemp := by
      by_contra hlt
      rw [if_neg hlt] at hhot
      exact absurd (show enoerr = etoohot from hhot) (by decide)
    exact decide_eq_true (by omega)

/-- A failed reading changes nothing, if the failure can be told. -/
theorem FlagsTrack.checkTemp_failed (hopen : g.inUse = true) (h : FlagsTrack g name last act)
    {r : Reading} (hr : r.temperature wholeDegrees = none) (htells : r.Tells) :
    ∃ err message, err ≠ enoerr ∧
      checkTemp wholeDegrees maxtemp g act r = (err, act, [message]) := by
  obtain ⟨err, message, hne, hread⟩ := readTempSensor_failed hr htells act.name 0
  refine ⟨err, message, hne, ?_⟩
  simp only [checkTemp, hopen, h.inUse, hread]
  simp [hne]

/-- The last successful reading, after one more. -/
def lastAfter (wholeDegrees : CString → Int) (last : Option Int) (r : Reading) : Option Int :=
  (r.temperature wholeDegrees).or last

theorem FlagsTrack.step (hord : g.Ordered maxtemp) (hopen : g.inUse = true)
    (h : FlagsTrack g name last act) {r : Reading} (htells : r.Tells) :
    FlagsTrack g name (lastAfter wholeDegrees last r) (checkTemp wholeDegrees maxtemp g act r).2.1 := by
  unfold lastAfter
  cases hr : r.temperature wholeDegrees with
  | some temperature => exact (h.reported hord hopen hr).tracks
  | none =>
    obtain ⟨err, message, -, hcheck⟩ : ∃ err message, err ≠ enoerr ∧
        checkTemp wholeDegrees maxtemp g act r = (err, act, [message]) := h.checkTemp_failed hopen hr htells
    rw [hcheck]
    exact h

/-- The sensor after a sequence of readings. -/
def afterReadings (wholeDegrees : CString → Int) (maxtemp : Int) (g : TempGlobals)
    (act : TempSensor) (rs : List Reading) : TempSensor :=
  Runs.run (fun act r => (checkTemp wholeDegrees maxtemp g act r).2.1) act rs

theorem FlagsTrack.run (hord : g.Ordered maxtemp) (hopen : g.inUse = true)
    (h : FlagsTrack g name last act) {rs : List Reading} (htells : ∀ r ∈ rs, r.Tells) :
    FlagsTrack g name (rs.foldl (lastAfter wholeDegrees) last)
      (afterReadings wholeDegrees maxtemp g act rs) := by
  induction rs generalizing act last with
  | nil => exact h
  | cons r rs ih =>
    exact ih (h.step hord hopen (htells r List.mem_cons_self))
      fun r' hr' => htells r' (List.mem_cons_of_mem r hr')

end Step

/-! ## Whole runs -/

/-- An opened sensor has no flag set. -/
theorem openTempcheck_tracks (wholeDegrees : CString → Int) (maxtemp : Int)
    (reading : CString → Reading) (g : TempGlobals) {tlist : List TempSensor} (hne : tlist ≠ []) :
    (openTempcheck wholeDegrees maxtemp reading g tlist).1.inUse = true ∧
    ∀ act ∈ (openTempcheck wholeDegrees maxtemp reading g tlist).2, act.inUse = true →
      FlagsTrack (openTempcheck wholeDegrees maxtemp reading g tlist).1 act.name none act := by
  have hopen : ¬ tlist.isEmpty = true := by
    rw [List.isEmpty_iff]
    exact hne
  simp only [openTempcheck, if_neg hopen]
  refine ⟨trivial, ?_⟩
  intro act hact huse
  obtain ⟨a, -, rfl⟩ := List.mem_map.1 hact
  exact ⟨rfl, huse, rfl, rfl, rfl⟩

/-- **Warnings track the readings.** The levels are in order below the maximum; and for
every sensor in use and every sequence of readings, failed or not, in which no empty file
meets an `errno` of 0: a failed reading changes no flag, and a successful one is answered,
logged and kept in the flags as its comparison with the levels and with the last successful
reading says. -/
theorem temperature_tracks (wholeDegrees : CString → Int) (maxtemp : Int)
    (hlow : -2 ^ 31 ≤ maxtemp * 98) (hhigh : maxtemp * 98 < 2 ^ 31) (reading : CString → Reading)
    (g₀ : TempGlobals) (tlist : List TempSensor) (hne : tlist ≠ []) :
    let opened := openTempcheck wholeDegrees maxtemp reading g₀ tlist
    let g := opened.1
    g.Ordered maxtemp ∧
    ∀ act ∈ opened.2, act.inUse = true → ∀ (rs : List Reading) (r : Reading),
      (∀ r' ∈ rs ++ [r], r'.Tells) →
      let last := rs.foldl (lastAfter wholeDegrees) none
      let now := afterReadings wholeDegrees maxtemp g act rs
      let out := checkTemp wholeDegrees maxtemp g now r
      (r.temperature wholeDegrees = none → ∃ err message, err ≠ enoerr ∧ out = (err, now, [message])) ∧
      ∀ t, r.temperature wholeDegrees = some t → Reported maxtemp g act.name last t out := by
  intro opened g
  have hord : g.Ordered maxtemp := openTempcheck_ordered hlow hhigh hne
  obtain ⟨hopen, htracks⟩ := openTempcheck_tracks wholeDegrees maxtemp reading g₀ hne
  refine ⟨hord, ?_⟩
  intro act hact huse rs r htells last now out
  have hnow : FlagsTrack g act.name last now := (htracks act hact huse).run hord hopen
    fun r' hr' => htells r' (List.mem_append_left _ hr')
  have hr : r.Tells := htells r (List.mem_append_right _ List.mem_cons_self)
  exact ⟨fun hfailed => hnow.checkTemp_failed hopen hfailed hr,
    fun t ht => hnow.reported hord hopen ht⟩

/-- An empty file, read when `errno` is 0, is taken for 0 degrees: the flags are cleared, and
all is said to be well. -/
theorem empty_file_clears :
    let hot : Reading := { file := .text "85000\n".toList }
    let empty : Reading := { file := .text [] }
    let opened := openTempcheck (fun _ => 85) 90 (fun _ => hot) {} [{ name := "temp1".toList }]
    let act : TempSensor := { name := "temp1".toList, inUse := true }
    let now := afterReadings (fun _ => 85) 90 opened.1 act [hot]
    act ∈ opened.2 ∧ empty.temperature (fun _ => 85) = none ∧
    now.have1 = true ∧ now.have2 = false ∧
    checkTemp (fun _ => 85) 90 opened.1 now empty =
      (enoerr, act, [.failedToRead "temp1".toList 0, .nowOk "temp1".toList]) := by
  decide

/-- A maximum of 90: the temperature passes the first level, a reading fails, and the next
one is above the highest. -/
theorem temperature_tracks_ninety :
    let degrees (buf : CString) : Int := if buf.length = 3 then 82 else 89
    let reading (contents : CString) : Reading := { file := .text contents }
    let opened := openTempcheck degrees 90 (fun _ => reading "82".toList) {} [{ name := "temp1".toList }]
    let act : TempSensor := { name := "temp1".toList, inUse := true }
    let now := afterReadings degrees 90 opened.1 act
      [reading "82\n".toList, { file := .noRead ⟨5, by decide⟩ }]
    act ∈ opened.2 ∧ now.have1 = true ∧ now.have2 = false ∧
    Reported 90 opened.1 act.name (some 82) 89 (checkTemp degrees 90 opened.1 now (reading "89".toList)) := by
  intro degrees reading opened act now
  have hact : act ∈ opened.2 := by decide
  have htracks := temperature_tracks degrees 90 (by decide) (by decide) (fun _ => reading "82".toList)
    {} [{ name := "temp1".toList }] (by simp)
  exact ⟨hact, by decide, by decide,
    (htracks.2 act hact rfl [reading "82\n".toList, { file := .noRead ⟨5, by decide⟩ }]
      (reading "89".toList) (by decide)).2 89 (by decide)⟩

end Watchdog
