import WatchdogDaemon.Config.ReadConf
import WatchdogDaemon.Lib.Footprint
import WatchdogDaemon.Lib.Runs
import WatchdogDaemon.ProcessTable

/- `read_config()` of `configfile.c`.

   The globals it sets are a store: every variable of the file, with its type. A line
   is split at its first `=`, and its key is tried against the options one after the
   other, in the order of the source. Two of the branches do more than their `READ_*`:
   `change` goes to the last entry of the file list, and `logtick` restarts the ticker.
   After the last line the test directory is listed, the interval is checked, and the
   load limits that are not given are computed.

   `ConfEnv` is the file system the daemon sees and whether the file closes. `readConfig`
   is given the contents of the file, `none` when it does not open; errors of `getline`
   and the names in the messages are left out.

   Correspondence (C ↔ Lean):
     the globals and `test_dir`             ↔ `Var`, `Globals`, `defaults`
     `getline`                              ↔ `getLines`
     `read_config`, lines 159-180           ↔ `splitLine`
     the branches of lines 183-236          ↔ `options`, `Target.read`
     the `change` branch                    ↔ `setMtime`
     `add_test_binaries`                    ↔ `addTestBinary`, `addTestBinaries`
     `read_config`                          ↔ `readLine`, `readConfig` -/
namespace Watchdog
open Footprint

/-! ## The globals -/

inductive IntVar where
  | tint | logtick | ticker | schedprio | maxload1 | maxload5 | maxload15 | minpages | minalloc
  | maxtemp | pingcount | tempPoweroff | sigtermDelay | repairMax
  | testTimeout | repairTimeout | devTimeout | retryTimeout
  | hbstamps | refreshUseSettimeout | realtime | softboot | verbose
  deriving DecidableEq

inductive StrVar where
  | devname | admin | logdir | heartbeat | repairBin | testDir
  deriving DecidableEq

inductive ListVar where
  | trBinList | fileList | targetList | pidfileList | ifaceList | tempList
  deriving DecidableEq

inductive Var where
  | int (v : IntVar)
  | str (v : StrVar)
  | list (v : ListVar)
  deriving DecidableEq

/-- A `char *` may be NULL. -/
abbrev Var.Val : Var → Type
  | .int _ => Int
  | .str _ => Option CString
  | .list _ => List ListEntry

abbrev Globals := Store Var.Val

namespace Globals

def setInt (g : Globals) (v : IntVar) (n : Int) : Globals := Function.update g (.int v) n

def setStr (g : Globals) (v : StrVar) (s : Option CString) : Globals :=
  Function.update g (.str v) s

def setList (g : Globals) (v : ListVar) (l : List ListEntry) : Globals :=
  Function.update g (.list v) l

end Globals

def timerMargin : Int := 60

def enumNo : Int := 0
def enumYes : Int := 1
def enumAuto : Int := 2

/-- The values before the file is read, without a built-in test directory. -/
def defaults : Globals
  | .int .tint => 1
  | .int .logtick => 1
  | .int .ticker => 1
  | .int .schedprio => 1
  | .int .maxtemp => 90
  | .int .pingcount => 3
  | .int .tempPoweroff => 1
  | .int .sigtermDelay => 5
  | .int .repairMax => 1
  | .int .testTimeout => timerMargin
  | .int .repairTimeout => timerMargin
  | .int .devTimeout => timerMargin
  | .int .retryTimeout => timerMargin
  | .int .hbstamps => 300
  | .int .refreshUseSettimeout => enumAuto
  | .int _ => 0
  | .str .admin => some "root".toList
  | .str .logdir => some "/var/log/watchdog".toList
  | .str _ => none
  | .list _ => []

/-! ## The options -/

def yesNoList : List (CString × Int) := [("no".toList, 0), ("yes".toList, 1)]

def ynAutoList : List (CString × Int) :=
  [("no".toList, enumNo), ("yes".toList, enumYes), ("auto".toList, enumAuto)]

/-- The branches: a `READ_*` into a variable, and the two that do more. -/
inductive Target where
  | list (v : ListVar)
  | int (v : IntVar)
  | string (v : StrVar)
  | yesNo (v : IntVar)
  | ynAuto (v : IntVar)
  | change
  | logtick
  deriving DecidableEq

/-- The last entry of the list, if there is one. -/
def setMtime (itmp : Int) (list : List ListEntry) : List ListEntry :=
  match list.getLast? with
  | none => list
  | some ptr => list.dropLast ++ [{ ptr with mtime := itmp }]

/-- The branch of the option `name`: `none` when `arg` is another key. -/
def Target.read (target : Target) (name arg val : CString) (g : Globals) : Option Globals :=
  match target with
  | .list v => (readListFunc arg val name 0 (g (.list v))).map (g.setList v)
  | .int v => (readIntFunc arg val name 0 0 (g (.int v))).map (g.setInt v)
  | .string v => (readStringFunc arg val name .allowBlank (g (.str v))).map (g.setStr v)
  | .yesNo v => (readEnumeratedFunc arg val name yesNoList (g (.int v))).map (g.setInt v)
  | .ynAuto v => (readEnumeratedFunc arg val name ynAutoList (g (.int v))).map (g.setInt v)
  | .change =>
    -- `itmp` is 0 unless the value is a number.
    (readIntFunc arg val name 0 0 0).map fun itmp =>
      g.setList .fileList (setMtime itmp (g (.list .fileList)))
  | .logtick =>
    (readIntFunc arg val name 0 0 (g (.int .logtick))).map fun n =>
      (g.setInt .logtick n).setInt .ticker n

/-- The chain of branches, in the order they are tried. -/
def options : List (CString × Target) := [
  ("file".toList, .list .fileList),
  ("change".toList, .change),
  ("pidfile".toList, .list .pidfileList),
  ("ping-count".toList, .int .pingcount),
  ("ping".toList, .list .targetList),
  ("interface".toList, .list .ifaceList),
  ("realtime".toList, .yesNo .realtime),
  ("priority".toList, .int .schedprio),
  ("repair-binary".toList, .string .repairBin),
  ("repair-timeout".toList, .int .repairTimeout),
  ("test-binary".toList, .list .trBinList),
  ("test-timeout".toList, .int .testTimeout),
  ("heartbeat-file".toList, .string .heartbeat),
  ("heartbeat-stamps".toList, .int .hbstamps),
  ("admin".toList, .string .admin),
  ("interval".toList, .int .tint),
  ("logtick".toList, .logtick),
  ("watchdog-device".toList, .string .devname),
  ("watchdog-refresh-use-settimeout".toList, .ynAuto .refreshUseSettimeout),
  ("watchdog-timeout".toList, .int .devTimeout),
  ("temperature-sensor".toList, .list .tempList),
  ("max-temperature".toList, .int .maxtemp),
  ("max-load-1".toList, .int .maxload1),
  ("max-load-5".toList, .int .maxload5),
  ("max-load-15".toList, .int .maxload15),
  ("min-memory".toList, .int .minpages),
  ("allocatable-memory".toList, .int .minalloc),
  ("log-dir".toList, .string .logdir),
  ("test-directory".toList, .string .testDir),
  ("softboot-option".toList, .yesNo .softboot),
  ("temp-power-off".toList, .yesNo .tempPoweroff),
  ("sigterm-delay".toList, .int .sigtermDelay),
  ("retry-timeout".toList, .int .retryTimeout),
  ("repair-maximum".toList, .int .repairMax),
  ("verbose".toList, .yesNo .verbose)]

/-! ## Lines -/

/-- The lines `getline` returns: each up to its newline, and what is left at the end. -/
def getLines : CString → List CString
  | [] => []
  | c :: rest =>
    if c = '\n' then [c] :: getLines rest
    else
      match getLines rest with
      | [] => [[c]]
      | line :: lines => (c :: line) :: lines

/-- The string in a buffer: a line may hold a NUL, and what follows it is not seen. -/
def upToNul (line : CString) : CString := line.takeWhile fun c => c.toNat ≠ 0

/-- The key and the value of a line: none for a blank line, a comment and a line
without `=`. -/
def splitLine (line : CString) : Option (CString × CString) :=
  let arg := strStart (upToNul line)
  if arg = [] ∨ arg.head? = some '#' then none
  else if '=' ∈ arg then
    let val := strStart (arg.dropWhile (· ≠ '=')).tail
    some (trimWhite (arg.takeWhile (· ≠ '=')), trimWhite val)
  else none

/-- The first option whose name is the key; other keys are ignored. -/
def readOption (g : Globals) (arg val : CString) : Globals :=
  (options.findSome? fun o => o.2.read o.1 arg val g).getD g

def readLine (g : Globals) (line : CString) : Globals :=
  match splitLine line with
  | none => g
  | some (arg, val) => readOption g arg val

/-! ## The test directory -/

inductive FileType where
  | dir
  | reg
  | other
  deriving DecidableEq

/-- What `stat` tells: the type, and the owner's rights to execute and to read. -/
structure Stat where
  type : FileType
  xusr : Bool
  rusr : Bool

/-- `opendir` gives the names `readdir_r` goes through until it ends or fails. -/
structure ConfEnv where
  fclose : Bool
  stat : CString → Option Stat
  opendir : CString → Option (List CString)

def addTestBinary (env : ConfEnv) (path : CString) (list : List ListEntry) (dName : CString) :
    List ListEntry :=
  let fname := path ++ '/' :: dName
  if pathMax ≤ fname.length then list
  else
    match env.stat fname with
    | none => list
    | some sb =>
      if sb.type ≠ .reg then list
      else if dName.head? = some '.' then list
      else if !sb.xusr then list
      else if !sb.rusr then list
      else addList list fname 1

def addTestBinaries (env : ConfEnv) (path : Option CString) (list : List ListEntry) :
    List ListEntry :=
  match path with
  | none => list
  | some path =>
    match env.stat path with
    | none => list
    | some sb =>
      if sb.type ≠ .dir then list
      else
        match env.opendir path with
        | none => list
        | some names => names.foldl (addTestBinary env path) list

/-! ## The whole file -/

/-- The fatal errors. -/
inductive Fatal where
  | cannotOpen
  | cannotClose
  | interval (tint : Int)
  deriving DecidableEq

/-- The 5 and 15 minute limits, if they are not given. -/
def deriveLoads (g : Globals) : Globals :=
  let maxload1 : Int := g (.int .maxload1)
  let g :=
    if maxload1 ≠ 0 ∧ g (.int .maxload5) = (0 : Int) then
      g.setInt .maxload5 ((toInt (maxload1 * 3)).tdiv 4)
    else g
  if maxload1 ≠ 0 ∧ g (.int .maxload15) = (0 : Int) then g.setInt .maxload15 (maxload1.tdiv 2)
  else g

/-- What follows the last line. -/
def finish (env : ConfEnv) (g : Globals) : Except Fatal Globals :=
  if !env.fclose then .error .cannotClose
  else
    let g := g.setList .trBinList (addTestBinaries env (g (.str .testDir)) (g (.list .trBinList)))
    let tint : Int := g (.int .tint)
    if tint ≤ 0 then .error (.interval tint) else .ok (deriveLoads g)

/-- The two limits are all that is computed. -/
theorem deriveLoads_frame (g : Globals) {v : Var} (h₅ : v ≠ .int .maxload5)
    (h₁₅ : v ≠ .int .maxload15) : deriveLoads g v = g v := by
  unfold deriveLoads
  split <;> split <;> simp [Globals.setInt, h₅, h₁₅]

/-- The interval is positive, and the rest is the test directory and the limits. -/
theorem finish_ok {env : ConfEnv} {g g' : Globals} (h : finish env g = .ok g') :
    0 < (g (.int .tint) : Int) ∧
    g' = deriveLoads (g.setList .trBinList
      (addTestBinaries env (g (.str .testDir)) (g (.list .trBinList)))) := by
  unfold finish at h
  split at h
  · cases h
  dsimp only at h
  split at h
  · cases h
  · next hpos => exact ⟨Int.not_le.1 hpos, (Except.ok.inj h).symm⟩

/-- What comes after the last line leaves all other variables alone. -/
theorem finish_frame {env : ConfEnv} {g g' : Globals} (h : finish env g = .ok g') {v : Var}
    (h₅ : v ≠ .int .maxload5) (h₁₅ : v ≠ .int .maxload15) (hbin : v ≠ .list .trBinList) :
    g' v = g v := by
  obtain ⟨-, rfl⟩ := finish_ok h
  rw [deriveLoads_frame _ h₅ h₁₅, Globals.setList, Function.update_of_ne hbin]

def readConfig (env : ConfEnv) (g : Globals) (configfile : Option CString) : Except Fatal Globals :=
  let g := (g.setInt .maxload15 0).setInt .maxload5 0
  match configfile with
  | none => .error .cannotOpen
  | some text => finish env (Runs.run readLine g (getLines text))

end Watchdog
