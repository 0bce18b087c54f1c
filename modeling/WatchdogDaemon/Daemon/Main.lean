import WatchdogDaemon.Interval
import WatchdogDaemon.Lib.Monitor
import WatchdogDaemon.NoEntry
import WatchdogDaemon.Repair

/- The daemon from its start to its end: `main` of `watchdog.c`, with `terminate` of
   `shutdown.c`.

   `main` reads the configuration, sets itself up, and goes through its checks cycle after
   cycle until a SIGTERM or `--loop-exit` ends it; a check that fails for good leads to
   `do_shutdown` instead. The model is a call tree: what it calls are the checks, the refresh
   of the device, the clock, the repair program and the pauses, each answered in any way, and
   after any time. The functions behind the calls have modules of their own; `wd_action` and
   `repair` are those functions, run in the tree.

   A loop that need not end is cut off after a number of cycles. A cut-off run is told from
   one that ended by `State.running`, and what is proved for every number is proved for every
   run.

   Correspondence (C ↔ Lean):
     the options                            ↔ `Options`
     `sync_system`, `check_*`               ↔ `Call.check`
     `check_bin (NULL, test_timeout, 0)`    ↔ `Call.gather`
     `repair`, with what it does meanwhile  ↔ `repairSys`
     `wd_action` and `do_shutdown`          ↔ `action`
     `do_check`                             ↔ `doCheck`
     the body of the loop                   ↔ `cycle`, `logTick`, `countExit`
     the loop                               ↔ `mainLoop`
     `main`, lines 449-510                  ↔ `startGlobals`, `startUp` and what it calls
     `close_all`, `terminate`               ↔ `closeAll`, `terminate`
     `main`                                 ↔ `main`
   The parsing of the options is left out, and so are the messages, but for the two of the loop
   and that of `terminate`: what another message takes is counted with the call before it. The
   clock is read before every `wd_action`, also where the source does not need it. Of the two
   processes after a `fork`, this is the parent. `ticker` is an `int` and wraps; `count`, a
   `long`, is the number of cycles. -/
namespace Watchdog.Daemon
open CallTree

/-! ## What is called -/

inductive Call where
  -- the start
  | mkdirLogdir
  | openNetcheck
  | xcallocFilename
  | wdDaemon
  | writePidFile
  | openWatchdog
  | openTempcheck
  | openHeartbeat
  | openLoadcheck
  | openMemcheck
  | lockOurMemory
  -- the loop
  | running
  | keepAlive
  | check (source : Source)
  | time
  | fork
  | waitpid (pid : Int) (block : Bool)
  | sleep (sec : Int)
  | usleep (usec : Int)
  | gather
  | stillAlive (count : Int)
  | loopExit
  | doShutdown (code : Int)
  -- the end
  | stopping
  | unlockOurMemory
  | closeWatchdog
  | closeLoadcheck
  | closeMemcheck
  | closeTempcheck
  | closeHeartbeat
  | freeProcess
  | removePidFile
  | closeLogging
  deriving DecidableEq

/-- What a call returns. At the start `false` is a failure that ends the process, in the
call or after it, and `open_netcheck` tells the status it ends with; `running` is `false`
once a SIGTERM has come. -/
def Value : Call → Type
  | .mkdirLogdir => Bool
  | .openNetcheck => Option Int
  | .xcallocFilename => Bool
  | .wdDaemon => Bool
  | .writePidFile => Bool
  | .openWatchdog => Bool
  | .openHeartbeat => Bool
  | .running => Bool
  | .keepAlive => Int
  | .check _ => Int
  | .time => Int
  | .fork => Except Errno Int
  | .waitpid _ _ => Wait
  | _ => Unit

/-- The value, and the microseconds the call took. -/
abbrev Answer (q : Call) : Type := Value q × Nat

abbrev P := Prog Call Answer

def perform (q : Call) : P (Value q) := do
  let r ← Prog.ask q
  return r.1

/-! ## One result -/

/-- The options of the command line. -/
structure Options where
  force : Bool := false
  foreground : Bool := false
  softboot : Bool := false
  noAct : Bool := false
  verbose : Bool := false
  countMax : Int := 0

/-- The settings `wd_action` and `repair` read. -/
def config (o : Options) (g : Globals) : Config where
  repairMax := g (.int .repairMax)
  testTimeout := g (.int .testTimeout)
  repairTimeout := g (.int .repairTimeout)
  retryTimeout := g (.int .retryTimeout)
  softboot := (g (.int .softboot) : Int) ≠ 0
  noAct := o.noAct

/-- The parent's calls in `repair`: a poll sleeps for a second and refreshes the device. -/
def repairSys : RepairSys P where
  fork := perform .fork
  waitpid pid block _ := do
    if block then
      perform (.waitpid pid true)
    else
      perform (.sleep 1)
      let _ ← perform .keepAlive
      perform (.waitpid pid false)

section Loop
variable (o : Options) (g : Globals)

/-- `wd_action` on a result; `do_shutdown` does not come back. -/
def action (act : Option Entry) (result : Int) : P (Option Entry) := do
  let now ← perform .time
  let out ← wdAction (fun rbinary result _ _ => repair repairSys (config o g) rbinary result)
    (config o g) now result (g (.str .repairBin)) act
  match out.request with
  | some (.doShutdown code) =>
    perform (.doShutdown code)
    .exit 1
  | _ => return out.act

def refresh : P Unit := do
  let result ← perform .keepAlive
  let _ ← action o g none result

def doCheck (source : Source) (acts : List Entry) : P (List Entry) := do
  let result ← perform (.check source)
  let act ← action o g (source.act acts) result
  refresh o g
  return source.put acts act

/-! ## The loop -/

structure State where
  acts : List Entry
  ticker : Int
  count : Int := 0
  running : Bool := true

def verbose : Bool := (g (.int .verbose) : Int) ≠ 0

/-- The message every `logtick` cycles. -/
def logTick (s : State) : P State := do
  let logtick : Int := g (.int .logtick)
  if verbose g && logtick ≠ 0 then
    if toInt (s.ticker - 1) = 0 then
      perform (.stillAlive s.count)
      return { s with ticker := logtick }
    else
      return { s with ticker := toInt (s.ticker - 1) }
  else
    return s

/-- The end of the loop that `--loop-exit` asks for. -/
def countExit (s : State) : P State := do
  if 0 < o.countMax && o.countMax ≤ s.count then
    perform .loopExit
    return { s with running := false }
  else
    return s

def cycle (s : State) : P State := do
  refresh o g
  let acts ← (doChecks s.acts.length).foldlM (fun acts source => doCheck o g source acts) s.acts
  -- In case test binaries return quickly; then the rest of the interval.
  perform (.usleep (useconds swait))
  perform .gather
  perform (.usleep (useconds (twait (g (.int .tint)))))
  let s ← logTick g { s with acts, count := s.count + 1 }
  countExit o s

/-- At most so many cycles of the loop. -/
def mainLoop : Nat → State → P State
  | 0, s => return s
  | cycles + 1, s =>
    if s.running then do
      let running : Bool ← perform .running
      if running then
        let s ← cycle o g s
        mainLoop cycles s
      else
        return { s with running := false }
    else return s

/-! ## The start and the end -/

def exUsage : Int := 1
def exSyserr : Int := 2

/-- The globals before the file is read. -/
def startGlobals : Globals :=
  (defaults.setInt .softboot (if o.softboot then 1 else 0)).setInt .verbose (if o.verbose then 1 else 0)

/-- The entries of all lists, in the order in which the loop goes through them. -/
def entries : List Entry :=
  ([ListVar.tempList, .fileList, .pidfileList, .ifaceList, .targetList, .trBinList].flatMap
    fun v => (g (.list v) : List ListEntry)).map (·.toEntry)

/-- A call whose failure ends the process. -/
def insist (code : Int) (p : P Bool) : P Unit := do
  if ← p then pure () else .exit code

theorem triple_insist {μ : Type} {M : Monitor Call Answer μ} {E I J : μ → Prop} {p : P Bool} (code : Int)
    (hp : Triple M E I p J) (hexit : ∀ m, J m → E m) : Triple M E I (insist code p) J := by
  apply hp.bind
  intro ok
  exact Triple.ite (fun _ _ hm => hm) fun _ m hm => hexit m hm

def openTargets : P Unit := do
  if (g (.list .targetList) : List ListEntry) ≠ [] then
    match ← perform .openNetcheck with
    | none => return
    | some code => .exit code

def daemonize : P Unit := do
  if !o.foreground then
    insist exSyserr (perform .wdDaemon)

/-- Tuck my process id away. -/
def takePidFile : P Unit := do
  if !o.force then
    insist exUsage (perform .writePidFile)

/-- Without a device the daemon goes on. -/
def openDevice : P Unit := do
  if !o.noAct then
    let _ ← perform .openWatchdog

def startUp : P Unit := do
  insist exSyserr (perform .mkdirLogdir)
  openTargets g
  insist exSyserr (perform .xcallocFilename)
  daemonize o
  takePidFile o
  openDevice o
  perform .openTempcheck
  insist exSyserr (perform .openHeartbeat)
  perform .openLoadcheck
  perform .openMemcheck
  perform .lockOurMemory

def closeAll : P Unit := do
  perform .closeWatchdog
  perform .closeLoadcheck
  perform .closeMemcheck
  perform .closeTempcheck
  perform .closeHeartbeat
  perform .freeProcess

def terminate (ecode : Int) : P Unit := do
  perform .stopping
  perform .unlockOurMemory
  closeAll
  perform .removePidFile
  perform .closeLogging
  perform (.usleep 100000)
  .exit ecode

/-- With `--softboot` there is no waiting for a second try. -/
def zeroRetry : Globals :=
  if (g (.int .softboot) : Int) ≠ 0 then g.setInt .retryTimeout 0 else g

/-- `main` once it has its configuration. -/
def run (cycles : Nat) : P Unit := do
  startUp o g
  let s ← mainLoop o g cycles { acts := entries g, ticker := g (.int .ticker) }
  if !s.running then
    terminate 0

end Loop

def main (env : ConfEnv) (minload : Int) (o : Options) (configfile : Option CString) (cycles : Nat) : P Unit := do
  match readConfig env (startGlobals o) configfile with
  | .error _ => .exit exSyserr
  | .ok g =>
    let g := zeroRetry g
    if !o.force && !checkParameters minload g then
      .exit exUsage
    else
      run o g cycles

end Watchdog.Daemon
