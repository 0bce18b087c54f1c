import WatchdogDaemon.Config.ReadConfig

/- The watchdog device: `keep_alive.c`.

   The device has a time-out, which `set_watchdog_timeout` sets. Some drivers are refreshed
   by setting the time-out again, and `keep_alive` does so with the value it remembers in
   `timeout_used`. That is the value which was last asked for: it is stored before the
   device is asked, and neither a refusal nor the value that `try_other_times` then finds
   changes it. So after a refusal every refresh asks for the refused value once more.

   A device is the set of time-outs its driver accepts, and the one that is set. A run is
   any sequence of requests and refreshes after `open_watchdog`.

   What is proved: `refresh_agrees_iff` — every refresh of a run succeeds and leaves the
   time-out as it is exactly when, at each of them, the device accepts the time-out last
   asked for (or none was and the driver's own default is `TIMER_MARGIN`).

   Correspondence (C ↔ Lean):
     `watchdog_fd`, `timeout_used`,
     `Refresh_using_ioctl`                  ↔ `State` (its first three fields)
     `WDIOC_SETTIMEOUT` of the driver       ↔ `ioctlSetTimeout`
     `try_other_times`                      ↔ `tryOtherTimes`
     `set_watchdog_timeout`                 ↔ `setWatchdogTimeout`
     `keep_alive`                           ↔ `keepAlive`
     `open_watchdog`, `close_watchdog`      ↔ `openWatchdog`, `closeWatchdog`
   Plain writes to the device succeed. -/
namespace Watchdog.KeepAlive

/-! ## The device -/

/-- The time-outs a driver accepts, the one it starts with, and what it says it is. -/
structure Device where
  accepts : Int → Bool
  default : Int
  accepts_default : accepts default = true
  identity : Except Errno CString

/-- The static variables of `keep_alive.c`, and the time-out of the device. -/
structure State where
  watchdogFd : Bool := false
  timeoutUsed : Int := timerMargin
  refreshUsingIoctl : Bool := false
  timeout : Int

variable (dev : Device)

/-- Whether the driver takes the value, and the state with what it then uses. -/
def ioctlSetTimeout (s : State) (t : Int) : Option Errno × State :=
  if dev.accepts t then (none, { s with timeout := t }) else (some ⟨einval, by decide⟩, s)

/-! ## The functions -/

def tryOtherTimes (timeout : Int) : List Int → State → Int × State
  | [], s => (-1, s)
  | tmp :: rest, s =>
    if tmp > timeout then
      match ioctlSetTimeout dev s tmp with
      | (none, s) => (0, s)
      | (some _, s) => tryOtherTimes timeout rest s
    else tryOtherTimes timeout rest s

def setWatchdogTimeout (s : State) (timeout : Int) : Int × State :=
  if s.watchdogFd then
    if timeout > 0 then
      match ioctlSetTimeout dev { s with timeoutUsed := timeout } timeout with
      | (some _, s) => (-1, (tryOtherTimes dev timeout [3, 5, 10] s).2)
      | (none, s) => (0, s)
    else
      -- Only a query, which succeeds.
      (0, s)
  else (-1, s)

def keepAlive (s : State) : Int × State :=
  if s.watchdogFd then
    if s.refreshUsingIoctl then
      match ioctlSetTimeout dev s s.timeoutUsed with
      | (some err, s) => (err, s)
      | (none, s) => (enoerr, s)
    else (enoerr, s)
  else (enoerr, s)

def closeWatchdog (s : State) : State := { s with watchdogFd := false }

/-- The `switch` of `open_watchdog`. -/
def usesIoctl (refreshUseSettimeout : Int) (ident : CString) : Bool :=
  if refreshUseSettimeout = enumNo then false
  else if refreshUseSettimeout = enumYes then true
  else if refreshUseSettimeout = enumAuto then "IT87 WDT".toList = ident
  else false

/-- `opens` is whether the device can be opened. -/
def openWatchdog (refreshUseSettimeout : Int) (opens : Bool) (s : State) (name : Option CString)
    (timeout : Int) : Int × State :=
  let s := closeWatchdog s
  let (rv, s, ident) : Int × State × CString :=
    match name with
    | none => (0, s, [])
    | some _ =>
      if opens then
        let (_, s) := setWatchdogTimeout dev { s with watchdogFd := true } timeout
        (0, s, dev.identity.toOption.getD [])
      else (-1, s, [])
  (rv, { s with refreshUsingIoctl := usesIoctl refreshUseSettimeout ident })

/-! ## Runs -/

/-- A call after `open_watchdog`; the time-outs asked for are positive. -/
inductive Call where
  | set (timeout : { t : Int // 0 < t })
  | refresh

def step (s : State) : Call → State
  | .set t => (setWatchdogTimeout dev s t.1).2
  | .refresh => (keepAlive dev s).2

/-- The last time-out that was asked for, after one more call. -/
def lastAfter (last : Option Int) : Call → Option Int
  | .set t => some t.1
  | .refresh => last

/-- The time-out `open_watchdog` asks for; it only queries the device if it has none. -/
def openRequest (timeout : Int) : Option Int := if timeout > 0 then some timeout else none

/-! ## What the calls change -/

/-- Trying other values touches the device alone. -/
theorem tryOtherTimes_statics (timeout : Int) (values : List Int) (s : State) :
    ∃ t, (tryOtherTimes dev timeout values s).2 = { s with timeout := t } := by
  induction values with
  | nil => exact ⟨s.timeout, rfl⟩
  | cons tmp rest ih =>
    rw [tryOtherTimes, ioctlSetTimeout]
    by_cases haccept : dev.accepts tmp = true
    · rw [if_pos haccept]
      split
      · exact ⟨tmp, rfl⟩
      · exact ih
    · rw [if_neg haccept]
      split <;> exact ih

/-- A request is remembered, whatever becomes of it. -/
theorem setWatchdogTimeout_pos {s : State} (hfd : s.watchdogFd = true) {t : Int} (ht : 0 < t) :
    ∃ now, (setWatchdogTimeout dev s t).2 = { s with timeoutUsed := t, timeout := now } ∧
      (dev.accepts t = true → now = t) := by
  rw [setWatchdogTimeout, if_pos hfd, if_pos ht, ioctlSetTimeout]
  by_cases haccept : dev.accepts t = true
  · rw [if_pos haccept]
    exact ⟨t, rfl, fun _ => rfl⟩
  · rw [if_neg haccept]
    obtain ⟨now, hnow⟩ := tryOtherTimes_statics dev t [3, 5, 10]
      { s with timeoutUsed := t }
    exact ⟨now, hnow, fun h => absurd h haccept⟩

/-- A refresh by `ioctl` is right when the driver takes the remembered value, and that is
the one it uses. -/
theorem keepAlive_iff {s : State} (hfd : s.watchdogFd = true) (hioctl : s.refreshUsingIoctl = true) :
    (keepAlive dev s).1 = enoerr ∧ (keepAlive dev s).2.timeout = s.timeout ↔
      dev.accepts s.timeoutUsed = true ∧ s.timeoutUsed = s.timeout := by
  rw [keepAlive, if_pos hfd, if_pos hioctl, ioctlSetTimeout]
  by_cases haccept : dev.accepts s.timeoutUsed = true
  · rw [if_pos haccept]
    simp [haccept]
  · have hcode : einval ≠ enoerr := by decide
    rw [if_neg haccept]
    simp [haccept, hcode]

/-- A refresh changes nothing but the time-out, and that only to the remembered one. -/
theorem keepAlive_state (s : State) :
    (keepAlive dev s).2 = s ∨ (keepAlive dev s).2 = { s with timeout := s.timeoutUsed } := by
  rw [keepAlive, ioctlSetTimeout]
  by_cases haccept : dev.accepts s.timeoutUsed = true
  · rw [if_pos haccept]
    split
    · split
      · exact .inr rfl
      · exact .inl rfl
    · exact .inl rfl
  · rw [if_neg haccept]
    split
    · split <;> exact .inl rfl
    · exact .inl rfl

variable {dev}

/-! ## What is remembered -/

/-- The open device is refreshed by `ioctl`, with the last request; and the time-out is the
last request if the driver takes it. -/
structure Agrees (dev : Device) (s : State) (last : Option Int) : Prop where
  fd : s.watchdogFd = true
  ioctl : s.refreshUsingIoctl = true
  used : s.timeoutUsed = last.getD timerMargin
  kept : ∀ t, last = some t → dev.accepts t = true → s.timeout = t
  unset : last = none → dev.default = timerMargin → s.timeout = timerMargin

theorem Agrees.set {s : State} {last : Option Int} (h : Agrees dev s last) (t : { t : Int // 0 < t }) :
    Agrees dev (step dev s (.set t)) (some t.1) := by
  obtain ⟨now, hnow, hkept⟩ := setWatchdogTimeout_pos dev h.fd t.2
  rw [step, hnow]
  constructor
  case fd => exact h.fd
  case ioctl => exact h.ioctl
  case used => rfl
  case kept =>
    intro u hu haccept
    obtain rfl := Option.some.inj hu
    exact hkept haccept
  case unset =>
    intro hnone
    exact absurd hnone (by simp)

theorem Agrees.refresh {s : State} {last : Option Int} (h : Agrees dev s last) :
    Agrees dev (step dev s .refresh) last := by
  rw [step]
  obtain hsame | hset := keepAlive_state dev s
  · rw [hsame]
    exact h
  · rw [hset]
    constructor
    case fd => exact h.fd
    case ioctl => exact h.ioctl
    case used => exact h.used
    case kept =>
      intro t ht _
      show s.timeoutUsed = t
      rw [h.used, ht, Option.getD_some]
    case unset =>
      intro hnone _
      show s.timeoutUsed = timerMargin
      rw [h.used, hnone, Option.getD_none]

theorem Agrees.run {s : State} {last : Option Int} (h : Agrees dev s last) (cs : List Call) :
    Agrees dev (Runs.run (step dev) s cs) (cs.foldl lastAfter last) := by
  induction cs generalizing s last with
  | nil => exact h
  | cons c cs ih =>
    cases c with
    | set t => exact ih (h.set t)
    | refresh => exact ih h.refresh

/-- Nothing was asked for: all calls were refreshes. -/
theorem lastAfter_none {cs : List Call} {last : Option Int} (h : cs.foldl lastAfter last = none) :
    last = none ∧ ∀ c ∈ cs, c = .refresh := by
  induction cs generalizing last with
  | nil => exact ⟨h, by simp⟩
  | cons c cs ih =>
    obtain ⟨hlast, hcs⟩ := ih h
    cases c with
    | set t => exact absurd hlast (by simp [lastAfter])
    | refresh => exact ⟨hlast, by simpa using hcs⟩

/-! ## After `open_watchdog` -/

/-- The state after the program opened its device. -/
def opened (dev : Device) (refreshUseSettimeout : Int) (name : CString) (timeout : Int) : State :=
  (openWatchdog dev refreshUseSettimeout true { timeout := dev.default } (some name) timeout).2

theorem opened_query (dev : Device) (refreshUseSettimeout : Int) (name : CString) {timeout : Int}
    (h : openRequest timeout = none) :
    (opened dev refreshUseSettimeout name timeout).timeout = dev.default ∧
      (opened dev refreshUseSettimeout name timeout).timeoutUsed = timerMargin := by
  have hle : ¬ timeout > 0 := by
    intro hpos
    rw [openRequest, if_pos hpos] at h
    exact absurd h (by simp)
  simp [opened, openWatchdog, setWatchdogTimeout, hle, closeWatchdog]

theorem agrees_opened {refreshUseSettimeout : Int} {name : CString} {timeout : Int}
    (hioctl : (opened dev refreshUseSettimeout name timeout).refreshUsingIoctl = true) :
    Agrees dev (opened dev refreshUseSettimeout name timeout) (openRequest timeout) := by
  by_cases hpos : 0 < timeout
  · obtain ⟨now, hnow, hkept⟩ := setWatchdogTimeout_pos dev
      (s := { watchdogFd := true, timeout := dev.default }) rfl hpos
    have hrequest : openRequest timeout = some timeout := if_pos hpos
    have hstate : opened dev refreshUseSettimeout name timeout =
        { watchdogFd := true, timeoutUsed := timeout,
          refreshUsingIoctl := usesIoctl refreshUseSettimeout (dev.identity.toOption.getD []),
          timeout := now } := by
      simp only [opened, openWatchdog, closeWatchdog, if_true, hnow]
    rw [hstate] at hioctl ⊢
    rw [hrequest]
    constructor
    case fd => rfl
    case ioctl => exact hioctl
    case used => rfl
    case kept =>
      intro t ht haccept
      obtain rfl := Option.some.inj ht
      exact hkept haccept
    case unset => exact fun h => absurd h (by simp)
  · have hrequest : openRequest timeout = none := if_neg hpos
    obtain ⟨hdefault, hused⟩ := opened_query dev refreshUseSettimeout name hrequest
    rw [hrequest]
    constructor
    case fd => simp [opened, openWatchdog, setWatchdogTimeout, hpos]
    case ioctl => exact hioctl
    case used => exact hused
    case kept => exact fun t h => absurd h (by simp)
    case unset =>
      intro _ hmargin
      rw [hdefault, hmargin]

/-- The driver accepts the time-out last asked for; if there was none, its default is the
one the daemon assumes. -/
def InForce (dev : Device) : Option Int → Prop
  | some t => dev.accepts t = true
  | none => dev.default = timerMargin

/-- **When refreshing by `ioctl` agrees with the time-out that is set.** In every sequence
of requests and refreshes after `open_watchdog`, every refresh answers `ENOERR` and leaves
the device's time-out as it was exactly when the driver accepts the last request before
each of them. -/
theorem refresh_agrees_iff (dev : Device) (refreshUseSettimeout : Int) (name : CString)
    (timeout : Int)
    (hioctl : (opened dev refreshUseSettimeout name timeout).refreshUsingIoctl = true)
    (cs : List Call) :
    (∀ pre post, cs = pre ++ .refresh :: post →
      let s := Runs.run (step dev) (opened dev refreshUseSettimeout name timeout) pre
      (keepAlive dev s).1 = enoerr ∧ (keepAlive dev s).2.timeout = s.timeout) ↔
    ∀ pre post, cs = pre ++ .refresh :: post →
      InForce dev (pre.foldl lastAfter (openRequest timeout)) := by
  have hagrees := fun pre => (agrees_opened hioctl).run pre
  constructor
  · intro h pre post hcs
    have hpre := hagrees pre
    have hkeep := (keepAlive_iff dev hpre.fd hpre.ioctl).1 (h pre post hcs)
    rw [hpre.used] at hkeep
    cases hlast : pre.foldl lastAfter (openRequest timeout) with
    | some t =>
      rw [hlast] at hkeep
      exact hkeep.1
    | none =>
      -- The first call of all was a refresh, which met the driver's default.
      obtain ⟨hopen, hrefresh⟩ := lastAfter_none hlast
      obtain ⟨rest, hfirst⟩ : ∃ rest, cs = .refresh :: rest := by
        cases pre with
        | nil => exact ⟨post, hcs⟩
        | cons c pre =>
          rw [hrefresh c List.mem_cons_self] at hcs
          exact ⟨_, hcs⟩
      have hnil := hagrees []
      have hkeep := (keepAlive_iff dev hnil.fd hnil.ioctl).1 (h [] rest hfirst)
      obtain ⟨hdefault, hused⟩ := opened_query dev refreshUseSettimeout name hopen
      exact (hdefault.symm.trans hkeep.2.symm).trans hused
  · intro h pre post hcs s
    have hpre := hagrees pre
    have hforce := h pre post hcs
    refine (keepAlive_iff dev hpre.fd hpre.ioctl).2 ?_
    rw [hpre.used]
    cases hlast : pre.foldl lastAfter (openRequest timeout) with
    | some t =>
      rw [hlast] at hforce
      exact ⟨hforce, (hpre.kept t hlast hforce).symm⟩
    | none =>
      rw [hlast] at hforce
      have hforce : dev.default = timerMargin := hforce
      refine ⟨?_, (hpre.unset hlast hforce).symm⟩
      rw [Option.getD_none, ← hforce]
      exact dev.accepts_default

/-- A driver that takes 5 and 60 seconds is asked for 1: `try_other_times` finds 5, and the
refresh asks for 1 again. -/
theorem refresh_refused :
    let dev : Device := ⟨fun t => t = 5 ∨ t = 60, 60, by decide, .ok "IT87 WDT".toList⟩
    let s := Runs.run (step dev) (opened dev enumAuto "/dev/watchdog".toList 60) [.set ⟨1, by decide⟩]
    s.refreshUsingIoctl = true ∧ s.timeout = 5 ∧ (keepAlive dev s).1 = einval ∧ einval ≠ enoerr := by
  decide +kernel

/-- A driver that takes what it is asked for. -/
theorem refresh_agrees_thirty :
    let dev : Device := ⟨fun t => 3 ≤ t, 60, by decide, .ok "IT87 WDT".toList⟩
    let s := Runs.run (step dev) (opened dev enumAuto "/dev/watchdog".toList 60) [.set ⟨30, by decide⟩]
    (keepAlive dev s).1 = enoerr ∧ (keepAlive dev s).2.timeout = s.timeout := by
  intro dev s
  refine (refresh_agrees_iff dev enumAuto "/dev/watchdog".toList 60 (by decide +kernel)
    [.set ⟨30, by decide⟩, .refresh]).2 ?_ [.set ⟨30, by decide⟩] [] rfl
  intro pre post hcs
  obtain _ | ⟨c, _ | ⟨d, pre⟩⟩ := pre
  · simp at hcs
  · rw [List.singleton_append, List.cons.injEq] at hcs
    rw [← hcs.1]
    show decide ((3 : Int) ≤ 30) = true
    decide
  · simp at hcs

end Watchdog.KeepAlive
