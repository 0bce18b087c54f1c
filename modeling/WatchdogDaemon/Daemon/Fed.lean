import WatchdogDaemon.Daemon.Main

/- The watchdog device in the main loop.

   The device resets the machine when it is not refreshed for `dev_timeout` seconds. The loop
   refreshes it once at its head and after every check, and while a repair program runs once a
   second; `check_parameters` sees to it that the interval is shorter than the time-out by
   more than a second. What a check may take is not bounded by anything in the daemon.

   What is proved: `never_starved` — for every configuration the daemon accepts without
   `--force`, with a positive `dev_timeout` and a positive `repair_timeout`, every set of results
   and any number of cycles: as long as no check takes longer than the interval and no other
   call delays the loop by more than a sixth of a second, less than `dev_timeout` seconds go by
   between two refreshes. A repair program has to have a time-out, for without one `repair`
   waits for it without a refresh; and a `dev_timeout` of the least `int` passes
   `check_parameters`, which takes 1 from it. -/
namespace Watchdog.Daemon
open CallTree

/-! ## Time -/

/-- The microseconds a pause is for. -/
def pause : Call → Nat
  | .sleep sec => sec.toNat * 1000000
  | .usleep usec => usec.toNat
  | _ => 0

/-- A check takes `slow` microseconds at most, and any other call `lag` more than its pause.
Nothing bounds what is called before the device is open, the wait for a child without
`WNOHANG`, and the shutdown, which sees to the device itself. -/
def Timely (slow lag : Nat) : Call → Nat → Prop
  | .mkdirLogdir, _ => True
  | .openNetcheck, _ => True
  | .xcallocFilename, _ => True
  | .wdDaemon, _ => True
  | .writePidFile, _ => True
  | .waitpid _ true, _ => True
  | .doShutdown _, _ => True
  | .check _, t => t ≤ slow
  | q, t => t ≤ pause q + lag

/-- The time since the open device was refreshed, one call on. -/
def sinceAfter (since : Option Nat) (q : Call) (t : Nat) : Option Nat :=
  match q with
  | .openWatchdog => some t
  | .keepAlive => since.map fun _ => t
  | .closeWatchdog => none
  | _ => since.map (· + t)

/-- The time since the last refresh at the end of a trace; none while no device is open. -/
def sinceRefresh (tr : List (Sigma Answer)) : Option Nat :=
  tr.foldl (fun since e => sinceAfter since e.1 e.2.2) none

def fedMonitor (slow lag limit : Nat) : Monitor Call Answer (Option Nat) where
  next since q r := sinceAfter since q r.2
  ok since _ := ∀ t, since = some t → t < limit
  allows _ q r := Timely slow lag q r.2

/-- At most `a` microseconds since the last refresh. -/
def Within (a : Nat) (since : Option Nat) : Prop := ∀ t, since = some t → t ≤ a

theorem Within.mono {a b : Nat} (hab : a ≤ b) {since : Option Nat} (h : Within a since) : Within b since :=
  fun t ht => Nat.le_trans (h t ht) hab

theorem Within.lt {a limit : Nat} (ha : a < limit) {since : Option Nat} (h : Within a since) :
    ∀ t, since = some t → t < limit :=
  fun t ht => Nat.lt_of_le_of_lt (h t ht) ha

theorem Within.add {a d t : Nat} {since : Option Nat} (h : Within a since) (ht : t ≤ d) :
    Within (a + d) (since.map (· + t)) := by
  intro u hu
  obtain ⟨v, hv, rfl⟩ := Option.map_eq_some_iff.mp hu
  exact Nat.add_le_add (h v hv) ht

/-! ## One check -/

section Fed
variable {slow lag limit : Nat}

abbrev Feeds (slow lag limit : Nat) (a b : Nat) {α : Type} (p : P α) : Prop :=
  Triple (fedMonitor slow lag limit) (fun _ => True) (Within a) p (Within b)

/-- A call that does not touch the device: it takes its pause, and a little more. -/
theorem feeds_perform {q : Call} {a : Nat} (ha : a < limit)
    (hnext : ∀ since t, sinceAfter since q t = since.map (· + t))
    (htake : ∀ t, Timely slow lag q t → t ≤ pause q + lag) :
    Feeds slow lag limit a (a + (pause q + lag)) (perform q) := by
  intro since hsince
  refine ⟨hsince.lt ha, fun r hr => ?_⟩
  show Within (a + (pause q + lag)) (sinceAfter since q r.2)
  rw [hnext]
  exact hsince.add (htake r.2 hr)

/-- A call without a pause takes no more than the delay. -/
theorem timely_quick {t : Nat} (h : t ≤ 0 + lag) : t ≤ lag := by
  rwa [Nat.zero_add] at h

/-- One without a pause. -/
theorem feeds_quick {q : Call} {a : Nat} (ha : a < limit)
    (hnext : ∀ since t, sinceAfter since q t = since.map (· + t))
    (htake : ∀ {t}, Timely slow lag q t → t ≤ lag) : Feeds slow lag limit a (a + lag) (perform q) := by
  intro since hsince
  refine ⟨hsince.lt ha, fun r hr => ?_⟩
  show Within (a + lag) (sinceAfter since q r.2)
  rw [hnext]
  exact hsince.add (htake hr)

theorem feeds_check {source : Source} {a : Nat} (ha : a < limit) :
    Feeds slow lag limit a (a + slow) (perform (.check source)) :=
  fun _ hsince => ⟨hsince.lt ha, fun _ hr => hsince.add hr⟩

/-- A refresh. -/
theorem feeds_keepAlive {a : Nat} (ha : a < limit) : Feeds slow lag limit a lag (perform .keepAlive) := by
  intro since hsince
  refine ⟨hsince.lt ha, fun r hr => ?_⟩
  show Within lag (since.map fun _ => r.2)
  intro t ht
  obtain ⟨v, -, rfl⟩ := Option.map_eq_some_iff.mp ht
  have hr : r.2 ≤ pause .keepAlive + lag := hr
  rw [show pause .keepAlive = 0 from rfl, Nat.zero_add] at hr
  exact hr

/-- A poll of the repair program: a second asleep, a refresh, and a look. -/
theorem feeds_poll {a : Nat} (ha : a + 1000000 + lag < limit) (pid : Int) (n : Nat) :
    Feeds slow lag limit a (2 * lag) (repairSys.waitpid pid false n) := by
  have hsleep : Feeds slow lag limit a (a + (1000000 + lag)) (perform (.sleep 1)) :=
    feeds_perform (by omega) (fun _ _ => rfl) fun _ h => h
  have hwait : Feeds slow lag limit lag (lag + lag) (perform (.waitpid pid false)) :=
    feeds_quick (by omega) (fun _ _ => rfl) timely_quick
  apply hsleep.bind
  intro _
  apply (feeds_keepAlive (by omega)).bind
  intro _
  exact hwait.conseq (fun _ h => h) fun _ h => h.mono (by omega)

theorem feeds_pollRepair {a : Nat} (ha : a + 1000000 + lag < limit) (hlag : 2 * lag ≤ a) (pid : Int) :
    ∀ left n, Feeds slow lag limit a a (pollRepair (repairSys.waitpid pid false) left n)
  | 0, _ => fun _ h => h
  | left + 1, n => by
    have hpoll : Feeds slow lag limit a a (repairSys.waitpid pid false n) :=
      (feeds_poll ha pid n).conseq (fun _ h => h) fun _ h => h.mono hlag
    apply hpoll.bind
    intro answer
    cases answer with
    | running => exact feeds_pollRepair ha hlag pid left (n + 1)
    | reaped status => exact fun _ h => h
    | failed err => exact fun _ h => h

/-- `repair`, which has a time-out. -/
theorem feeds_repair {cfg : Config} (hcfg : 0 < cfg.repairTimeout) {a : Nat}
    (ha : a + 1000000 + 2 * lag < limit) (hlag : lag ≤ a) (rbinary : Option CString) (result : Int) :
    Feeds slow lag limit a (a + lag) (repair repairSys cfg rbinary result) := by
  have hfork : Feeds slow lag limit a (a + lag) (perform .fork) :=
    feeds_quick (by omega) (fun _ _ => rfl) timely_quick
  unfold repair
  apply Triple.ite
  · intro _ since hsince
    exact hsince.mono (by omega)
  · intro _
    apply hfork.bind
    intro child
    cases child with
    | error err => exact fun _ h => h
    | ok pid =>
      dsimp only
      rw [if_pos hcfg]
      apply (feeds_pollRepair (by omega) (by omega) pid _ 0).bind
      intro answer
      exact fun _ h => h

/-- `wd_action`: it takes no time but that of a repair, which refreshes the device. -/
theorem feeds_action {o : Options} {g : Globals} (hrepair : 0 < (config o g).repairTimeout) {a : Nat}
    (ha : a + 1000000 + 3 * lag < limit) (act : Option Entry) (result : Int) :
    Feeds slow lag limit a (a + 2 * lag) (action o g act result) := by
  have htime : Feeds slow lag limit a (a + lag) (perform .time) :=
    feeds_quick (by omega) (fun _ _ => rfl) timely_quick
  apply htime.bind
  intro (now : Int)
  have haction : Feeds slow lag limit (a + lag) (a + 2 * lag)
      (wdAction (fun rbinary result _ _ => repair repairSys (config o g) rbinary result)
        (config o g) now result (g (.str .repairBin)) act) := by
    rw [wdAction_eq]
    split
    · intro since hsince
      exact hsince.mono (by omega)
    · apply (feeds_repair hrepair (by omega) (by omega) _ _).bind
      intro answer since hsince
      exact hsince.mono (by omega)
  apply haction.bind
  intro out
  split
  · intro since hsince
    exact ⟨hsince.lt (by omega), fun _ _ => trivial⟩
  · exact fun _ h => h

theorem feeds_refresh {o : Options} {g : Globals} (hrepair : 0 < (config o g).repairTimeout) {a : Nat}
    (ha : a < limit) (hlimit : 1000000 + 4 * lag < limit) : Feeds slow lag limit a (3 * lag) (refresh o g) := by
  apply (feeds_keepAlive ha).bind
  intro result
  apply (feeds_action hrepair (by omega) none result).bind
  intro _ since hsince
  exact hsince.mono (by omega)

theorem feeds_doCheck {o : Options} {g : Globals} (hrepair : 0 < (config o g).repairTimeout)
    (hlimit : slow + 1000000 + 6 * lag < limit) (source : Source) (acts : List Entry) :
    Feeds slow lag limit (3 * lag) (3 * lag) (doCheck o g source acts) := by
  apply (feeds_check (by omega)).bind
  intro result
  apply (feeds_action hrepair (by omega) _ result).bind
  intro act
  apply (feeds_refresh hrepair (by omega) (by omega)).bind
  intro _
  exact fun _ h => h

/-! ## The loop -/

/-- The microseconds a cycle sleeps. -/
def interval (g : Globals) : Nat := (useconds swait).toNat + (useconds (twait (g (.int .tint)))).toNat

theorem feeds_logTick {g : Globals} {a : Nat} (ha : a < limit) (s : State) :
    Feeds slow lag limit a (a + lag) (logTick g s) := by
  have hquiet : ∀ s : State, Feeds slow lag limit a (a + lag) (pure s : P State) :=
    fun _ _ h => h.mono (Nat.le_add_right a lag)
  refine Triple.ite (fun _ => Triple.ite (fun _ => ?_) fun _ => hquiet _) fun _ => hquiet _
  have hmsg : Feeds slow lag limit a (a + lag) (perform (.stillAlive s.count)) :=
    feeds_quick ha (fun _ _ => rfl) timely_quick
  exact hmsg.bind fun _ _ h => h

theorem feeds_countExit {o : Options} {a : Nat} (ha : a < limit) (s : State) :
    Feeds slow lag limit a (a + lag) (countExit o s) := by
  refine Triple.ite (fun _ => ?_) fun _ _ h => h.mono (Nat.le_add_right a lag)
  have hmsg : Feeds slow lag limit a (a + lag) (perform .loopExit) :=
    feeds_quick ha (fun _ _ => rfl) timely_quick
  exact hmsg.bind fun _ _ h => h

theorem feeds_cycle {o : Options} {g : Globals} (hrepair : 0 < (config o g).repairTimeout)
    (hlimit : slow + 1000000 + 6 * lag < limit) (hinterval : interval g + 11 * lag < limit) {a : Nat}
    (ha : a < limit) (s : State) : Feeds slow lag limit a (interval g + 8 * lag) (cycle o g s) := by
  apply (feeds_refresh hrepair ha (by omega)).bind
  intro _
  apply (Triple.foldlM fun source _ acts => feeds_doCheck hrepair hlimit source acts).bind
  intro acts
  have hswait : Feeds slow lag limit (3 * lag) (3 * lag + ((useconds swait).toNat + lag))
      (perform (.usleep (useconds swait))) :=
    feeds_perform (by omega) (fun _ _ => rfl) fun _ h => h
  apply hswait.bind
  intro _
  have hgather : Feeds slow lag limit (3 * lag + ((useconds swait).toNat + lag))
      (3 * lag + ((useconds swait).toNat + lag) + lag) (perform .gather) := by
    apply feeds_quick ?_ (fun _ _ => rfl) timely_quick
    unfold interval at hinterval
    omega
  apply hgather.bind
  intro _
  have htwait : Feeds slow lag limit (3 * lag + ((useconds swait).toNat + lag) + lag)
      (interval g + 6 * lag) (perform (.usleep (useconds (twait (g (.int .tint)))))) := by
    refine (feeds_perform ?_ (fun _ _ => rfl) fun _ h => h).conseq (fun _ h => h) fun _ h => h.mono ?_
    · unfold interval at hinterval
      omega
    · show _ + ((useconds (twait (g (.int .tint)))).toNat + lag) ≤ _
      unfold interval
      omega
  apply htwait.bind
  intro _
  apply (feeds_logTick (by omega) _).bind
  intro s'
  exact (feeds_countExit (by omega) s').conseq (fun _ h => h) fun _ h => h.mono (by omega)

theorem feeds_mainLoop {o : Options} {g : Globals} (hrepair : 0 < (config o g).repairTimeout)
    (hlimit : slow + 1000000 + 6 * lag < limit) (hinterval : interval g + 11 * lag < limit) :
    ∀ (cycles : Nat) (s : State),
      Feeds slow lag limit (interval g + 8 * lag) (interval g + 9 * lag) (mainLoop o g cycles s)
  | 0, _ => fun _ h => h.mono (by omega)
  | cycles + 1, s => by
    have hrunning : Feeds slow lag limit (interval g + 8 * lag) (interval g + 8 * lag + lag)
        (perform .running) :=
      feeds_quick (by omega) (fun _ _ => rfl) timely_quick
    apply Triple.ite
    · intro _
      apply hrunning.bind
      intro (running : Bool)
      apply Triple.ite
      · intro _
        apply (feeds_cycle hrepair hlimit hinterval (by omega) s).bind
        intro s'
        exact feeds_mainLoop hrepair hlimit hinterval cycles s'
      · intro _ since hsince
        exact hsince.mono (by omega)
    · intro _ since hsince
      exact hsince.mono (by omega)

/-! ## The whole run -/

/-- Before there is a device, nothing can go wrong. -/
theorem feeds_before {q : Call} (hnext : ∀ t, sinceAfter none q t = none) :
    Triple (fedMonitor slow lag limit) (fun _ => True) (fun since => since = none) (perform q)
      (fun since => since = none) := by
  rintro since rfl
  exact ⟨fun _ h => (by cases h), fun r _ => hnext r.2⟩

/-- Opening the device starts its timer. -/
theorem feeds_openDevice (o : Options) :
    Triple (fedMonitor slow lag limit) (fun _ => True) (fun since => since = none) (openDevice o) (Within lag) := by
  apply Triple.ite
  · rintro _ since rfl
    refine ⟨fun _ h => (by cases h), fun r hr => ?_⟩
    show Within lag (some r.2)
    intro t ht
    rw [← Option.some.inj ht]
    exact timely_quick hr
  · rintro _ since rfl t ht
    cases ht

/-- The device is refreshed soon after it was opened. -/
theorem feeds_startUp {o : Options} {g : Globals} (hlimit : 6 * lag < limit) :
    Triple (fedMonitor slow lag limit) (fun _ => True) (fun since => since = none) (startUp o g)
      (Within (6 * lag)) := by
  have hskip : ∀ {I : Option Nat → Prop},
      Triple (fedMonitor slow lag limit) (fun _ => True) I (pure () : P Unit) I := fun _ h => h
  have hquick : ∀ (n : Nat) (q : Call), n < 6 → (∀ since t, sinceAfter since q t = since.map (· + t)) →
      (∀ {t}, Timely slow lag q t → t ≤ lag) → Feeds slow lag limit (n * lag) ((n + 1) * lag) (perform q) := by
    intro n q hn hnext htake
    have hle : n * lag ≤ 6 * lag := Nat.mul_le_mul_right lag (Nat.le_of_lt hn)
    refine (feeds_quick (by omega) hnext htake).conseq (fun _ h => h) fun _ h => h.mono ?_
    rw [Nat.succ_mul]
  have htargets : Triple (fedMonitor slow lag limit) (fun _ => True) (fun since => since = none)
      (openTargets g) (fun since => since = none) := by
    refine Triple.ite (fun _ => ?_) fun _ => hskip
    refine Triple.bind (feeds_before fun _ => rfl) ?_
    intro (status : Option Int)
    cases status with
    | none => exact hskip
    | some code => exact fun _ _ => trivial
  apply (triple_insist _ (feeds_before fun _ => rfl) fun _ _ => trivial).bind
  intro _
  apply htargets.bind
  intro _
  apply (triple_insist _ (feeds_before fun _ => rfl) fun _ _ => trivial).bind
  intro _
  apply (Triple.ite (fun _ => triple_insist _ (feeds_before fun _ => rfl) fun _ _ => trivial) fun _ => hskip).bind
  intro _
  apply (Triple.ite (fun _ => triple_insist _ (feeds_before fun _ => rfl) fun _ _ => trivial) fun _ => hskip).bind
  intro _
  apply (feeds_openDevice o).bind
  intro _
  apply ((hquick 1 .openTempcheck (by decide) (fun _ _ => rfl) timely_quick).conseq
    (fun _ h => by rwa [Nat.one_mul]) fun _ h => h).bind
  intro _
  apply (triple_insist _ (hquick 2 .openHeartbeat (by decide) (fun _ _ => rfl) timely_quick) fun _ _ => trivial).bind
  intro _
  apply (hquick 3 .openLoadcheck (by decide) (fun _ _ => rfl) timely_quick).bind
  intro _
  apply (hquick 4 .openMemcheck (by decide) (fun _ _ => rfl) timely_quick).bind
  intro _
  exact hquick 5 .lockOurMemory (by decide) (fun _ _ => rfl) timely_quick

theorem feeds_terminate {a : Nat} (ha : a + 2 * lag < limit) (ecode : Int) :
    Triple (fedMonitor slow lag limit) (fun _ => True) (Within a) (terminate ecode) (fun _ => True) := by
  have hstopping : Feeds slow lag limit a (a + lag) (perform .stopping) :=
    feeds_quick (by omega) (fun _ _ => rfl) timely_quick
  have hunlock : Feeds slow lag limit (a + lag) (a + lag + lag) (perform .unlockOurMemory) :=
    feeds_quick (by omega) (fun _ _ => rfl) timely_quick
  have hclose : Triple (fedMonitor slow lag limit) (fun _ => True) (Within (a + lag + lag)) (perform .closeWatchdog)
      (fun since => since = none) :=
    fun _ h => ⟨h.lt (by omega), fun _ _ => rfl⟩
  have hall : Triple (fedMonitor slow lag limit) (fun _ => True) (Within (a + lag + lag)) closeAll
      (fun since => since = none) := by
    apply hclose.bind
    intro _
    apply (feeds_before fun _ => rfl).bind
    intro _
    apply (feeds_before fun _ => rfl).bind
    intro _
    apply (feeds_before fun _ => rfl).bind
    intro _
    exact (feeds_before fun _ => rfl).bind fun _ => feeds_before fun _ => rfl
  apply hstopping.bind
  intro _
  apply hunlock.bind
  intro _
  apply hall.bind
  intro _
  apply (feeds_before fun _ => rfl).bind
  intro _
  apply (feeds_before fun _ => rfl).bind
  intro _
  exact (feeds_before fun _ => rfl).bind fun _ _ _ => trivial

theorem feeds_run {o : Options} {g : Globals} (hrepair : 0 < (config o g).repairTimeout)
    (hlimit : slow + 1000000 + 6 * lag < limit) (hinterval : interval g + 11 * lag < limit) (cycles : Nat) :
    Triple (fedMonitor slow lag limit) (fun _ => True) (fun since => since = none) (run o g cycles)
      (fun _ => True) := by
  have hstart : Triple (fedMonitor slow lag limit) (fun _ => True) (fun since => since = none) (startUp o g)
      (Within (interval g + 8 * lag)) :=
    (feeds_startUp (by omega)).conseq (fun _ h => h) fun _ h => h.mono (by omega)
  apply hstart.bind
  intro _
  apply (feeds_mainLoop hrepair hlimit hinterval cycles _).bind
  intro s
  exact Triple.ite (fun _ => feeds_terminate (by omega) 0) fun _ _ _ => trivial

end Fed

/-- A cycle sleeps for the interval at most; less when the microseconds wrap. -/
theorem useconds_le {tint : Int} (htint : 0 < tint) :
    (((useconds swait).toNat + (useconds (twait tint)).toNat : Nat) : Int) ≤ tint * 1000000 := by
  have hswait : useconds swait = 50000 := by decide
  rw [useconds_twait, hswait]
  unfold swait
  omega

/-- What `check_parameters` accepts is shorter than the time-out by more than a second. -/
theorem short_of_checked {tint devTimeout : Int} (hdev : 0 < devTimeout) (h : tint < toInt (devTimeout - 1)) :
    tint < devTimeout - 1 :=
  Int.lt_of_lt_of_le h (toInt_le (by omega))

/-- The second that is left pays for a poll of the repair program, or for the delays. -/
theorem margins {tint devTimeout : Int} {lag slept : Nat} (htint : 0 < tint) (hshort : tint < devTimeout - 1)
    (hlag : 6 * lag < 1000000) (hslept : (slept : Int) ≤ tint * 1000000) :
    (tint * 1000000).toNat + 1000000 + 6 * lag < (devTimeout * 1000000).toNat ∧
      slept + 11 * lag < (devTimeout * 1000000).toNat := by
  omega

theorem follows_of_timely {slow lag limit : Nat} {since : Option Nat} {tr : List (Sigma Answer)}
    (h : ∀ e ∈ tr, Timely slow lag e.1 e.2.2) : (fedMonitor slow lag limit).Follows since tr := by
  induction tr generalizing since with
  | nil => trivial
  | cons e tr ih =>
    rw [List.forall_mem_cons] at h
    exact ⟨h.1, ih h.2⟩

/-- Only the retry time-out is set to 0. -/
theorem zeroRetry_frame (g : Globals) {v : Var} (hv : v ≠ .int .retryTimeout) : zeroRetry g v = g v := by
  unfold zeroRetry
  split
  · exact Function.update_of_ne hv _ _
  · rfl

theorem tint_pos_of_read {env : ConfEnv} {start g : Globals} {configfile : Option CString}
    (h : readConfig env start configfile = .ok g) : 0 < (g (.int .tint) : Int) := by
  cases configfile with
  | none => cases h
  | some text =>
    rw [finish_frame h (by decide) (by decide) (by decide)]
    exact (finish_ok h).1

/-- All is well, every check takes 0.9 seconds and every other call ten microseconds. -/
def calm : Nat → (q : Call) → Answer q
  | _, .mkdirLogdir | _, .xcallocFilename | _, .wdDaemon | _, .writePidFile | _, .openWatchdog
  | _, .openHeartbeat | _, .running => (true, 10)
  | _, .openNetcheck => (none, 10)
  | _, .keepAlive => (enoerr, 10)
  | _, .check _ => (enoerr, 900000)
  | _, .time => ((1000 : Int), 10)
  | _, .fork => (.ok 200, 10)
  | _, .waitpid _ _ => (.running, 10)
  | _, .openTempcheck | _, .openLoadcheck | _, .openMemcheck | _, .lockOurMemory | _, .sleep _ | _, .usleep _
  | _, .gather | _, .stillAlive _ | _, .loopExit | _, .doShutdown _ | _, .stopping | _, .unlockOurMemory | _, .closeWatchdog
  | _, .closeLoadcheck | _, .closeMemcheck | _, .closeTempcheck | _, .closeHeartbeat | _, .freeProcess
  | _, .removePidFile | _, .closeLogging => ((), 10)

theorem calm_timely {slow lag : Nat} (hslow : 900000 ≤ slow) (hlag : 10 ≤ lag) (n : Nat) (q : Call) :
    Timely slow lag q (calm n q).2 := by
  have hquick : ∀ m, 10 ≤ m + lag := fun m => Nat.le_trans hlag (Nat.le_add_left lag m)
  cases q with
  | check source => exact hslow
  | waitpid pid block =>
    cases block with
    | false => exact hquick _
    | true => trivial
  | _ => first | trivial | exact hquick _

end Watchdog.Daemon
