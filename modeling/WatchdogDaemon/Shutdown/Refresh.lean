import WatchdogDaemon.Shutdown.Order

/- The watchdog device during a shutdown.

   A shutdown sleeps for longer than a device may wait: ten seconds for the mail, and as long
   as `sigterm_delay` says for the processes to end. `safe_sleep` goes on refreshing the
   device meanwhile, and the device is the one file that is not closed. In the end, in the
   block that follows "finally reboot", the device is to do the opposite: its time-out is
   made short and it is left alone for four times `dev_timeout`, so that it resets the
   machine should the kernel not do it.

   What is proved, over every error code but as stated, every set-up with an open device and
   every way the calls can turn out:
     1. `fed_before_reboot` — up to that block, the daemon is never asleep for more than a
        second since it last refreshed the device, and never closes it.
     2. `starved_at_reboot` — when it asks the kernel for the reboot, it has been asleep for
        longer than the time-out of the device: the hardware was given its time first. This
        takes a `dev_timeout` of 3 or more whose product with 4 is an `int` and more than the
        time-outs the device has and is refreshed with, and pauses that are not cut.
   What cuts a pause is the alarm that `lock_mtab` sets for the lock of `/etc/mtab` and
   nothing clears. -/
namespace Watchdog.Shutdown
open CallTree

/-! ## Fed -/

/-- The seconds asleep since the device was refreshed, one call on. A time-out that is set
starts the timer again as well. -/
def asleepAfter (sec : Int) : Call → Int
  | .sys (.sleep n) => sec + n
  | .sys .refresh => 0
  | .sys (.setTimeout _) => 0
  | _ => sec

/-- The seconds asleep at the end of the calls. -/
def asleep (calls : List Call) : Int := calls.foldl asleepAfter 0

def fedMonitor (fd : Int) : Monitor Call Answer Int where
  next sec q _ := asleepAfter sec q
  ok sec q := sec ≤ 1 ∧ q ≠ .sys (.close fd)
  allows _ _ _ := True

/-- Rested: nothing slept through before phase 12, and a second at most from there on. -/
def Rested (k : Nat) (sec : Int) : Prop := sec = 0 ∨ k = 12 ∧ sec = 1

theorem Rested.le_one {k : Nat} {sec : Int} (h : Rested k sec) : sec ≤ 1 := by
  obtain rfl | ⟨-, rfl⟩ := h
  · decide
  · decide

theorem Rested.mono {j k : Nat} (hjk : j ≤ k) (hk : k < 13) {sec : Int} (h : Rested j sec) : Rested k sec := by
  obtain rfl | ⟨hj, rfl⟩ := h
  · exact Or.inl rfl
  · exact Or.inr ⟨by omega, rfl⟩

abbrev Feeds (fd : Int) (j k : Nat) {α : Type} (p : P α) : Prop :=
  Triple (fedMonitor fd) (fun sec => sec ≤ 1) (Rested j) p (Rested k)

/-- The calls of a phase, and those that list and kill, leave the timer alone. -/
theorem asleepAfter_of_phase {q : Call} {k : Nat} (h : phase q = some k) (sec : Int) :
    asleepAfter sec q = sec := by
  unfold asleepAfter
  split
  · cases h
  · cases h
  · cases h
  · rfl

theorem asleepAfter_of_killCall {q : Call} {sig : Int} (h : killCall sig q) (sec : Int) :
    asleepAfter sec q = sec := by
  unfold asleepAfter
  split
  · exact h.elim
  · exact h.elim
  · exact h.elim
  · rfl

section Fed
variable {c : Setup}

theorem feeds_of_only {fd : Int} {k : Nat} {α : Type} {S : Call → Prop} {X : Prop} {p : P α} (hp : Only S X p)
    (hsleep : ∀ q, S q → ∀ sec, asleepAfter sec q = sec) (hclose : ∀ q, S q → q ≠ .sys (.close fd)) :
    Feeds fd k k p := by
  refine Triple.of_only hp ?_ fun _ _ h => h.le_one
  intro sec q hq hsec
  refine ⟨⟨hsec.le_one, hclose q hq⟩, fun _ => ?_⟩
  show Rested k (asleepAfter sec q)
  rw [hsleep q hq]
  exact hsec

theorem feeds_step {fd : Int} {j k : Nat} {α : Type} {p : P α} (hjk : j ≤ k) (hk : k < 13) (hne : k ≠ 1)
    (hp : OfPhase k p) : Feeds fd j k p := by
  have hkeep : Feeds fd k k p := by
    apply feeds_of_only hp fun q hq sec => asleepAfter_of_phase hq sec
    rintro _ hq rfl
    exact hne (Option.some.inj hq).symm
  exact hkeep.conseq (fun sec h => h.mono hjk hk) fun _ h => h

/-- A refresh ends whatever was slept through. -/
theorem rests_keepAlive (hfd : c.watchdogFd ≠ -1) (fd : Int) :
    Triple (fedMonitor fd) (fun sec => sec ≤ 1) (fun sec => sec ≤ 1) (keepAlive c) (fun sec => sec = 0) := by
  have hbeat : Triple (fedMonitor fd) (fun sec => sec ≤ 1) (fun sec => sec = 0)
      (if c.heartbeat then attempt .heartbeat else pure ()) (fun sec => sec = 0) := by
    apply Triple.ite
    · rintro _ _ rfl
      exact ⟨⟨by decide, by simp⟩, fun _ _ => rfl⟩
    · exact fun _ _ hsec => hsec
  intro sec hsec
  rw [keepAlive, if_pos hfd]
  apply Wp.ite
  · intro _
    exact ⟨⟨hsec, by simp⟩, fun _ _ => hbeat 0 rfl⟩
  · intro _
    exact ⟨⟨hsec, by simp⟩, fun _ _ => hbeat 0 rfl⟩

theorem rests_safeSleep (hfd : c.watchdogFd ≠ -1) (fd sec : Int) :
    Triple (fedMonitor fd) (fun sec => sec ≤ 1) (fun sec => sec ≤ 1) (safeSleep c sec) (fun sec => sec = 0) := by
  apply (rests_keepAlive hfd fd).bind
  intro _
  apply Triple.forM
  intro _ _
  -- Awake again before a second is over, and refreshed first thing.
  rintro sec rfl
  exact ⟨⟨by decide, by simp⟩, fun _ _ => rests_keepAlive hfd fd 1 (Int.le_refl 1)⟩

/-- The device stays open, given that it is none of the standard files. -/
theorem feeds_closeFiles (hstd : 3 ≤ c.watchdogFd) (hlast : c.watchdogFd ≠ 255) :
    Feeds c.watchdogFd 0 1 (closeFiles c) := by
  have hclose : ∀ fd : Int, fd ≠ c.watchdogFd →
      Only (fun q => phase q = some 1 ∧ q ≠ .sys (.close c.watchdogFd)) True (attempt (.close fd)) := by
    intro fd hfd
    refine Only.bind (Only.ask (c := Call.sys (.close fd)) ⟨rfl, ?_⟩) fun _ => Only.pure ()
    simpa using hfd
  have honly : Only (fun q => phase q = some 1 ∧ q ≠ .sys (.close c.watchdogFd)) True (closeFiles c) := by
    refine Only.bind (Only.forM fun i hi => ?_) fun _ => ?_
    · refine Only.bind (Only.ask (c := Call.sys (.isatty i)) ⟨rfl, by simp⟩) fun (_ : Bool) => ?_
      refine Only.ite (hclose i ?_) (Only.pure _)
      have hi : i = 0 ∨ i = 1 ∨ i = 2 := by simpa using hi
      omega
    · refine Only.bind (Only.forM fun i _ => ?_) fun _ => hclose 255 hlast.symm
      by_cases hi : (i : Int) ≠ c.watchdogFd
      · rw [if_pos hi]
        exact hclose i hi
      · rw [if_neg hi]
        exact Only.pure _
  have hkeep : Feeds c.watchdogFd 1 1 (closeFiles c) :=
    feeds_of_only honly (fun q hq sec => asleepAfter_of_phase hq.1 sec) fun q hq => hq.2
  exact hkeep.conseq (fun sec h => h.mono (by decide) (by decide)) fun _ h => h

theorem feeds_killall5 {j k : Nat} (hjk : j ≤ k) (hk : k < 13) (fd sig : Int) :
    Feeds fd j k (killall5 c sig) := by
  have hbroadcast : ∀ s, Feeds fd k k (attempt (.kill (-1) s)) := by
    intro s sec hsec
    exact ⟨⟨hsec.le_one, by simp⟩, fun _ _ => hsec⟩
  refine triple_killall5 c sig ((hbroadcast sigstop).conseq (fun _ h => h.mono hjk hk) fun _ h => h) ?_
    (fun _ _ h => h.le_one) (hbroadcast sigcont)
  intro sec q hq hsec
  refine ⟨⟨hsec.le_one, ?_⟩, fun _ => ?_⟩
  · rintro rfl
    exact hq
  · show Rested k (asleepAfter sec q)
    rw [asleepAfter_of_killCall hq]
    exact hsec

theorem sequenced_fed (hstd : 3 ≤ c.watchdogFd) (hlast : c.watchdogFd ≠ 255) :
    Sequenced (fedMonitor c.watchdogFd) (fun sec => sec ≤ 1) Rested c := by
  have hfd : c.watchdogFd ≠ -1 := by omega
  constructor
  case step => exact fun hjk hk hne hp => feeds_step hjk hk hne hp
  case closeFiles => exact feeds_closeFiles hstd hlast
  case keepAlive =>
    exact fun k => (rests_keepAlive hfd _).conseq (fun _ h => h.le_one) fun _ h => Or.inl h
  case sleep =>
    exact fun k sec => (rests_safeSleep hfd _ sec).conseq (fun _ h => h.le_one) fun _ h => Or.inl h
  case sigterm => exact fun hj => feeds_killall5 hj (by decide) _ _
  case sigkill => exact fun hj => feeds_killall5 hj (by decide) _ _

end Fed

/-- **The device is fed up to the "finally reboot" block**, where its time-out is shortened on
purpose. However long the shutdown takes to get there, it is never asleep for more than a
second without a refresh, and it does not close the device. -/
theorem fed_before_reboot (c : Setup) (errorcode : Int) (hstd : 3 ≤ c.watchdogFd)
    (hlast : c.watchdogFd ≠ 255) (env : Nat → (q : Call) → Answer q) :
    (∀ pre post, (beforeReboot c errorcode).calls env 0 = pre ++ post → asleep pre ≤ 1) ∧
      .sys (.close c.watchdogFd) ∉ (beforeReboot c errorcode).calls env 0 := by
  have hsleep : Feeds c.watchdogFd 11 12 (attempt (.sleep 1)) := by
    intro sec hsec
    obtain rfl | ⟨h, -⟩ := hsec
    · exact ⟨⟨by decide, by simp⟩, fun _ _ => Or.inr ⟨rfl, rfl⟩⟩
    · exact absurd h (by decide)
  have hwp := (sequenced_fed hstd hlast).beforeReboot c errorcode hsleep 0 (Or.inl rfl)
  have hfollows := Monitor.follows_of_allows (M := fedMonitor c.watchdogFd) (fun _ _ _ => trivial) 0
    ((beforeReboot c errorcode).trace env 0)
  obtain ⟨hguarded, hend⟩ := hwp.sound env 0 hfollows
  have hafter : ∀ tr, (fedMonitor c.watchdogFd).after 0 tr = asleep (tr.map (·.1)) := by
    intro tr
    rw [asleep, List.foldl_map]
    rfl
  refine ⟨fun pre post hcalls => ?_, fun hmem => ?_⟩
  · cases post with
    | nil =>
      rw [List.append_nil] at hcalls
      rw [← hcalls, Prog.calls, ← hafter]
      split at hend
      · exact hend.le_one
      · exact hend
    | cons q post =>
      obtain ⟨tr, e, tr', htrace, hpre, rfl⟩ := Monitor.exists_split hcalls
      rw [htrace] at hguarded
      have hok := hguarded.at_split.1
      rwa [hafter, hpre] at hok
  · obtain ⟨pre, post, hcalls⟩ := List.append_of_mem hmem
    obtain ⟨tr, e, tr', htrace, -, he⟩ := Monitor.exists_split hcalls
    rw [htrace] at hguarded
    exact hguarded.at_split.2 he

/-- On a machine without memory, which does not get to the reboot. -/
theorem fed_before_reboot_without_memory :
    .sys (.close 3) ∉
      (beforeReboot { daemonPid := 100, watchdogFd := 3, sigtermDelay := 300 } emaxload).calls noMemory 0 :=
  (fed_before_reboot { daemonPid := 100, watchdogFd := 3, sigtermDelay := 300 } emaxload (by decide) (by decide)
    noMemory).2

/-! ## Starved -/

/-- The timer of the device: the time-out it has, and the seconds since it was started. -/
structure Timer where
  timeout : Int
  asleep : Int

/-- The timer after a call, which only counts when it succeeded. -/
def Timer.next (t : Timer) : (q : Call) → Answer q → Timer
  | .sys (.sleep n), (ok : Bool) => if ok then { t with asleep := t.asleep + n } else t
  | .sys .refresh, (ok : Bool) => if ok then { t with asleep := 0 } else t
  | .sys (.setTimeout n), (ok : Bool) => if ok then ⟨n, 0⟩ else t
  | _, _ => t

def Timer.after (t : Timer) (tr : List (Sigma Answer)) : Timer := tr.foldl (fun t e => t.next e.1 e.2) t

/-- A pause is slept to its end. -/
def Lasts : (q : Call) → Answer q → Prop
  | .sys (.sleep _), (ok : Bool) => ok = true
  | _, _ => True

def timerMonitor : Monitor Call Answer Timer where
  next := Timer.next
  ok t q := q = .reboot .autoboot → t.timeout < t.asleep
  allows _ q r := Lasts q r

/-- The time-out is less than what the shutdown waits for. -/
structure Timer.Short (wait : Int) (t : Timer) : Prop where
  timeout : t.timeout < wait
  asleep : 0 ≤ t.asleep

section Starved
variable {c : Setup}

abbrev KeepsShort (wait : Int) {α : Type} (p : P α) : Prop :=
  Triple timerMonitor (fun _ => True) (Timer.Short wait) p (Timer.Short wait)

theorem timer_of_phase {q : Call} {k : Nat} (h : phase q = some k) (t : Timer) (r : Answer q) :
    t.next q r = t := by
  unfold Timer.next
  split
  · cases h
  · cases h
  · cases h
  · rfl

theorem short_refresh {wait : Int} {t : Timer} (h : t.Short wait) (ok : Bool) :
    (t.next (.sys .refresh) ok).Short wait := by
  cases ok with
  | false => exact h
  | true => exact ⟨h.timeout, Int.le_refl 0⟩

theorem short_setTimeout {wait n : Int} (hn : n < wait) {t : Timer} (h : t.Short wait) (ok : Bool) :
    (t.next (.sys (.setTimeout n)) ok).Short wait := by
  cases ok with
  | false => exact h
  | true => exact ⟨hn, Int.le_refl 0⟩

theorem short_sleep {wait n : Int} (hn : 0 ≤ n) {t : Timer} (h : t.Short wait) (ok : Bool) :
    (t.next (.sys (.sleep n)) ok).Short wait := by
  cases ok with
  | false => exact h
  | true => exact ⟨h.timeout, Int.add_nonneg h.asleep hn⟩

/-- A call that is no `reboot`. -/
theorem keepsShort_attempt {wait : Int} {s : Sys}
    (h : ∀ t ok, Timer.Short wait t → (t.next (.sys s) ok).Short wait) : KeepsShort wait (attempt s) :=
  fun t ht => ⟨by simp [timerMonitor], fun ok _ => h t ok ht⟩

theorem keepsShort_keepAlive {wait : Int} (hused : c.timeoutUsed < wait) : KeepsShort wait (keepAlive c) := by
  have hbeat : KeepsShort wait (if c.heartbeat then attempt .heartbeat else pure ()) :=
    Triple.ite (fun _ => keepsShort_attempt fun _ _ ht => ht) fun _ _ ht => ht
  refine Triple.ite (fun _ => Triple.ite (fun _ => ?_) fun _ => ?_) fun _ _ ht => ht
  · exact (keepsShort_attempt fun _ ok ht => short_setTimeout hused ht ok).bind fun _ => hbeat
  · exact (keepsShort_attempt fun _ ok ht => short_refresh ht ok).bind fun _ => hbeat

theorem keepsShort_killall5 (wait sig : Int) : KeepsShort wait (killall5 c sig) := by
  refine triple_killall5 c sig (keepsShort_attempt fun _ _ ht => ht) ?_ (fun _ _ _ => trivial)
    (keepsShort_attempt fun _ _ ht => ht)
  intro t q hq ht
  unfold killCall at hq
  split at hq
  case h_5 => exact hq.elim
  all_goals exact ⟨by simp [timerMonitor], fun _ => ht⟩

theorem keepsShort_step {wait : Int} {k : Nat} {α : Type} {p : P α} (hk : k < 13) (hp : OfPhase k p) :
    KeepsShort wait p := by
  refine Triple.of_only hp ?_ fun _ _ _ => trivial
  intro t q hq ht
  refine ⟨?_, fun r => ?_⟩
  · rintro rfl
    cases hq
    exact absurd hk (by decide)
  · show (t.next q r).Short wait
    rw [timer_of_phase hq]
    exact ht

theorem sequenced_short {wait : Int} (hused : c.timeoutUsed < wait) :
    Sequenced timerMonitor (fun _ => True) (fun _ => Timer.Short wait) c := by
  have hkeep := keepsShort_keepAlive hused
  constructor
  case step => exact fun _ hk _ hp => keepsShort_step hk hp
  case closeFiles => exact keepsShort_step (by decide) (ofPhase_closeFiles c)
  case keepAlive => exact fun _ => hkeep
  case sleep =>
    intro _ sec
    refine hkeep.bind fun _ => Triple.forM fun _ _ => ?_
    exact (keepsShort_attempt fun _ ok ht => short_sleep (by decide) ht ok).bind fun _ => hkeep
  case sigterm => exact fun _ => keepsShort_killall5 wait sigterm
  case sigkill => exact fun _ => keepsShort_killall5 wait sigkill

theorem keepsShort_tryOtherTimes {wait timeout : Int} {times : List Int} (h : ∀ n ∈ times, n < wait) :
    KeepsShort wait (tryOtherTimes timeout times) := by
  induction times with
  | nil => exact fun _ ht => ht
  | cons n times ih =>
    have hrest := ih fun m hm => h m (List.mem_cons_of_mem n hm)
    refine Triple.ite (fun _ => ?_) fun _ => hrest
    intro t ht
    refine ⟨by simp [timerMonitor], fun (ok : Bool) _ => ?_⟩
    have hset := short_setTimeout (h n List.mem_cons_self) ht ok
    exact Wp.ite (fun _ => hset) fun _ => hrest _ hset

/-- The time-out is made as short as the device takes it, and then slept through. -/
theorem starves_quickReboot (hfd : c.watchdogFd ≠ -1) (hdev : 3 ≤ c.devTimeout)
    (hint : c.devTimeout * 4 < 2 ^ 31) :
    Triple timerMonitor (fun _ => True) (Timer.Short (c.devTimeout * 4)) (quickReboot c)
      (fun t => t.timeout < t.asleep) := by
  have hset : KeepsShort (c.devTimeout * 4) (setWatchdogTimeout c 1) := by
    refine Triple.ite (fun _ => ?_) fun _ _ ht => ht
    intro t ht
    refine ⟨by simp [timerMonitor], fun (ok : Bool) _ => ?_⟩
    have hone := short_setTimeout (n := 1) (by omega) ht ok
    refine Wp.ite (fun _ => ?_) fun _ => hone
    refine keepsShort_tryOtherTimes ?_ _ hone
    intro n hn
    have hn : n = 3 ∨ n = 5 ∨ n = 10 := by simpa using hn
    omega
  have hproduct : toInt (c.devTimeout * 4) % 2 ^ 32 = c.devTimeout * 4 := by
    rw [toInt_eq_self (by omega) hint]
    omega
  unfold quickReboot longSleep
  rw [if_pos hfd, hproduct]
  apply hset.bind
  intro _ t ht
  refine ⟨by simp [timerMonitor], ?_⟩
  rintro _ rfl
  show t.timeout < t.asleep + c.devTimeout * 4
  have := ht.timeout
  have := ht.asleep
  omega

/-- No reboot is asked for once there was one. -/
theorem calm_panic (c : Setup) : Triple timerMonitor (fun _ => True) (fun _ => True) (panic c) (fun _ => True) := by
  refine Triple.of_only (only_panic c) ?_ fun _ _ _ => trivial
  refine fun _ q hq _ => ⟨?_, fun _ => trivial⟩
  rintro rfl
  cases hq

/-- On the machine without memory the pauses last. -/
theorem lasts_noMemory {c : Setup} {errorcode : Int} {e : Sigma Answer}
    (he : e ∈ shutdownCalls c errorcode noMemory) : Lasts e.1 e.2 := by
  obtain ⟨k, hk⟩ := mem_trace he
  have hlasts : ∀ q, Lasts q (noMemory k q) := by
    intro q
    cases q with
    | sys s => cases s <;> first | exact rfl | exact trivial
    | _ => exact trivial
  rw [hk]
  exact hlasts e.1

end Starved

/-- **The hardware comes first.** Whenever a shutdown whose pauses are not cut asks the kernel
to reboot, the device has been left alone for longer than its time-out. -/
theorem starved_at_reboot (c : Setup) (errorcode : Int) (hcode : errorcode ≠ etoohot)
    (hfd : c.watchdogFd ≠ -1) (hdev : 3 ≤ c.devTimeout) (hint : c.devTimeout * 4 < 2 ^ 31)
    (hused : c.timeoutUsed < c.devTimeout * 4) (timeout : Int) (htimeout : timeout < c.devTimeout * 4)
    (env : Nat → (q : Call) → Answer q) (hlasts : ∀ e ∈ shutdownCalls c errorcode env, Lasts e.1 e.2)
    (pre post : List (Sigma Answer)) (r : Answer (.reboot .autoboot))
    (h : shutdownCalls c errorcode env = pre ++ ⟨.reboot .autoboot, r⟩ :: post) :
    ((⟨timeout, 0⟩ : Timer).after pre).timeout < ((⟨timeout, 0⟩ : Timer).after pre).asleep := by
  have hfinal : Triple timerMonitor (fun _ => True) (Timer.Short (c.devTimeout * 4))
      (finallyReboot c errorcode) (fun _ => True) := by
    unfold finallyReboot
    rw [if_pos hcode]
    apply (starves_quickReboot hfd hdev hint).bind
    intro _ t ht
    exact ⟨fun _ => ht, fun _ _ => trivial⟩
  have hsleep : KeepsShort (c.devTimeout * 4) (attempt (.sleep 1)) :=
    keepsShort_attempt fun _ ok ht => short_sleep (by decide) ht ok
  have hreached : Triple timerMonitor (fun _ => True) (Timer.Short (c.devTimeout * 4)) (toReboot c errorcode)
      (fun _ => True) := ((sequenced_short hused).beforeReboot c errorcode hsleep).bind fun _ => hfinal
  have hwp := (hreached.bind fun _ => calm_panic c) ⟨timeout, 0⟩ ⟨htimeout, Int.le_refl 0⟩
  have hguarded := (hwp.sound env 0 (Monitor.follows_of_forall (fun _ _ _ h => h) _ hlasts)).1
  have htrace : (doShutdown c errorcode).trace env 0 = pre ++ ⟨.reboot .autoboot, r⟩ :: post := h
  rw [show (toReboot c errorcode >>= fun _ => panic c) = doShutdown c errorcode from rfl, htrace] at hguarded
  exact hguarded.at_split rfl

/-- A hard reset: the device takes the second it is asked for, and has 240 to act. -/
theorem starved_at_reboot_reset :
    let tr := shutdownCalls { daemonPid := 100, watchdogFd := 3 } ereset noMemory
    ((⟨60, 0⟩ : Timer).after (tr.take 4)).timeout < ((⟨60, 0⟩ : Timer).after (tr.take 4)).asleep :=
  starved_at_reboot { daemonPid := 100, watchdogFd := 3 } ereset (by decide) (by decide) (by decide)
    (by decide) (by decide) 60 (by decide) noMemory (fun e he => lasts_noMemory he) _
    ((shutdownCalls { daemonPid := 100, watchdogFd := 3 } ereset noMemory).drop 5) () rfl

end Watchdog.Shutdown
