import WatchdogDaemon.Config.ReadConfig

/- The length of a cycle: `check_parameters` and the start of the main loop of `watchdog.c`.

   A cycle sleeps twice, `swait` for test binaries that return quickly and `twait` for the
   rest of `tint` seconds. The microseconds are an `int` product, of which an
   `unsigned long` is subtracted, and `usleep` takes 32 bits of the difference. The only
   bound on `tint` is the time-out of the device, which is whatever the file says.

   What is proved: `interval_exact_iff` — with the parameters the daemon starts with, the
   product fits and the two sleeps are `tint` seconds exactly when `tint` is at most 2147.

   Correspondence (C ↔ Lean):
     `check_parameters`                     ↔ `checkParameters`
     `swait`, `twait`                       ↔ `swait`, `twait`
     the argument of `usleep`               ↔ `useconds`
   `MINLOAD` is set when the daemon is configured. `unsigned long` has 64 bits, and an
   `int` wraps where it overflows. -/
namespace Watchdog

/-! ## The parameters -/

/-- Without `--force`: whether the daemon goes on. -/
def checkParameters (minload : Int) (g : Globals) : Bool :=
  let tint : Int := g (.int .tint)
  let devTimeout : Int := g (.int .devTimeout)
  let maxload1 : Int := g (.int .maxload1)
  !(tint ≥ toInt (devTimeout - 1)) && !(maxload1 > 0 && maxload1 < minload)

/-- The daemon gets past `read_config` and `check_parameters`, with these globals. -/
structure StartsUp (env : ConfEnv) (minload : Int) (start : Globals) (text : CString) (g : Globals) :
    Prop where
  read : readConfig env start (some text) = .ok g
  checked : checkParameters minload g = true

theorem StartsUp.tint_pos {env : ConfEnv} {minload : Int} {start g : Globals} {text : CString}
    (h : StartsUp env minload start text g) : 0 < (g (.int .tint) : Int) := by
  rw [finish_frame h.read (by decide) (by decide) (by decide)]
  exact (finish_ok h.read).1

/-! ## The two sleeps -/

def swait : Int := 50000

def twait (tint : Int) : Int := (toInt (tint * 1000000) - swait) % 2 ^ 64

/-- What `usleep` takes of its argument. -/
def useconds (t : Int) : Int := t % 2 ^ 32

/-- The product is an `int`, and a cycle sleeps `tint` seconds. -/
def SleepsInterval (tint : Int) : Prop :=
  (-2 ^ 31 ≤ tint * 1000000 ∧ tint * 1000000 < 2 ^ 31) ∧
    useconds swait + useconds (twait tint) = tint * 1000000

/-- Both conversions keep the low 32 bits. -/
theorem useconds_twait (tint : Int) : useconds (twait tint) = (tint * 1000000 - swait) % 2 ^ 32 := by
  have hproduct : toInt (tint * 1000000) % 2 ^ 32 = tint * 1000000 % 2 ^ 32 := Int.bmod_emod
  calc useconds (twait tint)
      = (toInt (tint * 1000000) - swait) % 2 ^ 32 := Int.emod_emod_of_dvd _ (by decide)
    _ = (toInt (tint * 1000000) % 2 ^ 32 - swait % 2 ^ 32) % 2 ^ 32 := Int.sub_emod _ _ _
    _ = (tint * 1000000 % 2 ^ 32 - swait % 2 ^ 32) % 2 ^ 32 := by rw [hproduct]
    _ = (tint * 1000000 - swait) % 2 ^ 32 := (Int.sub_emod _ _ _).symm

/-- Wrapping alone would leave the sleeps right up to 4295 seconds. -/
theorem sleeps_eq_iff {tint : Int} (hpos : 0 < tint) :
    useconds swait + useconds (twait tint) = tint * 1000000 ↔ tint ≤ 4295 := by
  rw [useconds_twait]
  unfold useconds swait
  omega

theorem sleepsInterval_iff {tint : Int} (hpos : 0 < tint) : SleepsInterval tint ↔ tint ≤ 2147 := by
  rw [SleepsInterval, sleeps_eq_iff hpos]
  omega

/-- **When a cycle sleeps for the interval.** For every configuration the daemon starts
with, the computation of `twait` does not overflow and both sleeps together are `tint`
seconds exactly when `tint` is at most 2147. -/
theorem interval_exact_iff {env : ConfEnv} {minload : Int} {start g : Globals} {text : CString}
    (h : StartsUp env minload start text g) :
    SleepsInterval (g (.int .tint)) ↔ (g (.int .tint) : Int) ≤ 2147 :=
  sleepsInterval_iff h.tint_pos

/-- An interval of 4296 seconds, with a device that waits long enough: a cycle sleeps about
one second. -/
theorem interval_wraps :
    ∃ g, StartsUp ⟨true, fun _ => none, fun _ => none⟩ 2 defaults
        "interval = 4296\nwatchdog-timeout = 4298".toList g ∧
      g (.int .tint) = (4296 : Int) ∧ useconds swait + useconds (twait 4296) = 1032704 ∧
      ¬ SleepsInterval (g (.int .tint)) := by
  refine ⟨_, ⟨rfl, by decide +kernel⟩, by decide +kernel, by decide, ?_⟩
  intro h
  exact absurd h.2 (by decide +kernel)

/-- The longest interval that is slept as it is. -/
theorem interval_exact_longest :
    ∃ g, StartsUp ⟨true, fun _ => none, fun _ => none⟩ 2 defaults
        "interval = 2147\nwatchdog-timeout = 2149".toList g ∧
      g (.int .tint) = (2147 : Int) ∧ SleepsInterval (g (.int .tint)) := by
  have hstarts : ∃ g, StartsUp ⟨true, fun _ => none, fun _ => none⟩ 2 defaults
      "interval = 2147\nwatchdog-timeout = 2149".toList g ∧ g (.int .tint) = (2147 : Int) :=
    ⟨_, ⟨rfl, by decide +kernel⟩, by decide +kernel⟩
  obtain ⟨g, hg, htint⟩ := hstarts
  exact ⟨g, hg, htint, (interval_exact_iff hg).2 (by rw [htint])⟩

end Watchdog
