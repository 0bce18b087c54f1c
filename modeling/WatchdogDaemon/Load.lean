import WatchdogDaemon.Config.Values

/- The load limits: `load.c`, and what `read_config` makes of the `max-load` lines.

   A limit of 0 is no limit. The limits for 5 and 15 minutes are set to 0 before the file
   is read, and computed from the one for 1 minute afterwards if they are still 0. So a
   file that gives 0 to switch a test off is taken for one that says nothing, and the test
   is made with the computed limit.

   What is proved: `load_limits_iff` — with a positive limit for 1 minute, the limits are
   those the file gives exactly when it gives no 0 that the computed limit would undo, and
   the product for the computed one fits an `int`.

   Correspondence (C ↔ Lean):
     `strchr`                               ↔ `strchr`
     `open_loadcheck`                       ↔ `openLoadcheck`
     `check_load`, one of its three tests   ↔ `checkLoad`, `exceeds`
     the end of `read_config`               ↔ `deriveLoads` -/
namespace Watchdog
open Shutdown (atoi)

def enoload : Int := 251

/-! ## The check -/

/-- The text from the first such character on. -/
def strchr (s : CString) (c : Char) : Option CString :=
  match s.dropWhile (· ≠ c) with
  | [] => none
  | d :: rest => some (d :: rest)

/-- `load_fd` is -1 (`none`), or a file whose calls answer as they do. -/
def openLoadcheck (g : Globals) (file : Except Errno FileCalls) : Option FileCalls :=
  if g (.int .maxload1) ≠ (0 : Int) ∨ g (.int .maxload5) ≠ (0 : Int) ∨
      g (.int .maxload15) ≠ (0 : Int) then file.toOption
  else none

def exceeds (maxload avg : Int) : Bool := maxload > 0 && avg > maxload

def checkLoad (g : Globals) (loadFd : Option FileCalls) : Int :=
  match loadFd with
  | none => enoerr
  | some calls =>
    match calls.lseek with
    | some err => err
    | none =>
      match calls.read with
      | .error err => err
      | .ok bytes =>
        let buf := upToNul (bytes.take 39)
        let avg1 := atoi buf
        match strchr buf ' ' with
        | none => enoload
        | some ptr =>
          let avg5 := atoi ptr
          match strchr (ptr.drop 1) ' ' with
          | none => enoload
          | some ptr =>
            let avg15 := atoi ptr
            if exceeds (g (.int .maxload1)) avg1 || exceeds (g (.int .maxload5)) avg5 ||
                exceeds (g (.int .maxload15)) avg15 then emaxload
            else enoerr

/-- A limit that is not positive is none. -/
theorem exceeds_never_iff (maxload : Int) : (∀ avg, exceeds maxload avg = false) ↔ maxload ≤ 0 := by
  constructor
  · intro h
    have hnext := h (maxload + 1)
    simp [exceeds] at hnext
    omega
  · intro h avg
    have hpos : ¬ maxload > 0 := by omega
    simp [exceeds, hpos]

/-! ## The limits -/

/-- The limit that applies: one that was given, where 0 is none, or the computed one. -/
def Applies (given : Option Int) (computed maxload : Int) : Prop :=
  match given with
  | some n => if n = 0 then ∀ avg, exceeds maxload avg = false else maxload = n
  | none => maxload = computed

/-- The globals after `read_config`, in terms of those after the last line. -/
theorem finish_loads {env : ConfEnv} {g g' : Globals} (h : finish env g = .ok g') :
    g' (.int .maxload1) = g (.int .maxload1) ∧
    g' (.int .maxload5) =
      (if (g (.int .maxload1) : Int) ≠ 0 ∧ g (.int .maxload5) = (0 : Int) then
        (toInt ((g (.int .maxload1) : Int) * 3)).tdiv 4 else g (.int .maxload5) : Int) ∧
    g' (.int .maxload15) =
      (if (g (.int .maxload1) : Int) ≠ 0 ∧ g (.int .maxload15) = (0 : Int) then
        (g (.int .maxload1) : Int).tdiv 2 else g (.int .maxload15) : Int) := by
  refine ⟨finish_frame h (by decide) (by decide) (by decide), ?_⟩
  obtain ⟨-, rfl⟩ := finish_ok h
  refine ⟨?_, ?_⟩
  · unfold deriveLoads
    split <;> split <;> simp_all [Globals.setInt, Globals.setList]
  · unfold deriveLoads
    split <;> split <;> simp_all [Globals.setInt, Globals.setList]

/-- What the lines of a text leave in the limits. -/
theorem loads_after_run {start : Globals} (hstart : Initial start) (lines : List CString) :
    let g := Runs.run readLine (atFirstLine start) lines
    g (.int .maxload1) = (lastNumber "max-load-1".toList (pairs lines)).getD 0 ∧
    g (.int .maxload5) = (lastNumber "max-load-5".toList (pairs lines)).getD 0 ∧
    g (.int .maxload15) = (lastNumber "max-load-15".toList (pairs lines)).getD 0 := by
  intro g
  have hone : atFirstLine start (.int .maxload1) = (0 : Int) :=
    hstart.atFirstLine (by decide) (by decide) (by decide)
  have hfive : atFirstLine start (.int .maxload5) = (0 : Int) := by
    simp [atFirstLine, Globals.setInt]
  have hfifteen : atFirstLine start (.int .maxload15) = (0 : Int) := by
    simp [atFirstLine, Globals.setInt]
  have hrun {name : CString} {v : IntVar} (ho : (name, Target.int v) ∈ options)
      (hzero : atFirstLine start (.int v) = (0 : Int)) :
      g (.int v) = (lastNumber name (pairs lines)).getD 0 := by
    have hlast := int_after_run ho lines (atFirstLine start)
    rw [hzero] at hlast
    exact hlast
  exact ⟨hrun (by decide) hone, hrun (by decide) hfive, hrun (by decide) hfifteen⟩

/-! ## The computed limits -/

theorem tdiv_four_nonpos_iff (x : Int) : x.tdiv 4 ≤ 0 ↔ x < 4 := by
  obtain hx | hx : 0 ≤ x ∨ x < 0 := by omega
  · rw [Int.tdiv_eq_ediv_of_nonneg hx]
    omega
  · have hneg : (-x).tdiv 4 = -x.tdiv 4 := Int.neg_tdiv x 4
    rw [Int.tdiv_eq_ediv_of_nonneg (by omega)] at hneg
    omega

/-- The product for the 5 minute limit, where it fits and where it wraps. -/
theorem toInt_three {maxload1 : Int} (hpos : 0 < maxload1) (hlt : maxload1 < 2 ^ 31) :
    toInt (maxload1 * 3) =
      if 3 * maxload1 < 2 ^ 31 then 3 * maxload1 else 3 * maxload1 - 2 ^ 32 := by
  split
  · rw [toInt_eq_self (by omega) (by omega)]
    omega
  · have hsize : ((2 ^ 32 : Nat) : Int) = 4294967296 := rfl
    unfold toInt
    rw [Int.bmod_def, hsize]
    split <;> omega

theorem five_off_iff {maxload1 : Int} (hpos : 0 < maxload1) (hlt : maxload1 < 2 ^ 31) :
    (toInt (maxload1 * 3)).tdiv 4 ≤ 0 ↔
      maxload1 = 1 ∨ 715827883 ≤ maxload1 ∧ maxload1 ≤ 1431655766 := by
  rw [tdiv_four_nonpos_iff, toInt_three hpos hlt]
  split <;> omega

theorem five_exact_iff {maxload1 : Int} (hpos : 0 < maxload1) (hlt : maxload1 < 2 ^ 31) :
    (toInt (maxload1 * 3)).tdiv 4 = 3 * maxload1 / 4 ↔ 3 * maxload1 < 2 ^ 31 := by
  rw [toInt_three hpos hlt]
  split
  · next hfits =>
    rw [Int.tdiv_eq_ediv_of_nonneg (by omega)]
    exact ⟨fun _ => hfits, fun _ => rfl⟩
  · next hwraps =>
    have hless : (3 * maxload1 - 2 ^ 32).tdiv 4 < 3 * maxload1 / 4 := by
      obtain hx | hx : 0 ≤ 3 * maxload1 - 2 ^ 32 ∨ 3 * maxload1 - 2 ^ 32 < 0 := by omega
      · rw [Int.tdiv_eq_ediv_of_nonneg hx]
        omega
      · have hnonpos := (tdiv_four_nonpos_iff (3 * maxload1 - 2 ^ 32)).2 (by omega)
        omega
    omega

/-! ## When the limits are those of the file -/

/-- The file gives no 0 for 5 minutes that is undone, and the computed limit does not
overflow. -/
def FiveAsGiven (given : Option Int) (maxload1 : Int) : Prop :=
  match given with
  | some n => n ≠ 0 ∨ maxload1 = 1 ∨ 715827883 ≤ maxload1 ∧ maxload1 ≤ 1431655766
  | none => 3 * maxload1 < 2 ^ 31

/-- The file gives no 0 for 15 minutes that is undone. -/
def FifteenAsGiven (given : Option Int) (maxload1 : Int) : Prop :=
  match given with
  | some n => n ≠ 0 ∨ maxload1 = 1
  | none => True

theorem applies_five_iff {maxload1 : Int} (hpos : 0 < maxload1) (hlt : maxload1 < 2 ^ 31)
    (given : Option Int) :
    Applies given (3 * maxload1 / 4)
        (if maxload1 ≠ 0 ∧ given.getD 0 = 0 then (toInt (maxload1 * 3)).tdiv 4 else given.getD 0) ↔
      FiveAsGiven given maxload1 := by
  have hne : maxload1 ≠ 0 := by omega
  cases given with
  | none => simp [Applies, FiveAsGiven, hne, five_exact_iff hpos hlt]
  | some n =>
    by_cases hn : n = 0
    · simp [Applies, FiveAsGiven, hn, hne, exceeds_never_iff, five_off_iff hpos hlt]
    · simp [Applies, FiveAsGiven, hn]

theorem applies_fifteen_iff {maxload1 : Int} (hpos : 0 < maxload1) (given : Option Int) :
    Applies given (maxload1 / 2)
        (if maxload1 ≠ 0 ∧ given.getD 0 = 0 then maxload1.tdiv 2 else given.getD 0) ↔
      FifteenAsGiven given maxload1 := by
  have hne : maxload1 ≠ 0 := by omega
  have hdiv : maxload1.tdiv 2 = maxload1 / 2 := Int.tdiv_eq_ediv_of_nonneg (by omega)
  cases given with
  | none => simp [Applies, FifteenAsGiven, hne, hdiv]
  | some n =>
    by_cases hn : n = 0
    · simp only [Applies, FifteenAsGiven, hn, hne, exceeds_never_iff, hdiv, Option.getD_some, ne_eq,
        not_true_eq_false, not_false_eq_true, and_self, if_true, false_or]
      omega
    · simp [Applies, FifteenAsGiven, hn]

/-- **When the load limits mean what the file says.** For every file that is accepted with a
positive limit for 1 minute: a limit given for 5 (15) minutes is the one that is tested,
with 0 for no test, and one that is not given is three quarters (half) of it, exactly when
`FiveAsGiven` and `FifteenAsGiven` hold of what the file gives. -/
theorem load_limits_iff (env : ConfEnv) {start : Globals} (hstart : Initial start) {text : CString}
    {g : Globals} (hread : readConfig env start (some text) = .ok g)
    (hpos : 0 < (g (.int .maxload1) : Int)) :
    let ps := pairs (getLines text)
    let maxload1 : Int := g (.int .maxload1)
    (Applies (lastNumber "max-load-5".toList ps) (3 * maxload1 / 4) (g (.int .maxload5)) ∧
      Applies (lastNumber "max-load-15".toList ps) (maxload1 / 2) (g (.int .maxload15))) ↔
    FiveAsGiven (lastNumber "max-load-5".toList ps) maxload1 ∧
      FifteenAsGiven (lastNumber "max-load-15".toList ps) maxload1 := by
  intro ps maxload1
  obtain ⟨hone, hfive, hfifteen⟩ := loads_after_run hstart (getLines text)
  obtain ⟨hkeep, hfive', hfifteen'⟩ := finish_loads (show finish env
    (Runs.run readLine (atFirstLine start) (getLines text)) = .ok g from hread)
  have hlt : maxload1 < 2 ^ 31 := by
    have hmax : maxload1 = (lastNumber "max-load-1".toList ps).getD 0 := hkeep.trans hone
    cases hlast : lastNumber "max-load-1".toList ps with
    | none =>
      rw [hmax, hlast]
      decide
    | some n =>
      rw [hmax, hlast]
      exact (lastNumber_bounds hlast).2
  rw [← hkeep, hfive] at hfive'
  rw [← hkeep, hfifteen] at hfifteen'
  rw [hfive', hfifteen']
  exact and_congr (applies_five_iff hpos hlt _) (applies_fifteen_iff hpos _)

/-- The test of the 5 minute average is switched off, and made with a limit of 18. -/
theorem load_zero_undone :
    ∃ g, readConfig ⟨true, fun _ => none, fun _ => none⟩ defaults
        (some "max-load-1 = 24\nmax-load-5 = 0\n".toList) = .ok g ∧
      (g (.int .maxload1) : Int) = 24 ∧
      lastNumber "max-load-5".toList (pairs (getLines "max-load-1 = 24\nmax-load-5 = 0\n".toList)) =
        some 0 ∧
      exceeds (g (.int .maxload5)) 19 = true ∧
      checkLoad g (some { read := .ok "20.10 19.50 3.00 1/90 812\n".toList }) = emaxload ∧
      ¬ Applies (some 0) (3 * 24 / 4) (g (.int .maxload5)) := by
  have hread : ∃ g, readConfig ⟨true, fun _ => none, fun _ => none⟩ defaults
      (some "max-load-1 = 24\nmax-load-5 = 0\n".toList) = .ok g ∧
      (g (.int .maxload1) : Int) = 24 ∧ exceeds (g (.int .maxload5)) 19 = true ∧
      checkLoad g (some { read := .ok "20.10 19.50 3.00 1/90 812\n".toList }) = emaxload :=
    ⟨_, rfl, by decide +kernel, by decide +kernel, by decide +kernel⟩
  obtain ⟨g, hg, hone, hexceeds, hcheck⟩ := hread
  refine ⟨g, hg, hone, by decide +kernel, hexceeds, hcheck, ?_⟩
  intro happlies
  have hnever : ∀ avg, exceeds (g (.int .maxload5)) avg = false := happlies
  rw [hnever 19] at hexceeds
  exact absurd hexceeds (by decide)

/-- A limit that is given and one that is computed. -/
theorem load_limits_given :
    ∃ g, readConfig ⟨true, fun _ => none, fun _ => none⟩ defaults
        (some "max-load-1 = 24\nmax-load-15 = 5\n".toList) = .ok g ∧
      (g (.int .maxload5) : Int) = 18 ∧ (g (.int .maxload15) : Int) = 5 := by
  have hread : ∃ g, readConfig ⟨true, fun _ => none, fun _ => none⟩ defaults
      (some "max-load-1 = 24\nmax-load-15 = 5\n".toList) = .ok g ∧
      (g (.int .maxload1) : Int) = 24 := ⟨_, rfl, by decide +kernel⟩
  obtain ⟨g, hg, hone⟩ := hread
  have hfive : lastNumber "max-load-5".toList
      (pairs (getLines "max-load-1 = 24\nmax-load-15 = 5\n".toList)) = none := by decide +kernel
  have hfifteen : lastNumber "max-load-15".toList
      (pairs (getLines "max-load-1 = 24\nmax-load-15 = 5\n".toList)) = some 5 := by decide +kernel
  have hlimits := load_limits_iff _ (fun _ _ => rfl) hg (by rw [hone]; decide)
  dsimp only at hlimits
  rw [hfive, hfifteen, hone] at hlimits
  obtain ⟨h₅, h₁₅⟩ := hlimits.2 ⟨(by decide : (3 * 24 : Int) < 2 ^ 31), .inl (by decide)⟩
  exact ⟨g, hg, h₅, h₁₅⟩

end Watchdog
