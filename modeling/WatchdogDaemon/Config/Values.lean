import WatchdogDaemon.Config.LineOrder
import WatchdogDaemon.TextFile

/- The numbers of the configuration file: what an integer option holds after the file.

   `read_int_func` leaves its variable alone when the value is no number, and says so in
   its comment. For the options that hand it the setting itself this is all there is to
   it: a setting is the last number that was given, or what it was before the file
   (`int_after_run`). `change` hands it a scratch variable that is 0, and stores that in
   the last file entry whatever the value was; `logtick` copies its setting to `ticker` in
   any case, which is harmless since the two are always equal.

   What is proved: `bad_number_iff` — in every state that is reached while a file is read,
   a line with an integer key and a bad number leaves everything as it is unless it is a
   `change` line and the last file entry has an interval already. -/
namespace Watchdog
open Shutdown (atoi)

/-- The globals `main` starts with: those of `configfile.c`, but for what the command line
and the build set. -/
def Initial (g : Globals) : Prop :=
  ∀ v, v ∉ [Var.int .softboot, Var.int .verbose, Var.str .testDir] → g v = defaults v

/-- The globals when the first line is read. -/
def atFirstLine (g : Globals) : Globals := (g.setInt .maxload15 0).setInt .maxload5 0

theorem Initial.atFirstLine {g : Globals} (h : Initial g) {v : Var}
    (hv : v ∉ [Var.int .softboot, Var.int .verbose, Var.str .testDir]) (h₅ : v ≠ .int .maxload5)
    (h₁₅ : v ≠ .int .maxload15) : atFirstLine g v = defaults v := by
  rw [Watchdog.atFirstLine, Globals.setInt, Function.update_of_ne h₅, Globals.setInt,
    Function.update_of_ne h₁₅, h v hv]

/-- The value looks like a number. -/
def Numeric (val : CString) : Prop := val.head?.any isNumber = true

instance (val : CString) : Decidable (Numeric val) :=
  inferInstanceAs (Decidable (val.head?.any isNumber = true))

/-! ## One option -/

theorem find_option : ∀ o ∈ options, options.find? (fun p => p.1 = o.1) = some o := by
  decide +kernel

/-- A line is handled by the branch of its key. -/
theorem readOption_eq {o : CString × Target} (ho : o ∈ options) (g : Globals) (val : CString) :
    readOption g o.1 val = (o.2.read o.1 o.1 val g).getD g := by
  unfold readOption
  rw [findSome_read, find_option o ho]
  rfl

theorem readIntFunc_numeric {val : CString} (h : Numeric val) (name : CString) (iv : Int) :
    readIntFunc name val name 0 0 iv = some (atoi val) := by
  cases val with
  | nil => exact absurd h (by decide)
  | cons c val =>
    have hc : isNumber c = true := h
    simp [readIntFunc, hc]

theorem readIntFunc_bad {val : CString} (h : ¬ Numeric val) (name : CString) (iv : Int) :
    readIntFunc name val name 0 0 iv = some iv := by
  cases val with
  | nil => simp [readIntFunc]
  | cons c val =>
    have hc : ¬ isNumber c = true := h
    simp [readIntFunc, hc]

theorem option_unique {key : CString} {s t : Target} (hs : (key, s) ∈ options)
    (ht : (key, t) ∈ options) : s = t := by
  have hfirst : options.find? (fun p => p.1 = key) = some (key, s) := find_option _ hs
  have hsecond : options.find? (fun p => p.1 = key) = some (key, t) := find_option _ ht
  exact congrArg Prod.snd (Option.some.inj (hfirst.symm.trans hsecond))

theorem keyVars_option {o : CString × Target} (ho : o ∈ options) : keyVars o.1 = o.2.vars := by
  unfold keyVars
  rw [find_option o ho]
  rfl

/-- The variables of an option other than `file` and `change` are its own. -/
theorem own_vars {o : CString × Target} (ho : o ∈ options) (hfile : o.1 ≠ "file".toList)
    (hchange : o.1 ≠ "change".toList) {key : CString} (hne : key ≠ o.1) {v : Var}
    (hv : v ∈ o.2.vars) : v ∉ keyVars key := by
  rw [← keyVars_option ho] at hv
  exact keyVars_apart (Ne.symm hne) (fun h => hfile h.1) (fun h => hchange h.2) v hv

/-- A line leaves the variables of other keys alone. -/
theorem readLine_frame {line key val : CString} (hline : splitLine line = some (key, val))
    {v : Var} (hv : v ∉ keyVars key) (g : Globals) : readLine g line v = g v := by
  rw [readLine_pair hline]
  exact (readOption_within key val).frame g v hv

/-! ## The last number -/

/-- The keys and values of the lines that have them. -/
def pairs (lines : List CString) : List (CString × CString) := lines.filterMap splitLine

/-- The last number given for a key. -/
def lastNumber (name : CString) (ps : List (CString × CString)) : Option Int :=
  ((ps.filter fun p => p.1 = name ∧ Numeric p.2).getLast?).map fun p => atoi p.2

theorem lastNumber_cons (name : CString) (p : CString × CString) (ps : List (CString × CString))
    (n : Int) :
    (lastNumber name (p :: ps)).getD n =
      (lastNumber name ps).getD (if p.1 = name ∧ Numeric p.2 then atoi p.2 else n) := by
  unfold lastNumber
  rw [List.filter_cons]
  by_cases hp : p.1 = name ∧ Numeric p.2
  · rw [if_pos (by simpa using hp), if_pos hp, List.getLast?_cons]
    cases (ps.filter fun p => p.1 = name ∧ Numeric p.2).getLast? <;> rfl
  · rw [if_neg (by simpa using hp), if_neg hp]

theorem lastNumber_bounds {name : CString} {ps : List (CString × CString)} {n : Int}
    (h : lastNumber name ps = some n) : -2 ^ 31 ≤ n ∧ n < 2 ^ 31 := by
  obtain ⟨p, -, rfl⟩ := Option.map_eq_some_iff.1 h
  rw [atoi_eq]
  exact toInt_bounds _

theorem readOption_int {name : CString} {v : IntVar} (ho : (name, Target.int v) ∈ options)
    (g : Globals) (val : CString) :
    readOption g name val (.int v) = (if Numeric val then atoi val else g (.int v) : Int) := by
  rw [readOption_eq ho]
  split
  · next h =>
    simp only [Target.read, readIntFunc_numeric h, Option.map_some, Option.getD_some]
    exact Function.update_self _ _ _
  · next h =>
    simp only [Target.read, readIntFunc_bad h, Option.map_some, Option.getD_some]
    exact Function.update_self _ _ _

/-- An integer setting after a line. -/
theorem readLine_int {name : CString} {v : IntVar} (ho : (name, Target.int v) ∈ options)
    (g : Globals) {line key val : CString} (hline : splitLine line = some (key, val)) :
    readLine g line (.int v) = (if key = name ∧ Numeric val then atoi val else g (.int v) : Int) := by
  by_cases hkey : key = name
  · rw [readLine_pair hline]
    simp only [hkey, readOption_int ho, true_and]
  · have hfile : name ≠ "file".toList := fun h =>
      Target.noConfusion (option_unique ho (h ▸ by decide : (name, Target.list .fileList) ∈ options))
    have hchange : name ≠ "change".toList := fun h =>
      Target.noConfusion (option_unique ho (h ▸ by decide : (name, Target.change) ∈ options))
    have hv : Var.int v ∉ keyVars key :=
      own_vars ho hfile hchange hkey List.mem_cons_self
    rw [readLine_frame hline hv, if_neg (fun h => hkey h.1)]

/-- **A setting is the last number that was given for it**, or what it was before. -/
theorem int_after_run {name : CString} {v : IntVar} (ho : (name, Target.int v) ∈ options)
    (lines : List CString) (g : Globals) :
    Runs.run readLine g lines (.int v) = (lastNumber name (pairs lines)).getD (g (.int v) : Int) := by
  induction lines generalizing g with
  | nil => rfl
  | cons line lines ih =>
    rw [Runs.run_cons, ih]
    unfold pairs
    cases hline : splitLine line with
    | none => rw [List.filterMap_cons, hline, readLine_of_split hline]
    | some pair =>
      obtain ⟨key, val⟩ := pair
      rw [List.filterMap_cons, hline, lastNumber_cons, readLine_int ho g hline]

/-! ## A bad number -/

/-- The branches that call `read_int_func`. -/
def Target.isInt : Target → Bool
  | .int _ => true
  | .change => true
  | .logtick => true
  | _ => false

theorem setMtime_zero_iff (list : List ListEntry) :
    setMtime 0 list = list ↔ ¬ ∃ e ∈ list.getLast?, e.mtime ≠ 0 := by
  cases hlast : list.getLast? with
  | none => simp [setMtime, hlast]
  | some e =>
    have hlist : list.dropLast ++ [e] = list := List.dropLast_append_getLast? e hlast
    simp only [setMtime, hlast, Option.mem_some_iff, exists_eq_left', not_not]
    constructor
    · intro h
      rw [← hlist, List.dropLast_concat] at h
      have hentry := List.append_cancel_left h
      rw [List.cons.injEq] at hentry
      exact (congrArg ListEntry.mtime hentry.1).symm
    · intro h
      rw [← h]
      exact hlist

theorem setList_self_iff (g : Globals) (v : ListVar) (l : List ListEntry) :
    g.setList v l = g ↔ l = g (.list v) := by
  constructor
  · intro h
    have hval := congrFun h (.list v)
    rw [Globals.setList, Function.update_self] at hval
    exact hval
  · intro h
    rw [h]
    exact Function.update_eq_self _ g

/-- `ticker` follows `logtick`. -/
def TickersEqual (g : Globals) : Prop := (g (.int .ticker) : Int) = g (.int .logtick)

/-- What a bad number does, at each of the integer keys. -/
theorem readOption_bad {key val : CString} {target : Target} (hkey : (key, target) ∈ options)
    (hint : target.isInt = true) (hbad : ¬ Numeric val) {g : Globals} (hg : TickersEqual g) :
    readOption g key val =
      if target = .change then g.setList .fileList (setMtime 0 (g (.list .fileList))) else g := by
  rw [readOption_eq hkey]
  cases target with
  | int v =>
    simp only [Target.read, readIntFunc_bad hbad, Option.map_some, Option.getD_some]
    exact Function.update_eq_self _ g
  | change =>
    simp only [Target.read, readIntFunc_bad hbad, Option.map_some, Option.getD_some, if_true]
  | logtick =>
    have hsame : g.setInt .logtick (g (.int .logtick)) = g := Function.update_eq_self _ g
    simp only [Target.read, readIntFunc_bad hbad, Option.map_some, Option.getD_some]
    rw [hsame, ← hg]
    exact Function.update_eq_self _ g
  | list v => cases hint
  | string v => cases hint
  | yesNo v => cases hint
  | ynAuto v => cases hint

/-! ## The states that are reached -/

theorem tickersEqual_atFirstLine {g : Globals} (h : Initial g) : TickersEqual (atFirstLine g) := by
  have hticker : atFirstLine g (.int .ticker) = defaults (.int .ticker) :=
    h.atFirstLine (by decide) (by decide) (by decide)
  have hlogtick : atFirstLine g (.int .logtick) = defaults (.int .logtick) :=
    h.atFirstLine (by decide) (by decide) (by decide)
  rw [TickersEqual, hticker, hlogtick]
  rfl

theorem TickersEqual.readLine {g : Globals} (h : TickersEqual g) (line : CString) :
    TickersEqual (readLine g line) := by
  cases hline : splitLine line with
  | none =>
    rw [readLine_of_split hline]
    exact h
  | some pair =>
    obtain ⟨key, val⟩ := pair
    have hoption : ("logtick".toList, Target.logtick) ∈ options := by decide
    by_cases hkey : key = "logtick".toList
    · obtain ⟨n, hn⟩ := readIntFunc_self "logtick".toList val 0 0 (g (.int .logtick))
      have hread : readOption g key val = (g.setInt .logtick n).setInt .ticker n := by
        rw [hkey, readOption_eq hoption]
        simp only [Target.read, hn, Option.map_some, Option.getD_some]
      unfold TickersEqual
      rw [readLine_pair hline]
      simp only [hread, Globals.setInt, Function.update_self, ne_eq, Var.int.injEq, reduceCtorEq,
        not_false_eq_true, Function.update_of_ne]
    · have hvars : ∀ v ∈ Target.logtick.vars, v ∉ keyVars key := fun v hv =>
        own_vars hoption (by decide) (by decide) hkey hv
      unfold TickersEqual
      rw [readLine_frame hline (hvars _ (by decide)), readLine_frame hline (hvars _ (by decide))]
      exact h

/-- `logtick` only takes what `atoi` gives. -/
theorem readLine_logtick (g : Globals) (line : CString) :
    (readLine g line (.int .logtick) : Int) = g (.int .logtick) ∨
      ∃ val, (readLine g line (.int .logtick) : Int) = atoi val := by
  cases hline : splitLine line with
  | none => exact Or.inl (by rw [readLine_of_split hline])
  | some pair =>
    obtain ⟨key, val⟩ := pair
    have hoption : ("logtick".toList, Target.logtick) ∈ options := by decide
    by_cases hkey : key = "logtick".toList
    · have hread : ∀ n, readIntFunc "logtick".toList val "logtick".toList 0 0 (g (.int .logtick)) = some n →
          (readLine g line (.int .logtick) : Int) = n := by
        intro n hn
        rw [readLine_pair hline, hkey, readOption_eq hoption]
        simp only [Target.read, hn, Option.map_some, Option.getD_some, Globals.setInt, Function.update_self, ne_eq,
          Var.int.injEq, reduceCtorEq, not_false_eq_true, Function.update_of_ne]
      by_cases hnumeric : Numeric val
      · exact Or.inr ⟨val, hread _ (readIntFunc_numeric hnumeric _ _)⟩
      · exact Or.inl (hread _ (readIntFunc_bad hnumeric _ _))
    · have hvar : Var.int .logtick ∉ keyVars key := own_vars hoption (by decide) (by decide) hkey (by decide)
      exact Or.inl (readLine_frame hline hvar g)

/-- **When a bad number changes nothing.** In every state that is reached while a file is
read, a line with an integer key whose value does not start like a number leaves all
settings and lists as they were, unless its key is `change` and the last file entry has an
interval. -/
theorem bad_number_iff {start : Globals} (hstart : Initial start) (lines : List CString)
    {line key val : CString} (hline : splitLine line = some (key, val)) {target : Target}
    (hkey : (key, target) ∈ options) (hint : target.isInt = true) (hbad : ¬ Numeric val) :
    let g := Runs.run readLine (atFirstLine start) lines
    readLine g line = g ↔
      ¬ (key = "change".toList ∧ ∃ e ∈ (g (.list .fileList)).getLast?, e.mtime ≠ 0) := by
  intro g
  have hg : TickersEqual g := by
    have hlines : Runs.Allowed readLine (fun _ _ => True) (atFirstLine start) lines :=
      Runs.allowed_of_forall (P := fun _ => True) fun _ _ => trivial
    exact Runs.run_inv (fun s l h _ => h.readLine l) (tickersEqual_atFirstLine hstart) hlines
  have hchange : key = "change".toList ↔ target = .change := by
    have hoption : ("change".toList, Target.change) ∈ options := by decide
    have honly : ∀ o ∈ options, o.2 = .change → o.1 = "change".toList := by decide +kernel
    constructor
    · intro h
      rw [h] at hkey
      exact option_unique hkey hoption
    · exact honly _ hkey
  rw [readLine_pair hline, readOption_bad hkey hint hbad hg, hchange]
  by_cases htarget : target = .change
  · rw [if_pos htarget, setList_self_iff, setMtime_zero_iff]
    simp [htarget]
  · simp [htarget]

/-- A typing error in a second `change` line switches the test of the file's age off. -/
theorem bad_change_clears :
    let g := Runs.run readLine (atFirstLine defaults) ["file = /a\n".toList, "change = 5\n".toList]
    let line := "change = x\n".toList
    splitLine line = some ("change".toList, ['x']) ∧ ¬ Numeric ['x'] ∧
    (g (.list .fileList)).map ListEntry.mtime = [5] ∧
    (readLine g line (.list .fileList)).map ListEntry.mtime = [0] ∧ readLine g line ≠ g := by
  intro g line
  have hbefore : (g (.list .fileList)).map ListEntry.mtime = [5] := by decide +kernel
  have hafter : (readLine g line (.list .fileList)).map ListEntry.mtime = [0] := by decide +kernel
  refine ⟨by decide +kernel, by decide, hbefore, hafter, ?_⟩
  intro hsame
  rw [hsame, hbefore] at hafter
  exact absurd hafter (by decide)

/-- A bad interval is not taken. -/
theorem bad_number_interval :
    let g := Runs.run readLine (atFirstLine defaults) ["interval = 10\n".toList]
    readLine g "interval = ten\n".toList = g := by
  intro g
  have hstart : Initial defaults := fun _ _ => rfl
  have hkey : ("interval".toList, Target.int .tint) ∈ options := by decide
  have hline : splitLine "interval = ten\n".toList = some ("interval".toList, "ten".toList) := by
    decide +kernel
  refine (bad_number_iff hstart ["interval = 10\n".toList] hline hkey rfl (by decide)).2 ?_
  intro h
  exact absurd h.1 (by decide)

end Watchdog
