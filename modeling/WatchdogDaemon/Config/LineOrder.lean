import Mathlib.Tactic.ByContra
import WatchdogDaemon.Config.ReadConfig

/- The order of the lines of the configuration file.

   Every option has variables of its own (`options_apart`), and `file` and `change` are
   the only two that share one. A line reads and writes the variables of its option and
   nothing else (`readOption_within`), so two lines with different keys commute.

   A text is read as its lines, the last one without a newline (`run_getLines`). The newline
   is white space at the end of a value, and dropped if the value has less than 2^31 bytes
   (`readLine_newline`).

   What is proved: `order_independent` — swapping two adjacent lines with different keys,
   other than `file` and `change`, leaves the result of `read_config` as it is, fatal
   errors included, and so does a blank line, a comment, a line without `=` or one with an
   unknown key, wherever it is inserted. Where a line comes to the end of the file or leaves
   it, its value has to be short. -/
namespace Watchdog
open Footprint

/-! ## The text and its lines -/

/-- A line of the file, without its newline. -/
abbrev ConfLine := { l : CString // '\n' ∉ l }

/-- The lines with a newline between them. The text ends in a newline when the last line
is empty. -/
def fileText (ls : List ConfLine) : CString := ['\n'].intercalate (ls.map Subtype.val)

/-- Every text has lines. -/
theorem exists_fileText : ∀ text : CString, ∃ l ls, fileText (l :: ls) = text
  | [] => ⟨⟨[], List.not_mem_nil⟩, [], rfl⟩
  | c :: rest => by
    obtain ⟨l, ls, hl⟩ := exists_fileText rest
    by_cases hc : c = '\n'
    · refine ⟨⟨[], List.not_mem_nil⟩, l :: ls, ?_⟩
      rw [← hl, hc]
      rfl
    · have hfree : '\n' ∉ c :: l.1 := by
        rw [List.mem_cons, not_or]
        exact ⟨fun h => hc h.symm, l.2⟩
      refine ⟨⟨c :: l.1, hfree⟩, ls, ?_⟩
      rw [← hl]
      cases ls <;> rfl

theorem getLines_newline {l : CString} (h : '\n' ∉ l) (rest : CString) :
    getLines (l ++ '\n' :: rest) = (l ++ ['\n']) :: getLines rest := by
  induction l with
  | nil => simp [getLines]
  | cons c l ih =>
    rw [List.mem_cons, not_or] at h
    have hc : c ≠ '\n' := fun heq => h.1 heq.symm
    simp only [List.cons_append, getLines, if_neg hc, ih h.2]

theorem getLines_last {l : CString} (h : '\n' ∉ l) : getLines l = if l = [] then [] else [l] := by
  induction l with
  | nil => rfl
  | cons c l ih =>
    rw [List.mem_cons, not_or] at h
    have hc : c ≠ '\n' := fun heq => h.1 heq.symm
    simp only [getLines, if_neg hc, ih h.2]
    cases l <;> simp

/-! ## The newline at the end of a line -/

theorem strStart_newline (s : CString) :
    strStart (s ++ ['\n']) = if strStart s = [] then [] else strStart s ++ ['\n'] := by
  unfold strStart
  rw [List.dropWhile_append]
  simp only [List.isEmpty_iff]
  rfl

theorem trimWhite_newline {s : CString} (h : s.length < 2 ^ 31) :
    trimWhite (s ++ ['\n']) = trimWhite s := by
  have hlen : (s ++ ['\n']).length = s.length + 1 := List.length_append
  rw [trimWhite_short (by omega), trimWhite_short (by omega),
    List.rdropWhile_concat_pos _ _ _ (by decide)]

theorem trimWhite_strStart_newline {s : CString} (h : (strStart s).length < 2 ^ 31) :
    trimWhite (strStart (s ++ ['\n'])) = trimWhite (strStart s) := by
  rw [strStart_newline]
  split
  · next hnil => rw [hnil]
  · exact trimWhite_newline h

/-- What follows the first `=` grows at its end only. -/
theorem afterAssign_newline {arg : CString} (h : '=' ∈ arg) :
    ((arg ++ ['\n']).dropWhile (· ≠ '=')).tail = (arg.dropWhile (· ≠ '=')).tail ++ ['\n'] := by
  have hne : arg.dropWhile (· ≠ '=') ≠ [] := by
    intro hnil
    have := List.dropWhile_eq_nil_iff.mp hnil '=' h
    simp at this
  rw [List.dropWhile_append, if_neg (by simpa [List.isEmpty_iff] using hne), List.tail_append_of_ne_nil hne]

theorem beforeAssign_newline {arg : CString} (h : '=' ∈ arg) :
    (arg ++ ['\n']).takeWhile (· ≠ '=') = arg.takeWhile (· ≠ '=') := by
  rw [List.takeWhile_append, if_neg]
  intro hlen
  have hall := (List.takeWhile_prefix _).eq_of_length hlen
  have := List.takeWhile_eq_self_iff.mp hall '=' h
  simp at this

/-- The newline is seen unless a NUL comes before it. -/
theorem upToNul_newline (l : CString) :
    upToNul (l ++ ['\n']) = upToNul l ++ ['\n'] ∨ upToNul (l ++ ['\n']) = upToNul l := by
  unfold upToNul
  rw [List.takeWhile_append]
  split
  · next h =>
    left
    rw [(List.takeWhile_prefix _).eq_of_length h]
    rfl
  · exact Or.inr rfl

/-- A line of white space, a key half, a `=` and a value half. -/
theorem splitLine_at {w arg val : CString} (hw : ∀ c ∈ w, isWhite c = true)
    (hhead : ∀ c ∈ arg.head?, isWhite c = false ∧ c ≠ '#') (hne : arg ≠ []) (hassign : '=' ∉ arg)
    (hnul : ∀ c ∈ w ++ (arg ++ '=' :: val), c.toNat ≠ 0) :
    splitLine (w ++ (arg ++ '=' :: val)) = some (trimWhite arg, trimWhite (strStart val)) := by
  obtain ⟨c, cs, rfl⟩ := List.exists_cons_of_ne_nil hne
  obtain ⟨hwhite, hcomment⟩ := hhead c rfl
  have hseen : upToNul (w ++ (c :: cs ++ '=' :: val)) = w ++ (c :: cs ++ '=' :: val) :=
    List.takeWhile_eq_self_iff.2 fun d hd => decide_eq_true (hnul d hd)
  have hstart : strStart (w ++ (c :: cs ++ '=' :: val)) = c :: cs ++ '=' :: val := by
    rw [strStart_white hw]
    apply strStart_head
    intro d hd
    rw [List.cons_append, List.head?_cons, Option.mem_some_iff] at hd
    rw [← hd]
    exact hwhite
  have hline : ¬ (c :: cs ++ '=' :: val = [] ∨ (c :: cs ++ '=' :: val).head? = some '#') := by
    simp [hcomment]
  -- The key half does not hold the `=` it is cut at.
  have hbefore : ∀ d ∈ c :: cs, (decide (d ≠ '=')) = true := by
    intro d hd
    rw [decide_eq_true_eq]
    intro heq
    exact hassign (heq ▸ hd)
  have harg : (c :: cs ++ '=' :: val).takeWhile (· ≠ '=') = c :: cs := by
    rw [List.takeWhile_append_of_pos hbefore]
    simp
  have hval : ((c :: cs ++ '=' :: val).dropWhile (· ≠ '=')).tail = val := by
    rw [List.dropWhile_append_of_pos hbefore]
    simp
  simp only [splitLine, hseen, hstart, if_neg hline, harg, hval]
  rw [if_pos (by simp)]

/-- What follows the first `=` of a line. -/
def afterAssign (l : CString) : CString := ((strStart (upToNul l)).dropWhile (· ≠ '=')).tail

/-- A line with its newline has the key it has without, and a newline after its value. -/
theorem splitLine_newline (l : CString) : splitLine (l ++ ['\n']) = splitLine l ∨
    ∃ key, splitLine l = some (key, trimWhite (strStart (afterAssign l))) ∧
      splitLine (l ++ ['\n']) = some (key, trimWhite (strStart (afterAssign l ++ ['\n']))) := by
  unfold splitLine afterAssign
  obtain hcut | hcut := upToNul_newline l
  · rw [hcut, strStart_newline]
    by_cases hstart : strStart (upToNul l) = []
    · simp [hstart]
    · rw [if_neg hstart]
      have hhead : (strStart (upToNul l) ++ ['\n']).head? = (strStart (upToNul l)).head? :=
        List.head?_append_of_ne_nil _ hstart
      simp only [hhead, List.append_eq_nil_iff, List.cons_ne_nil, and_false, hstart, false_or,
        List.mem_append, List.mem_singleton, show ¬ '=' = '\n' by decide, or_false]
      split
      · exact Or.inl rfl
      · by_cases heq : '=' ∈ strStart (upToNul l)
        · rw [beforeAssign_newline heq, afterAssign_newline heq]
          exact Or.inr ⟨_, if_pos heq, if_pos heq⟩
        · exact Or.inl (by simp only [if_neg heq])
  · rw [hcut]
    exact Or.inl rfl

theorem key_newline (l : CString) :
    (splitLine (l ++ ['\n'])).map Prod.fst = (splitLine l).map Prod.fst := by
  obtain h | ⟨key, h, hnl⟩ := splitLine_newline l
  · rw [h]
  · rw [h, hnl]
    rfl

/-- A value that `trim_white` can count with a newline after it. -/
def ShortValue (l : CString) : Prop := (strStart (afterAssign l)).length < 2 ^ 31

instance (l : CString) : Decidable (ShortValue l) :=
  inferInstanceAs (Decidable ((strStart (afterAssign l)).length < 2 ^ 31))

/-- The newline after a short value is dropped. -/
theorem readLine_newline {l : CString} (hshort : ShortValue l) (g : Globals) :
    readLine g (l ++ ['\n']) = readLine g l := by
  unfold readLine
  obtain h | ⟨key, h, hnl⟩ := splitLine_newline l
  · rw [h]
  · rw [h, hnl, trimWhite_strStart_newline hshort]

/-- A line that is not the last one. -/
def ConfLine.ended (l : ConfLine) : CString := l.1 ++ ['\n']

/-- A text is read line by line: all but the last line end in a newline. -/
theorem run_getLines (ls : List ConfLine) (l : ConfLine) (g : Globals) :
    Runs.run readLine g (getLines (fileText (ls ++ [l]))) =
      readLine (Runs.run readLine g (ls.map ConfLine.ended)) l.1 := by
  induction ls generalizing g with
  | nil =>
    have hone : fileText [l] = l.1 := by simp [fileText]
    rw [List.nil_append, hone, getLines_last l.2]
    split
    · next h => rw [h]; rfl
    · rfl
  | cons m ls ih =>
    have htext : fileText (m :: ls ++ [l]) = m.1 ++ '\n' :: fileText (ls ++ [l]) := by
      cases ls <;> simp [fileText, List.intercalate]
    rw [htext, getLines_newline m.2, Runs.run_cons, ih]
    rfl

/-! ## The variables of an option -/

/-- The variables a branch reads and writes. -/
def Target.vars : Target → List Var
  | .list v => [.list v]
  | .int v => [.int v]
  | .string v => [.str v]
  | .yesNo v => [.int v]
  | .ynAuto v => [.int v]
  | .change => [.list .fileList]
  | .logtick => [.int .logtick, .int .ticker]

/-- The two keys are `file` and `change`. -/
def FileAndChange (k₁ k₂ : CString) : Prop := k₁ = "file".toList ∧ k₂ = "change".toList

instance (k₁ k₂ : CString) : Decidable (FileAndChange k₁ k₂) :=
  inferInstanceAs (Decidable (k₁ = "file".toList ∧ k₂ = "change".toList))

/-- No two options share a variable, but for `file` and `change`. -/
theorem options_apart : ∀ o ∈ options, ∀ p ∈ options, o.1 ≠ p.1 → ¬ FileAndChange o.1 p.1 →
    ¬ FileAndChange p.1 o.1 → ∀ v ∈ o.2.vars, v ∉ p.2.vars := by
  decide +kernel

/-- The variables of a key; a key that is no option has none. -/
def keyVars (arg : CString) : List Var :=
  ((options.find? fun o => o.1 = arg).map fun o => o.2.vars).getD []

theorem keyVars_apart {k₁ k₂ : CString} (hne : k₁ ≠ k₂) (h₁ : ¬ FileAndChange k₁ k₂)
    (h₂ : ¬ FileAndChange k₂ k₁) : ∀ v ∈ keyVars k₁, v ∉ keyVars k₂ := by
  intro v hv₁ hv₂
  unfold keyVars at hv₁ hv₂
  cases ho : options.find? fun o => o.1 = k₁ with
  | none => simp [ho] at hv₁
  | some o =>
    cases hp : options.find? fun o => o.1 = k₂ with
    | none => simp [hp] at hv₂
    | some p =>
      have hok : o.1 = k₁ := by simpa using List.find?_some ho
      have hpk : p.1 = k₂ := by simpa using List.find?_some hp
      simp only [ho, hp, Option.map_some, Option.getD_some] at hv₁ hv₂
      subst hok hpk
      exact options_apart o (List.mem_of_find?_eq_some ho) p (List.mem_of_find?_eq_some hp)
        hne h₁ h₂ v hv₁ hv₂

/-! ## A line and its variables -/

theorem read_of_ne {name arg : CString} (h : arg ≠ name) (target : Target) (val : CString)
    (g : Globals) : target.read name arg val g = none := by
  cases target <;>
    simp [Target.read, readListFunc, readIntFunc, readStringFunc, readEnumeratedFunc, h]

theorem readIntFunc_self (name val : CString) (imin imax iv : Int) :
    ∃ n, readIntFunc name val name imin imax iv = some n := by
  unfold readIntFunc
  rw [if_pos rfl]
  cases val with
  | nil => exact ⟨_, rfl⟩
  | cons c val =>
    simp only
    split
    · split <;> exact ⟨_, rfl⟩
    · exact ⟨_, rfl⟩

/-- A branch is taken at its own key. -/
theorem read_self (target : Target) (name val : CString) (g : Globals) :
    ∃ g', target.read name name val g = some g' := by
  unfold Target.read
  cases target with
  | list v => by_cases hval : val = [] <;> simp [readListFunc, hval]
  | string v => by_cases hval : val = [] <;> simp [readStringFunc, hval]
  | yesNo v => by_cases hval : val = [] <;> simp [readEnumeratedFunc, hval]
  | ynAuto v => by_cases hval : val = [] <;> simp [readEnumeratedFunc, hval]
  | int v =>
    obtain ⟨n, hn⟩ := readIntFunc_self name val 0 0 (g (.int v))
    exact ⟨_, by simp only [hn, Option.map_some]; rfl⟩
  | change =>
    obtain ⟨n, hn⟩ := readIntFunc_self name val 0 0 0
    exact ⟨_, by simp only [hn, Option.map_some]; rfl⟩
  | logtick =>
    obtain ⟨n, hn⟩ := readIntFunc_self name val 0 0 (g (.int .logtick))
    exact ⟨_, by simp only [hn, Option.map_some]; rfl⟩

/-- The chain ends at the first option of the key. -/
theorem findSome_read (arg val : CString) (g : Globals) (opts : List (CString × Target)) :
    opts.findSome? (fun o => o.2.read o.1 arg val g) =
      (opts.find? fun o => o.1 = arg).bind fun o => o.2.read o.1 arg val g := by
  induction opts with
  | nil => rfl
  | cons o opts ih =>
    by_cases ho : o.1 = arg
    · obtain ⟨g', hg'⟩ := read_self o.2 o.1 val g
      rw [ho] at hg'
      simp [ho, hg']
    · have hno := read_of_ne (Ne.symm ho) o.2 val g
      simp [ho, hno, ih]

theorem within_assign (v w : Var) (f : v.Val → w.Val) {vars : List Var} (hv : v ∈ vars)
    (hw : w ∈ vars) : Within {u | u ∈ vars} fun g : Globals =>
      (Function.update g w (f (g v)) : Globals) :=
  Within.assign v w f hv hw

/-- An assignment, unless there is nothing to assign. -/
theorem within_update (v : Var) (f : v.Val → Option v.Val) :
    Within {w | w ∈ [v]} fun g : Globals =>
      ((f (g v)).map fun x => (Function.update g v x : Globals)).getD g := by
  have hassign : Within {w | w ∈ [v]} fun g : Globals =>
      (Function.update g v ((f (g v)).getD (g v)) : Globals) :=
    within_assign v v (fun x => (f x).getD x) List.mem_cons_self List.mem_cons_self
  have heq : (fun g : Globals => ((f (g v)).map fun x => (Function.update g v x : Globals)).getD g) =
      fun g : Globals => (Function.update g v ((f (g v)).getD (g v)) : Globals) := by
    funext g
    cases f (g v) with
    | none => exact (Function.update_eq_self v g).symm
    | some x => rfl
  rw [heq]
  exact hassign

/-- `logtick` is one assignment after the other. -/
theorem logtick_within (name val : CString) :
    Within {v | v ∈ Target.logtick.vars} fun g =>
      (Target.logtick.read name name val g).getD g := by
  have hfirst : Within {v | v ∈ Target.logtick.vars} fun g : Globals =>
      (Function.update g (.int .logtick)
        ((readIntFunc name val name 0 0 (g (.int .logtick))).getD 0) : Globals) :=
    within_assign (.int .logtick) (.int .logtick)
      (fun n => (readIntFunc name val name 0 0 n).getD 0) (by decide) (by decide)
  have hsecond : Within {v | v ∈ Target.logtick.vars} fun g : Globals =>
      (Function.update g (.int .ticker) (g (.int .logtick) : Int) : Globals) :=
    within_assign (.int .logtick) (.int .ticker) (fun n => n) (by decide) (by decide)
  have heq : (fun g => (Target.logtick.read name name val g).getD g) = fun g =>
      (fun g : Globals => (Function.update g (.int .ticker) (g (.int .logtick) : Int) : Globals))
        ((fun g : Globals => (Function.update g (.int .logtick)
          ((readIntFunc name val name 0 0 (g (.int .logtick))).getD 0) : Globals)) g) := by
    funext g
    obtain ⟨n, hn⟩ := readIntFunc_self name val 0 0 (g (.int .logtick))
    simp [Target.read, hn, Globals.setInt]
  rw [heq]
  exact hsecond.comp hfirst

/-- A branch at its own key reads and writes its own variables. -/
theorem read_within (target : Target) (name val : CString) :
    Within {v | v ∈ target.vars} fun g => (target.read name name val g).getD g := by
  cases target with
  | list v => exact within_update (.list v) fun l => readListFunc name val name 0 l
  | int v => exact within_update (.int v) fun n => readIntFunc name val name 0 0 n
  | string v => exact within_update (.str v) fun s => readStringFunc name val name .allowBlank s
  | yesNo v => exact within_update (.int v) fun n => readEnumeratedFunc name val name yesNoList n
  | ynAuto v => exact within_update (.int v) fun n => readEnumeratedFunc name val name ynAutoList n
  | change =>
    obtain ⟨itmp, hitmp⟩ := readIntFunc_self name val 0 0 0
    simp only [Target.read, hitmp]
    exact within_assign (.list .fileList) (.list .fileList) (setMtime itmp) (by decide) (by decide)
  | logtick => exact logtick_within name val

/-- **A line reads and writes the variables of its key.** -/
theorem readOption_within (arg val : CString) :
    Within {v | v ∈ keyVars arg} fun g => readOption g arg val := by
  simp only [readOption, findSome_read]
  unfold keyVars
  cases ho : options.find? fun o => o.1 = arg with
  | none => exact Within.id _
  | some o =>
    have hname : o.1 = arg := by simpa using List.find?_some ho
    subst hname
    exact read_within o.2 o.1 val

/-! ## The order of the lines -/

/-- The key of a line, if it has one. -/
def ConfLine.key (l : ConfLine) : Option CString := (splitLine l.1).map Prod.fst

/-- The line is blank or a comment, it has no `=`, or its key is no option. -/
def ConfLine.Ignored (l : ConfLine) : Prop :=
  let text := upToNul l.1
  (∀ c ∈ text, isWhite c = true) ∨ (strStart text).head? = some '#' ∨ '=' ∉ text ∨
    ∃ key, l.key = some key ∧ key ∉ options.map Prod.fst

theorem readLine_of_split {l : CString} (h : splitLine l = none) (g : Globals) : readLine g l = g := by
  unfold readLine
  rw [h]

theorem readLine_pair {l arg val : CString} (h : splitLine l = some (arg, val)) (g : Globals) :
    readLine g l = readOption g arg val := by
  unfold readLine
  rw [h]

theorem readLine_of_key {l k : CString} (h : (splitLine l).map Prod.fst = some k) :
    ∃ val, ∀ g, readLine g l = readOption g k val := by
  obtain ⟨⟨arg, val⟩, hsplit, rfl⟩ := Option.map_eq_some_iff.mp h
  exact ⟨val, readLine_pair hsplit⟩

theorem readOption_unknown {arg : CString} (h : arg ∉ options.map Prod.fst) (g : Globals)
    (val : CString) : readOption g arg val = g := by
  have hnone : (options.find? fun o => o.1 = arg) = none := by
    apply List.find?_eq_none.mpr
    intro o ho
    have hne : o.1 ≠ arg := fun heq => h (heq ▸ List.mem_map_of_mem ho)
    simpa using hne
  unfold readOption
  rw [findSome_read, hnone]
  rfl

theorem ConfLine.Ignored.key {l : ConfLine} (h : l.Ignored) :
    l.key = none ∨ ∃ key, l.key = some key ∧ key ∉ options.map Prod.fst := by
  obtain hblank | hcomment | hassign | hunknown := h
  · have hstart : strStart (upToNul l.1) = [] :=
      List.dropWhile_eq_nil_iff.mpr hblank
    exact Or.inl (by simp only [ConfLine.key, splitLine, hstart, true_or, if_true, Option.map_none])
  · exact Or.inl (by simp only [ConfLine.key, splitLine, hcomment, or_true, if_true, Option.map_none])
  · have hstart : '=' ∉ strStart (upToNul l.1) :=
      fun hmem => hassign ((List.dropWhile_suffix _).subset hmem)
    exact Or.inl (by simp only [ConfLine.key, splitLine, if_neg hstart, ite_self, Option.map_none])
  · exact Or.inr hunknown

/-- A line that is ignored, with its newline or without. -/
theorem readLine_ignored {l : ConfLine} (h : l.Ignored) {line : CString}
    (hkey : (splitLine line).map Prod.fst = l.key) (g : Globals) : readLine g line = g := by
  obtain hnone | ⟨key, hsome, hunknown⟩ := h.key
  · rw [hnone, Option.map_eq_none_iff] at hkey
    exact readLine_of_split hkey g
  · obtain ⟨val, hval⟩ := readLine_of_key (hkey.trans hsome)
    rw [hval, readOption_unknown hunknown]

/-- **Lines of different options commute.** -/
theorem readLine_comm {l₁ l₂ k₁ k₂ : CString} (h₁ : (splitLine l₁).map Prod.fst = some k₁)
    (h₂ : (splitLine l₂).map Prod.fst = some k₂) (hne : k₁ ≠ k₂) (hfc : ¬ FileAndChange k₁ k₂)
    (hcf : ¬ FileAndChange k₂ k₁) (g : Globals) :
    readLine (readLine g l₁) l₂ = readLine (readLine g l₂) l₁ := by
  obtain ⟨val₁, hval₁⟩ := readLine_of_key h₁
  obtain ⟨val₂, hval₂⟩ := readLine_of_key h₂
  simp only [hval₁, hval₂]
  exact ((readOption_within k₁ val₁).comm (readOption_within k₂ val₂)
    (keyVars_apart hne hfc hcf) g).symm

theorem readConfig_fileText (env : ConfEnv) (g : Globals) (ls : List ConfLine) (l : ConfLine) :
    readConfig env g (some (fileText (ls ++ [l]))) =
      finish env (readLine (Runs.run readLine ((g.setInt .maxload15 0).setInt .maxload5 0)
        (ls.map ConfLine.ended)) l.1) := by
  simp only [readConfig, run_getLines]

section Swap
variable {l₁ l₂ : ConfLine} {k₁ k₂ : CString} (h₁ : l₁.key = some k₁) (h₂ : l₂.key = some k₂)
  (hne : k₁ ≠ k₂) (hfc : ¬ FileAndChange k₁ k₂) (hcf : ¬ FileAndChange k₂ k₁)
include h₁ h₂ hne hfc hcf

/-- Two lines before the last one. -/
theorem swap_inside (env : ConfEnv) (g : Globals) (pre post : List ConfLine) (last : ConfLine) :
    readConfig env g (some (fileText (pre ++ l₁ :: l₂ :: (post ++ [last])))) =
      readConfig env g (some (fileText (pre ++ l₂ :: l₁ :: (post ++ [last])))) := by
  have hsplit (a b : ConfLine) : pre ++ a :: b :: (post ++ [last]) =
      (pre ++ a :: b :: post) ++ [last] := by simp
  have hswap (g : Globals) : readLine (readLine g l₁.ended) l₂.ended =
      readLine (readLine g l₂.ended) l₁.ended :=
    readLine_comm ((key_newline l₁.1).trans h₁) ((key_newline l₂.1).trans h₂) hne hfc hcf g
  rw [hsplit, hsplit, readConfig_fileText, readConfig_fileText]
  simp only [List.map_append, List.map_cons]
  rw [Runs.run_swap hswap]

/-- The last two lines, with short values: their newlines do not matter. -/
theorem swap_last (hs₁ : ShortValue l₁.1) (hs₂ : ShortValue l₂.1) (env : ConfEnv) (g : Globals)
    (pre : List ConfLine) : readConfig env g (some (fileText (pre ++ [l₁, l₂]))) =
      readConfig env g (some (fileText (pre ++ [l₂, l₁]))) := by
  have hsplit (a b : ConfLine) : pre ++ [a, b] = (pre ++ [a]) ++ [b] := by simp
  have hended₁ (g : Globals) : readLine g l₁.ended = readLine g l₁.1 := readLine_newline hs₁ g
  have hended₂ (g : Globals) : readLine g l₂.ended = readLine g l₂.1 := readLine_newline hs₂ g
  rw [hsplit, hsplit, readConfig_fileText, readConfig_fileText]
  simp only [List.map_append, List.map_cons, List.map_nil, Runs.run_append, Runs.run_cons,
    Runs.run_nil, hended₁, hended₂]
  rw [readLine_comm h₁ h₂ hne hfc hcf]

end Swap

/-- An ignored line before the last one. -/
theorem insert_inside {l : ConfLine} (hl : l.Ignored) (env : ConfEnv) (g : Globals)
    (pre post : List ConfLine) (last : ConfLine) :
    readConfig env g (some (fileText (pre ++ l :: (post ++ [last])))) =
      readConfig env g (some (fileText (pre ++ (post ++ [last])))) := by
  have hwith : pre ++ l :: (post ++ [last]) = (pre ++ l :: post) ++ [last] := by simp
  have hwithout : pre ++ (post ++ [last]) = (pre ++ post) ++ [last] := by simp
  rw [hwith, hwithout, readConfig_fileText, readConfig_fileText]
  have hskip (g : Globals) : readLine g l.ended = g := readLine_ignored hl (key_newline l.1) g
  simp only [List.map_append, List.map_cons]
  rw [Runs.run_skip hskip]

/-- An ignored line at the end: the line before it gets a newline. -/
theorem insert_last {l : ConfLine} (hl : l.Ignored) (env : ConfEnv) (g : Globals)
    (pre : List ConfLine) (hshort : ∀ z ∈ pre.getLast?, ShortValue z.1) :
    readConfig env g (some (fileText (pre ++ [l]))) = readConfig env g (some (fileText pre)) := by
  rw [readConfig_fileText, readLine_ignored hl rfl]
  induction pre using List.reverseRecOn with
  | nil => rfl
  | append_singleton pre z _ =>
    have hz : ShortValue z.1 := hshort z (by simp)
    have hended (g : Globals) : readLine g z.ended = readLine g z.1 := readLine_newline hz g
    rw [readConfig_fileText, List.map_append, Runs.run_append]
    simp only [List.map_cons, List.map_nil, Runs.run_cons, Runs.run_nil, hended]

/-- An address of `n` characters. -/
def longAddress (n : Nat) : CString := List.replicate n 'x'

def adminLine (n : Nat) : ConfLine :=
  ⟨"admin=".toList ++ longAddress n, by simp [longAddress, List.mem_replicate]⟩

def priorityLine : ConfLine := ⟨"priority=1".toList, by decide⟩

theorem length_longAddress (n : Nat) : (longAddress n).length = n := List.length_replicate

section Address
variable {n : Nat} (hn : n = 2 ^ 31) {tail : CString} (htail : tail = [] ∨ tail = ['\n'])
include hn htail

theorem trimWhite_longAddress : trimWhite (longAddress n ++ tail) = longAddress n ++ tail := by
  obtain rfl | rfl := htail
  · rw [List.append_nil, trimWhite_short (by rw [length_longAddress]; exact hn.le)]
    apply rdropWhile_last
    intro c hc
    rw [List.eq_of_mem_replicate (List.mem_of_getLast? hc)]
    decide
  · have hlen : (longAddress n ++ ['\n']).length = n + 1 := by
      rw [List.length_append, length_longAddress, List.length_singleton]
    exact trimWhite_wrapped (by omega) (by omega)

theorem splitLine_adminLine :
    splitLine ((adminLine n).1 ++ tail) = some ("admin".toList, longAddress n ++ tail) := by
  have hword : ∀ c ∈ longAddress n ++ tail, c = 'x' ∨ c = '\n' := by
    intro c hc
    obtain hc | hc := List.mem_append.1 hc
    · exact Or.inl (List.eq_of_mem_replicate hc)
    · obtain rfl | rfl := htail
      · cases hc
      · exact Or.inr (List.mem_singleton.1 hc)
  have hnul : ∀ c ∈ [] ++ ("admin".toList ++ '=' :: (longAddress n ++ tail)), c.toNat ≠ 0 := by
    intro c hc
    rw [List.nil_append, List.mem_append] at hc
    obtain hc | hc := hc
    · exact (show ∀ c ∈ "admin".toList, c.toNat ≠ 0 by simp) c hc
    · obtain rfl | hc := List.mem_cons.1 hc
      · decide
      · obtain rfl | rfl := hword c hc <;> decide
  have hpos : n ≠ 0 := by omega
  have hfirst : (longAddress n).head? = some 'x' := by
    rw [longAddress, List.head?_replicate, if_neg hpos]
  have hstart : strStart (longAddress n ++ tail) = longAddress n ++ tail := by
    apply strStart_head
    intro c hc
    rw [List.head?_append, hfirst, Option.some_or, Option.mem_some_iff] at hc
    rw [← hc]
    decide
  have hsplit := @splitLine_at [] "admin".toList _ (by simp) (by simp [isWhite]) (by simp) (by simp) hnul
  rw [hstart, trimWhite_longAddress hn htail] at hsplit
  exact hsplit

theorem readLine_adminLine (g : Globals) :
    readLine g ((adminLine n).1 ++ tail) = g.setStr .admin (some (longAddress n ++ tail)) := by
  have hne : longAddress n ++ tail ≠ [] := by
    intro h
    have hlen := congrArg List.length (List.append_eq_nil_iff.1 h).1
    rw [length_longAddress, List.length_nil] at hlen
    omega
  have hoption : options.find? (fun o => o.1 = "admin".toList) =
      some ("admin".toList, .string .admin) := by decide
  rw [readLine_pair (splitLine_adminLine hn htail), readOption, findSome_read, hoption]
  simp only [Option.bind_some, Target.read, readStringFunc, if_true, if_pos hne, Option.map_some,
    Option.getD_some]

end Address

theorem readLine_priorityLine {line : CString} (h : splitLine line = some ("priority".toList, ['1']))
    (g : Globals) : readLine g line = g.setInt .schedprio 1 := by
  have hoption : options.find? (fun o => o.1 = "priority".toList) =
      some ("priority".toList, .int .schedprio) := by decide
  have hvalue : readIntFunc "priority".toList ['1'] "priority".toList 0 0 (g (.int .schedprio)) =
      some 1 := by
    have hnumber : isNumber '1' = true := by decide
    have hatoi : Shutdown.atoi ['1'] = 1 := by decide
    simp only [readIntFunc, hnumber, hatoi, if_true, lt_self_iff_false, if_false]
  rw [readLine_pair h, readOption, findSome_read, hoption]
  simp only [Option.bind_some, Target.read, hvalue, Option.map_some, Option.getD_some]

/-- The address of a configuration that is accepted. -/
def addressOf : Except Fatal Globals → Option CString
  | .ok g => g (.str .admin)
  | .error _ => none

theorem addressOf_finish {env : ConfEnv} (hclose : env.fclose = true) {g : Globals}
    (htint : (g (.int .tint) : Int) = 1) : addressOf (finish env g) = g (.str .admin) := by
  have hok : finish env g = .ok (deriveLoads (g.setList .trBinList
      (addTestBinaries env (g (.str .testDir)) (g (.list .trBinList))))) := by
    simp only [finish, hclose, Bool.not_true, Bool.false_eq_true, if_false]
    exact if_neg (by rw [Globals.setList, Function.update_of_ne (by decide), htint]; decide)
  have hframe := finish_frame hok (v := .str .admin) (by decide) (by decide) (by decide)
  rw [hok]
  exact hframe

section Address
variable {n : Nat} (hn : n = 2 ^ 31) {env : ConfEnv} (hclose : env.fclose = true)
include hn hclose

theorem addressOf_last : addressOf (readConfig env defaults
    (some (fileText [priorityLine, adminLine n]))) = some (longAddress n) := by
  have hread := readLine_adminLine hn (Or.inl rfl)
  rw [List.append_nil, List.append_nil] at hread
  have htext : [priorityLine, adminLine n] = [priorityLine] ++ [adminLine n] := rfl
  have hended : splitLine priorityLine.ended = some ("priority".toList, ['1']) := by decide
  rw [htext, readConfig_fileText, List.map_singleton, Runs.run_cons, Runs.run_nil,
    readLine_priorityLine hended, hread, addressOf_finish hclose rfl]
  exact Function.update_self _ _ _

theorem addressOf_first : addressOf (readConfig env defaults
    (some (fileText [adminLine n, priorityLine]))) = some (longAddress n ++ ['\n']) := by
  have hread := readLine_adminLine hn (Or.inr rfl)
  have htext : [adminLine n, priorityLine] = [adminLine n] ++ [priorityLine] := rfl
  have hplain : splitLine priorityLine.1 = some ("priority".toList, ['1']) := by decide
  rw [htext, readConfig_fileText, List.map_singleton, Runs.run_cons, Runs.run_nil,
    readLine_priorityLine hplain, ConfLine.ended, hread, addressOf_finish hclose rfl,
    Globals.setInt, Function.update_of_ne (by decide)]
  exact Function.update_self _ _ _

theorem address_gets_newline :
    (adminLine n).key = some "admin".toList ∧ priorityLine.key = some "priority".toList ∧
    readConfig env defaults (some (fileText [priorityLine, adminLine n])) ≠
      readConfig env defaults (some (fileText [adminLine n, priorityLine])) := by
  have hsplit := splitLine_adminLine hn (Or.inl rfl)
  rw [List.append_nil, List.append_nil] at hsplit
  refine ⟨by rw [ConfLine.key, hsplit]; rfl, by decide, ?_⟩
  intro hsame
  have haddress := congrArg addressOf hsame
  rw [addressOf_last hn hclose, addressOf_first hn hclose, Option.some.injEq] at haddress
  have hlen := congrArg List.length haddress
  rw [List.length_append, List.length_singleton] at hlen
  omega

end Address

end Watchdog
