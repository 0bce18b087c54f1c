import WatchdogDaemon.Config.Values

/- The watched files and their intervals: the `file` and `change` lines of `configfile.c`.

   A `file` line adds an entry at the end of the list, and a `change` line walks to the end
   of the list as it is then and stores its number there. Which file a number belongs to
   is a matter of the order of the lines; the lines between them do not touch the list.

   What is proved: `change_belongs` — after every file whose `file` lines have a value and
   whose `change` lines have a number, the list has one entry for each `file` line, in
   order, with the number of the last `change` line before the next `file` line, or 0.

   Correspondence (C ↔ Lean): the lines are read by `readConfig`; `fileEntries` says what
   the list is to be. -/
namespace Watchdog
open Shutdown (atoi)

/-! ## What the list is to be -/

def fileKey : CString := "file".toList
def changeKey : CString := "change".toList

/-- The number of the last `change` line before the next `file` line. -/
def changeBefore (ps : List (CString × CString)) : Option Int :=
  (((ps.takeWhile fun p => p.1 ≠ fileKey).filter fun p => p.1 = changeKey).getLast?).map fun p =>
    atoi p.2

/-- One entry for each `file` line. -/
def fileEntries : List (CString × CString) → List ListEntry
  | [] => []
  | p :: ps =>
    if p.1 = fileKey then
      { toEntry := freshEntry p.2 0, mtime := (changeBefore ps).getD 0 } :: fileEntries ps
    else fileEntries ps

/-- Every `file` line has a value, and every `change` line a number. -/
def GoodFileLines (ps : List (CString × CString)) : Prop :=
  ∀ p ∈ ps, (p.1 = fileKey → p.2 ≠ []) ∧ (p.1 = changeKey → Numeric p.2)

/-! ## What a line does to the list -/

def stepFileList (list : List ListEntry) (p : CString × CString) : List ListEntry :=
  if p.1 = fileKey then addList list p.2 0
  else if p.1 = changeKey then setMtime (atoi p.2) list
  else list

theorem fileList_vars {key : CString} (hfile : key ≠ fileKey) (hchange : key ≠ changeKey) :
    Var.list .fileList ∉ keyVars key := by
  have honly : ∀ o ∈ options, Var.list .fileList ∈ o.2.vars → o.1 = fileKey ∨ o.1 = changeKey := by
    decide +kernel
  intro hv
  unfold keyVars at hv
  cases hfind : options.find? fun o => o.1 = key with
  | none => simp [hfind] at hv
  | some o =>
    have hname : o.1 = key := by simpa using List.find?_some hfind
    rw [hfind, Option.map_some, Option.getD_some] at hv
    obtain h | h := honly o (List.mem_of_find?_eq_some hfind) hv
    · exact hfile (hname.symm.trans h)
    · exact hchange (hname.symm.trans h)

theorem readOption_fileList {p : CString × CString} (hfile : p.1 = fileKey → p.2 ≠ [])
    (hchange : p.1 = changeKey → Numeric p.2) (g : Globals) :
    readOption g p.1 p.2 (.list .fileList) = stepFileList (g (.list .fileList)) p := by
  obtain ⟨key, val⟩ := p
  have hfileOption : (fileKey, Target.list .fileList) ∈ options := by decide
  have hchangeOption : (changeKey, Target.change) ∈ options := by decide
  unfold stepFileList
  by_cases hf : key = fileKey
  · subst hf
    rw [if_pos rfl, readOption_eq hfileOption]
    simp only [Target.read, readListFunc, if_true, if_pos (hfile rfl), Option.map_some,
      Option.getD_some]
    exact Function.update_self _ _ _
  by_cases hc : key = changeKey
  · subst hc
    rw [if_neg hf, if_pos rfl, readOption_eq hchangeOption]
    simp only [Target.read, readIntFunc_numeric (hchange rfl), Option.map_some, Option.getD_some]
    exact Function.update_self _ _ _
  · rw [if_neg hf, if_neg hc]
    exact (readOption_within key val).frame g _ (fileList_vars hf hc)

/-- The list after a run of lines. -/
theorem fileList_after_run {lines : List CString} (hlines : GoodFileLines (pairs lines))
    (g : Globals) :
    Runs.run readLine g lines (.list .fileList) =
      (pairs lines).foldl stepFileList (g (.list .fileList)) := by
  induction lines generalizing g with
  | nil => rfl
  | cons line lines ih =>
    rw [Runs.run_cons]
    unfold pairs at hlines ih ⊢
    cases hline : splitLine line with
    | none =>
      rw [List.filterMap_cons, hline] at hlines ⊢
      rw [readLine_of_split hline, ih hlines]
    | some p =>
      rw [List.filterMap_cons, hline] at hlines ⊢
      have hp := hlines p List.mem_cons_self
      rw [ih fun q hq => hlines q (List.mem_cons_of_mem p hq), readLine_pair hline,
        readOption_fileList hp.1 hp.2, List.foldl_cons]

/-! ## The numbers and their files -/

theorem changeBefore_file {p : CString × CString} (hp : p.1 = fileKey)
    (ps : List (CString × CString)) : changeBefore (p :: ps) = none := by
  simp [changeBefore, hp]

theorem changeBefore_change {p : CString × CString} (hp : p.1 = changeKey)
    (ps : List (CString × CString)) :
    changeBefore (p :: ps) = some ((changeBefore ps).getD (atoi p.2)) := by
  have hne : changeKey ≠ fileKey := by decide
  unfold changeBefore
  rw [List.takeWhile_cons_of_pos (by simp [hp, hne]), List.filter_cons_of_pos (by simp [hp]),
    List.getLast?_cons]
  cases ((ps.takeWhile fun p => p.1 ≠ fileKey).filter fun p => p.1 = changeKey).getLast? <;> rfl

theorem changeBefore_other {p : CString × CString} (hfile : p.1 ≠ fileKey) (hchange : p.1 ≠ changeKey)
    (ps : List (CString × CString)) : changeBefore (p :: ps) = changeBefore ps := by
  unfold changeBefore
  rw [List.takeWhile_cons_of_pos (by simp [hfile]), List.filter_cons_of_neg (by simp [hchange])]

theorem setMtime_append (n : Int) (list : List ListEntry) (e : ListEntry) :
    setMtime n (list ++ [e]) = list ++ [{ e with mtime := n }] := by
  simp [setMtime]

theorem setMtime_setMtime (m n : Int) (list : List ListEntry) :
    setMtime m (setMtime n list) = setMtime m list := by
  obtain rfl | ⟨init, e, rfl⟩ := List.eq_nil_or_concat list
  · rfl
  · rw [List.concat_eq_append, setMtime_append, setMtime_append, setMtime_append]

/-- The list with what the lines up to the next `file` line make of its last entry. -/
def amend (list : List ListEntry) : Option Int → List ListEntry
  | none => list
  | some n => setMtime n list

/-- What the lines make of a list: its last entry is amended until the next file, and one
entry is added for each file. The induction is on the lines, for every list before them. -/
theorem foldl_stepFileList (ps : List (CString × CString)) (list : List ListEntry) :
    ps.foldl stepFileList list = amend list (changeBefore ps) ++ fileEntries ps := by
  induction ps generalizing list with
  | nil => exact (List.append_nil list).symm
  | cons p ps ih =>
    rw [List.foldl_cons, ih]
    by_cases hfile : p.1 = fileKey
    · have hentry : amend (addList list p.2 0) (changeBefore ps) =
          list ++ [{ toEntry := freshEntry p.2 0, mtime := (changeBefore ps).getD 0 }] := by
        cases changeBefore ps with
        | none => rfl
        | some n => exact setMtime_append n list _
      rw [stepFileList, if_pos hfile, hentry, changeBefore_file hfile, fileEntries, if_pos hfile,
        List.append_assoc]
      rfl
    · rw [fileEntries, if_neg hfile, stepFileList, if_neg hfile]
      by_cases hchange : p.1 = changeKey
      · rw [if_pos hchange, changeBefore_change hchange]
        cases changeBefore ps with
        | none => rfl
        | some n => simp only [amend, setMtime_setMtime, Option.getD_some]
      · rw [if_neg hchange, changeBefore_other hfile hchange]

/-! ## The whole file -/

/-- **A change interval belongs to the file line before it.** For every text in which every
`file` line has a value and every `change` line a number, `read_config` leaves a list with
one entry for each `file` line, in order, each with the number of the last `change` line
before the next `file` line, or 0. -/
theorem change_belongs (env : ConfEnv) {start : Globals} (hstart : Initial start) {text : CString}
    (hgood : GoodFileLines (pairs (getLines text))) {g : Globals}
    (hread : readConfig env start (some text) = .ok g) :
    g (.list .fileList) = fileEntries (pairs (getLines text)) := by
  have hempty : atFirstLine start (.list .fileList) = ([] : List ListEntry) :=
    hstart.atFirstLine (by decide) (by decide) (by decide)
  have hamend (c : Option Int) : amend [] c = [] := by
    cases c <;> rfl
  calc g (.list .fileList)
      = Runs.run readLine (atFirstLine start) (getLines text) (.list .fileList) :=
        finish_frame hread (by decide) (by decide) (by decide)
    _ = (pairs (getLines text)).foldl stepFileList [] := by
        rw [fileList_after_run hgood, hempty]
    _ = fileEntries (pairs (getLines text)) := by
        rw [foldl_stepFileList, hamend, List.nil_append]

/-- A `change` line before any file, two after the first, and none after the second. -/
theorem change_belongs_two :
    ∃ g, readConfig ⟨true, fun _ => none, fun _ => none⟩ defaults
        (some "change = 9\nfile = /a\nchange = 5\ninterval = 2\nchange = 6\nfile = /b\n".toList) =
          .ok g ∧
      (g (.list .fileList)).map (fun e => (e.name, e.mtime)) =
        [("/a".toList, 6), ("/b".toList, 0)] := by
  have hread : ∃ g, readConfig ⟨true, fun _ => none, fun _ => none⟩ defaults
      (some "change = 9\nfile = /a\nchange = 5\ninterval = 2\nchange = 6\nfile = /b\n".toList) =
        .ok g := ⟨_, rfl⟩
  have hgood : GoodFileLines (pairs (getLines
      "change = 9\nfile = /a\nchange = 5\ninterval = 2\nchange = 6\nfile = /b\n".toList)) := by
    unfold GoodFileLines
    decide +kernel
  obtain ⟨g, hg⟩ := hread
  refine ⟨g, hg, ?_⟩
  rw [change_belongs _ (fun _ _ => rfl) hgood hg]
  decide +kernel

end Watchdog
