import WatchdogDaemon.Config.LineOrder

/- The spacing of a line: the splitting of `configfile.c`, with `str_start` and `trim_white`.

   A line is cut at its first `=`; the white space around both halves is dropped, at the
   front by moving a pointer and at the back by writing over it. A half may be all white
   space, in which case it is the front that goes and nothing is left for the back. The
   back is walked over with an `int`, which is the last index of a half of at most 2^31
   bytes (`startsRight_short`).

   What is proved: `line_splits_iff` — a key and a value, with any white space around them,
   are what is recovered from the line, whether it ends in a newline or not, and what the
   chain of options is given, exactly when that walk starts in the white space after them,
   or there is none and it stops at once. -/
namespace Watchdog

/-- No white space at the ends. -/
def Trimmed (s : CString) : Prop :=
  (∀ c ∈ s.head?, isWhite c = false) ∧ ∀ c ∈ s.getLast?, isWhite c = false

/-- White space within a line: a space, a tab, a CR or a backspace. -/
def Padding (w : CString) : Prop := ∀ c ∈ w, isWhite c = true ∧ c ≠ '\n'

/-- A key `read_config` can see: one that makes no comment and no assignment. -/
structure IsKey (key : CString) : Prop where
  ne_nil : key ≠ []
  no_comment : key.head? ≠ some '#'
  no_assign : '=' ∉ key
  no_nul : ∀ c ∈ key, c.toNat ≠ 0
  trimmed : Trimmed key

/-- The value may be empty and may hold a `=`, a `#` or inner blanks. -/
structure IsValue (value : CString) : Prop where
  no_newline : '\n' ∉ value
  no_nul : ∀ c ∈ value, c.toNat ≠ 0
  trimmed : Trimmed value

/-! ## White space is dropped -/

/-- Where `trim_white` starts on a word and the white space after it: in that white space,
or, where there is none, before the string or at a character that is not white space. -/
def StartsRight (word w : CString) : Prop :=
  let ii := toInt (((word ++ w).length : Int) - 1)
  (word.length : Int) ≤ ii ∨ (w = [] ∧ (0 ≤ ii → ∀ c ∈ word[ii.toNat]?, isWhite c = false))

theorem rdropWhile_append_white {w : CString} (hw : ∀ c ∈ w, isWhite c = true) (s : CString) :
    (s ++ w).rdropWhile isWhite = s.rdropWhile isWhite := by
  have hrev : ∀ c ∈ w.reverse, isWhite c = true := fun c hc => hw c (List.mem_reverse.1 hc)
  unfold List.rdropWhile
  rw [List.reverse_append, List.dropWhile_append_of_pos hrev]

section Word
variable {word w : CString} (hne : word ≠ []) (hlast : ∀ c ∈ word.getLast?, isWhite c = false)
  (hw : ∀ c ∈ w, isWhite c = true)
include hne hlast hw

/-- **When the white space after a word is dropped.** -/
theorem trimWhite_iff : trimWhite (word ++ w) = word ↔ StartsRight word w := by
  have hpos : 0 < word.length := List.length_pos_iff.2 hne
  have hlen : (word ++ w).length = word.length + w.length := List.length_append
  unfold StartsRight trimWhite
  generalize hii : toInt (((word ++ w).length : Int) - 1) = ii
  have hle : ii ≤ ((word ++ w).length : Int) - 1 := hii ▸ toInt_le (by omega)
  dsimp only
  by_cases hneg : ii < 0
  · -- The loop is not entered.
    have hcount : (ii + 1).toNat = 0 := by omega
    rw [hcount, trimFrom, List.append_right_eq_self]
    constructor
    · intro h
      exact Or.inr ⟨h, fun hge => absurd hge (by omega)⟩
    · intro h
      obtain h | ⟨h, -⟩ := h
      · omega
      · exact h
  · obtain ⟨k, rfl⟩ := Int.eq_ofNat_of_zero_le (Int.not_lt.1 hneg)
    have hk : k < (word ++ w).length := by omega
    have hcount : ((k : Int) + 1).toNat = k + 1 := by omega
    rw [hcount, trimFrom_at hk, Int.toNat_natCast]
    by_cases hin : k < word.length
    · -- It starts inside the word.
      have hget : (word ++ w)[k] = word[k] := List.getElem_append_left hin
      rw [hget]
      cases hc : isWhite word[k] with
      | true =>
        have hshort : (((word ++ w).take k).rdropWhile isWhite).length ≤ k :=
          (List.IsPrefix.length_le (List.rdropWhile_prefix _ _)).trans (List.length_take_le _ _)
        rw [if_pos rfl]
        constructor
        · intro h
          rw [h] at hshort
          omega
        · intro h
          obtain h | ⟨-, h⟩ := h
          · omega
          · have hnot := h (by omega) word[k] (List.getElem?_eq_getElem hin)
            rw [hc] at hnot
            cases hnot
      | false =>
        rw [if_neg (by decide), List.append_right_eq_self]
        constructor
        · intro h
          refine Or.inr ⟨h, fun _ c hmem => ?_⟩
          rw [List.getElem?_eq_getElem hin, Option.mem_some_iff] at hmem
          rw [← hmem, hc]
        · intro h
          obtain h | ⟨h, -⟩ := h
          · omega
          · exact h
    · -- It starts in the white space.
      have hget : isWhite (word ++ w)[k] = true := by
        rw [List.getElem_append_right (by omega)]
        exact hw _ (List.getElem_mem _)
      have htake : (word ++ w).take k = word ++ w.take (k - word.length) := by
        rw [List.take_append, List.take_of_length_le (by omega)]
      rw [if_pos hget, htake, rdropWhile_append_white (fun c hc => hw c (List.mem_of_mem_take hc)),
        rdropWhile_last hlast]
      exact ⟨fun _ => Or.inl (by omega), fun _ => rfl⟩

/-- A word that `trim_white` can count with the white space after it. -/
theorem startsRight_short (h : (word ++ w).length ≤ 2 ^ 31) : StartsRight word w := by
  rw [← trimWhite_iff hne hlast hw, trimWhite_short h, rdropWhile_append_white hw,
    rdropWhile_last hlast]

end Word

/-! ## The line -/

section Line
variable {key value w₁ w₂ w₃ w₄ : CString}

/-- The text of the line, without its newline. -/
def lineText (w₁ key w₂ w₃ value w₄ : CString) : CString :=
  w₁ ++ (key ++ (w₂ ++ '=' :: (w₃ ++ (value ++ w₄))))

theorem nul_not_white {w : CString} (hw : ∀ c ∈ w, isWhite c = true) : ∀ c ∈ w, c.toNat ≠ 0 := by
  intro c hc hnul
  have hwhite := hw c hc
  simp only [isWhite, Bool.or_eq_true, beq_iff_eq] at hwhite
  obtain (((rfl | rfl) | rfl) | rfl) | rfl := hwhite <;> exact absurd hnul (by decide)

theorem assign_not_white {w : CString} (hw : ∀ c ∈ w, isWhite c = true) : '=' ∉ w := fun h =>
  absurd (hw _ h) (by decide)

/-- Where `trim_white` finds the white space after both halves. A value that is empty has
none: it has gone with the white space before it. -/
def Trims (key w₂ value w₄ : CString) : Prop :=
  StartsRight key w₂ ∧ (value = [] ∨ StartsRight value w₄)

variable (hkey : IsKey key) (hvalue : IsValue value) (h₁ : ∀ c ∈ w₁, isWhite c = true)
  (h₂ : ∀ c ∈ w₂, isWhite c = true) (h₃ : ∀ c ∈ w₃, isWhite c = true)
  (h₄ : ∀ c ∈ w₄, isWhite c = true)
include hkey hvalue h₁ h₂ h₃ h₄

theorem lineText_no_nul : ∀ c ∈ lineText w₁ key w₂ w₃ value w₄, c.toNat ≠ 0 := by
  intro c hc
  simp only [lineText, List.mem_append, List.mem_cons] at hc
  obtain hc | hc | hc | rfl | hc | hc | hc := hc
  · exact nul_not_white h₁ c hc
  · exact hkey.no_nul c hc
  · exact nul_not_white h₂ c hc
  · decide
  · exact nul_not_white h₃ c hc
  · exact hvalue.no_nul c hc
  · exact nul_not_white h₄ c hc

/-- The halves of the line. -/
theorem splitLine_lineText : splitLine (lineText w₁ key w₂ w₃ value w₄) =
    some (trimWhite (key ++ w₂), trimWhite (strStart (value ++ w₄))) := by
  have htext : lineText w₁ key w₂ w₃ value w₄ = w₁ ++ ((key ++ w₂) ++ '=' :: (w₃ ++ (value ++ w₄))) := by
    rw [lineText, List.append_assoc key]
  have hhead : ∀ c ∈ (key ++ w₂).head?, isWhite c = false ∧ c ≠ '#' := by
    intro c hc
    rw [List.head?_append_of_ne_nil _ hkey.ne_nil] at hc
    refine ⟨hkey.trimmed.1 c hc, fun heq => hkey.no_comment ?_⟩
    rw [← heq]
    exact hc
  have hassign : '=' ∉ key ++ w₂ := by
    intro h
    obtain h | h := List.mem_append.1 h
    · exact hkey.no_assign h
    · exact assign_not_white h₂ h
  have hnul := lineText_no_nul hkey hvalue h₁ h₂ h₃ h₄
  rw [htext] at hnul
  rw [htext, splitLine_at h₁ hhead (List.append_ne_nil_of_left_ne_nil hkey.ne_nil _) hassign hnul,
    strStart_white h₃]

omit hkey h₁ h₂ h₃ in
/-- The value is recovered when it is empty or the white space after it is found. -/
theorem trimValue_iff : trimWhite (strStart (value ++ w₄)) = value ↔
    value = [] ∨ StartsRight value w₄ := by
  by_cases hnil : value = []
  · have hgone : strStart w₄ = [] := List.dropWhile_eq_nil_iff.2 h₄
    rw [hnil, List.nil_append, hgone]
    exact ⟨fun _ => Or.inl rfl, fun _ => rfl⟩
  · have hstart : strStart (value ++ w₄) = value ++ w₄ := by
      apply strStart_head
      rw [List.head?_append_of_ne_nil _ hnil]
      exact hvalue.trimmed.1
    rw [hstart, trimWhite_iff hnil hvalue.trimmed.2 h₄]
    exact ⟨Or.inr, fun h => h.resolve_left hnil⟩

/-- **When the key and the value are recovered.** -/
theorem splitLine_lineText_iff : splitLine (lineText w₁ key w₂ w₃ value w₄) = some (key, value) ↔
    Trims key w₂ value w₄ := by
  rw [splitLine_lineText hkey hvalue h₁ h₂ h₃ h₄, Option.some.injEq, Prod.mk.injEq,
    trimWhite_iff hkey.ne_nil hkey.trimmed.2 h₂, trimValue_iff hvalue h₄]
  exact Iff.rfl

end Line

theorem newline_not_mem_lineText {key value w₁ w₂ w₃ w₄ : CString} (hkey : '\n' ∉ key)
    (hvalue : '\n' ∉ value) (h₁ : Padding w₁) (h₂ : Padding w₂) (h₃ : Padding w₃)
    (h₄ : Padding w₄) : '\n' ∉ lineText w₁ key w₂ w₃ value w₄ := by
  have hpad {w : CString} (hw : Padding w) : '\n' ∉ w := fun h => (hw _ h).2 rfl
  simp [lineText, hkey, hvalue, hpad h₁, hpad h₂, hpad h₃, hpad h₄]

/-- **When splitting recovers the key and the value.** Whatever white space stands around
them, and with or without a newline, the line is split into the key and the value, the
options are tried with exactly these, and `getline` returned the line whole if the key is
one of a line, exactly when `trim_white` finds the white space after both. -/
theorem line_splits_iff {key value w₁ w₂ w₃ w₄ : CString} (hkey : IsKey key)
    (hvalue : IsValue value) (h₁ : Padding w₁) (h₂ : Padding w₂) (h₃ : Padding w₃)
    (h₄ : Padding w₄) (newline : Bool) :
    let ending := if newline then ['\n'] else []
    let line := lineText w₁ key w₂ w₃ value w₄ ++ ending
    (splitLine line = some (key, value) ∧ (∀ g, readLine g line = readOption g key value) ∧
      ('\n' ∉ key → getLines line = [line])) ↔ Trims key w₂ value (w₄ ++ ending) := by
  intro ending line
  have hending : ∀ c ∈ ending, isWhite c = true := by
    cases newline <;> simp [ending, isWhite]
  have hw₄ : ∀ c ∈ w₄ ++ ending, isWhite c = true := by
    intro c hc
    obtain hc | hc := List.mem_append.1 hc
    · exact (h₄ c hc).1
    · exact hending c hc
  have htext : line = lineText w₁ key w₂ w₃ value (w₄ ++ ending) := by
    simp [line, lineText]
  have hsplit : splitLine line = some (key, value) ↔ Trims key w₂ value (w₄ ++ ending) := by
    rw [htext]
    exact splitLine_lineText_iff hkey hvalue (fun c hc => (h₁ c hc).1) (fun c hc => (h₂ c hc).1)
      (fun c hc => (h₃ c hc).1) hw₄
  constructor
  · intro h
    exact hsplit.1 h.1
  · intro h
    refine ⟨hsplit.2 h, readLine_pair (hsplit.2 h), ?_⟩
    intro hfree
    have hone := newline_not_mem_lineText hfree hvalue.no_newline h₁ h₂ h₃ h₄
    cases newline with
    | true => exact getLines_newline hone []
    | false =>
      have hne : lineText w₁ key w₂ w₃ value w₄ ≠ [] := by simp [lineText]
      have hline : line = lineText w₁ key w₂ w₃ value w₄ := List.append_nil _
      rw [hline, getLines_last hone, if_neg hne]

theorem isKey_admin : IsKey "admin".toList :=
  ⟨by decide, by decide, by decide, by simp, by simp [isWhite], by simp [isWhite]⟩

theorem isValue_root : IsValue "root".toList :=
  ⟨by decide, by simp, by simp [isWhite], by simp [isWhite]⟩

theorem padding_blanks (n : Nat) : Padding (List.replicate n ' ') := by
  intro c hc
  rw [List.eq_of_mem_replicate hc]
  decide

/-- Blanks that take the last index out of an `int` stay behind the value. -/
theorem not_trims_blanks {n : Nat} (hn : n = 2 ^ 31) :
    ¬ Trims "admin".toList [] "root".toList (List.replicate n ' ') := by
  have hlen : ("root".toList ++ List.replicate n ' ').length = 4 + n := by
    rw [List.length_append, List.length_replicate]
    rfl
  have hlast : toInt ((("root".toList ++ List.replicate n ' ').length : Int) - 1) =
      (4 + n : Nat) - 1 - 2 ^ 32 := by
    rw [hlen]
    exact toInt_wrapped (by omega) (by omega)
  intro h
  obtain hnil | hin | ⟨hnone, -⟩ := h.2
  · exact absurd hnil (by decide)
  · rw [hlast] at hin
    have : ("root".toList.length : Int) = 4 := by decide
    omega
  · have := congrArg List.length hnone
    rw [List.length_replicate, List.length_nil] at this
    omega

theorem splitLine_blanks {n : Nat} (hn : n = 2 ^ 31) :
    splitLine (lineText [] "admin".toList [] [] "root".toList (List.replicate n ' ')) ≠
      some ("admin".toList, "root".toList) := by
  have hnone : ∀ c ∈ ([] : CString), isWhite c = true := by simp
  rw [ne_eq, splitLine_lineText_iff isKey_admin isValue_root hnone hnone hnone
    fun c hc => (padding_blanks n c hc).1]
  exact not_trims_blanks hn

/-- 2^31 blanks after a value: the value is not recovered. -/
theorem blanks_not_trimmed :
    IsKey "admin".toList ∧ IsValue "root".toList ∧ Padding (List.replicate (2 ^ 31) ' ') ∧
    splitLine (lineText [] "admin".toList [] [] "root".toList (List.replicate (2 ^ 31) ' ')) ≠
      some ("admin".toList, "root".toList) :=
  ⟨isKey_admin, isValue_root, padding_blanks _, splitLine_blanks rfl⟩

/-- Tabs, a carriage return and a value with a `=` and a `#` of its own. -/
theorem line_splits_iff_test_binary :
    splitLine "\ttest-binary\t= /bin/t x=1 #2 \r\n".toList =
      some ("test-binary".toList, "/bin/t x=1 #2".toList) := by
  have hkey : IsKey "test-binary".toList :=
    ⟨by decide, by decide, by decide, by simp, by simp [isWhite], by simp [isWhite]⟩
  have hvalue : IsValue "/bin/t x=1 #2".toList :=
    ⟨by decide, by simp, by simp [isWhite], by simp [isWhite]⟩
  have htab : Padding ['\t'] := by simp [Padding, isWhite]
  have hspace : Padding [' '] := by simp [Padding, isWhite]
  have hend : Padding [' ', '\r'] := by simp [Padding, isWhite]
  have htrims : Trims "test-binary".toList ['\t'] "/bin/t x=1 #2".toList ([' ', '\r'] ++ ['\n']) :=
    ⟨startsRight_short hkey.ne_nil hkey.trimmed.2 (by simp [isWhite]) (by simp),
      Or.inr (startsRight_short (by decide) hvalue.trimmed.2 (by simp [isWhite]) (by simp))⟩
  exact ((line_splits_iff hkey hvalue htab htab hspace hend true).2 htrims).1

end Watchdog
