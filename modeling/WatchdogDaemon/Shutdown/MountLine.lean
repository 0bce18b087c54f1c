import Mathlib.Data.List.TakeWhile
import WatchdogDaemon.Lib.Fields
import WatchdogDaemon.Lib.Monitor
import WatchdogDaemon.Shutdown.MountEntries
import WatchdogDaemon.TextFile

/- The lines of a mount table: what `my_addmntent` writes and `my_getmntent` reads.

   The words of an entry are written with a blank between them, and a blank, tab, newline or
   backslash in a word as three octal digits. The reader takes words by the blanks around
   them, so that it cannot see an empty word, takes a line that starts with # for a comment,
   and takes for a number only digits.

   What is proved: `read_back_iff` — the line of an entry is read back as the entry exactly if
   its four words are not empty, the first does not start with #, and the two numbers are not
   negative. `parseLine` is the reader without its calls (`wp_readLine`). -/
namespace Watchdog.Shutdown
open CallTree Fields

/-! ## Words -/

theorem unescape_cons {c : Char} (h : c ≠ '\\') (s : CString) : unescape (c :: s) = c :: unescape s :=
  unescape.eq_2 c s fun _ _ _ _ hc _ => h hc

/-- The characters that are escaped are read back. -/
theorem unescape_octal {c : Char} (h : needEscaping c = true) (s : CString) :
    unescape ('\\' :: octalDigit (c.toNat / 64) :: octalDigit (c.toNat / 8) :: octalDigit c.toNat :: s) =
      c :: unescape s := by
  have hcases : c = ' ' ∨ c = '\t' ∨ c = '\n' ∨ c = '\\' := by
    simpa [needEscaping, or_assoc] using h
  rw [unescape]
  rcases hcases with rfl | rfl | rfl | rfl <;> rfl

/-- Escaping is undone. -/
theorem unescape_escape (s : CString) : unescape (escape s) = s := by
  induction s with
  | nil => rfl
  | cons c s ih =>
    unfold escape
    split
    · next h => rw [unescape_octal h, ih]
    · next h =>
      have hc : c ≠ '\\' := by
        rintro rfl
        exact h rfl
      rw [unescape_cons hc, ih]

/-- An escaped word has no white space. -/
theorem plain_escape (s : CString) : ∀ c ∈ escape s, isSpaceOrTab c = false ∧ c ≠ '\n' := by
  have hdigit : ∀ n, isSpaceOrTab (octalDigit n) = false ∧ octalDigit n ≠ '\n' := by
    intro n
    have hlt := Nat.mod_lt n (show 0 < 8 by decide)
    unfold octalDigit
    generalize n % 8 = k at hlt
    revert k
    decide
  induction s with
  | nil => nofun
  | cons c s ih =>
    intro d hd
    unfold escape at hd
    split at hd
    · simp only [List.mem_cons] at hd
      rcases hd with rfl | rfl | rfl | rfl | hd
      · decide
      · exact hdigit _
      · exact hdigit _
      · exact hdigit _
      · exact ih d hd
    · next h =>
      rcases List.mem_cons.mp hd with rfl | hd
      · simp only [needEscaping, Bool.or_eq_true, beq_iff_eq, not_or] at h
        simp [isSpaceOrTab, h]
      · exact ih d hd

theorem escape_eq_nil {s : CString} : escape s = [] ↔ s = [] := by
  cases s with
  | nil => simp [escape]
  | cons c s =>
    unfold escape
    split <;> simp

/-- Only # itself is written as one. -/
theorem head_escape {s : CString} : (escape s).head? = some '#' ↔ s.head? = some '#' := by
  cases s with
  | nil => simp [escape]
  | cons c s =>
    unfold escape
    split
    · next h =>
      have hne : c ≠ '#' := by
        rintro rfl
        exact absurd h (by decide)
      simp [hne]
    · simp

/-- The word of a line as a string of its own. -/
def wordValue (s : CString) : CString := (unescape (word isSpaceOrTab s)).takeWhile fun c => c.toNat ≠ 0

/-- A C string has no NUL. -/
def NoNul (s : CString) : Prop := ∀ c ∈ s, c.toNat ≠ 0

theorem takeWhile_noNul {s : CString} (h : NoNul s) : s.takeWhile (fun c => c.toNat ≠ 0) = s :=
  List.takeWhile_eq_self_iff.mpr fun c hc => decide_eq_true (h c hc)

/-! ## Numbers -/

theorem toString_nonneg {n : Int} (h : 0 ≤ n) : (toString n).toList = Nat.toDigits 10 n.toNat := by
  obtain ⟨k, rfl⟩ := Int.eq_ofNat_of_zero_le h
  exact String.toList_ofList

theorem toString_neg {n : Int} (h : n < 0) : ∃ ds, (toString n).toList = '-' :: ds := by
  obtain ⟨k, rfl⟩ := Int.eq_negSucc_of_lt_zero h
  exact ⟨Nat.toDigits 10 (k + 1), by simp [toString, Int.repr, Nat.repr]⟩

/-! ## Lines -/

/-- `my_getmntent` on a piece, without its calls. -/
def parseLine (buf : CString) : Line :=
  if !buf.contains '\n' then .tooLong
  else
    let s := skipSpaces (buf.takeWhile (· ≠ '\n'))
    if s.isEmpty || s.head? = some '#' then .blank
    else
      let s₁ := skipSpaces (skipNonspaces s)
      let s₂ := skipSpaces (skipNonspaces s₁)
      let s₃ := skipSpaces (skipNonspaces s₂)
      match numbers (skipSpaces (skipNonspaces s₃)) with
      | none => .bad
      | some (freq, passno) => .entry ⟨wordValue s, wordValue s₁, wordValue s₂, wordValue s₃, freq, passno⟩

section Calls
variable {μ : Type} {M : Monitor Call Answer μ} {E : μ → Prop} {m : μ}

theorem wp_xmalloc (hM : M.Ignores m .malloc) (hE : E m) : Wp M (fun _ m' => m' = m) E xmalloc m := by
  refine ⟨hM.1, fun (ok : Bool) _ => ?_⟩
  have hnext : M.next m .malloc ok = m := hM.2 ok
  show Wp M _ E (if ok = true then _ else _) (M.next m .malloc ok)
  rw [hnext]
  exact Wp.ite (fun _ => rfl) fun _ => hE

/-- The calls are for memory only, and the answer is that of `parseLine`. -/
theorem wp_readLine (hM : M.Ignores m .malloc) (hE : E m) (buf : CString) :
    Wp M (fun line m' => line = parseLine buf ∧ m' = m) E (readLine buf) m := by
  have hword : ∀ s, Wp M (fun w m' => w = wordValue s ∧ m' = m) E (unmangle s) m := fun s =>
    (wp_xmalloc hM hE).bind fun _ _ h => ⟨rfl, h⟩
  unfold readLine parseLine
  refine Wp.ite (fun h => ?_) fun h => ?_
  · rw [if_pos h]
    exact ⟨rfl, rfl⟩
  · rw [if_neg h]
    refine Wp.ite (fun h => ?_) fun h => ?_
    · rw [if_pos h]
      exact ⟨rfl, rfl⟩
    · rw [if_neg h]
      apply (hword _).bind
      rintro _ _ ⟨rfl, rfl⟩
      apply (hword _).bind
      rintro _ _ ⟨rfl, rfl⟩
      apply (hword _).bind
      rintro _ _ ⟨rfl, rfl⟩
      apply (hword _).bind
      rintro _ _ ⟨rfl, rfl⟩
      dsimp only
      generalize numbers _ = nums
      cases nums with
      | none => exact ⟨rfl, rfl⟩
      | some nums => exact ⟨rfl, rfl⟩

end Calls

/-! ## Lines of words -/

/-- The value of a word. -/
def decode (w : CString) : CString := (unescape w).takeWhile fun c => c.toNat ≠ 0

/-- The words after the first one. -/
def nextWords (ws : List CString) : List CString := ws.tail.dropWhile List.isEmpty

theorem wordValue_join {ws : List CString} (h : Plain isSpaceOrTab ws) :
    wordValue (join ' ' ws) = decode (ws.headD []) := by
  cases ws with
  | nil => rfl
  | cons w ws =>
    unfold wordValue
    rw [word_join rfl h]
    rfl

theorem skip_join_next {ws : List CString} (h : Plain isSpaceOrTab ws) :
    skipSpaces (skipNonspaces (join ' ' ws)) = join ' ' (nextWords ws) := by
  cases ws with
  | nil => rfl
  | cons w ws => exact skip_past_join rfl h

theorem Plain.dropWhile {ws : List CString} (h : Plain isSpaceOrTab ws) :
    Plain isSpaceOrTab (ws.dropWhile List.isEmpty) :=
  fun w hw => h w ((List.dropWhile_sublist _).subset hw)

theorem Plain.next {ws : List CString} (h : Plain isSpaceOrTab ws) : Plain isSpaceOrTab (nextWords ws) := by
  cases ws with
  | nil => exact h
  | cons w ws => exact Plain.dropWhile h.tail

/-- A line of words, read. -/
theorem parseLine_join {ws : List CString} (h : Plain isSpaceOrTab ws) (hline : '\n' ∉ join ' ' ws) :
    parseLine (join ' ' ws ++ ['\n']) =
      let ws := ws.dropWhile List.isEmpty
      if (join ' ' ws).isEmpty || (join ' ' ws).head? = some '#' then .blank
      else
        match numbers (join ' ' (nextWords (nextWords (nextWords (nextWords ws))))) with
        | none => .bad
        | some (freq, passno) =>
          .entry ⟨decode (ws.headD []), decode ((nextWords ws).headD []), decode ((nextWords (nextWords ws)).headD []),
            decode ((nextWords (nextWords (nextWords ws))).headD []), freq, passno⟩ := by
  have htake : (join ' ' ws ++ ['\n']).takeWhile (· ≠ '\n') = join ' ' ws := by
    have hall : ∀ c ∈ join ' ' ws, decide (c ≠ '\n') = true := fun c hc =>
      decide_eq_true fun hcase => hline (hcase ▸ hc)
    rw [List.takeWhile_append_of_pos hall]
    simp
  have hskip : skipSpaces (join ' ' ws) = join ' ' (ws.dropWhile List.isEmpty) := skip_join rfl h
  have h₀ := Plain.dropWhile h
  have h₁ := Plain.next h₀
  have h₂ := Plain.next h₁
  have h₃ := Plain.next h₂
  unfold parseLine
  dsimp only
  rw [htake, hskip, if_neg (by simp), skip_join_next h₀, skip_join_next h₁, skip_join_next h₂, skip_join_next h₃,
    wordValue_join h₀, wordValue_join h₁, wordValue_join h₂, wordValue_join h₃]

/-! ## The line of an entry -/

/-- What is printed of an entry. -/
def lineWords (mnt : Mntent) : List CString :=
  [escape mnt.fsname, escape mnt.dir, escape mnt.type, escape mnt.opts, (toString mnt.freq).toList,
    (toString mnt.passno).toList]

def lineOf (mnt : Mntent) : CString := join ' ' (lineWords mnt) ++ ['\n']

/-- Everything that a C program can have in a `struct mntent`. -/
structure CEntry (mnt : Mntent) : Prop where
  fsname : NoNul mnt.fsname
  dir : NoNul mnt.dir
  type : NoNul mnt.type
  opts : NoNul mnt.opts
  freq : mnt.freq < 2 ^ 31
  passno : mnt.passno < 2 ^ 31

/-- The entries that survive being written. -/
structure WellFormed (mnt : Mntent) : Prop where
  fsname : mnt.fsname ≠ []
  noComment : mnt.fsname.head? ≠ some '#'
  dir : mnt.dir ≠ []
  type : mnt.type ≠ []
  opts : mnt.opts ≠ []
  freq : 0 ≤ mnt.freq
  passno : 0 ≤ mnt.passno

section Number
variable {n : Int}

theorem mem_toString {c : Char} (h : c ∈ (toString n).toList) : c = '-' ∨ c.isDigit = true := by
  have hdigits : ∀ k, c ∈ Nat.toDigits 10 k → c.isDigit = true := fun k hc =>
    Nat.isDigit_of_mem_toDigits (by decide) (by decide) hc
  by_cases hn : 0 ≤ n
  · rw [toString_nonneg hn] at h
    exact Or.inr (hdigits _ h)
  · obtain ⟨k, rfl⟩ := Int.eq_negSucc_of_lt_zero (Int.not_le.mp hn)
    have hlist : (toString (Int.negSucc k)).toList = '-' :: Nat.toDigits 10 (k + 1) := by
      simp [toString, Int.repr, Nat.repr]
    rw [hlist] at h
    rcases List.mem_cons.mp h with rfl | h
    · exact Or.inl rfl
    · exact Or.inr (hdigits _ h)

theorem toString_ne_nil (n : Int) : (toString n).toList ≠ [] := by
  by_cases hn : 0 ≤ n
  · rw [toString_nonneg hn]
    exact Nat.toDigits_ne_nil
  · obtain ⟨ds, hds⟩ := toString_neg (Int.not_le.mp hn)
    rw [hds]
    exact List.cons_ne_nil _ _

/-- A digit or a sign is nothing special. -/
theorem ordinary_of_mem {c : Char} (h : c ∈ (toString n).toList) :
    isSpaceOrTab c = false ∧ c ≠ '\n' ∧ c ≠ '\\' ∧ c.toNat ≠ 0 := by
  rcases mem_toString h with rfl | hdigit
  · decide
  · have hlow : '0'.toNat ≤ c.toNat := by
      simp only [Char.isDigit, Bool.and_eq_true, decide_eq_true_eq] at hdigit
      exact hdigit.1
    have hne : ∀ d : Char, d.toNat < '0'.toNat → c ≠ d := by
      rintro d hd rfl
      omega
    refine ⟨?_, hne _ (by decide), ?_, fun hzero => by rw [hzero] at hlow; exact absurd hlow (by decide)⟩
    · simp [isSpaceOrTab, hne ' ' (by decide), hne '\t' (by decide)]
    · rintro rfl
      exact absurd hdigit (by decide)

theorem unescape_of_not_mem {s : CString} (h : '\\' ∉ s) : unescape s = s := by
  induction s with
  | nil => rfl
  | cons c s ih =>
    rw [List.mem_cons, not_or] at h
    rw [unescape_cons (Ne.symm h.1), ih h.2]

theorem decode_toString : decode (toString n).toList = (toString n).toList := by
  unfold decode
  rw [unescape_of_not_mem fun h => (ordinary_of_mem h).2.2.1 rfl]
  exact takeWhile_noNul fun c hc => (ordinary_of_mem hc).2.2.2

/-- A number that is not negative is read back. -/
theorem number_toString (h₀ : 0 ≤ n) (h₁ : n < 2 ^ 31) {rest : CString} (hrest : EndsNumber rest) :
    number ((toString n).toList ++ rest) = (n, rest) := by
  rw [toString_nonneg h₀]
  have hfront := frontNumber_numeral (Numeral.ofNat n.toNat) hrest
  rw [Numeral.value_ofNat] at hfront
  have hdigits : ∀ c ∈ Nat.toDigits 10 n.toNat, c.isDigit = true := (Numeral.ofNat n.toNat).isDigit
  have hdrop : (Nat.toDigits 10 n.toNat ++ rest).dropWhile Char.isDigit = rest := by
    rw [List.dropWhile_append_of_pos hdigits]
    cases rest with
    | nil => rfl
    | cons c rest =>
      have hc : ¬ c.isDigit = true := by simpa [EndsNumber] using hrest
      exact List.dropWhile_cons_of_neg hc
  have hvalue : atoiDigits (digits (Nat.toDigits 10 n.toNat ++ rest)) = n := by
    rw [atoiDigits_digits, show Nat.toDigits 10 n.toNat = (Numeral.ofNat n.toNat).chars from rfl, hfront,
      min_eq_right (by omega), toInt_eq_self (by omega) (by omega)]
    omega
  unfold number
  rw [hvalue, hdrop]

/-- A negative one is none. -/
theorem number_neg (h : n < 0) (rest : CString) :
    ∃ s, number ((toString n).toList ++ rest) = (0, '-' :: s) := by
  obtain ⟨ds, hds⟩ := toString_neg h
  refine ⟨ds ++ rest, ?_⟩
  rw [hds]
  rfl

end Number

theorem numbers_iff {freq passno : Int} (hf : freq < 2 ^ 31) (hp : passno < 2 ^ 31) :
    numbers (join ' ' [(toString freq).toList, (toString passno).toList]) = some (freq, passno) ↔
      0 ≤ freq ∧ 0 ≤ passno := by
  have hjoin : join ' ' [(toString freq).toList, (toString passno).toList] =
      (toString freq).toList ++ ' ' :: (toString passno).toList := rfl
  have hskip : skipSpaces (' ' :: (toString passno).toList) = (toString passno).toList := by
    refine (List.dropWhile_cons_of_pos rfl).trans (skip_of_head ?_)
    intro c hc
    exact (ordinary_of_mem (List.mem_of_head? hc)).1
  rw [hjoin]
  unfold numbers
  by_cases hfreq : 0 ≤ freq
  · rw [number_toString hfreq hf (by rfl)]
    dsimp only
    rw [if_pos (by rfl), hskip]
    by_cases hpassno : 0 ≤ passno
    · have hnumber : number ((toString passno).toList ++ []) = (passno, []) := number_toString hpassno hp (by rfl)
      rw [List.append_nil] at hnumber
      rw [hnumber]
      simp [endsWord, hfreq, hpassno]
    · obtain ⟨s, hs⟩ := number_neg (Int.not_le.mp hpassno) []
      rw [List.append_nil] at hs
      rw [hs]
      simp [endsWord, isSpaceOrTab, hpassno]
  · obtain ⟨s, hs⟩ := number_neg (Int.not_le.mp hfreq) (' ' :: (toString passno).toList)
    rw [hs]
    simp [endsWord, isSpaceOrTab, hfreq]

/-- The words of an entry that was read. -/
theorem words_of_entry {ws : List CString} (h : Plain isSpaceOrTab ws) (hline : '\n' ∉ join ' ' ws) {mnt : Mntent}
    (hmnt : parseLine (join ' ' ws ++ ['\n']) = .entry mnt) :
    let ws := ws.dropWhile List.isEmpty
    mnt.fsname = decode (ws.headD []) ∧ mnt.dir = decode ((nextWords ws).headD []) ∧
      mnt.type = decode ((nextWords (nextWords ws)).headD []) ∧
      mnt.opts = decode ((nextWords (nextWords (nextWords ws))).headD []) := by
  rw [parseLine_join h hline] at hmnt
  dsimp only at hmnt ⊢
  split at hmnt
  · exact Line.noConfusion hmnt
  · split at hmnt
    · exact Line.noConfusion hmnt
    · cases hmnt
      exact ⟨rfl, rfl, rfl, rfl⟩

section Entry
variable {mnt : Mntent}

theorem decode_escape {s : CString} (h : NoNul s) : decode (escape s) = s := by
  unfold decode
  rw [unescape_escape, takeWhile_noNul h]

theorem plain_lineWords (mnt : Mntent) : ∀ w ∈ lineWords mnt, ∀ c ∈ w, isSpaceOrTab c = false ∧ c ≠ '\n' := by
  have hnumber : ∀ n : Int, ∀ c ∈ (toString n).toList, isSpaceOrTab c = false ∧ c ≠ '\n' := fun n c hc =>
    ⟨(ordinary_of_mem hc).1, (ordinary_of_mem hc).2.1⟩
  intro w hw
  simp only [lineWords, List.mem_cons, List.not_mem_nil, or_false] at hw
  rcases hw with rfl | rfl | rfl | rfl | rfl | rfl
  · exact plain_escape _
  · exact plain_escape _
  · exact plain_escape _
  · exact plain_escape _
  · exact hnumber _
  · exact hnumber _

/-- A word that is seen has a value. -/
theorem decode_ne_nil (hmnt : CEntry mnt) : ∀ w ∈ lineWords mnt, w ≠ [] → decode w ≠ [] := by
  have hescape : ∀ s, NoNul s → escape s ≠ [] → decode (escape s) ≠ [] := by
    intro s hs hne
    rw [decode_escape hs]
    exact fun hnil => hne (escape_eq_nil.mpr hnil)
  have hnumber : ∀ n : Int, decode (toString n).toList ≠ [] := by
    intro n
    rw [decode_toString]
    exact toString_ne_nil n
  intro w hw
  simp only [lineWords, List.mem_cons, List.not_mem_nil, or_false] at hw
  rcases hw with rfl | rfl | rfl | rfl | rfl | rfl
  · exact hescape _ hmnt.fsname
  · exact hescape _ hmnt.dir
  · exact hescape _ hmnt.type
  · exact hescape _ hmnt.opts
  · exact fun _ => hnumber _
  · exact fun _ => hnumber _

/-- In front of a number there is always a word to see, so that an empty word cannot be read back. -/
theorem decode_next_ne_nil (hmnt : CEntry mnt) {ws : List CString} (hws : ws ⊆ lineWords mnt)
    (hpassno : (toString mnt.passno).toList ∈ ws) :
    decode ((ws.dropWhile List.isEmpty).headD []) ≠ [] := by
  cases hseen : ws.dropWhile List.isEmpty with
  | nil =>
    have hempty := List.dropWhile_eq_nil_iff.mp hseen _ hpassno
    exact absurd (List.isEmpty_iff.mp hempty) (toString_ne_nil _)
  | cons w rest =>
    have hmem : w ∈ ws := (List.dropWhile_sublist List.isEmpty).subset (hseen ▸ List.mem_cons_self)
    have hne : ¬ w.isEmpty = true := by
      have hhead := List.head?_dropWhile_not List.isEmpty ws
      rw [hseen] at hhead
      simpa using hhead
    exact decode_ne_nil hmnt w (hws hmem) fun hnil => hne (List.isEmpty_iff.mpr hnil)

theorem dropWhile_seen {w : CString} (h : w ≠ []) (ws : List CString) :
    (w :: ws).dropWhile List.isEmpty = w :: ws :=
  List.dropWhile_cons_of_neg fun hnil => h (List.isEmpty_iff.mp hnil)

theorem escape_ne_nil {s : CString} (h : s ≠ []) : escape s ≠ [] := fun hnil => h (escape_eq_nil.mp hnil)

theorem newline_not_mem (mnt : Mntent) : '\n' ∉ join ' ' (lineWords mnt) := by
  intro hmem
  rcases mem_join hmem with hblank | ⟨w, hw, hc⟩
  · exact absurd hblank (by decide)
  · exact (plain_lineWords mnt w hw _ hc).2 rfl

theorem plain_words (mnt : Mntent) : Plain isSpaceOrTab (lineWords mnt) := fun w hw c hc =>
  (plain_lineWords mnt w hw c hc).1

/-- An entry that is read back has no empty word. -/
theorem four_words (hmnt : CEntry mnt) (h : parseLine (lineOf mnt) = .entry mnt) :
    mnt.fsname ≠ [] ∧ mnt.dir ≠ [] ∧ mnt.type ≠ [] ∧ mnt.opts ≠ [] := by
  have hwords := words_of_entry (plain_words mnt) (newline_not_mem mnt) h
  dsimp only at hwords
  obtain ⟨h₁, h₂, h₃, h₄⟩ := hwords
  -- Each word is seen because the ones before it were.
  have hfsname : mnt.fsname ≠ [] := by
    rw [h₁]
    exact decode_next_ne_nil hmnt (List.Subset.refl _) (by simp [lineWords])
  have hseen : (lineWords mnt).dropWhile List.isEmpty = lineWords mnt := dropWhile_seen (escape_ne_nil hfsname) _
  rw [hseen] at h₂ h₃ h₄
  have hdir : mnt.dir ≠ [] := by
    rw [h₂]
    exact decode_next_ne_nil hmnt (fun _ hw => List.mem_of_mem_tail hw) (by simp [lineWords])
  have hnext : nextWords (lineWords mnt) = (lineWords mnt).tail := dropWhile_seen (escape_ne_nil hdir) _
  rw [hnext] at h₃ h₄
  have htype : mnt.type ≠ [] := by
    rw [h₃]
    exact decode_next_ne_nil hmnt (fun _ hw => List.mem_of_mem_tail (List.mem_of_mem_tail hw)) (by simp [lineWords])
  have hnext₂ : nextWords (lineWords mnt).tail = (lineWords mnt).tail.tail := dropWhile_seen (escape_ne_nil htype) _
  rw [hnext₂] at h₄
  refine ⟨hfsname, hdir, htype, ?_⟩
  rw [h₄]
  exact decode_next_ne_nil hmnt (fun _ hw => List.mem_of_mem_tail (List.mem_of_mem_tail (List.mem_of_mem_tail hw)))
    (by simp [lineWords])

/-- With its words, the line of an entry is a comment or comes down to its numbers. -/
theorem parseLine_lineOf (hmnt : CEntry mnt) (hfsname : mnt.fsname ≠ []) (hdir : mnt.dir ≠ []) (htype : mnt.type ≠ [])
    (hopts : mnt.opts ≠ []) :
    parseLine (lineOf mnt) =
      if mnt.fsname.head? = some '#' then .blank
      else
        match numbers (join ' ' [(toString mnt.freq).toList, (toString mnt.passno).toList]) with
        | none => .bad
        | some (freq, passno) => .entry { mnt with freq := freq, passno := passno } := by
  have hseen : (lineWords mnt).dropWhile List.isEmpty = lineWords mnt := dropWhile_seen (escape_ne_nil hfsname) _
  have hnext : nextWords (lineWords mnt) = (lineWords mnt).tail := dropWhile_seen (escape_ne_nil hdir) _
  have hnext₂ : nextWords (lineWords mnt).tail = (lineWords mnt).tail.tail := dropWhile_seen (escape_ne_nil htype) _
  have hnext₃ : nextWords (lineWords mnt).tail.tail = (lineWords mnt).tail.tail.tail :=
    dropWhile_seen (escape_ne_nil hopts) _
  have hnext₄ : nextWords (lineWords mnt).tail.tail.tail = (lineWords mnt).tail.tail.tail.tail :=
    dropWhile_seen (toString_ne_nil mnt.freq) _
  -- The line starts with the first character of the first word.
  have hhead : ((join ' ' (lineWords mnt)).isEmpty || decide ((join ' ' (lineWords mnt)).head? = some '#')) =
      decide (mnt.fsname.head? = some '#') := by
    have hescape : (escape mnt.fsname).head? = some '#' ↔ mnt.fsname.head? = some '#' := head_escape
    unfold lineWords
    cases hword : escape mnt.fsname with
    | nil => exact absurd hword (escape_ne_nil hfsname)
    | cons c w =>
      rw [hword] at hescape
      simpa [join] using hescape
  unfold lineOf
  rw [parseLine_join (plain_words mnt) (newline_not_mem mnt)]
  dsimp only
  rw [hseen, hnext, hnext₂, hnext₃, hnext₄, hhead]
  simp only [decide_eq_true_eq, lineWords, List.tail_cons, List.headD_cons, decode_escape hmnt.fsname,
    decode_escape hmnt.dir, decode_escape hmnt.type, decode_escape hmnt.opts]

/-- **The line of an entry is read back as the entry** exactly if the reader can see every one of its words
and numbers. -/
theorem read_back_iff (hmnt : CEntry mnt) : parseLine (lineOf mnt) = .entry mnt ↔ WellFormed mnt := by
  have hnumbers := numbers_iff hmnt.freq hmnt.passno
  constructor
  · intro h
    obtain ⟨hfsname, hdir, htype, hopts⟩ := four_words hmnt h
    rw [parseLine_lineOf hmnt hfsname hdir htype hopts] at h
    split at h
    · exact Line.noConfusion h
    · next hcomment =>
      split at h
      · exact Line.noConfusion h
      · next freq passno heq =>
        have hsame : (freq, passno) = (mnt.freq, mnt.passno) := by
          rw [← Line.entry.inj h]
        rw [hsame] at heq
        have hpos := hnumbers.mp heq
        exact ⟨hfsname, hcomment, hdir, htype, hopts, hpos.1, hpos.2⟩
  · intro h
    rw [parseLine_lineOf hmnt h.fsname h.dir h.type h.opts, if_neg h.noComment, hnumbers.mpr ⟨h.freq, h.passno⟩]

end Entry

end Watchdog.Shutdown
