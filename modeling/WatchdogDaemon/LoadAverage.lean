import WatchdogDaemon.Load

/- What `check_load()` reads out of `/proc/loadavg`.

   The line is read into a buffer of 40 bytes, and the averages are found behind its first
   two blanks. Of `avg5` and `avg15` the source sets one on each way through its tests, so
   a text without blanks leaves them unset: in this module a local variable is `none` until
   it is assigned, and reading it then is an error of its own (`UnsetRead`). The messages are
   modelled too, since they read the averages as well.

   `checkLoadVars_eq` connects it to `checkLoad`, whose averages are in scope only where
   they are set: no content of the file makes the code read an unset one.

   What is proved: `load_decides` — a line as the kernel writes it is judged by the integer
   parts of its three averages, and with fewer than two blanks in what is read the answer
   is `enoload`, in both cases without an unset average.

   Correspondence (C ↔ Lean):
     the locals `avg5`, `avg15`             ↔ `Option Int`, read with `readLocal`
     lines 86-101 of `check_load`           ↔ `judgeLoad`
     `check_load`                           ↔ `checkLoadVars`
     its `log_message` calls                ↔ `LoadLog` -/
namespace Watchdog
open Shutdown (isSpace atoi)

/-! ## The check, with its local variables -/

/-- A variable that was read before it was set. -/
inductive UnsetRead where
  | avg5
  | avg15

inductive LoadLog where
  | cannotSeek (err : Errno)
  | cannotRead (err : Errno)
  | noData (read : CString)
  | current (avg1 avg5 avg15 : Int)
  | higher (avg1 avg5 avg15 maxload1 maxload5 maxload15 : Int)

def readLocal (name : UnsetRead) : Option Int → Except UnsetRead Int
  | some n => .ok n
  | none => .error name

/-- One of the tests: the average is not looked at where there is no limit. -/
def testLocal (maxload : Int) (name : UnsetRead) (avg : Option Int) : Except UnsetRead Bool :=
  if maxload > 0 then (readLocal name avg).map fun avg => decide (avg > maxload)
  else .ok false

/-- The debug message. -/
def debugLoad (g : Globals) (avg1 : Int) (avg5 avg15 : Option Int) : Except UnsetRead (List LoadLog) :=
  if g (.int .verbose) ≠ (0 : Int) ∧ g (.int .logtick) ≠ (0 : Int) ∧ g (.int .ticker) = (1 : Int) then do
    return [.current avg1 (← readLocal .avg5 avg5) (← readLocal .avg15 avg15)]
  else
    .ok []

/-- The three tests, each made only when those before it fail. -/
def tooHigh (g : Globals) (avg1 : Int) (avg5 avg15 : Option Int) : Except UnsetRead Bool := do
  if exceeds (g (.int .maxload1)) avg1 then return true
  if ← testLocal (g (.int .maxload5)) .avg5 avg5 then return true
  testLocal (g (.int .maxload15)) .avg15 avg15

/-- From the debug message on. -/
def judgeLoad (g : Globals) (avg1 : Int) (avg5 avg15 : Option Int) :
    Except UnsetRead (Int × List LoadLog) := do
  let debug ← debugLoad g avg1 avg5 avg15
  if ← tooHigh g avg1 avg5 avg15 then
    return (emaxload, debug ++ [.higher avg1 (← readLocal .avg5 avg5) (← readLocal .avg15 avg15)
      (g (.int .maxload1)) (g (.int .maxload5)) (g (.int .maxload15))])
  else
    return (enoerr, debug)

def checkLoadVars (g : Globals) (loadFd : Option FileCalls) : Except UnsetRead (Int × List LoadLog) :=
  match loadFd with
  | none => .ok (enoerr, [])
  | some calls =>
    match calls.lseek with
    | some err => .ok (err, [.cannotSeek err])
    | none =>
      match calls.read with
      | .error err => .ok (err, [.cannotRead err])
      | .ok bytes =>
        let buf := upToNul (bytes.take 39)
        let avg1 := atoi buf
        let (avg5, ptr) : Option Int × Option CString :=
          match strchr buf ' ' with
          | some ptr => (some (atoi ptr), strchr (ptr.drop 1) ' ')
          | none => (none, none)
        match ptr with
        | some ptr => judgeLoad g avg1 avg5 (some (atoi ptr))
        | none => .ok (enoload, [.noData buf])

/-! ## No unset average is read -/

theorem testLocal_set (maxload : Int) (name : UnsetRead) (avg : Int) :
    testLocal maxload name (some avg) = .ok (exceeds maxload avg) := by
  by_cases h : maxload > 0 <;> simp [testLocal, readLocal, exceeds, h, Except.map]

theorem debugLoad_set (g : Globals) (avg1 avg5 avg15 : Int) :
    ∃ logs, debugLoad g avg1 (some avg5) (some avg15) = .ok logs := by
  unfold debugLoad
  split
  · exact ⟨_, rfl⟩
  · exact ⟨_, rfl⟩

theorem tooHigh_set (g : Globals) (avg1 avg5 avg15 : Int) :
    tooHigh g avg1 (some avg5) (some avg15) =
      .ok (exceeds (g (.int .maxload1)) avg1 || exceeds (g (.int .maxload5)) avg5 ||
        exceeds (g (.int .maxload15)) avg15) := by
  unfold tooHigh
  rw [testLocal_set, testLocal_set]
  cases exceeds (g (.int .maxload1)) avg1 with
  | true => rfl
  | false => cases exceeds (g (.int .maxload5)) avg5 <;> rfl

/-- With all averages set, the judgement is that of the three tests. -/
theorem judgeLoad_set (g : Globals) (avg1 avg5 avg15 : Int) :
    ∃ logs, judgeLoad g avg1 (some avg5) (some avg15) =
      .ok (if exceeds (g (.int .maxload1)) avg1 || exceeds (g (.int .maxload5)) avg5 ||
        exceeds (g (.int .maxload15)) avg15 then emaxload else enoerr, logs) := by
  obtain ⟨debug, hdebug⟩ := debugLoad_set g avg1 avg5 avg15
  unfold judgeLoad
  rw [hdebug, tooHigh_set]
  cases exceeds (g (.int .maxload1)) avg1 || exceeds (g (.int .maxload5)) avg5 ||
      exceeds (g (.int .maxload15)) avg15 with
  | true => exact ⟨_, rfl⟩
  | false => exact ⟨_, rfl⟩

/-- **No unset average is read**, and the answer is that of `checkLoad`. -/
theorem checkLoadVars_eq (g : Globals) (loadFd : Option FileCalls) :
    ∃ logs, checkLoadVars g loadFd = .ok (checkLoad g loadFd, logs) := by
  unfold checkLoadVars checkLoad
  cases loadFd with
  | none => exact ⟨_, rfl⟩
  | some calls =>
    cases hlseek : calls.lseek with
    | some err => exact ⟨[.cannotSeek err], by simp [hlseek]⟩
    | none =>
      cases hread : calls.read with
      | error err => exact ⟨[.cannotRead err], by simp [hlseek, hread]⟩
      | ok bytes =>
        simp only [hlseek, hread]
        cases strchr (upToNul (bytes.take 39)) ' ' with
        | none => exact ⟨_, rfl⟩
        | some ptr =>
          -- The first blank sets `avg5`, and a second one is needed to get on.
          cases hsecond : strchr (ptr.drop 1) ' ' with
          | none =>
            simp only [hsecond]
            exact ⟨_, rfl⟩
          | some ptr' =>
            simp only [hsecond]
            exact judgeLoad_set g _ _ _

/-! ## The line of the kernel -/

/-- A load average: its integer part, an `int`, and two decimals. -/
structure LoadAvg where
  whole : Nat
  lt : whole < 2 ^ 31
  tenths : Fin 10
  hundredths : Fin 10

def LoadAvg.decimals (a : LoadAvg) : CString :=
  ['.', Nat.digitChar a.tenths, Nat.digitChar a.hundredths]

def LoadAvg.text (a : LoadAvg) : CString := (Numeral.ofNat a.whole).chars ++ a.decimals

/-- The line `a.xx b.yy c.zz rest`. -/
def loadavgLine (one five fifteen : LoadAvg) (rest : CString) : CString :=
  one.text ++ ' ' :: (five.text ++ ' ' :: (fifteen.text ++ ' ' :: rest))

/-- The characters of an average are neither blanks nor NULs. -/
theorem LoadAvg.mem_text {a : LoadAvg} : ∀ c ∈ a.text, c ≠ ' ' ∧ c.toNat ≠ 0 := by
  have hdigit : ∀ {c : Char}, c.isDigit = true → c ≠ ' ' ∧ c.toNat ≠ 0 := by
    intro c hc
    refine ⟨?_, ?_⟩
    · rintro rfl
      exact absurd hc (by decide)
    · intro hzero
      simp only [Char.isDigit, Bool.and_eq_true, decide_eq_true_eq] at hc
      have hlow : '0'.toNat ≤ c.toNat := hc.1
      rw [hzero] at hlow
      exact absurd hlow (by decide)
  have hchar : ∀ d : Fin 10, (Nat.digitChar d).isDigit = true := by decide
  intro c hc
  simp only [LoadAvg.text, LoadAvg.decimals, List.mem_append, List.mem_cons, List.not_mem_nil,
    or_false] at hc
  obtain hc | rfl | rfl | rfl := hc
  · exact hdigit ((Numeral.ofNat a.whole).isDigit c hc)
  · decide
  · exact hdigit (hchar a.tenths)
  · exact hdigit (hchar a.hundredths)

theorem LoadAvg.blank_not_mem (a : LoadAvg) : ' ' ∉ a.text := fun h => (a.mem_text _ h).1 rfl

/-- An `int` has at most ten digits. -/
theorem LoadAvg.length_whole (a : LoadAvg) : (Numeral.ofNat a.whole).chars.length ≤ 10 := by
  have hlt := a.lt
  show (Nat.toDigits 10 a.whole).length ≤ 10
  rw [Nat.length_toDigits_le_iff (by decide) (by decide)]
  omega

theorem LoadAvg.length_text (a : LoadAvg) : a.text.length ≤ 13 := by
  have hwhole := a.length_whole
  simp only [LoadAvg.text, LoadAvg.decimals, List.length_append, List.length_cons, List.length_nil]
  omega

/-! ## The buffer -/

/-- What is at the front of the file and has no NUL is at the front of the buffer. -/
theorem upToNul_take {front : CString} (hnul : ∀ c ∈ front, c.toNat ≠ 0) {n : Nat}
    (hlen : front.length ≤ n) (rest : CString) :
    upToNul ((front ++ rest).take n) = front ++ upToNul (rest.take (n - front.length)) := by
  unfold upToNul
  rw [List.take_append, List.take_of_length_le hlen, List.takeWhile_append_of_pos]
  simpa using hnul

theorem strchr_append {word : CString} {c : Char} (hword : c ∉ word) (rest : CString) :
    strchr (word ++ c :: rest) c = some (c :: rest) := by
  have hdrop : (word ++ c :: rest).dropWhile (· ≠ c) = c :: rest := by
    rw [List.dropWhile_append_of_pos]
    · simp
    · intro d hd
      have hne : d ≠ c := fun h => hword (h ▸ hd)
      simpa using hne
  rw [strchr, hdrop]

theorem strchr_some {s ptr : CString} {c : Char} (h : strchr s c = some ptr) :
    ∃ before rest, s = before ++ c :: rest ∧ ptr = c :: rest := by
  unfold strchr at h
  split at h
  · cases h
  · next d rest hdrop =>
    obtain rfl := Option.some.inj h
    have hd : d = c := by
      have hhead := List.head?_dropWhile_not (· ≠ c) s
      rw [hdrop] at hhead
      simpa using hhead
    refine ⟨s.takeWhile (· ≠ c), rest, ?_, by rw [hd]⟩
    rw [← hd, ← hdrop, hd, List.takeWhile_append_dropWhile]

/-- The integer part of an average, blanks before it or not. -/
theorem LoadAvg.atoi_whole (a : LoadAvg) {blanks : CString} (hblanks : ∀ c ∈ blanks, isSpace c = true)
    {rest : CString} (hrest : EndsNumber rest) :
    atoi (blanks ++ ((Numeral.ofNat a.whole).chars ++ rest)) = a.whole := by
  have hlt := a.lt
  have hstart : startNumber (blanks ++ ((Numeral.ofNat a.whole).chars ++ rest)) = a.whole := by
    rw [startNumber_space hblanks, startNumber_numeral _ hrest, Numeral.value_ofNat]
  rw [atoi_of_lt (by omega) (by omega), hstart]

/-- It ends at the decimal point. -/
theorem LoadAvg.atoi_text (a : LoadAvg) {blanks : CString} (hblanks : ∀ c ∈ blanks, isSpace c = true)
    (rest : CString) : atoi (blanks ++ (a.text ++ rest)) = a.whole := by
  have hrest : EndsNumber (a.decimals ++ rest) := rfl
  rw [LoadAvg.text, List.append_assoc, a.atoi_whole hblanks hrest]

/-- The third average may be cut behind its integer part, but not before. -/
theorem buffer_eq (one five fifteen : LoadAvg) (rest : CString) :
    ∃ tail, EndsNumber tail ∧ upToNul ((loadavgLine one five fifteen rest).take 39) =
      one.text ++ ' ' :: (five.text ++ ' ' :: ((Numeral.ofNat fifteen.whole).chars ++ tail)) := by
  have hline : loadavgLine one five fifteen rest =
      (one.text ++ ' ' :: (five.text ++ ' ' :: (Numeral.ofNat fifteen.whole).chars)) ++
        (fifteen.decimals ++ ' ' :: rest) := by
    simp [loadavgLine, LoadAvg.text]
  have hnul : ∀ c ∈ one.text ++ ' ' :: (five.text ++ ' ' :: (Numeral.ofNat fifteen.whole).chars),
      c.toNat ≠ 0 := by
    intro c hc
    simp only [List.mem_append, List.mem_cons] at hc
    obtain hc | rfl | hc | rfl | hc := hc
    · exact (one.mem_text c hc).2
    · decide
    · exact (five.mem_text c hc).2
    · decide
    · exact (fifteen.mem_text c (List.mem_append_left _ hc)).2
  have hone := one.length_text
  have hfive := five.length_text
  have hfifteen := fifteen.length_whole
  have htail : ∀ n, EndsNumber (upToNul ((fifteen.decimals ++ ' ' :: rest).take n)) := by
    intro n
    cases n with
    | zero => rfl
    | succ n => rfl
  have hfront := upToNul_take hnul (show _ ≤ 39 by simp only [List.length_append, List.length_cons]; omega)
    (fifteen.decimals ++ ' ' :: rest)
  rw [← hline] at hfront
  simp only [List.append_assoc, List.cons_append] at hfront
  exact ⟨_, htail _, hfront⟩

/-! ## The answers -/

theorem checkLoad_line (g : Globals) (one five fifteen : LoadAvg) (rest : CString) :
    checkLoad g (some { read := .ok (loadavgLine one five fifteen rest) }) =
      if exceeds (g (.int .maxload1)) one.whole || exceeds (g (.int .maxload5)) five.whole ||
        exceeds (g (.int .maxload15)) fifteen.whole then emaxload else enoerr := by
  obtain ⟨tail, htail, hbuf⟩ := buffer_eq one five fifteen rest
  have hnone : ∀ c ∈ ([] : CString), isSpace c = true := fun _ hc => absurd hc List.not_mem_nil
  have hblank : ∀ c ∈ [' '], isSpace c = true := by
    intro c hc
    rw [List.mem_singleton.mp hc]
    rfl
  have havg1 := one.atoi_text hnone (' ' :: (five.text ++ ' ' :: ((Numeral.ofNat fifteen.whole).chars ++ tail)))
  have havg5 := five.atoi_text hblank (' ' :: ((Numeral.ofNat fifteen.whole).chars ++ tail))
  have havg15 := fifteen.atoi_whole hblank htail
  rw [List.nil_append] at havg1
  rw [List.singleton_append] at havg5 havg15
  simp only [checkLoad, hbuf, strchr_append one.blank_not_mem, strchr_append five.blank_not_mem,
    List.drop_succ_cons, List.drop_zero, havg1, havg5, havg15]

/-- Without a second blank there is no data. -/
theorem checkLoad_blanks (g : Globals) {content : CString} (hcount : (content.take 39).count ' ' < 2) :
    checkLoad g (some { read := .ok content }) = enoload := by
  have hbuf : (upToNul (content.take 39)).count ' ' < 2 :=
    Nat.lt_of_le_of_lt ((List.takeWhile_prefix _).sublist.count_le ' ') hcount
  simp only [checkLoad]
  cases hfirst : strchr (upToNul (content.take 39)) ' ' with
  | none => rfl
  | some ptr =>
    simp only []
    cases hsecond : strchr (ptr.drop 1) ' ' with
    | none => rfl
    | some ptr' =>
      obtain ⟨before, rest, hsplit, rfl⟩ := strchr_some hfirst
      obtain ⟨before', rest', hsplit', -⟩ := strchr_some hsecond
      rw [List.drop_succ_cons, List.drop_zero] at hsplit'
      rw [hsplit, hsplit', List.count_append, List.count_cons_self, List.count_append,
        List.count_cons_self] at hbuf
      omega

/-- **The load check decides on the integer parts.** For all limits: a line of
`/proc/loadavg` is too high exactly when the integer part of an average is above its
limit, where there is one; and a content with fewer than two blanks in the 39 bytes that
are read is no data. Neither reads an average that was not set. -/
theorem load_decides (g : Globals) :
    (∀ (one five fifteen : LoadAvg) (rest : CString), ∃ logs,
      checkLoadVars g (some { read := .ok (loadavgLine one five fifteen rest) }) =
        .ok (if (0 < (g (.int .maxload1) : Int) ∧ (g (.int .maxload1) : Int) < one.whole) ∨
            (0 < (g (.int .maxload5) : Int) ∧ (g (.int .maxload5) : Int) < five.whole) ∨
            (0 < (g (.int .maxload15) : Int) ∧ (g (.int .maxload15) : Int) < fifteen.whole)
          then emaxload else enoerr, logs)) ∧
    ∀ content : CString, (content.take 39).count ' ' < 2 →
      ∃ logs, checkLoadVars g (some { read := .ok content }) = .ok (enoload, logs) := by
  refine ⟨?_, ?_⟩
  · intro one five fifteen rest
    obtain ⟨logs, hvars⟩ := checkLoadVars_eq g (some { read := .ok (loadavgLine one five fifteen rest) })
    refine ⟨logs, ?_⟩
    rw [hvars, checkLoad_line]
    simp only [exceeds, Bool.or_eq_true, Bool.and_eq_true, decide_eq_true_eq, gt_iff_lt, or_assoc]
  · intro content hcount
    obtain ⟨logs, hvars⟩ := checkLoadVars_eq g (some { read := .ok content })
    exact ⟨logs, by rw [hvars, checkLoad_blanks g hcount]⟩

/-- The longest averages: the buffer ends behind the third decimal point. A limit of 24 for
1 minute is exceeded; without a second blank there is no data. -/
theorem load_decides_longest :
    let longest : LoadAvg := ⟨2147483647, by decide, 9, 9⟩
    let g := defaults.setInt .maxload1 24
    (∃ logs, checkLoadVars g (some { read := .ok (loadavgLine longest longest longest []) }) =
      .ok (emaxload, logs)) ∧
    ∃ logs, checkLoadVars g (some { read := .ok "0.10 0.20".toList }) = .ok (enoload, logs) := by
  intro longest g
  refine ⟨?_, (load_decides g).2 _ (by decide)⟩
  obtain ⟨logs, hline⟩ := (load_decides g).1 longest longest longest []
  rw [if_pos (Or.inl (by decide))] at hline
  exact ⟨logs, hline⟩

end Watchdog
