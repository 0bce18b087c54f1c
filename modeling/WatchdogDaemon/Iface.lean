import WatchdogDaemon.Lib.Pieces
import WatchdogDaemon.TextFile

/- The interface check: `iface.c`.

   `/proc/net/dev` has a line `name: bytes ...` for every interface. The check goes through
   all of them, takes each line that begins with the characters of the watched name for
   the watched interface's own, compares the number after the name with the stored one
   and stores it. So an interface whose name extends the watched one (`eth10`, `eth1.5`)
   is read as well, and what its name goes on with is read as a number.

   What is proved: `iface_own_line_iff` — the check answers as the watched interface's own
   line says, for every stored number, exactly when the numbers read from the other lines
   before and after it neither start nor end the sequence with another number nor make two
   neighbours of it equal; so when no other line begins with the name.

   Correspondence (C ↔ Lean):
     `check_iface`                          ↔ `checkIface`
     one round of its loop                  ↔ `lineBytes`, `checkLines`
     `strtoul`                              ↔ `strtoul`, `unsignedNumber`
   `unsigned long` has 64 bits. -/
namespace Watchdog
open Shutdown (isSpace isSpaceOrTab skipSpaces digits)

/-! ## The check -/

def ulong (n : Nat) : UInt64 := UInt64.ofNat (min (2 ^ 64 - 1) n)

/-- A number that does not fit is `ULONG_MAX` whatever its sign; others are negated as
unsigned numbers. -/
def unsignedNumber : CString → UInt64
  | '-' :: s => if frontNumber s < 2 ^ 64 then -ulong (frontNumber s) else ulong (frontNumber s)
  | '+' :: s => ulong (frontNumber s)
  | s => ulong (frontNumber s)

theorem unsignedNumber_plain {c : Char} (hminus : c ≠ '-') (hplus : c ≠ '+') (s : CString) :
    unsignedNumber (c :: s) = ulong (frontNumber (c :: s)) :=
  unsignedNumber.eq_3 _ (fun _ h => hminus (List.cons.inj h).1) fun _ h => hplus (List.cons.inj h).1

def strtoul (s : CString) : UInt64 := unsignedNumber (s.dropWhile isSpace)

/-- The number a line gives, if it begins with the name. The character after the name is
taken for the colon. The buffer was cleared, so that a line which ends there gives 0. -/
def lineBytes (name line : CString) : Option UInt64 :=
  let s := skipSpaces line
  if name.isPrefixOf s then some (strtoul (s.drop (name.length + 1))) else none

/-- The loop: whether a line had the stored number, and what is then stored. -/
def checkLines (name : CString) : UInt64 → List CString → Bool × UInt64
  | bytes, [] => (false, bytes)
  | bytes, line :: lines =>
    match lineBytes name line with
    | none => checkLines name bytes lines
    | some n => if bytes = n then (true, bytes) else checkLines name n lines

/-- The open file: what `fgets` can read of it, and how reading and `fclose` end. -/
structure NetDevFile where
  text : CString
  ferror : Option Errno := none
  fclose : Option Errno := none

/-- The answer, and `parameter.iface.bytes` after it. -/
def checkIface (name : CString) (bytes : UInt64) (file : Except Errno NetDevFile) : Int × UInt64 :=
  match file with
  | .error err => (err, bytes)
  | .ok f =>
    match checkLines name bytes (Pieces.pieces '\n' 127 f.text []) with
    | (true, bytes) => (enetunreach, bytes)
    | (false, bytes) =>
      match f.ferror with
      | some err => (err, bytes)
      | none =>
        match f.fclose with
        | some err => (err, bytes)
        | none => (enoerr, bytes)

/-! ## The file -/

/-- A line for an interface: a name the kernel allows, and the bytes it received. -/
structure IfaceLine where
  pad : CString
  name : CString
  gap : CString
  rxBytes : UInt64
  rest : CString
  pad_blank : ∀ c ∈ pad, isSpaceOrTab c = true
  gap_blank : ∀ c ∈ gap, isSpaceOrTab c = true
  name_ne : name ≠ []
  name_chars : ∀ c ∈ name, c ≠ ':' ∧ isSpace c = false
  rest_ends : EndsNumber rest
  rest_line : '\n' ∉ rest
  short : (pad ++ (name ++ ':' :: (gap ++ (Nat.toDigits 10 rxBytes.toNat ++ rest)))).length < 128

def IfaceLine.text (l : IfaceLine) : CString :=
  l.pad ++ (l.name ++ ':' :: (l.gap ++ (Nat.toDigits 10 l.rxBytes.toNat ++ l.rest)))

/-- The file: its header lines, and a line for every interface. -/
structure NetDevText where
  header : List { l : CString // '\n' ∉ l ∧ l.length < 128 }
  ifaces : List IfaceLine
  distinct : (ifaces.map IfaceLine.name).Nodup

def NetDevText.lines (t : NetDevText) : List CString :=
  t.header.map Subtype.val ++ t.ifaces.map IfaceLine.text

def NetDevText.text (t : NetDevText) : CString := t.lines.flatMap (· ++ ['\n'])

/-- The numbers read from those of the lines that begin with the name. -/
def readings (name : CString) (lines : List CString) : List UInt64 :=
  lines.filterMap (lineBytes name)

/-! ## The newline of a line does not matter -/

theorem frontNumber_newline (s : CString) : frontNumber (s ++ ['\n']) = frontNumber s := by
  unfold frontNumber digits
  rw [List.takeWhile_append]
  split
  · next hall =>
    have hself : s.takeWhile Char.isDigit = s := (List.takeWhile_prefix _).eq_of_length hall
    rw [hself, show ['\n'].takeWhile Char.isDigit = [] from rfl, List.append_nil]
  · rfl

theorem unsignedNumber_newline {s : CString} (hne : s ≠ []) :
    unsignedNumber (s ++ ['\n']) = unsignedNumber s := by
  obtain ⟨c, s, rfl⟩ := List.exists_cons_of_ne_nil hne
  have hfront := frontNumber_newline (c :: s)
  have htail := frontNumber_newline s
  rw [List.cons_append] at hfront ⊢
  by_cases hminus : c = '-'
  · rw [hminus, unsignedNumber, unsignedNumber, htail]
  by_cases hplus : c = '+'
  · rw [hplus, unsignedNumber, unsignedNumber, htail]
  rw [unsignedNumber_plain hminus hplus, unsignedNumber_plain hminus hplus, hfront]

theorem strtoul_newline (s : CString) : strtoul (s ++ ['\n']) = strtoul s := by
  unfold strtoul
  rw [List.dropWhile_append]
  split
  · next hempty =>
    rw [List.isEmpty_iff.1 hempty]
    rfl
  · next hne => exact unsignedNumber_newline fun h => hne (by rw [h]; rfl)

theorem skipSpaces_newline (l : CString) : skipSpaces (l ++ ['\n']) = skipSpaces l ++ ['\n'] := by
  unfold skipSpaces
  rw [List.dropWhile_append]
  split
  · next hempty =>
    rw [List.isEmpty_iff.1 hempty]
    rfl
  · rfl

section Name
variable {name : CString} (hname : '\n' ∉ name)
include hname

theorem lineBytes_newline (l : CString) : lineBytes name (l ++ ['\n']) = lineBytes name l := by
  have hprefix : name.isPrefixOf (skipSpaces l ++ ['\n']) = name.isPrefixOf (skipSpaces l) := by
    rw [Bool.eq_iff_iff, List.isPrefixOf_iff_prefix, List.isPrefixOf_iff_prefix,
      List.prefix_concat_iff]
    constructor
    · intro h
      obtain rfl | h := h
      · exact absurd (by simp) hname
      · exact h
    · exact .inr
  simp only [lineBytes, skipSpaces_newline, hprefix]
  split
  · next h =>
    rw [List.isPrefixOf_iff_prefix] at h
    have hlen := h.length_le
    rw [List.drop_append]
    obtain hroom | hend : name.length + 1 ≤ (skipSpaces l).length ∨
        (skipSpaces l).length = name.length := by omega
    · rw [Nat.sub_eq_zero_of_le hroom, List.drop_zero, strtoul_newline]
    · rw [hend, Nat.add_sub_cancel_left, show ['\n'].drop 1 = [] from rfl, List.append_nil]
  · rfl

theorem lineBytes_mark (hne : name ≠ []) : lineBytes name ['\n'] = none := by
  have hskip : skipSpaces ['\n'] = ['\n'] := rfl
  have hnot : ¬ name.isPrefixOf ['\n'] = true := by
    rw [List.isPrefixOf_iff_prefix]
    intro h
    obtain ⟨c, cs, rfl⟩ := List.exists_cons_of_ne_nil hne
    have hc : c = '\n' := (List.cons_prefix_cons.1 h).1
    exact hname (by rw [hc]; exact List.mem_cons_self)
  simp only [lineBytes, hskip, if_neg hnot]

/-- What is read from a text is what is read from its lines. -/
theorem readings_pieces (hne : name ≠ []) {lines : List CString}
    (hlines : ∀ l ∈ lines, '\n' ∉ l ∧ l.length < 128) :
    readings name (Pieces.pieces '\n' 127 (lines.flatMap (· ++ ['\n'])) []) =
      readings name lines := by
  induction lines with
  | nil => rfl
  | cons l lines ih =>
    obtain ⟨hfree, hlen⟩ := hlines l List.mem_cons_self
    have hrest := ih fun m hm => hlines m (List.mem_cons_of_mem l hm)
    unfold readings at hrest ⊢
    rw [List.flatMap_cons, List.append_assoc, List.singleton_append]
    by_cases hfull : l.length = 127
    · have hl : l ≠ [] := fun h => by rw [h] at hfull; exact absurd hfull (by decide)
      rw [Pieces.pieces_full hfree _ hfull hl, List.filterMap_cons, List.filterMap_cons,
        lineBytes_mark hname hne, hrest, List.filterMap_cons]
    · have hroom : ([] : CString).length + l.length < 127 := by
        rw [List.length_nil]
        omega
      rw [Pieces.pieces_line hfree _ hroom, List.filterMap_cons, List.nil_append,
        lineBytes_newline hname, hrest, List.filterMap_cons]

end Name

/-! ## The watched interface's own line -/

theorem isSpace_of_isSpaceOrTab {c : Char} (h : isSpaceOrTab c = true) : isSpace c = true := by
  simp only [isSpaceOrTab, Bool.or_eq_true, beq_iff_eq] at h
  obtain rfl | rfl := h <;> decide

theorem strtoul_digits {gap rest : CString} (hgap : ∀ c ∈ gap, isSpaceOrTab c = true) (n : UInt64)
    (hrest : EndsNumber rest) : strtoul (gap ++ (Nat.toDigits 10 n.toNat ++ rest)) = n := by
  let d := Numeral.ofNat n.toNat
  have hfit : ulong d.value = n := by
    have hlt := n.toNat_lt
    rw [Numeral.value_ofNat, ulong, min_eq_right (by omega), UInt64.ofNat_toNat]
  have hminus : ∀ s, d.chars ++ rest = '-' :: s → False := fun _ => d.ne_sign rfl
  have hplus : ∀ s, d.chars ++ rest = '+' :: s → False := fun _ => d.ne_sign rfl
  unfold strtoul
  rw [List.dropWhile_append_of_pos fun c hc => isSpace_of_isSpaceOrTab (hgap c hc)]
  show unsignedNumber ((d.chars ++ rest).dropWhile isSpace) = n
  rw [d.dropWhile_isSpace, unsignedNumber.eq_3 _ hminus hplus, frontNumber_numeral d hrest, hfit]

namespace IfaceLine
variable (l : IfaceLine)

theorem newline_not_mem_name : '\n' ∉ l.name := fun h => absurd (l.name_chars _ h).2 (by decide)

theorem skipSpaces_text : skipSpaces l.text =
    l.name ++ ':' :: (l.gap ++ (Nat.toDigits 10 l.rxBytes.toNat ++ l.rest)) := by
  obtain ⟨c, cs, hcons⟩ := List.exists_cons_of_ne_nil l.name_ne
  have hc : isSpaceOrTab c = false := by
    have hspace := (l.name_chars c (by rw [hcons]; exact List.mem_cons_self)).2
    by_contra h
    rw [isSpace_of_isSpaceOrTab (by simpa using h)] at hspace
    exact absurd hspace (by decide)
  unfold skipSpaces text
  rw [List.dropWhile_append_of_pos l.pad_blank, hcons, List.cons_append,
    List.dropWhile_cons_of_neg (by rw [hc]; decide)]

/-- The line gives the bytes the interface received. -/
theorem lineBytes_own : lineBytes l.name l.text = some l.rxBytes := by
  simp only [lineBytes, skipSpaces_text]
  rw [if_pos (List.isPrefixOf_iff_prefix.2 (List.prefix_append _ _)), List.drop_append,
    List.drop_eq_nil_of_le (Nat.le_succ _), Nat.add_sub_cancel_left, List.nil_append,
    List.drop_one, List.tail_cons, strtoul_digits l.gap_blank _ l.rest_ends]

theorem text_line : '\n' ∉ l.text ∧ l.text.length < 128 := by
  have hblank {s : CString} (hs : ∀ c ∈ s, isSpaceOrTab c = true) : '\n' ∉ s := fun h =>
    absurd (hs _ h) (by decide)
  have hdigits : '\n' ∉ Nat.toDigits 10 l.rxBytes.toNat := fun h =>
    absurd (Nat.isDigit_of_mem_toDigits (by decide) (by decide) h) (by decide)
  refine ⟨?_, l.short⟩
  simp [text, hblank l.pad_blank, hblank l.gap_blank, l.newline_not_mem_name, hdigits, l.rest_line]

end IfaceLine

theorem NetDevText.lines_short (t : NetDevText) : ∀ l ∈ t.lines, '\n' ∉ l ∧ l.length < 128 := by
  intro l hl
  obtain hl | hl := List.mem_append.1 hl
  · obtain ⟨h, -, rfl⟩ := List.mem_map.1 hl
    exact h.2
  · obtain ⟨i, -, rfl⟩ := List.mem_map.1 hl
    exact i.text_line

/-! ## The numbers that are read -/

/-- The loop over the numbers alone. -/
def follow : UInt64 → List UInt64 → Int × UInt64
  | bytes, [] => (enoerr, bytes)
  | bytes, n :: ns => if bytes = n then (enetunreach, bytes) else follow n ns

theorem checkLines_eq (name : CString) (bytes : UInt64) (lines : List CString) :
    follow bytes (readings name lines) =
      match checkLines name bytes lines with
      | (true, bytes) => (enetunreach, bytes)
      | (false, bytes) => (enoerr, bytes) := by
  induction lines generalizing bytes with
  | nil => rfl
  | cons l lines ih =>
    unfold readings at ih ⊢
    rw [List.filterMap_cons, checkLines]
    cases lineBytes name l with
    | none => exact ih bytes
    | some n =>
      simp only [follow]
      split
      · rfl
      · exact ih n

theorem checkIface_text (t : NetDevText) {name : CString} (hname : '\n' ∉ name) (hne : name ≠ [])
    (bytes : UInt64) :
    checkIface name bytes (.ok { text := t.text }) = follow bytes (readings name t.lines) := by
  rw [← readings_pieces hname hne t.lines_short, checkLines_eq]
  rfl

theorem follow_enoerr {bytes n : UInt64} {ns : List UInt64} :
    follow bytes ns = (enoerr, n) ↔
      (bytes :: ns).IsChain (· ≠ ·) ∧ (bytes :: ns).getLast? = some n := by
  induction ns generalizing bytes with
  | nil => simp [follow]
  | cons m ns ih =>
    have hne : enetunreach ≠ enoerr := by decide
    rw [follow, List.isChain_cons_cons, List.getLast?_cons_cons]
    split
    · next h => simp [h, hne]
    · next h => rw [ih]; simp [h]

/-- The first number decides when it is the stored one, and the last one is stored. -/
theorem follow_iff {n : UInt64} {ns : List UInt64} :
    (∀ bytes, follow bytes ns = if bytes = n then (enetunreach, bytes) else (enoerr, n)) ↔
      ns.head? = some n ∧ ns.getLast? = some n ∧ ns.IsChain (· ≠ ·) := by
  constructor
  · intro h
    have hother : n + 1 ≠ n := by simp
    have hnext := h (n + 1)
    rw [if_neg hother, follow_enoerr] at hnext
    cases ns with
    | nil => exact absurd (by simpa using hnext.2) hother
    | cons m ns =>
      have hm : m = n := by
        by_contra hmn
        have hstored := h m
        rw [if_neg hmn, follow, if_pos rfl] at hstored
        have hcode : enetunreach = enoerr := congrArg Prod.fst hstored
        exact absurd hcode (by decide)
      rw [List.isChain_cons_cons, List.getLast?_cons_cons] at hnext
      exact ⟨by rw [hm]; rfl, hnext.2, hnext.1.2⟩
  · intro h bytes
    obtain ⟨hhead, hlast, hchain⟩ := h
    cases ns with
    | nil => exact absurd hhead (by simp)
    | cons m ns =>
      have hm : m = n := by simpa using hhead
      split
      · next hb => rw [follow, if_pos (hb.trans hm.symm)]
      · next hb =>
        rw [follow_enoerr, List.isChain_cons_cons, List.getLast?_cons_cons]
        exact ⟨⟨fun h => hb (h.trans hm), hchain⟩, hlast⟩

/-! ## When the check looks at its own line -/

/-- The numbers before and after leave the own number first and last, and no two
neighbours are equal. -/
def Undisturbed (before : List UInt64) (own : UInt64) (after : List UInt64) : Prop :=
  (∀ n ∈ before.head?, n = own) ∧ (∀ n ∈ after.getLast?, n = own) ∧
    (before ++ own :: after).IsChain (· ≠ ·)

theorem undisturbed_iff (before : List UInt64) (own : UInt64) (after : List UInt64) :
    Undisturbed before own after ↔
      (before ++ own :: after).head? = some own ∧ (before ++ own :: after).getLast? = some own ∧
        (before ++ own :: after).IsChain (· ≠ ·) := by
  have hhead : (∀ n ∈ before.head?, n = own) ↔ (before ++ own :: after).head? = some own := by
    cases before <;> simp
  have hlast : (∀ n ∈ after.getLast?, n = own) ↔ (before ++ own :: after).getLast? = some own := by
    rw [List.getLast?_append, List.getLast?_cons]
    cases after.getLast? <;> simp
  rw [Undisturbed, hhead, hlast]

/-- No other line begins with the name. -/
theorem undisturbed_alone (own : UInt64) : Undisturbed [] own [] := by
  simp [Undisturbed]

/-- **When the interface check looks at its own interface only.** For every stored number,
the check answers `ENETUNREACH` and keeps the number if it is the one on the watched
interface's own line, and otherwise stores that one and answers `ENOERR`, exactly when the
lines before and after it that begin with the name leave the own number undisturbed. -/
theorem iface_own_line_iff (t : NetDevText) (before after : List IfaceLine) (own : IfaceLine)
    (ht : t.ifaces = before ++ own :: after) :
    (∀ bytes, checkIface own.name bytes (.ok { text := t.text }) =
      if bytes = own.rxBytes then (enetunreach, bytes) else (enoerr, own.rxBytes)) ↔
    Undisturbed
      (readings own.name (t.header.map Subtype.val ++ before.map IfaceLine.text)) own.rxBytes
      (readings own.name (after.map IfaceLine.text)) := by
  have hread : readings own.name t.lines =
      readings own.name (t.header.map Subtype.val ++ before.map IfaceLine.text) ++
        own.rxBytes :: readings own.name (after.map IfaceLine.text) := by
    unfold readings NetDevText.lines
    rw [ht, List.map_append, List.map_cons, ← List.append_assoc, List.filterMap_append,
      List.filterMap_cons, own.lineBytes_own]
  rw [undisturbed_iff, ← hread, ← follow_iff]
  exact forall_congr' fun bytes => by
    rw [checkIface_text t own.newline_not_mem_name own.name_ne]

/-- Counters as the kernel prints them. -/
def counterLine (name : CString) (rxBytes : UInt64) (rest : CString)
    (h : name ≠ [] ∧ (name.all fun c => c ≠ ':' && !isSpace c) = true ∧ EndsNumber rest ∧
      '\n' ∉ rest ∧
      ([' ', ' '] ++ (name ++ ':' :: ([' '] ++ (Nat.toDigits 10 rxBytes.toNat ++ rest)))).length <
        128) : IfaceLine where
  pad := [' ', ' ']
  name := name
  gap := [' ']
  rxBytes := rxBytes
  rest := rest
  pad_blank := by simp [isSpaceOrTab]
  gap_blank := by simp [isSpaceOrTab]
  name_ne := h.1
  name_chars := by simpa using h.2.1
  rest_ends := h.2.2.1
  rest_line := h.2.2.2.1
  short := h.2.2.2.2

/-- `eth1` received nothing since the last check, and `eth10` hides it: its name is read as
the number 0. -/
theorem iface_other_line :
    let eth10 := counterLine "eth10".toList 7 " 1 0".toList (by decide +kernel)
    let eth1 := counterLine "eth1".toList 100 " 5 0".toList (by decide +kernel)
    let t : NetDevText := ⟨[], [eth10, eth1], by decide⟩
    eth1.rxBytes = 100 ∧
    checkIface eth1.name 100 (.ok { text := t.text }) = (enoerr, 100) ∧ enoerr ≠ enetunreach := by
  decide +kernel

/-- With `lo` beside it, `eth1` is watched as it should be. -/
theorem iface_own_line_lo :
    let lo := counterLine "lo".toList 7 " 1 0".toList (by decide +kernel)
    let eth1 := counterLine "eth1".toList 100 " 5 0".toList (by decide +kernel)
    let t : NetDevText := ⟨[⟨"Inter-|   Receive".toList, by decide⟩], [lo, eth1], by decide⟩
    ∀ bytes, checkIface eth1.name bytes (.ok { text := t.text }) =
      if bytes = 100 then (enetunreach, bytes) else (enoerr, 100) := by
  intro lo eth1 t
  have hread : readings eth1.name (t.header.map Subtype.val ++ [lo].map IfaceLine.text) = [] := by
    decide +kernel
  refine (iface_own_line_iff t [lo] [] eth1 rfl).2 ?_
  rw [hread]
  exact undisturbed_alone _

end Watchdog
