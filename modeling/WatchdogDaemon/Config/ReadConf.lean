import Mathlib.Data.List.DropRight
import Mathlib.Data.List.Induction
import WatchdogDaemon.Action
import WatchdogDaemon.Shutdown.DoShutdown

/- `read-conf.c`: the pieces a line of the configuration file is read with.

   The `read_*_func` functions are all of one shape: they answer whether the key they
   were given is the one they look for and, if it is, what they make of the value. A
   bad value is no error: the variable then keeps what it held, except a blank string,
   which clears it. `none` is the answer -1 and `some x` the answer 0 with `x` in the
   variable. What is logged is left out, and memory never runs out. `trim_white` walks
   back with an `int`, which is not the last index of a string of more than 2^31 bytes.

   Correspondence (C ↔ Lean):
     `is_white`, `is_number`                ↔ `isWhite`, `isNumber`
     `trim_white`                           ↔ `trimFrom` (its loop), `trimWhite`
     `str_start`                            ↔ `strStart`
     `read_int_func`                        ↔ `readIntFunc`
     `read_string_func`                     ↔ `readStringFunc`
     `read_enumerated_func`                 ↔ `readEnumeratedFunc`
     `read_list_func`, `add_list`           ↔ `readListFunc`, `addList`
     `struct list`                          ↔ `ListEntry` (`file.mtime` of `parameter`) -/
namespace Watchdog
open Shutdown (atoi)

/-! ## White space -/

def isWhite (c : Char) : Bool :=
  c == ' ' || c == '\t' || c == '\r' || c == '\n' || c == '\x08'

def isNumber (c : Char) : Bool := c.isDigit || c == '-' || c == '+'

/-- The loop of `trim_white` from the index `n - 1` on: a NUL over white space ends the
string there. -/
def trimFrom (buf : CString) : Nat → CString
  | 0 => buf
  | ii + 1 => if (buf[ii]?).any isWhite then trimFrom (buf.take ii) ii else buf

/-- `ii = strlen (buf) - 1` is an `int`: -1 for the empty string, and not the last index
of a very long one. -/
def trimWhite (buf : CString) : CString := trimFrom buf (toInt ((buf.length : Int) - 1) + 1).toNat

def strStart (p : CString) : CString := p.dropWhile isWhite

/-- From its last index the loop drops the white space at the end. -/
theorem trimFrom_length (buf : CString) : trimFrom buf buf.length = buf.rdropWhile isWhite := by
  induction buf using List.reverseRecOn with
  | nil => rfl
  | append_singleton s c ih =>
    have hlast : (s ++ [c])[s.length]? = some c := by simp
    rw [List.length_append, List.length_singleton, trimFrom, hlast, Option.any_some]
    cases hc : isWhite c with
    | true => rw [if_pos rfl, List.take_left, ih, List.rdropWhile_concat_pos _ _ _ hc]
    | false => rw [if_neg (by decide), List.rdropWhile_concat_neg _ _ _ (by simp [hc])]

/-- Where the loop starts on white space the string ends before it; anything else it
leaves alone. -/
theorem trimFrom_at {buf : CString} {ii : Nat} (h : ii < buf.length) :
    trimFrom buf (ii + 1) = if isWhite buf[ii] then (buf.take ii).rdropWhile isWhite else buf := by
  have hlen : (buf.take ii).length = ii := List.length_take_of_le h.le
  have hcut := trimFrom_length (buf.take ii)
  rw [hlen] at hcut
  rw [trimFrom, List.getElem?_eq_getElem h, Option.any_some, hcut]

/-- A string whose last index is an `int`. -/
theorem trimWhite_short {buf : CString} (h : buf.length ≤ 2 ^ 31) :
    trimWhite buf = buf.rdropWhile isWhite := by
  have hlast : toInt ((buf.length : Int) - 1) = buf.length - 1 := toInt_eq_self (by omega) (by omega)
  have hcount : (toInt ((buf.length : Int) - 1) + 1).toNat = buf.length := by omega
  rw [trimWhite, hcount, trimFrom_length]

/-- A string whose last index is negative as an `int`: nothing is trimmed. -/
theorem trimWhite_wrapped {buf : CString} (h : 2 ^ 31 < buf.length) (h' : buf.length ≤ 2 ^ 32) :
    trimWhite buf = buf := by
  have hlast : toInt ((buf.length : Int) - 1) = buf.length - 1 - 2 ^ 32 :=
    toInt_wrapped (by omega) (by omega)
  have hcount : (toInt ((buf.length : Int) - 1) + 1).toNat = 0 := by omega
  rw [trimWhite, hcount, trimFrom]

theorem strStart_white {w : CString} (hw : ∀ c ∈ w, isWhite c = true) (s : CString) :
    strStart (w ++ s) = strStart s :=
  List.dropWhile_append_of_pos hw

theorem strStart_head {s : CString} (hs : ∀ c ∈ s.head?, isWhite c = false) : strStart s = s := by
  cases s with
  | nil => rfl
  | cons c s => exact List.dropWhile_cons_of_neg (by rw [hs c rfl]; decide)

theorem rdropWhile_last {s : CString} (hs : ∀ c ∈ s.getLast?, isWhite c = false) :
    s.rdropWhile isWhite = s := by
  apply List.rdropWhile_eq_self_iff.2
  intro hne
  rw [hs _ (List.getLast?_eq_some_getLast hne)]
  decide

/-! ## Lists -/

/-- An entry as the configuration makes it, with the time a file may go unchanged. -/
structure ListEntry extends Entry where
  mtime : Int := 0
  deriving DecidableEq

/-- Duplicates are not looked for. -/
def addList (list : List ListEntry) (name : CString) (version : Int) : List ListEntry :=
  list ++ [{ toEntry := freshEntry name version }]

/-! ## Values -/

/-- The bounds are not checked when they are equal. -/
def readIntFunc (arg val name : CString) (imin imax : Int) (iv : Int) : Option Int :=
  if arg = name then
    match val with
    | [] => some iv
    | c :: _ =>
      if isNumber c then
        let ii := atoi val
        if imin < imax then some (if imax < ii then imax else if ii < imin then imin else ii)
        else some ii
      else some iv
  else none

inductive StringRead where
  | allowBlank
  | stringOnly

def readStringFunc (arg val name : CString) (mode : StringRead) (str : Option CString) :
    Option (Option CString) :=
  if arg = name then
    if val ≠ [] then some (some val)
    else
      match mode with
      | .allowBlank => some none
      | .stringOnly => some str
  else none

/-- `strcasecmp (s, t) == 0`. -/
def sameIgnoringCase (s t : CString) : Bool := s.map Char.toLower == t.map Char.toLower

/-- The first name of the table that is the value, whatever the case. -/
def readEnumeratedFunc (arg val name : CString) (list : List (CString × Int)) (iv : Int) :
    Option Int :=
  if arg = name then
    if val ≠ [] then
      some (((list.find? fun e => sameIgnoringCase val e.1).map Prod.snd).getD iv)
    else some iv
  else none

def readListFunc (arg val name : CString) (version : Int) (list : List ListEntry) :
    Option (List ListEntry) :=
  if arg = name then
    if val ≠ [] then some (addList list val version) else some list
  else none

end Watchdog
