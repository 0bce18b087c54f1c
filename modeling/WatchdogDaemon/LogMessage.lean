import Mathlib.Data.List.Induction
import WatchdogDaemon.Basic
import WatchdogDaemon.Lib.Runs

/- Messages: `logmessage.c`, with syslog compiled in.

   While the shutdown has stopped all other processes, a call of `syslog` would block, so
   logging is suspended: messages are counted, and the last one is kept. One `int` says
   both that logging is suspended and how many messages there were, starting at 1.

   The abstract logger (`Suspension`) is the list of all messages of the suspension, if one
   is active. `Tracks` relates it to the variables: the counter is one more than the
   length of the list as an `int`, and level and text kept are those of its last message.

   What is proved:
     1. `log_accounts` — in every sequence of suspensions, messages and resumptions in
        which no suspension gets to 2^31 - 1 messages, where the counter overflows, every
        call passes to syslog what the abstract logger says.
     2. `log_forgets` — after 2^31 messages the counter is negative, and all of them are
        forgotten.

   Correspondence (C ↔ Lean):
     the static variables                   ↔ `Logger`
     `open_logging`, `close_logging`        ↔ `openLogging`, `closeLogging`
     `output_message`, `log_message`        ↔ `outputMessage`, `logMessage`
     `suspend_logging`, `resume_logging`    ↔ `suspendLogging`, `resumeLogging`
     `syslog`, `fprintf (stderr, ..)`       ↔ `Output` -/
namespace Watchdog.Logging

def logWarning : Int := 4
def logDebug : Int := 7

def msgToStderr : Nat := 1
def msgToSyslog : Nat := 2

def maxMessage : Nat := 2048
def maxProgName : Nat := 256

structure Logger where
  usingSyslog : Bool := false
  usingTerminal : Bool := false
  progname : CString := []
  errCount : Int := 0
  errLevel : Int := logDebug
  errBuf : CString := []

inductive Output where
  | syslog (level : Int) (text : CString)
  | stderr (text : CString)
  deriving DecidableEq

/-- What `fprintf` returns, and whether `fflush` fails. -/
structure Terminal where
  fprintf : Int
  fflushFails : Bool := false

/-! ## The functions -/

def closeLogging (l : Logger) : Int × Logger :=
  if l.usingSyslog then (0, { l with usingSyslog := false }) else (-1, l)

def openLogging (l : Logger) (name : Option CString) (flags : Nat) : Int × Logger :=
  let l := { l with
    progname := (name.map (·.take (maxProgName - 1))).getD l.progname
    errCount := 0
    usingTerminal := flags &&& msgToStderr ≠ 0 }
  if flags &&& msgToSyslog ≠ 0 then (0, { l with usingSyslog := true })
  else (0, (closeLogging l).2)

def outputMessage (t : Terminal) (l : Logger) (level : Int) (buf : CString) :
    Int × Logger × List Output :=
  let (l, out) : Logger × List Output :=
    if l.usingSyslog ∧ l.errCount = 0 then (l, [.syslog level buf])
    else
      -- In 'suspend' mode, copy message so can output on 'resume'.
      ({ l with
        errCount := toInt (l.errCount + 1)
        errLevel := level
        errBuf := buf.take (maxMessage - 1) }, [])
  if l.usingTerminal then
    (t.fprintf, { l with usingTerminal := ¬ (t.fprintf < 0 ∨ t.fflushFails) },
      out ++ [.stderr (l.progname ++ ": ".toList ++ buf ++ ['\n'])])
  else (0, l, out)

/-- The text of a message in its buffer, from `vsnprintf`. -/
def formatted (text : CString) : CString := text.take (maxMessage - 2)

def logMessage (t : Terminal) (l : Logger) (level : Int) (text : CString) :
    Int × Logger × List Output :=
  outputMessage t l level (formatted text)

def suspendLogging (l : Logger) : Int × Logger :=
  (0, if l.errCount = 0 then { l with errCount := toInt (l.errCount + 1) } else l)

def lostMessages (count : Int) (last : CString) : CString :=
  "had ".toList ++ decimal count ++ " messages in log suspend, last: ".toList ++ last

def resumeLogging (l : Logger) : Int × Logger × List Output :=
  let (rv, out) : Int × List Output :=
    if l.errCount ≠ 0 ∧ l.usingSyslog then
      -- We start at 1 so remove that.
      let errCount := toInt (l.errCount - 1)
      if errCount = 1 then (0, [.syslog l.errLevel l.errBuf])
      else if errCount > 1 then (-1, [.syslog logWarning (lostMessages errCount l.errBuf)])
      else (0, [])
    else (0, [])
  (rv, { l with errCount := 0 }, out)

/-! ## Runs -/

inductive Call where
  | suspend
  | message (t : Terminal) (level : Int) (text : CString)
  | resume

/-- What a call returns, the variables after it, and what it puts out. -/
def step (l : Logger) : Call → Int × Logger × List Output
  | .suspend => ((suspendLogging l).1, (suspendLogging l).2, [])
  | .message t level text => logMessage t l level text
  | .resume => resumeLogging l

def after (l : Logger) (calls : List Call) : Logger := Runs.run (fun l c => (step l c).2.1) l calls

/-- What is passed to syslog. -/
def toSyslog (out : List Output) : List (Int × CString) :=
  out.filterMap fun
    | .syslog level text => some (level, text)
    | .stderr _ => none

/-! ## The abstract logger -/

structure Message where
  level : Int
  text : CString

/-- The messages of the suspension that is active, if one is. -/
abbrev Suspension := Option (List Message)

def Suspension.step (p : Suspension) : Call → Suspension
  | .suspend => some (p.getD [])
  | .message _ level text => p.map (· ++ [⟨level, formatted text⟩])
  | .resume => none

/-- The suspension after the calls, from a logger that is just opened. -/
def suspensionAfter (calls : List Call) : Suspension := Runs.run Suspension.step none calls

/-- What a resumption has to say about the messages. -/
def report : List Message → List (Int × CString)
  | [] => []
  | [m] => [(m.level, m.text)]
  | m :: n :: ms => [(logWarning, lostMessages (ms.length + 2) ((n :: ms).getLast (by simp)).text)]

/-- What a call has to pass to syslog. -/
def expected (p : Suspension) : Call → List (Int × CString)
  | .suspend => []
  | .message _ level text => if p.isSome then [] else [(level, formatted text)]
  | .resume => report (p.getD [])

/-- The call passes to syslog what it has to, and a resumption returns -1 exactly when it
reports a loss. -/
def Accounts (l : Logger) (p : Suspension) (call : Call) : Prop :=
  toSyslog (step l call).2.2 = expected p call ∧
  match call with
  | .resume => (step l call).1 = if 2 ≤ (p.getD []).length then -1 else 0
  | _ => True

/-! ## The counter -/

theorem toInt_toInt_add (x y : Int) : toInt (toInt x + y) = toInt (x + y) := by
  unfold toInt
  simp

/-- The counter is not 0 before it has gone all the way round. -/
theorem toInt_succ_ne_zero {n : Nat} (h : n + 1 < 2 ^ 32) : toInt (n + 1) ≠ 0 := by
  intro hzero
  have hdvd : ((2 ^ 32 : Nat) : Int) ∣ n + 1 := Int.dvd_of_bmod_eq_zero hzero
  omega

/-- The variables hold what is left of the abstract logger. -/
structure Tracks (l : Logger) (p : Suspension) : Prop where
  syslogOpen : l.usingSyslog = true
  idle : p = none → l.errCount = 0
  suspended : ∀ ms, p = some ms → l.errCount = toInt (ms.length + 1) ∧ ms.length + 1 < 2 ^ 32 ∧
    ∀ m ∈ ms.getLast?, l.errLevel = m.level ∧ l.errBuf = m.text

/-- There is room for the call: a message is not the one that takes the counter to 2^32. -/
def Room (p : Suspension) : Call → Prop
  | .message _ _ _ => ∀ ms ∈ p, ms.length + 2 < 2 ^ 32
  | _ => True

section Step
variable {l : Logger} {p : Suspension}

theorem Tracks.errCount_ne_zero {ms : List Message} (h : Tracks l (some ms)) : l.errCount ≠ 0 := by
  obtain ⟨hcount, hlt, -⟩ := h.suspended ms rfl
  rw [hcount]
  exact toInt_succ_ne_zero hlt

theorem take_formatted (text : CString) : (formatted text).take (maxMessage - 1) = formatted text := by
  apply List.take_of_length_le
  rw [formatted, List.length_take]
  exact Nat.le_trans (Nat.min_le_left _ _) (by decide)

/-- A message is passed on at once; the terminal has no part in it. -/
theorem logMessage_idle (hopen : l.usingSyslog = true) (hcount : l.errCount = 0) (t : Terminal)
    (level : Int) (text : CString) :
    toSyslog (logMessage t l level text).2.2 = [(level, formatted text)] ∧
      ∃ b, (logMessage t l level text).2.1 = { l with usingTerminal := b } := by
  have hcond : l.usingSyslog = true ∧ l.errCount = 0 := ⟨hopen, hcount⟩
  unfold logMessage outputMessage
  simp only [if_pos hcond]
  split
  · exact ⟨rfl, _, rfl⟩
  · exact ⟨rfl, l.usingTerminal, rfl⟩

/-- In a suspension it is counted and kept. -/
theorem logMessage_suspended (hcount : l.errCount ≠ 0) (t : Terminal) (level : Int) (text : CString) :
    toSyslog (logMessage t l level text).2.2 = [] ∧
      ∃ b, (logMessage t l level text).2.1 =
        { l with
          usingTerminal := b
          errCount := toInt (l.errCount + 1)
          errLevel := level
          errBuf := formatted text } := by
  unfold logMessage outputMessage
  simp only [hcount, and_false, if_false, take_formatted]
  split
  · exact ⟨rfl, _, rfl⟩
  · exact ⟨rfl, l.usingTerminal, rfl⟩

/-- What one call does to both loggers. -/
theorem Tracks.step (h : Tracks l p) {call : Call} (hroom : Room p call) :
    Tracks (step l call).2.1 (p.step call) := by
  cases call with
  | suspend =>
    cases p with
    | none =>
      have hzero := h.idle rfl
      refine ⟨?_, fun hnone => absurd hnone (by simp [Suspension.step]), ?_⟩
      · simp only [Logging.step, suspendLogging, hzero, if_true]
        exact h.syslogOpen
      · rintro ms hms
        obtain rfl : [] = ms := Option.some.inj hms
        simp only [Logging.step, suspendLogging, hzero, if_true]
        exact ⟨rfl, by decide, fun m hm => absurd hm (by simp)⟩
    | some ms =>
      have hsame : (Logging.step l .suspend).2.1 = l := if_neg h.errCount_ne_zero
      rw [hsame]
      exact h
  | message t level text =>
    cases p with
    | none =>
      obtain ⟨-, b, hstate⟩ := logMessage_idle h.syslogOpen (h.idle rfl) t level text
      show Tracks (logMessage t l level text).2.1 none
      rw [hstate]
      exact ⟨h.syslogOpen, h.idle, h.suspended⟩
    | some ms =>
      obtain ⟨hcount, hlt, -⟩ := h.suspended ms rfl
      obtain ⟨-, b, hstate⟩ := logMessage_suspended h.errCount_ne_zero t level text
      have hroom' : ms.length + 2 < 2 ^ 32 := hroom ms rfl
      show Tracks (logMessage t l level text).2.1 (some (ms ++ [⟨level, formatted text⟩]))
      rw [hstate]
      refine ⟨h.syslogOpen, fun hnone => absurd hnone (by simp), ?_⟩
      rintro ms' hms'
      obtain rfl := Option.some.inj hms'
      rw [List.length_append, List.length_singleton]
      refine ⟨?_, by omega, ?_⟩
      · show toInt (l.errCount + 1) = _
        rw [hcount, toInt_toInt_add, Nat.cast_succ]
      · intro m hm
        rw [List.getLast?_concat, Option.mem_some_iff] at hm
        subst hm
        exact ⟨rfl, rfl⟩
  | resume =>
    refine ⟨h.syslogOpen, fun _ => rfl, fun ms hms => absurd hms (by simp [Suspension.step])⟩

/-- A resumption goes by what the counter makes of the number of messages. -/
theorem Tracks.resume {ms : List Message} (h : Tracks l (some ms)) :
    resumeLogging l =
      (if 1 < toInt ms.length then -1 else 0, { l with errCount := 0 },
        if toInt ms.length = 1 then [.syslog l.errLevel l.errBuf]
        else if 1 < toInt ms.length then
          [.syslog logWarning (lostMessages (toInt ms.length) l.errBuf)]
        else []) := by
  have hcond : l.errCount ≠ 0 ∧ l.usingSyslog = true := ⟨h.errCount_ne_zero, h.syslogOpen⟩
  have hback : toInt (l.errCount - 1) = toInt ms.length := by
    have hstep := toInt_toInt_add (ms.length + 1) (-1)
    rw [(h.suspended ms rfl).1, Int.sub_eq_add_neg, hstep, Int.add_neg_cancel_right]
  unfold resumeLogging
  simp only [if_pos hcond, hback, gt_iff_lt]
  by_cases hone : toInt ms.length = 1
  · simp only [hone, if_true, lt_irrefl, if_false]
  · by_cases hmore : 1 < toInt ms.length
    · simp only [hone, hmore, if_true, if_false]
    · simp only [hone, hmore, if_false]

/-- Fewer than 2^31 messages are reported as they should be. -/
theorem Tracks.accounts_resume (h : Tracks l p) (hlt : ∀ ms ∈ p, ms.length < 2 ^ 31) :
    Accounts l p .resume := by
  cases p with
  | none =>
    have hzero := h.idle rfl
    have hresume : resumeLogging l = (0, { l with errCount := 0 }, []) := by
      simp [resumeLogging, hzero]
    simp [Accounts, Logging.step, hresume, toSyslog, expected, report]
  | some ms =>
    have hlen : toInt ms.length = ms.length := toInt_eq_self (by omega) (by have := hlt ms rfl; omega)
    have hlast := (h.suspended ms rfl).2.2
    unfold Accounts
    simp only [Logging.step, h.resume, hlen, expected, Option.getD_some]
    cases ms with
    | nil => exact ⟨rfl, rfl⟩
    | cons m ms =>
      cases ms with
      | nil =>
        obtain ⟨hlevel, htext⟩ := hlast m rfl
        exact ⟨by simp [toSyslog, report, hlevel, htext], rfl⟩
      | cons n ms =>
        have htwo : (2 : Nat) ≤ (m :: n :: ms).length := by simp
        have hmore : (1 : Int) < (m :: n :: ms).length := by omega
        have hone : ((m :: n :: ms).length : Int) ≠ 1 := by omega
        obtain ⟨-, htext⟩ :=
          hlast ((n :: ms).getLast (by simp)) (by simp [List.getLast?_eq_some_getLast])
        rw [if_neg hone, if_pos hmore, if_pos hmore, if_pos htwo, htext]
        exact ⟨rfl, rfl⟩

theorem Tracks.accounts (h : Tracks l p) (call : Call) (hlt : ∀ ms ∈ p, ms.length < 2 ^ 31) :
    Accounts l p call := by
  cases call with
  | suspend => exact ⟨rfl, trivial⟩
  | message t level text =>
    refine ⟨?_, trivial⟩
    cases p with
    | none => exact (logMessage_idle h.syslogOpen (h.idle rfl) t level text).1
    | some ms => exact (logMessage_suspended h.errCount_ne_zero t level text).1
  | resume => exact h.accounts_resume hlt

end Step

/-! ## Whole runs -/

theorem after_concat (l : Logger) (calls : List Call) (call : Call) :
    after l (calls ++ [call]) = (step (after l calls) call).2.1 :=
  Runs.run_append _ l calls [call]

theorem suspensionAfter_concat (calls : List Call) (call : Call) :
    suspensionAfter (calls ++ [call]) = (suspensionAfter calls).step call :=
  Runs.run_append _ none calls [call]

/-- Both loggers after the same calls. -/
theorem tracks_after {l : Logger} (h : Tracks l none) {calls : List Call}
    (hroom : ∀ pre call post, calls = pre ++ call :: post → Room (suspensionAfter pre) call) :
    Tracks (after l calls) (suspensionAfter calls) := by
  induction calls using List.reverseRecOn with
  | nil => exact h
  | append_singleton calls call ih =>
    have hpre := ih fun pre c post heq => hroom pre c (post ++ [call]) (by rw [heq]; simp)
    rw [after_concat, suspensionAfter_concat]
    exact hpre.step (hroom calls call [] rfl)

theorem tracks_openLogging (l : Logger) (name : Option CString) {flags : Nat}
    (hflags : flags &&& msgToSyslog ≠ 0) : Tracks (openLogging l name flags).2 none := by
  have hopen : (openLogging l name flags).2.usingSyslog = true := by
    simp only [openLogging, if_pos hflags]
  have hcount : (openLogging l name flags).2.errCount = 0 := by
    simp only [openLogging, if_pos hflags]
  exact ⟨hopen, fun _ => hcount, fun ms hms => nomatch hms⟩

/-- A message of a suspension is at most its 2147483646th: the counter stays an `int`. -/
def Counted (p : Suspension) : Call → Prop
  | .message _ _ _ => ∀ ms ∈ p, ms.length < 2 ^ 31 - 2
  | _ => True

/-- Where the messages of a suspension come from. -/
theorem Suspension.mem_step {p : Suspension} {call : Call} {ms : List Message} (h : ms ∈ p.step call) :
    ms = [] ∨ ms ∈ p ∨ ∃ t level text, call = .message t level text ∧
      ∃ before ∈ p, ms = before ++ [⟨level, formatted text⟩] := by
  cases call with
  | suspend =>
    obtain rfl := Option.some.inj h
    cases p with
    | none => exact Or.inl rfl
    | some ms => exact Or.inr (Or.inl rfl)
  | message t level text =>
    obtain ⟨before, hbefore, rfl⟩ := Option.map_eq_some_iff.1 h
    exact Or.inr (Or.inr ⟨t, level, text, rfl, before, hbefore, rfl⟩)
  | resume => exact nomatch h

theorem length_suspensionAfter {calls : List Call}
    (hcounted : ∀ pre call post, calls = pre ++ call :: post → Counted (suspensionAfter pre) call) :
    ∀ ms ∈ suspensionAfter calls, ms.length < 2 ^ 31 - 1 := by
  induction calls using List.reverseRecOn with
  | nil => exact fun ms hms => nomatch hms
  | append_singleton calls call ih =>
    have hpre := ih fun pre c post heq => hcounted pre c (post ++ [call]) (by rw [heq]; simp)
    have hcall := hcounted calls call [] rfl
    rw [suspensionAfter_concat]
    intro ms hms
    obtain rfl | hms | ⟨t, level, text, rfl, before, hbefore, rfl⟩ := Suspension.mem_step hms
    · decide
    · exact hpre ms hms
    · have := hcall before hbefore
      rw [List.length_append, List.length_singleton]
      omega

/-- A suspension has no more messages than there were calls. -/
theorem length_suspensionAfter_le (calls : List Call) :
    ∀ ms ∈ suspensionAfter calls, ms.length ≤ calls.length := by
  induction calls using List.reverseRecOn with
  | nil => exact fun ms hms => nomatch hms
  | append_singleton calls call ih =>
    rw [suspensionAfter_concat, List.length_append, List.length_singleton]
    intro ms hms
    obtain rfl | hms | ⟨t, level, text, rfl, before, hbefore, rfl⟩ := Suspension.mem_step hms
    · exact Nat.zero_le _
    · exact Nat.le_succ_of_le (ih ms hms)
    · have := ih before hbefore
      rw [List.length_append, List.length_singleton]
      omega

/-- **Log suspension accounts for every message.** With syslog opened at any time, in every
sequence of calls in which no suspension has more than 2147483646 messages: every call
passes to syslog what the abstract logger says. A message is passed on at once and once if
no suspension is active and not at all otherwise, and a resumption reports nothing, the
one message, or the number of messages with the last one. -/
theorem log_accounts (l : Logger) (name : Option CString) (flags : Nat)
    (hflags : flags &&& msgToSyslog ≠ 0) {calls : List Call}
    (hcounted : ∀ pre call post, calls = pre ++ call :: post → Counted (suspensionAfter pre) call) :
    ∀ pre call post, calls = pre ++ call :: post →
      Accounts (after (openLogging l name flags).2 pre) (suspensionAfter pre) call := by
  intro pre call post heq
  have hprefix : ∀ pre' c post', pre = pre' ++ c :: post' → Counted (suspensionAfter pre') c := by
    rintro pre' c post' rfl
    exact hcounted pre' c (post' ++ call :: post) (by rw [heq]; simp)
  have hroom : ∀ pre' c post', pre = pre' ++ c :: post' → Room (suspensionAfter pre') c := by
    intro pre' c post' h
    have hc := hprefix pre' c post' h
    cases c with
    | suspend => trivial
    | message t level text =>
      intro ms hms
      have := hc ms hms
      omega
    | resume => trivial
  have htracks := tracks_after (tracks_openLogging l name hflags) hroom
  refine htracks.accounts call fun ms hms => ?_
  have := length_suspensionAfter hprefix ms hms
  omega

/-- Two messages in a suspension within a suspension. -/
theorem log_accounts_two :
    let t : Terminal := { fprintf := 0 }
    let calls := [.suspend, .message t 3 "a".toList, .suspend, .message t 6 "b".toList]
    let l := after (openLogging {} none msgToSyslog).2 calls
    toSyslog (step l .resume).2.2 = [(4, "had 2 messages in log suspend, last: b".toList)] ∧
      (step l .resume).1 = -1 := by
  intro t calls l
  have hcounted : ∀ pre call post, calls ++ [.resume] = pre ++ call :: post →
      Counted (suspensionAfter pre) call := by
    intro pre call post heq
    cases call with
    | suspend => trivial
    | message t level text =>
      intro ms hms
      have hfive : 5 = (pre ++ Call.message t level text :: post).length := congrArg List.length heq
      have hle := length_suspensionAfter_le pre ms hms
      rw [List.length_append] at hfive
      omega
    | resume => trivial
  obtain ⟨hout, hrv⟩ := log_accounts {} none msgToSyslog (by decide) hcounted calls .resume [] rfl
  exact ⟨hout.trans (by decide), hrv.trans (by decide)⟩

/-! ## An overflow -/

/-- A suspension with `n` messages. -/
def flood (n : Nat) : List Call := .suspend :: List.replicate n (.message { fprintf := 0 } 3 ['x'])

theorem flood_succ (n : Nat) : flood (n + 1) = flood n ++ [.message { fprintf := 0 } 3 ['x']] := by
  rw [flood, List.replicate_succ', flood, List.cons_append]

theorem suspensionAfter_flood (n : Nat) :
    suspensionAfter (flood n) = some (List.replicate n ⟨3, ['x']⟩) := by
  induction n with
  | zero => rfl
  | succ n ih =>
    rw [flood_succ, suspensionAfter_concat, ih, List.replicate_succ']
    rfl

theorem tracks_flood {l : Logger} (h : Tracks l none) {n : Nat} (hn : n + 1 < 2 ^ 32) :
    Tracks (after l (flood n)) (some (List.replicate n ⟨3, ['x']⟩)) := by
  induction n with
  | zero => exact h.step (show Room none .suspend from trivial)
  | succ n ih =>
    have hroom : Room (some (List.replicate n ⟨3, ['x']⟩)) (.message { fprintf := 0 } 3 ['x']) := by
      intro ms hms
      rw [← Option.some.inj hms, List.length_replicate]
      omega
    have hstep := (ih (by omega)).step hroom
    rw [flood_succ, after_concat, List.replicate_succ']
    exact hstep

/-- From 2^31 messages on the counter is negative, and a resumption says nothing. -/
theorem resume_flood {l : Logger} (h : Tracks l none) {n : Nat} (hlow : 2 ^ 31 ≤ n)
    (hhigh : n + 1 < 2 ^ 32) :
    (step (after l (flood n)) .resume).1 = 0 ∧ (step (after l (flood n)) .resume).2.2 = [] := by
  have hneg : toInt n < 0 := by
    unfold toInt
    rw [Int.bmod_eq_emod]
    split <;> omega
  have hresume := (tracks_flood h hhigh).resume
  rw [List.length_replicate] at hresume
  have hone : toInt n ≠ 1 := by omega
  have hmore : ¬ 1 < toInt n := by omega
  simp only [step, hresume, hone, hmore, if_false, and_self]

theorem not_accounts_flood {l : Logger} (h : Tracks l none) {n : Nat} (hlow : 2 ^ 31 ≤ n)
    (hhigh : n + 1 < 2 ^ 32) :
    ¬ Accounts (after l (flood n)) (suspensionAfter (flood n)) .resume := by
  intro haccounts
  have hreturns : (step (after l (flood n)) .resume).1 =
      if 2 ≤ ((suspensionAfter (flood n)).getD []).length then -1 else 0 := haccounts.2
  rw [(resume_flood h hlow hhigh).1, suspensionAfter_flood, Option.getD_some, List.length_replicate,
    if_pos (by omega)] at hreturns
  exact absurd hreturns (by decide)

/-- All messages of a suspension are forgotten, when they are 2^31. -/
theorem log_forgets :
    let l := after (openLogging {} none msgToSyslog).2 (flood (2 ^ 31))
    (∃ ms, suspensionAfter (flood (2 ^ 31)) = some ms ∧ ms.length = 2 ^ 31) ∧
      (step l .resume).1 = 0 ∧ (step l .resume).2.2 = [] ∧
      ¬ Accounts l (suspensionAfter (flood (2 ^ 31))) .resume := by
  have hopened := tracks_openLogging {} none (show msgToSyslog &&& msgToSyslog ≠ 0 by decide)
  obtain ⟨hrv, hout⟩ := resume_flood hopened (Nat.le_refl (2 ^ 31)) (by omega)
  exact ⟨⟨_, suspensionAfter_flood _, List.length_replicate⟩, hrv, hout,
    not_accounts_flood hopened (Nat.le_refl _) (by omega)⟩

end Watchdog.Logging
