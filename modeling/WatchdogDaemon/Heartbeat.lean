import WatchdogDaemon.Basic
import WatchdogDaemon.Lib.Pieces
import WatchdogDaemon.Lib.RingBuffer

/- The heartbeat file: `heartbeat.c`.

   The daemon keeps the time of its last `hbstamps` writes to the watchdog device in a
   circular buffer of 12-byte records. `open_heartbeat` fills it from the file of the run
   before and adds a restart marker; every `write_heartbeat` adds a stamp and writes the
   whole buffer, oldest record first, over the start of the file. A gap in the stamps
   then shows a reboot. The file is never cut: what it held beyond the records written
   stays behind them.

   The place of a record, `TS_SIZE * lastts` bytes into the buffer, is computed as an `int`.
   From record 178956971 on the product wraps around and the copy goes outside the buffer;
   what the daemon does from there on is unknown, and the functions answer `none`.

   The buffer is a `RingBuffer` (`Is`), so the statements about the order of the records come
   from `RingBuffer.contents_pushAll`.

   What is proved:
     1. `writes_recent_history_iff` — a write passes the last `hbstamps` records of the
        file's records, the marker and the stamps to `fwrite`, in order, exactly when no
        more than 178956971 records of the buffer are used.
     2. `survives_iff` — over every sequence of runs from an empty file, each run leaves
        exactly these records in the file if and only if no run finds more records in it
        than its own `hbstamps` or uses more than 178956971 (`HaveRoom`, a condition on the
        sizes and the numbers of stamps alone).
     3. `keeps_old_tail` — with a smaller `hbstamps` the oldest stamps come last.

   Correspondence (C ↔ Lean):
     `timestamps`, `lastts`, `nrts`, `hb`   ↔ `Heartbeat`
     `next_value`                           ↔ `nextValue`
     `open_heartbeat`                       ↔ `openHeartbeat`
     `write_heartbeat`                      ↔ `writeHeartbeat`
     `close_heartbeat`                      ↔ `Heartbeat.file`, all that is left of it
   The slots of `timestamps` are its `TS_SIZE`-byte pieces; all copies go to and from
   whole pieces. Which bytes of a write reach the file is the environment's. -/
namespace Watchdog

def tsSize : Nat := 12

/-- The buffer of an open heartbeat file, and the bytes of the file. -/
structure Heartbeat where
  timestamps : List CString
  lastts : Nat
  nrts : Nat
  file : CString

def nextValue (hbstamps : Nat) (hb : Heartbeat) : Heartbeat :=
  { hb with
    nrts := if hb.nrts < hbstamps then hb.nrts + 1 else hb.nrts
    lastts := (hb.lastts + 1) % hbstamps }

/-- `TS_SIZE * lastts`, an `int`, is the place of the record `lastts`. -/
def PlaceFits (lastts : Nat) : Prop := toInt ((tsSize : Int) * lastts) = (tsSize : Int) * lastts

instance (lastts : Nat) : Decidable (PlaceFits lastts) := inferInstanceAs (Decidable (_ = _))

/-- Copy it to the buffer, success. -/
def remember (hbstamps : Nat) (hb : Heartbeat) (buf : CString) : Option Heartbeat :=
  if PlaceFits hb.lastts then
    some (nextValue hbstamps
      { hb with timestamps := hb.timestamps.set hb.lastts (buf.take tsSize) })
  else none

/-- `sprintf (.., "%*s\n", TS_SIZE - 1, s)`. -/
def rightWidth (s : CString) : CString :=
  List.replicate (tsSize - 1 - s.length) ' ' ++ s ++ ['\n']

/-! ## Opening -/

/-- What the calls of `fgets` with `TS_SIZE + 1` return, one after the other; `line` is what
the present one has read. -/
def pieces : CString → CString → List CString
  | [], line => if line.isEmpty then [] else [line]
  | c :: rest, line =>
    if c = '\n' ∨ line.length + 1 = tsSize then (line ++ [c]) :: pieces rest []
    else pieces rest (line ++ [c])

/-- `fgets` overwrites the start of `rbuf`. -/
def readLineInto (rbuf line : CString) : CString :=
  line ++ Char.ofNat 0 :: rbuf.drop (line.length + 1)

/-- One round of the loop: the copy takes `TS_SIZE` bytes whatever the line's length. -/
def readBack (hbstamps : Nat) (s : CString × Heartbeat) (line : CString) :
    Option (CString × Heartbeat) := do
  let rbuf := readLineInto s.1 line
  let hb ← remember hbstamps s.2 rbuf
  return (rbuf, hb)

def restartMarker : CString := rightWidth "--restart--".toList

/-- What `fopen` finds. A file that is missing is created empty. -/
inductive HeartbeatFile where
  | notSet
  | failed
  | opened (bytes : CString)

/-- `calloc (hbstamps, TS_SIZE)`. -/
def zeroed (hbstamps : Nat) : List CString :=
  List.replicate hbstamps (List.replicate tsSize (Char.ofNat 0))

/-- `rbuf` is the array as the call finds it on the stack. -/
def openHeartbeat (hbstamps : Nat) (rbuf : CString) :
    HeartbeatFile → Option (Int × Option Heartbeat)
  | .notSet => some (0, none)
  | .failed => some (-1, none)
  | .opened bytes => do
    let s ← (pieces bytes []).foldlM (readBack hbstamps) (rbuf, ⟨zeroed hbstamps, 0, 0, bytes⟩)
    let hb ← remember hbstamps s.2 restartMarker
    return (0, some hb)

/-! ## Writing -/

/-- One call: `time (NULL)`, the number that `%s` stands for, what `tbuf` holds if it does
not fit, and how many of the bytes reach the file if not all do. -/
structure HeartbeatCall where
  timenow : Int
  seconds : Int
  tbuf : CString := []
  accepted : Option Nat := none

/-- `strftime` with room for `TS_SIZE - 1` bytes, the NUL included. -/
def HeartbeatCall.text (w : HeartbeatCall) : CString :=
  if (decimal w.seconds).length < tsSize - 1 then decimal w.seconds else w.tbuf

/-- The record of the call. -/
def HeartbeatCall.stamp (w : HeartbeatCall) : CString := (rightWidth w.text).take tsSize

/-- The records that each call of `fwrite` is given. -/
def Heartbeat.chunks (hbstamps : Nat) (hb : Heartbeat) : Option (List (List CString)) :=
  if hb.nrts = hbstamps then
    if PlaceFits hb.lastts then
      some [(hb.timestamps.drop hb.lastts).take (hbstamps - hb.lastts),
        hb.timestamps.take hb.lastts]
    else none
  else
    some [hb.timestamps.take hb.nrts]

/-- Bytes written to the file from its start. -/
def overwrite (file bytes : CString) : CString := bytes ++ file.drop bytes.length

/-- The bytes that reach the file. A short write is logged and nothing else. -/
def HeartbeatCall.written (w : HeartbeatCall) (bytes : CString) : CString :=
  match w.accepted with
  | none => bytes
  | some n => bytes.take n

/-- The file after the call, with the records passed to `fwrite`. -/
def writeHeartbeat (hbstamps : Nat) (hb : Option Heartbeat) (w : HeartbeatCall) :
    Option (Option Heartbeat × List (List CString)) :=
  match hb with
  | none => some (none, [])
  | some hb =>
    if w.timenow ≠ -1 then do
      let hb ← remember hbstamps hb (rightWidth w.text)
      let chunks ← hb.chunks hbstamps
      return (some { hb with file := overwrite hb.file (w.written chunks.flatten.flatten) }, chunks)
    else some (some hb, [])

/-- The buffer after the calls. -/
def writeAll (hbstamps : Nat) (hb : Option Heartbeat) (ws : List HeartbeatCall) :
    Option (Option Heartbeat) :=
  ws.foldlM (fun hb w => (writeHeartbeat hbstamps hb w).map Prod.fst) hb

/-- The buffer after the file was opened and written so many times. -/
def session (hbstamps : Nat) (rbuf : CString) (file : HeartbeatFile) (ws : List HeartbeatCall) :
    Option (Option Heartbeat) := do
  let opened ← openHeartbeat hbstamps rbuf file
  writeAll hbstamps opened.2 ws

/-! ## Records -/

/-- A whole record: `TS_SIZE` bytes that a newline ends. -/
def IsRecord (r : CString) : Prop :=
  ∃ body : CString, body.length + 1 = tsSize ∧ '\n' ∉ body ∧ r = body ++ ['\n']

theorem IsRecord.length_eq {r : CString} (h : IsRecord r) : r.length = tsSize := by
  obtain ⟨body, hlen, -, rfl⟩ := h
  rw [List.length_append]
  exact hlen

theorem isRecord_rightWidth {s : CString} (hlen : s.length + 1 ≤ tsSize) (hs : '\n' ∉ s) :
    IsRecord (rightWidth s) := by
  refine ⟨List.replicate (tsSize - 1 - s.length) ' ' ++ s, ?_, ?_, rfl⟩
  · rw [List.length_append, List.length_replicate]
    omega
  · rw [List.mem_append, List.mem_replicate, not_or]
    exact ⟨fun h => absurd h.2 (by decide), hs⟩

theorem isRecord_restartMarker : IsRecord restartMarker :=
  isRecord_rightWidth (by decide) (by decide)

theorem pieces_eq (text line : CString) : pieces text line = Pieces.pieces '\n' tsSize text line := by
  induction text generalizing line with
  | nil => rfl
  | cons c text ih => rw [pieces, Pieces.pieces, ih, ih]

/-- A file of whole records is read back record by record. -/
theorem pieces_flatten {records : List CString} (h : ∀ r ∈ records, IsRecord r) :
    pieces records.flatten [] = records := by
  induction records with
  | nil => rfl
  | cons r records ih =>
    obtain ⟨body, hlen, hbody, rfl⟩ := h r List.mem_cons_self
    have hrest := ih fun r hr => h r (List.mem_cons_of_mem _ hr)
    rw [List.flatten_cons, List.append_assoc, List.singleton_append,
      pieces_eq, Pieces.pieces_line hbody _ (by simp only [List.length_nil]; omega), ← pieces_eq,
      hrest]
    rfl

theorem length_flatten_records {records : List CString} (h : ∀ r ∈ records, IsRecord r) :
    records.flatten.length = tsSize * records.length := by
  induction records with
  | nil => rfl
  | cons r records ih =>
    have hrest := ih fun r hr => h r (List.mem_cons_of_mem _ hr)
    rw [List.flatten_cons, List.length_append, (h r List.mem_cons_self).length_eq, hrest,
      List.length_cons, Nat.mul_succ]
    omega

theorem drop_flatten_records {records : List CString} (h : ∀ r ∈ records, IsRecord r) (n : Nat) :
    records.flatten.drop (tsSize * n) = (records.drop n).flatten := by
  induction records generalizing n with
  | nil => simp
  | cons r records ih =>
    cases n with
    | zero => rfl
    | succ n =>
      have hr := (h r List.mem_cons_self).length_eq
      have hsize : tsSize * (n + 1) = r.length + tsSize * n := by
        rw [hr, Nat.mul_succ]
        omega
      rw [List.flatten_cons, hsize, List.drop_length_add_append,
        ih (fun r hr => h r (List.mem_cons_of_mem _ hr)) n]
      rfl

/-- Whole records written over a file of whole records. -/
theorem overwrite_records {old new : List CString} (hold : ∀ r ∈ old, IsRecord r)
    (hnew : ∀ r ∈ new, IsRecord r) :
    overwrite old.flatten new.flatten = (new ++ old.drop new.length).flatten := by
  rw [overwrite, length_flatten_records hnew, drop_flatten_records hold, List.flatten_append]

/-! ## The buffer is a ring -/

/-- The three variables are those of the ring. -/
structure Is (hb : Heartbeat) (r : RingBuffer CString) : Prop where
  slots : hb.timestamps = r.slots
  next : hb.lastts = r.next
  count : hb.nrts = r.count

section Ring
variable {hbstamps : Nat} {hb : Heartbeat} {r : RingBuffer CString}

theorem Is.push (h : Is hb r) (hsize : r.slots.length = hbstamps) (hfits : PlaceFits r.next)
    (buf : CString) :
    ∃ hb', remember hbstamps hb buf = some hb' ∧ Is hb' (r.push (buf.take tsSize)) ∧
      hb'.file = hb.file := by
  subst hsize
  rw [← h.next] at hfits
  refine ⟨_, if_pos hfits, ⟨?_, ?_, ?_⟩, rfl⟩
  · show hb.timestamps.set hb.lastts _ = r.slots.set r.next _
    rw [h.slots, h.next]
  · show (hb.lastts + 1) % _ = (r.next + 1) % _
    rw [h.next]
  · show (if hb.nrts < _ then hb.nrts + 1 else hb.nrts) = if r.count < _ then _ else _
    rw [h.count]

/-- One or two calls of `fwrite`: the records passed are the items of the ring. -/
theorem Is.chunks (h : Is hb r) (hsize : r.slots.length = hbstamps)
    (hfits : r.count = hbstamps → PlaceFits r.next) :
    ∃ chunks, hb.chunks hbstamps = some chunks ∧ chunks.flatten = r.contents := by
  subst hsize
  have hall : (r.slots.drop r.next).take (r.slots.length - r.next) = r.slots.drop r.next := by
    apply List.take_of_length_le
    rw [List.length_drop]
  unfold Heartbeat.chunks RingBuffer.contents
  rw [h.slots, h.next, h.count, hall]
  split
  · next hfull =>
    rw [if_pos (hfits hfull)]
    exact ⟨_, rfl, by simp⟩
  · exact ⟨_, rfl, by simp⟩

end Ring

/-! ## What the buffer holds -/

/-- The records of the buffer that can be reached with an `int`. -/
def maxPlaces : Nat := 178956971

theorem placeFits_iff_lt (lastts : Nat) : PlaceFits lastts ↔ lastts < maxPlaces := by
  have hbounds := toInt_bounds ((tsSize : Int) * lastts)
  unfold PlaceFits
  simp only [tsSize, maxPlaces, Nat.cast_ofNat] at hbounds ⊢
  refine ⟨fun hfits => ?_, fun hlt => toInt_eq_self (by omega) (by omega)⟩
  rw [hfits] at hbounds
  omega

/-- So many records put into the buffer have all gone to their places. -/
def Fits (hbstamps n : Nat) : Prop := min n hbstamps ≤ maxPlaces

instance (hbstamps n : Nat) : Decidable (Fits hbstamps n) := inferInstanceAs (Decidable (_ ≤ _))

theorem Fits.mono {hbstamps n m : Nat} (h : Fits hbstamps m) (hle : n ≤ m) : Fits hbstamps n := by
  unfold Fits at h ⊢
  omega

section Log
variable {hbstamps : Nat} (hpos : 0 < hbstamps)

/-- The ring that all of `log` was put into. -/
def ringOf (log : List CString) : RingBuffer CString :=
  (RingBuffer.blank (zeroed hbstamps) (by rw [zeroed, List.length_replicate]; exact hpos)).pushAll log

theorem length_slots_ringOf (log : List CString) : (ringOf hpos log).slots.length = hbstamps := by
  rw [ringOf, RingBuffer.length_slots_pushAll]
  exact List.length_replicate

theorem contents_ringOf (log : List CString) : (ringOf hpos log).contents = log.rtake hbstamps := by
  rw [ringOf, RingBuffer.contents_pushAll, RingBuffer.contents_blank, List.nil_append]
  congr 1
  exact List.length_replicate

theorem ringOf_concat (log : List CString) (x : CString) :
    ringOf hpos (log ++ [x]) = (ringOf hpos log).push x := RingBuffer.pushAll_append _ _ _

theorem next_ringOf (log : List CString) : (ringOf hpos log).next = log.length % hbstamps := by
  induction log using List.reverseRecOn with
  | nil => exact (Nat.zero_mod hbstamps).symm
  | append_singleton log x ih =>
    rw [ringOf_concat]
    show ((ringOf hpos log).next + 1) % (ringOf hpos log).slots.length = _
    rw [length_slots_ringOf, ih, Nat.mod_add_mod, List.length_append, List.length_singleton]

theorem count_ringOf (log : List CString) : (ringOf hpos log).count = min log.length hbstamps := by
  rw [← RingBuffer.length_contents, contents_ringOf, List.rtake, List.length_drop]
  omega

/-- The place of one record more. -/
theorem placeFits_ringOf {log : List CString} (h : Fits hbstamps (log.length + 1)) :
    PlaceFits (ringOf hpos log).next := by
  have hlt := Nat.mod_lt log.length hpos
  have hle := Nat.mod_le log.length hbstamps
  rw [placeFits_iff_lt, next_ringOf]
  unfold Fits at h
  omega

/-- What becomes of a buffer that all of `log` is put into: it is the ring of these records,
or a place was none. -/
def Follows (log : List CString) (hb : Option Heartbeat) : Prop :=
  (Fits hbstamps log.length → ∃ hb', hb = some hb' ∧ Is hb' (ringOf hpos log)) ∧
    (¬ Fits hbstamps log.length → hb = none)

theorem follows_some {log : List CString} {hb : Heartbeat} (h : Follows hpos log (some hb)) :
    Fits hbstamps log.length ∧ Is hb (ringOf hpos log) := by
  by_cases hfits : Fits hbstamps log.length
  · obtain ⟨hb', heq, his⟩ := h.1 hfits
    exact ⟨hfits, Option.some.inj heq ▸ his⟩
  · cases h.2 hfits

theorem follows_none {log : List CString} (h : Follows hpos log none) : ¬ Fits hbstamps log.length := by
  intro hfits
  obtain ⟨hb, heq, -⟩ := h.1 hfits
  cases heq

/-- One record more. -/
theorem Is.put {hb : Heartbeat} {log : List CString} (h : Is hb (ringOf hpos log))
    (hfits : Fits hbstamps log.length) (buf : CString) :
    Follows hpos (log ++ [buf.take tsSize]) (remember hbstamps hb buf) := by
  rw [Follows, List.length_append, List.length_singleton, ringOf_concat]
  refine ⟨fun hmore => ?_, fun hmore => ?_⟩
  · obtain ⟨hb', hput, his, -⟩ := h.push (length_slots_ringOf hpos log) (placeFits_ringOf hpos hmore) buf
    exact ⟨hb', hput, his⟩
  · -- The buffer is larger than its places, and the record is the first beyond them.
    have hnext : ¬ PlaceFits hb.lastts := by
      unfold Fits at hfits hmore
      rw [h.next, next_ringOf, placeFits_iff_lt, Nat.mod_eq_of_lt (by omega)]
      omega
    exact if_neg hnext

/-- The records that the loop of `open_heartbeat` puts into the buffer. -/
def loaded : CString → List CString → List CString
  | _, [] => []
  | rbuf, line :: lines => (readLineInto rbuf line).take tsSize :: loaded (readLineInto rbuf line) lines

theorem length_loaded (rbuf : CString) (lines : List CString) :
    (loaded rbuf lines).length = lines.length := by
  induction lines generalizing rbuf with
  | nil => rfl
  | cons line lines ih => rw [loaded, List.length_cons, ih, List.length_cons]

/-- Whole records are loaded as they are. -/
theorem loaded_records {records : List CString} (hrec : ∀ r ∈ records, IsRecord r) (rbuf : CString) :
    loaded rbuf records = records := by
  induction records generalizing rbuf with
  | nil => rfl
  | cons record records ih =>
    have hlen := (hrec record List.mem_cons_self).length_eq
    have htake : (readLineInto rbuf record).take tsSize = record := by
      rw [readLineInto, ← hlen, List.take_left]
    rw [loaded, htake, ih fun r hr => hrec r (List.mem_cons_of_mem _ hr)]

theorem remember_file {hb hb' : Heartbeat} {buf : CString} (h : remember hbstamps hb buf = some hb') :
    hb'.file = hb.file := by
  unfold remember at h
  split at h
  · rw [← Option.some.inj h]
    rfl
  · cases h

/-- Reading the file back puts its records into the ring. -/
theorem Is.readBack (lines : List CString) (rbuf : CString) {hb : Heartbeat} {log : List CString}
    (h : Is hb (ringOf hpos log)) (hfits : Fits hbstamps log.length) :
    Follows hpos (log ++ loaded rbuf lines)
      ((lines.foldlM (Watchdog.readBack hbstamps) (rbuf, hb)).map Prod.snd) := by
  induction lines generalizing rbuf hb log with
  | nil =>
    rw [loaded, List.append_nil]
    exact ⟨fun _ => ⟨hb, rfl, h⟩, fun hnot => absurd hfits hnot⟩
  | cons line lines ih =>
    have hput := h.put hpos hfits (readLineInto rbuf line)
    rw [List.foldlM_cons, loaded, List.append_cons]
    cases hr : remember hbstamps hb (readLineInto rbuf line) with
    | none =>
      rw [hr] at hput
      have hfull := follows_none hpos hput
      have hread : Watchdog.readBack hbstamps (rbuf, hb) line = none := by
        simp [Watchdog.readBack, hr]
      rw [hread]
      exact ⟨fun hall => absurd (hall.mono (List.prefix_append _ _).length_le) hfull, fun _ => rfl⟩
    | some hb' =>
      rw [hr] at hput
      obtain ⟨hfits', his⟩ := follows_some hpos hput
      have hread : Watchdog.readBack hbstamps (rbuf, hb) line = some (readLineInto rbuf line, hb') := by
        simp [Watchdog.readBack, hr]
      rw [hread]
      exact ih (readLineInto rbuf line) his hfits'

theorem readBack_file (lines : List CString) {s s' : CString × Heartbeat}
    (h : lines.foldlM (Watchdog.readBack hbstamps) s = some s') : s'.2.file = s.2.file := by
  induction lines generalizing s with
  | nil => rw [← Option.some.inj h]
  | cons line lines ih =>
    rw [List.foldlM_cons] at h
    obtain ⟨mid, hmid, hrest⟩ := Option.bind_eq_some_iff.1 h
    unfold Watchdog.readBack at hmid
    obtain ⟨hb, hput, heq⟩ := Option.bind_eq_some_iff.1 hmid
    rw [ih hrest, ← Option.some.inj heq]
    exact remember_file hput

end Log

/-! ## One run -/

/-- The stamps of the calls that have a time. -/
def stamps (ws : List HeartbeatCall) : List CString :=
  (ws.filter fun w => w.timenow ≠ -1).map (·.stamp)

/-- The records there are after the calls: those of the file, the marker, the stamps. -/
def history (records : List CString) (ws : List HeartbeatCall) : List CString :=
  records ++ [restartMarker] ++ stamps ws

theorem length_history (records : List CString) (ws : List HeartbeatCall) :
    (history records ws).length = records.length + 1 + (stamps ws).length := by
  simp only [history, List.length_append, List.length_singleton]

theorem history_concat {w : HeartbeatCall} (hw : w.timenow ≠ -1) (records : List CString)
    (ws : List HeartbeatCall) :
    history records (ws ++ [w]) = history records ws ++ [w.stamp] := by
  simp [history, stamps, hw]

theorem history_concat_skip {w : HeartbeatCall} (hw : w.timenow = -1) (records : List CString)
    (ws : List HeartbeatCall) : history records (ws ++ [w]) = history records ws := by
  simp [history, stamps, hw]

theorem rtake_min_length {α : Type} (xs : List α) (n : Nat) :
    xs.rtake (min xs.length n) = xs.rtake n := by
  unfold List.rtake
  congr 1
  omega

section Run
variable {hbstamps : Nat} (hpos : 0 < hbstamps)

/-- The buffer after `open_heartbeat`. -/
theorem openHeartbeat_follows (rbuf bytes : CString) :
    ∃ hb, openHeartbeat hbstamps rbuf (.opened bytes) = hb.map (fun hb => (0, some hb)) ∧
      Follows hpos (history (loaded rbuf (pieces bytes [])) []) hb ∧
      ∀ hb' ∈ hb, hb'.file = bytes := by
  have hblank : Is ⟨zeroed hbstamps, 0, 0, bytes⟩ (ringOf hpos []) := ⟨rfl, rfl, rfl⟩
  have hload := hblank.readBack hpos (pieces bytes []) rbuf (Nat.zero_le _)
  have hlog : history (loaded rbuf (pieces bytes [])) [] =
      loaded rbuf (pieces bytes []) ++ [restartMarker.take tsSize] := List.append_nil _
  rw [List.nil_append] at hload
  have hopen : openHeartbeat hbstamps rbuf (.opened bytes) =
      ((pieces bytes []).foldlM (Watchdog.readBack hbstamps)
        (rbuf, ⟨zeroed hbstamps, 0, 0, bytes⟩)).bind fun s =>
          (remember hbstamps s.2 restartMarker).bind fun hb => some (0, some hb) := rfl
  rw [hlog, hopen]
  cases hread : (pieces bytes []).foldlM (Watchdog.readBack hbstamps)
      (rbuf, ⟨zeroed hbstamps, 0, 0, bytes⟩) with
  | none =>
    rw [hread] at hload
    have hfull := follows_none hpos hload
    refine ⟨none, rfl, ⟨fun hall => absurd (hall.mono ?_) hfull, fun _ => rfl⟩, by simp⟩
    rw [List.length_append]
    omega
  | some s =>
    rw [hread] at hload
    obtain ⟨hfits, his⟩ := follows_some hpos hload
    refine ⟨remember hbstamps s.2 restartMarker, ?_, his.put hpos hfits restartMarker, ?_⟩
    · rw [Option.bind_some]
      cases remember hbstamps s.2 restartMarker <;> rfl
    · intro hb' hmem
      rw [remember_file hmem, readBack_file _ hread]

/-- A call with a time: one more record, and the ring is passed to `fwrite`. -/
theorem Is.write {hb : Heartbeat} {log : List CString} (h : Is hb (ringOf hpos log))
    (hmore : Fits hbstamps (log.length + 1)) {w : HeartbeatCall} (hw : w.timenow ≠ -1) :
    ∃ hb' chunks, writeHeartbeat hbstamps (some hb) w = some (some hb', chunks) ∧
      Is hb' (ringOf hpos (log ++ [w.stamp])) ∧
      chunks.flatten = (log ++ [w.stamp]).rtake hbstamps ∧
      hb'.file = overwrite hb.file (w.written chunks.flatten.flatten) := by
  obtain ⟨hb', hput, his, hfile⟩ := h.push (length_slots_ringOf hpos log) (placeFits_ringOf hpos hmore)
    (rightWidth w.text)
  have his' : Is hb' (ringOf hpos (log ++ [w.stamp])) := by
    rw [ringOf_concat]
    exact his
  -- A buffer that is written from the middle is full, and has all its places.
  have hplace : (ringOf hpos (log ++ [w.stamp])).count = hbstamps →
      PlaceFits (ringOf hpos (log ++ [w.stamp])).next := by
    rw [count_ringOf, next_ringOf, placeFits_iff_lt, List.length_append, List.length_singleton]
    intro hfull
    have := Nat.mod_lt (log.length + 1) hpos
    unfold Fits at hmore
    omega
  obtain ⟨chunks, hchunks, hcontents⟩ := his'.chunks (length_slots_ringOf hpos _) hplace
  refine ⟨{ hb' with file := overwrite hb'.file (w.written chunks.flatten.flatten) }, chunks, ?_,
    ⟨his'.slots, his'.next, his'.count⟩, by rw [hcontents, contents_ringOf], by rw [hfile]⟩
  rw [writeHeartbeat, if_pos hw, hput]
  simp [hchunks]

/-- A call whose record has no place. -/
theorem Is.write_none {hb : Heartbeat} {log : List CString} (h : Is hb (ringOf hpos log))
    (hfits : Fits hbstamps log.length) (hmore : ¬ Fits hbstamps (log.length + 1))
    {w : HeartbeatCall} (hw : w.timenow ≠ -1) : writeHeartbeat hbstamps (some hb) w = none := by
  have hput := (h.put hpos hfits (rightWidth w.text)).2
    (by rw [List.length_append, List.length_singleton]; exact hmore)
  rw [writeHeartbeat, if_pos hw, hput]
  rfl

theorem session_concat (rbuf : CString) (file : HeartbeatFile) (ws : List HeartbeatCall)
    (w : HeartbeatCall) : session hbstamps rbuf file (ws ++ [w]) =
      (session hbstamps rbuf file ws).bind fun hb => (writeHeartbeat hbstamps hb w).map Prod.fst := by
  unfold session
  cases openHeartbeat hbstamps rbuf file with
  | none => rfl
  | some opened =>
    show writeAll hbstamps opened.2 (ws ++ [w]) = (writeAll hbstamps opened.2 ws).bind _
    simp only [writeAll, List.foldlM_append, List.foldlM_cons, List.foldlM_nil]
    cases ws.foldlM (fun hb w => (writeHeartbeat hbstamps hb w).map Prod.fst) opened.2 with
    | none => rfl
    | some hb => cases hwrite : writeHeartbeat hbstamps hb w <;> simp [hwrite]

/-- The buffer after any calls. -/
theorem session_follows (rbuf bytes : CString) (ws : List HeartbeatCall) :
    ∃ hb, session hbstamps rbuf (.opened bytes) ws = hb.map some ∧
      Follows hpos (history (loaded rbuf (pieces bytes [])) ws) hb := by
  induction ws using List.reverseRecOn with
  | nil =>
    obtain ⟨hb, hopen, hfollows, -⟩ := openHeartbeat_follows hpos rbuf bytes
    refine ⟨hb, ?_, hfollows⟩
    rw [session, hopen]
    cases hb <;> rfl
  | append_singleton ws w ih =>
    obtain ⟨hb, hall, hfollows⟩ := ih
    rw [session_concat, hall]
    by_cases hw : w.timenow = -1
    · rw [history_concat_skip hw]
      refine ⟨hb, ?_, hfollows⟩
      cases hb <;> simp [writeHeartbeat, hw]
    · rw [history_concat hw]
      cases hb with
      | none =>
        have hfull := follows_none hpos hfollows
        refine ⟨none, rfl, fun hfits => absurd (hfits.mono ?_) hfull, fun _ => rfl⟩
        rw [List.length_append]
        omega
      | some hb =>
        obtain ⟨hfits, his⟩ := follows_some hpos hfollows
        by_cases hmore : Fits hbstamps ((history (loaded rbuf (pieces bytes [])) ws).length + 1)
        · obtain ⟨hb', chunks, hwrite, his', -⟩ := his.write hpos hmore hw
          refine ⟨some hb', by simp [hwrite], fun _ => ⟨hb', rfl, his'⟩, fun hnot => absurd ?_ hnot⟩
          rw [List.length_append, List.length_singleton]
          exact hmore
        · refine ⟨none, by simp [his.write_none hpos hfits hmore hw], fun hfits' => absurd ?_ hmore,
            fun _ => rfl⟩
          rwa [List.length_append, List.length_singleton] at hfits'

/-- The write after the calls, on a file of whole records: the recent history, or no place
for the record. -/
theorem write_recent (hpos : 0 < hbstamps) (rbuf : CString) {records : List CString} (hrec : ∀ r ∈ records, IsRecord r)
    (ws : List HeartbeatCall) {w : HeartbeatCall} (hw : w.timenow ≠ -1) :
    ((session hbstamps rbuf (.opened records.flatten) ws).bind fun hb =>
        writeHeartbeat hbstamps hb w).map (fun out => out.2.flatten) =
      if Fits hbstamps (history records (ws ++ [w])).length then
        some ((history records (ws ++ [w])).rtake hbstamps)
      else none := by
  obtain ⟨hb, hall, hfollows⟩ := session_follows hpos rbuf records.flatten ws
  rw [pieces_flatten hrec, loaded_records hrec] at hfollows
  rw [hall, history_concat hw, List.length_append, List.length_singleton]
  cases hb with
  | none =>
    have hfull := follows_none hpos hfollows
    rw [if_neg fun hfits => hfull (hfits.mono (by omega))]
    rfl
  | some hb =>
    obtain ⟨hfits, his⟩ := follows_some hpos hfollows
    by_cases hmore : Fits hbstamps ((history records ws).length + 1)
    · obtain ⟨hb', chunks, hwrite, -, hchunks, -⟩ := his.write hpos hmore hw
      rw [if_pos hmore, ← hchunks]
      simp [hwrite]
    · rw [if_neg hmore]
      simp [his.write_none hpos hfits hmore hw]

end Run

/-- **When the records written are the recent history, in order.** Whatever was written
before, a call that has a time passes to `fwrite` the last `hbstamps` of the file's records,
the restart marker and the stamps, this call's last, exactly when no more than 178956971
records of the buffer are used: beyond them a copy goes outside the buffer. -/
theorem writes_recent_history_iff (hbstamps : Nat) (hpos : 1 ≤ hbstamps) (rbuf : CString)
    (records : List CString) (hrec : ∀ r ∈ records, IsRecord r) (ws : List HeartbeatCall)
    (w : HeartbeatCall) (hw : w.timenow ≠ -1) :
    let n := (stamps (ws ++ [w])).length
    ((session hbstamps rbuf (.opened records.flatten) ws).bind fun hb =>
        writeHeartbeat hbstamps hb w).map (fun out => out.2.flatten) =
      some ((records ++ [restartMarker] ++ stamps (ws ++ [w])).rtake
        (min (records.length + 1 + n) hbstamps)) ↔
      min (records.length + 1 + n) hbstamps ≤ 178956971 := by
  intro n
  have hlast : (records ++ [restartMarker] ++ stamps (ws ++ [w])).rtake
      (min (records.length + 1 + n) hbstamps) = (history records (ws ++ [w])).rtake hbstamps := by
    rw [← length_history]
    exact rtake_min_length (history records (ws ++ [w])) hbstamps
  rw [write_recent hpos rbuf hrec ws hw, hlast, length_history]
  by_cases hfits : Fits hbstamps (records.length + 1 + n)
  · rw [if_pos hfits]
    exact iff_of_true rfl hfits
  · rw [if_neg hfits]
    exact iff_of_false (by simp) hfits

/-- A file of so many records, and a buffer that could hold one more: there is no place for
the restart marker. -/
theorem openHeartbeat_overflows {n : Nat} (hn : n = 178956971) {records : List CString}
    (hrec : ∀ r ∈ records, IsRecord r) (hlen : records.length = n) :
    openHeartbeat (n + 1) [] (.opened records.flatten) = none := by
  obtain ⟨hb, hopen, hfollows, -⟩ := openHeartbeat_follows (Nat.succ_pos n) [] records.flatten
  have hnone : hb = none := by
    apply hfollows.2
    rw [pieces_flatten hrec, loaded_records hrec, length_history, hlen]
    unfold Fits maxPlaces
    simp only [stamps, List.filter_nil, List.map_nil, List.length_nil]
    omega
  rw [hopen, hnone]
  rfl

/-- A stamp of a run before. -/
def oldStamp : CString := rightWidth "1000".toList

theorem isRecord_oldStamp : IsRecord oldStamp := isRecord_rightWidth (by decide) (by decide)

/-- With 178956971 records in the file and a buffer for one more, the restart marker is
copied to a place before the buffer. -/
theorem marker_has_no_place :
    (∀ r ∈ List.replicate 178956971 oldStamp, IsRecord r) ∧
    openHeartbeat 178956972 [] (.opened (List.replicate 178956971 oldStamp).flatten) = none := by
  have hrec : ∀ r ∈ List.replicate 178956971 oldStamp, IsRecord r := by
    intro r hr
    rw [List.eq_of_mem_replicate hr]
    exact isRecord_oldStamp
  exact ⟨hrec, openHeartbeat_overflows rfl hrec List.length_replicate⟩

/-- A ring of two, a file of one record and two stamps: the second write has wrapped. -/
theorem writes_recent_history_iff_wrapped :
    let ws := [(⟨1060, 1060, [], none⟩ : HeartbeatCall)]
    ((session 2 [] (.opened [oldStamp].flatten) ws).bind fun hb =>
        writeHeartbeat 2 hb ⟨1120, 1120, [], none⟩).map (fun out => out.2.flatten) =
      some [rightWidth "1060".toList, rightWidth "1120".toList] := by
  have hwrites := writes_recent_history_iff 2 (by decide) [] [oldStamp]
    (fun r hr => by rw [List.mem_singleton.mp hr]; exact isRecord_oldStamp) [⟨1060, 1060, [], none⟩]
    ⟨1120, 1120, [], none⟩ (by decide)
  exact hwrites.2 (by decide)

/-! ## Runs on one file -/

/-- The time is known, its text fits, and the disk takes the bytes. -/
def HeartbeatCall.Successful (w : HeartbeatCall) : Prop :=
  w.timenow ≠ -1 ∧ (decimal w.seconds).length < tsSize - 1 ∧ w.accepted = none

/-- A run of the daemon on the file: opened, written at least once with success, and closed.
A call without a time does nothing. -/
structure HeartbeatRun where
  hbstamps : Nat
  rbuf : CString
  calls : List HeartbeatCall
  pos : 0 < hbstamps
  successful : ∀ w ∈ calls, w.timenow ≠ -1 → w.Successful
  writes : ∃ w ∈ calls, w.timenow ≠ -1

/-- The file after the run. -/
def afterRun (file : CString) (run : HeartbeatRun) : Option CString :=
  (session run.hbstamps run.rbuf (.opened file) run.calls).map fun hb =>
    match hb with
    | none => file
    | some hb => hb.file

/-- Every run leaves in the file the last records of all there were to it, and no others. -/
def AllSurvive : CString → List HeartbeatRun → Prop
  | _, [] => True
  | file, run :: runs =>
    let k := (pieces file []).length + 1 + (stamps run.calls).length
    ∃ file', afterRun file run = some file' ∧
      pieces file' [] =
        (pieces file [] ++ [restartMarker] ++ stamps run.calls).rtake (min k run.hbstamps) ∧
      AllSurvive file' runs

/-- No run finds more records than its buffer is for, or uses more than have a place; `m` is
how many the first one finds. -/
def HaveRoom : Nat → List HeartbeatRun → Prop
  | _, [] => True
  | m, run :: runs =>
    let k := min (m + 1 + (stamps run.calls).length) run.hbstamps
    m ≤ run.hbstamps ∧ k ≤ 178956971 ∧ HaveRoom k runs

theorem HeartbeatCall.Successful.isRecord {w : HeartbeatCall} (h : w.Successful) :
    IsRecord w.stamp := by
  have hlen := h.2.1
  have htext : w.text = decimal w.seconds := if_pos hlen
  have hrec : IsRecord (rightWidth w.text) := by
    rw [htext]
    exact isRecord_rightWidth (by omega) (newline_not_mem_decimal _)
  unfold HeartbeatCall.stamp
  rwa [← hrec.length_eq, List.take_length]

theorem isRecord_history {records : List CString} (hrec : ∀ r ∈ records, IsRecord r)
    {ws : List HeartbeatCall} (hws : ∀ w ∈ ws, w.timenow ≠ -1 → w.Successful) :
    ∀ r ∈ history records ws, IsRecord r := by
  intro r hr
  simp only [history, stamps, List.mem_append, List.mem_singleton, List.mem_map, List.mem_filter,
    decide_eq_true_eq] at hr
  obtain (hr | rfl) | ⟨w, ⟨hw, htime⟩, rfl⟩ := hr
  · exact hrec r hr
  · exact isRecord_restartMarker
  · exact (hws w hw htime).isRecord

/-- The file during a run: the records last written over those of the run before. -/
def Over (records written : List CString) : CString :=
  (written ++ records.drop written.length).flatten

theorem overwrite_over {records written new : List CString} (hrec : ∀ r ∈ records, IsRecord r)
    (hwritten : ∀ r ∈ written, IsRecord r) (hnew : ∀ r ∈ new, IsRecord r)
    (hle : written.length ≤ new.length) :
    overwrite (Over records written) new.flatten = Over records new := by
  have hold : ∀ r ∈ written ++ records.drop written.length, IsRecord r := by
    intro r hr
    obtain hr | hr := List.mem_append.mp hr
    · exact hwritten r hr
    · exact hrec r (List.mem_of_mem_drop hr)
  rw [Over, overwrite_records hold hnew, List.drop_append, List.drop_of_length_le hle, List.drop_drop,
    List.nil_append, Nat.add_sub_cancel' hle, Over]

theorem length_rtake {α : Type} (xs : List α) (n : Nat) : (xs.rtake n).length = min xs.length n := by
  rw [List.rtake, List.length_drop]
  omega

/-- After the calls of a run the records written last lie over those of the run before:
they are the last of the history, unless no call had a time yet. -/
theorem file_session {hbstamps : Nat} (hpos : 0 < hbstamps) (rbuf : CString)
    {records : List CString} (hrec : ∀ r ∈ records, IsRecord r) (ws : List HeartbeatCall)
    (hws : ∀ w ∈ ws, w.timenow ≠ -1 → w.Successful)
    (hfits : Fits hbstamps (history records ws).length) :
    ∃ hb written, session hbstamps rbuf (.opened records.flatten) ws = some (some hb) ∧
      Is hb (ringOf hpos (history records ws)) ∧ hb.file = Over records written ∧
      (written = [] ∧ stamps ws = [] ∨ written = (history records ws).rtake hbstamps) := by
  induction ws using List.reverseRecOn with
  | nil =>
    obtain ⟨opened, hopen, hfollows, hfile⟩ := openHeartbeat_follows hpos rbuf records.flatten
    rw [pieces_flatten hrec, loaded_records hrec] at hfollows
    obtain ⟨hb, rfl, his⟩ := hfollows.1 hfits
    exact ⟨hb, [], by rw [session, hopen]; rfl, his, hfile hb rfl, Or.inl ⟨rfl, rfl⟩⟩
  | append_singleton ws w ih =>
    have hpre : ∀ w ∈ ws, w.timenow ≠ -1 → w.Successful := fun w hw => hws w (List.mem_append_left _ hw)
    by_cases hw : w.timenow = -1
    · have hstamps : stamps (ws ++ [w]) = stamps ws := by simp [stamps, hw]
      rw [history_concat_skip hw] at hfits ⊢
      obtain ⟨hb, written, hall, his, hfile, hwritten⟩ := ih hpre hfits
      rw [hstamps, session_concat, hall]
      exact ⟨hb, written, by simp [writeHeartbeat, hw], his, hfile, hwritten⟩
    · have hhist := isRecord_history hrec hws
      rw [history_concat hw] at hfits hhist ⊢
      rw [List.length_append, List.length_singleton] at hfits
      obtain ⟨hb, written, hall, his, hfile, hwritten⟩ := ih hpre (hfits.mono (by omega))
      have hsucc := hws w (List.mem_append_right _ List.mem_cons_self) hw
      obtain ⟨hb', chunks, hwrite, his', hchunks, hfile'⟩ := his.write hpos hfits hw
      refine ⟨hb', _, by rw [session_concat, hall]; simp [hwrite], his', ?_, Or.inr rfl⟩
      -- What is written covers what was written before it.
      have hmem : ∀ r ∈ written, IsRecord r := by
        obtain ⟨rfl, -⟩ | rfl := hwritten
        · exact fun r hr => absurd hr List.not_mem_nil
        · exact fun r hr => isRecord_history hrec hpre r (List.mem_of_mem_drop hr)
      have hle : written.length ≤ ((history records ws ++ [w.stamp]).rtake hbstamps).length := by
        obtain ⟨rfl, -⟩ | rfl := hwritten
        · exact Nat.zero_le _
        · rw [length_rtake, length_rtake, List.length_append]
          omega
      have hdisk : w.written chunks.flatten.flatten = chunks.flatten.flatten := by
        rw [HeartbeatCall.written, hsucc.2.2]
      rw [hfile', hdisk, hfile, hchunks]
      exact overwrite_over hrec hmem (fun r hr => hhist r (List.mem_of_mem_drop hr)) hle

/-- The file after a run on a file of whole records. -/
theorem afterRun_eq {records : List CString} (hrec : ∀ r ∈ records, IsRecord r) (run : HeartbeatRun) :
    afterRun records.flatten run =
      if Fits run.hbstamps (history records run.calls).length then
        some (Over records ((history records run.calls).rtake run.hbstamps))
      else none := by
  split
  · next hfits =>
    obtain ⟨hb, written, hall, -, hfile, hwritten⟩ :=
      file_session run.pos run.rbuf hrec run.calls run.successful hfits
    have hsome : stamps run.calls ≠ [] := by
      obtain ⟨w, hw, htime⟩ := run.writes
      have hmem : w.stamp ∈ stamps run.calls := by
        apply List.mem_map_of_mem
        rw [List.mem_filter]
        exact ⟨hw, decide_eq_true htime⟩
      exact List.ne_nil_of_mem hmem
    obtain ⟨-, hnone⟩ | rfl := hwritten
    · exact absurd hnone hsome
    · rw [afterRun, hall]
      exact congrArg some hfile
  · next hfits =>
    obtain ⟨hb, hall, hfollows⟩ := session_follows run.pos run.rbuf records.flatten run.calls
    rw [pieces_flatten hrec, loaded_records hrec] at hfollows
    rw [afterRun, hall, hfollows.2 hfits]
    rfl

/-- With no more records than the buffer, nothing of the file stays. -/
theorem over_eq_flatten {records : List CString} {run : HeartbeatRun}
    (hle : records.length ≤ run.hbstamps) :
    Over records ((history records run.calls).rtake run.hbstamps) =
      ((history records run.calls).rtake run.hbstamps).flatten := by
  have hlen := length_history records run.calls
  rw [Over, List.drop_of_length_le (by rw [length_rtake]; omega), List.append_nil]

theorem isRecord_over {records : List CString} (hrec : ∀ r ∈ records, IsRecord r)
    (run : HeartbeatRun) :
    ∀ r ∈ (history records run.calls).rtake run.hbstamps ++
      records.drop ((history records run.calls).rtake run.hbstamps).length, IsRecord r := by
  intro r hr
  obtain hr | hr := List.mem_append.mp hr
  · exact isRecord_history hrec run.successful r (List.mem_of_mem_drop hr)
  · exact hrec r (List.mem_of_mem_drop hr)

/-- Nothing stays behind exactly when the file did not have more records than the buffer. -/
theorem over_eq_iff {records : List CString} (hrec : ∀ r ∈ records, IsRecord r) (run : HeartbeatRun) :
    pieces (Over records ((history records run.calls).rtake run.hbstamps)) [] =
      (history records run.calls).rtake run.hbstamps ↔ records.length ≤ run.hbstamps := by
  have hlen := length_history records run.calls
  rw [Over, pieces_flatten (isRecord_over hrec run), List.append_right_eq_self, List.drop_eq_nil_iff,
    length_rtake]
  omega

/-- The runs on a file of whole records: what a run leaves is what the next one finds. -/
theorem allSurvive_iff (runs : List HeartbeatRun) {records : List CString}
    (hrec : ∀ r ∈ records, IsRecord r) :
    AllSurvive records.flatten runs ↔ HaveRoom records.length runs := by
  induction runs generalizing records with
  | nil => rfl
  | cons run runs ih =>
    have hlast : ((records ++ [restartMarker] ++ stamps run.calls).rtake
        (min (records.length + 1 + (stamps run.calls).length) run.hbstamps)) =
        (history records run.calls).rtake run.hbstamps := by
      rw [← length_history]
      exact rtake_min_length (history records run.calls) run.hbstamps
    have hmem : ∀ r ∈ (history records run.calls).rtake run.hbstamps, IsRecord r := fun r hr =>
      isRecord_history hrec run.successful r (List.mem_of_mem_drop hr)
    have hcount : ((history records run.calls).rtake run.hbstamps).length =
        min (records.length + 1 + (stamps run.calls).length) run.hbstamps := by
      rw [length_rtake, length_history]
    have hrest := ih hmem
    rw [hcount] at hrest
    simp only [AllSurvive, HaveRoom]
    rw [pieces_flatten hrec, hlast, afterRun_eq hrec run]
    by_cases hfits : Fits run.hbstamps (history records run.calls).length
    · rw [if_pos hfits]
      rw [length_history] at hfits
      refine ⟨?_, ?_⟩
      · rintro ⟨file, hfile, hpieces, hruns⟩
        obtain rfl := Option.some.inj hfile
        have hle := (over_eq_iff hrec run).1 hpieces
        rw [over_eq_flatten hle] at hruns
        exact ⟨hle, hfits, hrest.1 hruns⟩
      · rintro ⟨hle, -, hruns⟩
        refine ⟨_, rfl, (over_eq_iff hrec run).2 hle, ?_⟩
        rw [over_eq_flatten hle]
        exact hrest.2 hruns
    · rw [if_neg hfits]
      rw [length_history] at hfits
      refine iff_of_false ?_ fun h => hfits h.2.1
      rintro ⟨file, hfile, -⟩
      cases hfile

/-- **The history survives restarts, unless the ring is made smaller or is too large.** From
an empty file every run leaves the last records of all there were to it, oldest first and no
others, exactly when no run has a buffer for fewer records than it finds, or uses more than
178956971 of its own. -/
theorem survives_iff (runs : List HeartbeatRun) : AllSurvive [] runs ↔ HaveRoom 0 runs :=
  @allSurvive_iff runs [] fun _ hr => absurd hr List.not_mem_nil

/-- Stamps at 1060 and 1120 with room for three records. -/
def threeStamps : HeartbeatRun where
  hbstamps := 3
  rbuf := []
  calls := [⟨1060, 1060, [], none⟩, ⟨1120, 1120, [], none⟩]
  pos := by decide
  successful := by
    intro w hw _
    simp only [List.mem_cons, List.not_mem_nil, or_false] at hw
    obtain rfl | rfl := hw <;> exact ⟨by decide, by decide, rfl⟩
  writes := ⟨_, List.mem_cons_self, by decide⟩

/-- A stamp at 2000 with room for two. -/
def twoStamps : HeartbeatRun where
  hbstamps := 2
  rbuf := []
  calls := [⟨2000, 2000, [], none⟩]
  pos := by decide
  successful := by
    intro w hw _
    rw [List.mem_singleton.mp hw]
    exact ⟨by decide, by decide, rfl⟩
  writes := ⟨_, List.mem_cons_self, by decide⟩

/-- The stamp of the run before is the last record of the file. -/
theorem keeps_old_tail :
    ((afterRun [] threeStamps).bind fun file => afterRun file twoStamps).map (pieces · []) =
        some [restartMarker, rightWidth "2000".toList, rightWidth "1120".toList] ∧
      ¬ AllSurvive [] [threeStamps, twoStamps] := by
  refine ⟨by decide, fun hall => ?_⟩
  have hfit : HaveRoom 0 [threeStamps, twoStamps] :=
    (allSurvive_iff _ fun _ hr => absurd hr List.not_mem_nil).1 hall
  exact absurd hfit.2.2.1 (by decide)

end Watchdog
