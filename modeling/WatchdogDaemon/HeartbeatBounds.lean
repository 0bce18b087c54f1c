import WatchdogDaemon.Config.Values
import WatchdogDaemon.Heartbeat
import WatchdogDaemon.Lib.Runs

/- The arithmetic of the heartbeat buffer: `heartbeat.c` for any `heartbeat-stamps`.

   `hbstamps` comes from the configuration file as it stands there, so it is any `int`, and
   it serves as allocation size, modulus, limit and length. `Heartbeat` models what the
   buffer holds, for a size that is positive. Here the two variables `lastts` and `nrts`
   are the `int`s of the source, and every use of the buffer is recorded: copies, the
   records passed to `fwrite`, and the remainders that are taken.

   What is proved: `heartbeat_safe_iff` — for every configuration, file and number of
   writes, every use is within the buffer, or the daemon has stopped for lack of memory,
   exactly when `hbstamps` is not 0. The places in the buffer are computed as `int`s too,
   and for these the buffer may also not be filled beyond 178956971 records.

   Correspondence (C ↔ Lean):
     `lastts`, `nrts`                       ↔ `Cursor`
     `next_value`                           ↔ `nextCursor`, `none` for a remainder by 0
     `xcalloc`                              ↔ `xcalloc`
     `memcpy` to, `fwrite` from the buffer  ↔ `BufferUse`
     the loops of open and write            ↔ `bufferStep`, `heartbeatUses` -/
namespace Watchdog

/-! ## The functions -/

structure Cursor where
  lastts : Int
  nrts : Int

def nextCursor (hbstamps : Int) (c : Cursor) : Option Cursor :=
  let nrts := if c.nrts < hbstamps then toInt (c.nrts + 1) else c.nrts
  let lastts := toInt (c.lastts + 1)
  if hbstamps = 0 then none else some ⟨lastts.tmod hbstamps, nrts⟩

/-- A use of the buffer, with `nrts` at the time: a record copied to an index, or `count`
records written from an index on; and a remainder with its divisor. -/
inductive BufferUse where
  | copy (index nrts : Int)
  | write (index count nrts : Int)
  | remainder (divisor : Int)
  deriving DecidableEq

/-- What `write_heartbeat` passes to `fwrite`. -/
def flushUses (hbstamps : Int) (c : Cursor) : List BufferUse :=
  if c.nrts = hbstamps then
    [.write c.lastts (toInt (hbstamps - c.lastts)) c.nrts, .write 0 c.lastts c.nrts]
  else
    [.write 0 c.nrts c.nrts]

/-- A record is read back or the restart marker put behind it, or a stamp is put and the
buffer written. -/
inductive HeartbeatEvent where
  | load
  | stamp

/-- The uses so far, and the variables: `none` when the process was killed. -/
structure BufferRun where
  uses : List BufferUse := []
  cursor : Option Cursor := some ⟨0, 0⟩

/-- `timestamps` is whether there is a buffer: a copy to NULL kills the process. -/
def bufferStep (hbstamps : Int) (timestamps : Bool) (r : BufferRun) (e : HeartbeatEvent) : BufferRun :=
  match r.cursor with
  | none => r
  | some c =>
    let uses := r.uses ++ [.copy c.lastts c.nrts]
    if timestamps then
      let uses := uses ++ [.remainder hbstamps]
      match nextCursor hbstamps c with
      | none => ⟨uses, none⟩
      | some c =>
        match e with
        | .load => ⟨uses, some c⟩
        | .stamp => ⟨uses ++ flushUses hbstamps c, some c⟩
    else ⟨uses, none⟩

inductive Allocation where
  | null
  | block
  | fatal

/-- `available` is whether there are so many bytes. A size that is no `size_t` is refused
by `calloc`. -/
def xcalloc (available : Nat → Bool) (nmemb : Int) (size : Nat) : Allocation :=
  let n := (nmemb % 2 ^ 64).toNat
  if n = 0 ∨ size = 0 then .null
  else if n * size < 2 ^ 64 ∧ available (n * size) then .block
  else .fatal

/-- One event for each record of the file, one for the marker, and one for each call that
has a time. -/
def heartbeatEvents (bytes : CString) (calls : List HeartbeatCall) : List HeartbeatEvent :=
  List.replicate ((pieces bytes []).length + 1) .load ++ List.replicate (stamps calls).length .stamp

/-- All uses of the buffer from `open_heartbeat` on; `none` when `xcalloc` stopped the
daemon. -/
def heartbeatUses (available : Nat → Bool) (hbstamps : Int) (bytes : CString)
    (calls : List HeartbeatCall) : Option (List BufferUse) :=
  match xcalloc available hbstamps tsSize with
  | .fatal => none
  | .null => some (Runs.run (bufferStep hbstamps false) {} (heartbeatEvents bytes calls)).uses
  | .block => some (Runs.run (bufferStep hbstamps true) {} (heartbeatEvents bytes calls)).uses

/-- The same with the settings: `file` is `none` when the file cannot be opened. -/
def heartbeatSession (available : Nat → Bool) (g : Globals) (file : Option CString)
    (calls : List HeartbeatCall) : Option (List BufferUse) :=
  match g (.str .heartbeat), file with
  | some _, some bytes => heartbeatUses available (g (.int .hbstamps)) bytes calls
  | _, _ => some []

/-! ## Safe uses -/

/-- No remainder by 0, and no record outside the buffer. -/
def BufferUse.Safe (hbstamps : Int) : BufferUse → Prop
  | .copy index nrts => (0 ≤ index ∧ index < hbstamps) ∧ 0 ≤ nrts ∧ nrts ≤ hbstamps
  | .write index count nrts =>
    (0 ≤ index ∧ index < hbstamps ∧ 0 ≤ count ∧ index + count ≤ hbstamps) ∧ 0 ≤ nrts ∧ nrts ≤ hbstamps
  | .remainder divisor => divisor ≠ 0

/-- The index the place in the buffer is computed from. -/
def BufferUse.index : BufferUse → Int
  | .copy index _ => index
  | .write index _ _ => index
  | .remainder _ => 0

/-- `TS_SIZE * index` is an `int`. -/
def BufferUse.PlaceFits (u : BufferUse) : Prop := toInt (tsSize * u.index) = tsSize * u.index

/-! ## A positive size -/

/-- The variables after `n` records. -/
def cursorAt (h n : Nat) : Cursor := ⟨(n % h : Nat), (min n h : Nat)⟩

/-- The uses for record `n`. -/
def usesAt (h n : Nat) (e : HeartbeatEvent) : List BufferUse :=
  [.copy (n % h : Nat) (min n h : Nat), .remainder h] ++
    match e with
    | .load => []
    | .stamp => flushUses h (cursorAt h (n + 1))

section Positive
variable {h : Nat} (hpos : 0 < h) (hint : h < 2 ^ 31)
include hpos hint

theorem nextCursor_at (n : Nat) : nextCursor h (cursorAt h n) = some (cursorAt h (n + 1)) := by
  have hmod := Nat.mod_lt n hpos
  have hlast : (toInt ((n % h : Nat) + 1)).tmod h = ((n + 1) % h : Nat) := by
    rw [toInt_eq_self (by omega) (by omega), Int.tmod_eq_emod_of_nonneg (by omega)]
    exact_mod_cast Nat.mod_add_mod n h 1
  have hcount : (if ((min n h : Nat) : Int) < h then toInt ((min n h : Nat) + 1) else (min n h : Nat)) =
      (min (n + 1) h : Nat) := by
    split
    · rw [toInt_eq_self (by omega) (by omega)]
      omega
    · omega
  have hne : (h : Int) ≠ 0 := by omega
  unfold nextCursor
  rw [if_neg hne, Option.some.injEq, cursorAt, cursorAt, Cursor.mk.injEq]
  exact ⟨hlast, hcount⟩

theorem bufferStep_at {r : BufferRun} {n : Nat} (hr : r.cursor = some (cursorAt h n))
    (e : HeartbeatEvent) :
    bufferStep h true r e = ⟨r.uses ++ usesAt h n e, some (cursorAt h (n + 1))⟩ := by
  unfold bufferStep
  simp only [hr, if_true, nextCursor_at hpos hint]
  cases e <;> simp [usesAt, cursorAt]

/-- A run from record `n` on: where its uses come from, and where it gets to. -/
theorem run_at (es : List HeartbeatEvent) {r : BufferRun} {n : Nat}
    (hr : r.cursor = some (cursorAt h n)) :
    (Runs.run (bufferStep h true) r es).cursor = some (cursorAt h (n + es.length)) ∧
    ∀ u, u ∈ (Runs.run (bufferStep h true) r es).uses ↔
      u ∈ r.uses ∨ ∃ k e, es[k]? = some e ∧ u ∈ usesAt h (n + k) e := by
  induction es generalizing r n with
  | nil => simp [hr]
  | cons e es ih =>
    obtain ⟨hcursor, huses⟩ := ih (r := bufferStep h true r e) (n := n + 1) (by rw [bufferStep_at hpos hint hr])
    rw [Runs.run_cons]
    refine ⟨by rw [hcursor, List.length_cons]; congr 2; omega, ?_⟩
    intro u
    rw [huses, bufferStep_at hpos hint hr, List.mem_append, or_assoc]
    refine or_congr_right ⟨?_, ?_⟩
    · rintro (hu | ⟨k, e', hk, hu⟩)
      · exact ⟨0, e, rfl, hu⟩
      · exact ⟨k + 1, e', hk, by rwa [show n + (k + 1) = n + 1 + k by omega]⟩
    · rintro ⟨k, e', hk, hu⟩
      cases k with
      | zero =>
        obtain rfl : e = e' := Option.some.inj hk
        exact Or.inl hu
      | succ k => exact Or.inr ⟨k, e', hk, by rwa [show n + 1 + k = n + (k + 1) by omega]⟩

/-- The uses for a record are within the buffer, and their indices no larger than the
number of records before it. -/
theorem usesAt_safe (n : Nat) (e : HeartbeatEvent) :
    ∀ u ∈ usesAt h n e, u.Safe h ∧ 0 ≤ u.index ∧ u.index < (min h (n + 1) : Nat) := by
  have hmod := Nat.mod_lt n hpos
  have hle := Nat.mod_le n h
  have hnext := Nat.mod_lt (n + 1) hpos
  intro u hu
  simp only [usesAt, List.mem_append, List.mem_cons, List.not_mem_nil, or_false] at hu
  obtain (rfl | rfl) | hu := hu
  · simp only [BufferUse.Safe, BufferUse.index]
    omega
  · simp only [BufferUse.Safe, BufferUse.index]
    omega
  · cases e with
    | load => exact absurd hu List.not_mem_nil
    | stamp =>
      have hcount : toInt (h - ((n + 1) % h : Nat)) = h - ((n + 1) % h : Nat) :=
        toInt_eq_self (by omega) (by omega)
      simp only [flushUses, cursorAt, hcount] at hu
      -- The buffer is full, and is written in two parts, or it is not.
      split at hu
      · simp only [List.mem_cons, List.not_mem_nil, or_false] at hu
        obtain rfl | rfl := hu
        · simp only [BufferUse.Safe, BufferUse.index]
          omega
        · simp only [BufferUse.Safe, BufferUse.index]
          omega
      · rw [List.mem_singleton] at hu
        subst hu
        simp only [BufferUse.Safe, BufferUse.index]
        omega

end Positive

/-! ## Any size -/

theorem length_heartbeatEvents (bytes : CString) (calls : List HeartbeatCall) :
    (heartbeatEvents bytes calls).length = (pieces bytes []).length + 1 + (stamps calls).length := by
  simp only [heartbeatEvents, List.length_append, List.length_replicate]

section Session
variable (available : Nat → Bool) (bytes : CString) (calls : List HeartbeatCall)

/-- Without a buffer the first copy goes to NULL. -/
theorem heartbeatUses_zero : heartbeatUses available 0 bytes calls = some [.copy 0 0] := by
  have hstay : ∀ (es : List HeartbeatEvent) (us : List BufferUse),
      (Runs.run (bufferStep 0 false) ⟨us, none⟩ es).uses = us := by
    intro es us
    induction es with
    | nil => rfl
    | cons e es ih => exact ih
  have hevents : ∃ es, heartbeatEvents bytes calls = .load :: es := ⟨_, rfl⟩
  obtain ⟨es, hes⟩ := hevents
  unfold heartbeatUses
  rw [hes]
  exact congrArg some (hstay es [.copy 0 0])

/-- A negative size is far too large for `calloc`. -/
theorem heartbeatUses_neg {h : Int} (hneg : h < 0) (hint : -2 ^ 31 ≤ h) :
    heartbeatUses available h bytes calls = none := by
  have hmod : (h % 2 ^ 64).toNat = 2 ^ 64 - h.natAbs := by omega
  have hfatal : xcalloc available h tsSize = .fatal := by
    unfold xcalloc
    rw [hmod, if_neg (by simp only [tsSize]; omega), if_neg (by simp only [tsSize]; omega)]
  rw [heartbeatUses, hfatal]

/-- With a positive size there is memory or there is not. -/
theorem heartbeatUses_pos {h : Nat} (hpos : 0 < h) (hint : h < 2 ^ 31) :
    heartbeatUses available h bytes calls =
      if available (tsSize * h) then
        some (Runs.run (bufferStep h true) {} (heartbeatEvents bytes calls)).uses
      else none := by
  have hmod : ((h : Int) % 2 ^ 64).toNat = h := by omega
  have halloc : xcalloc available h tsSize = if available (tsSize * h) then .block else .fatal := by
    unfold xcalloc
    have hsize : h * tsSize < 2 ^ 64 := by simp only [tsSize]; omega
    rw [hmod, if_neg (by simp only [tsSize]; omega), Nat.mul_comm tsSize]
    simp only [hsize, true_and]
  rw [heartbeatUses, halloc]
  cases available (tsSize * h) <;> rfl

end Session

/-- The uses of a whole session are those for its records, one after the other. -/
theorem mem_session {h : Nat} (hpos : 0 < h) (hint : h < 2 ^ 31) (es : List HeartbeatEvent)
    (u : BufferUse) :
    u ∈ (Runs.run (bufferStep h true) {} es).uses ↔ ∃ k e, es[k]? = some e ∧ u ∈ usesAt h k e := by
  have hstart : ({} : BufferRun).cursor = some (cursorAt h 0) := by simp [cursorAt]
  rw [(run_at hpos hint es hstart).2 u]
  simp

theorem placeFits_iff {u : BufferUse} (hnonneg : 0 ≤ u.index) : u.PlaceFits ↔ u.index ≤ 178956970 := by
  have hbounds := toInt_bounds (tsSize * u.index)
  unfold BufferUse.PlaceFits
  simp only [tsSize, Nat.cast_ofNat] at hbounds ⊢
  refine ⟨fun hfits => ?_, fun hle => toInt_eq_self (by omega) (by omega)⟩
  rw [hfits] at hbounds
  omega

theorem session_safe {h : Nat} (hpos : 0 < h) (hint : h < 2 ^ 31) (es : List HeartbeatEvent) :
    ∀ u ∈ (Runs.run (bufferStep h true) {} es).uses, u.Safe h := by
  intro u hu
  obtain ⟨k, e, -, huse⟩ := (mem_session hpos hint es u).1 hu
  exact (usesAt_safe hpos hint k e u huse).1

/-- The places fit an `int` as long as the buffer is not filled beyond them. -/
theorem session_places_iff {h : Nat} (hpos : 0 < h) (hint : h < 2 ^ 31) (es : List HeartbeatEvent) :
    (∀ u ∈ (Runs.run (bufferStep h true) {} es).uses, u.PlaceFits) ↔ min h es.length ≤ 178956971 := by
  refine ⟨?_, ?_⟩
  · intro hfits
    by_contra hmany
    -- The record after the last place that fits.
    have hlt : 178956971 < es.length := by omega
    obtain ⟨e, he⟩ : ∃ e, es[178956971]? = some e := ⟨_, List.getElem?_eq_getElem hlt⟩
    have hmod : 178956971 % h = 178956971 := Nat.mod_eq_of_lt (by omega)
    have hcopy : BufferUse.copy (178956971 % h : Nat) (min 178956971 h : Nat) ∈ usesAt h 178956971 e :=
      List.mem_append_left _ List.mem_cons_self
    have hplace := hfits _ ((mem_session hpos hint es _).2 ⟨_, e, he, hcopy⟩)
    rw [hmod] at hplace
    have hle := (placeFits_iff (u := .copy _ _) (by simp only [BufferUse.index]; omega)).1 hplace
    simp only [BufferUse.index] at hle
    omega
  · intro hfew u hu
    obtain ⟨k, e, hk, huse⟩ := (mem_session hpos hint es u).1 hu
    obtain ⟨-, hnonneg, hlt⟩ := usesAt_safe hpos hint k e u huse
    have hklt : k < es.length := (List.getElem?_eq_some_iff.1 hk).1
    rw [placeFits_iff hnonneg]
    omega

section Any
variable (available : Nat → Bool) (bytes : CString) (calls : List HeartbeatCall)

theorem uses_safe_iff {h : Int} (hlow : -2 ^ 31 ≤ h) (hhigh : h < 2 ^ 31) :
    (∀ uses, heartbeatUses available h bytes calls = some uses → ∀ u ∈ uses, u.Safe h) ↔ h ≠ 0 := by
  rcases lt_trichotomy h 0 with hneg | rfl | hpos
  · have hne : h ≠ 0 := by omega
    simp [heartbeatUses_neg available bytes calls hneg hlow, hne]
  · simp [heartbeatUses_zero, BufferUse.Safe]
  · obtain ⟨h, rfl⟩ := Int.eq_ofNat_of_zero_le hpos.le
    have hpos' : 0 < h := by omega
    have hsafe := session_safe hpos' (by omega) (heartbeatEvents bytes calls)
    refine iff_of_true ?_ (by omega)
    intro uses huses
    rw [heartbeatUses_pos available bytes calls hpos' (by omega)] at huses
    split at huses
    · rwa [← Option.some.inj huses]
    · cases huses

/-- The uses of a session that is not stopped. -/
theorem uses_places_iff {h : Int} (hlow : -2 ^ 31 ≤ h) (hhigh : h < 2 ^ 31) (hne : h ≠ 0) :
    (∀ uses, heartbeatUses available h bytes calls = some uses → ∀ u ∈ uses, u.PlaceFits) ↔
      available (tsSize * h.toNat) = false ∨
        min h ((pieces bytes []).length + 1 + (stamps calls).length : Nat) ≤ 178956971 := by
  rcases Int.lt_or_gt_of_ne hne with hneg | hpos
  · refine iff_of_true ?_ (Or.inr (by omega))
    simp [heartbeatUses_neg available bytes calls hneg hlow]
  · obtain ⟨h, rfl⟩ := Int.eq_ofNat_of_zero_le hpos.le
    have hpos' : 0 < h := by omega
    have hplaces := session_places_iff hpos' (by omega) (heartbeatEvents bytes calls)
    rw [length_heartbeatEvents] at hplaces
    rw [heartbeatUses_pos available bytes calls hpos' (by omega), Int.toNat_natCast]
    cases available (tsSize * h) with
    | false => simp
    | true =>
      simp only [if_true, Option.some.injEq, forall_eq', hplaces, Bool.true_eq_false, false_or]
      omega

end Any

/-! ## Any configuration -/

/-- The size is what the file gives last, or 300. -/
theorem hbstamps_bounds {env : ConfEnv} {start g : Globals} (hstart : Initial start) {text : CString}
    (hread : readConfig env start (some text) = .ok g) :
    -2 ^ 31 ≤ (g (.int .hbstamps) : Int) ∧ (g (.int .hbstamps) : Int) < 2 ^ 31 := by
  have hlast := int_after_run (show ("heartbeat-stamps".toList, Target.int .hbstamps) ∈ options by decide)
    (getLines text) (atFirstLine start)
  have hdefault : atFirstLine start (.int .hbstamps) = (300 : Int) :=
    hstart.atFirstLine (by decide) (by decide) (by decide)
  have hkept : g (.int .hbstamps) = Runs.run readLine (atFirstLine start) (getLines text) (.int .hbstamps) :=
    finish_frame hread (by decide) (by decide) (by decide)
  rw [hkept, hlast, hdefault]
  cases hnumber : lastNumber "heartbeat-stamps".toList (pairs (getLines text)) with
  | none => decide
  | some n => exact lastNumber_bounds hnumber

/-- **When the buffer arithmetic is safe.** For every configuration that is read and names a
heartbeat file, every content of that file and every sequence of writes: no remainder by 0
is taken and every record that is copied or written is within the buffer, or the daemon
has stopped for lack of memory, exactly when `hbstamps` is not 0. That the place of every
record is an `int` as well takes one thing more: there is no memory for the buffer, or no
more than 178956971 of its records are used. -/
theorem heartbeat_safe_iff (env : ConfEnv) {start : Globals} (hstart : Initial start) {text : CString}
    {g : Globals} (hread : readConfig env start (some text) = .ok g)
    (hset : g (.str .heartbeat) ≠ none) (available : Nat → Bool) (bytes : CString)
    (calls : List HeartbeatCall) :
    let hbstamps : Int := g (.int .hbstamps)
    let session := heartbeatSession available g (some bytes) calls
    let records : Nat := (pieces bytes []).length + 1 + (stamps calls).length
    ((∀ uses, session = some uses → ∀ u ∈ uses, u.Safe hbstamps) ↔ hbstamps ≠ 0) ∧
    ((∀ uses, session = some uses → ∀ u ∈ uses, u.Safe hbstamps ∧ u.PlaceFits) ↔
      hbstamps ≠ 0 ∧ (available (tsSize * hbstamps.toNat) = false ∨ min hbstamps records ≤ 178956971)) := by
  intro hbstamps session records
  obtain ⟨hlow, hhigh⟩ := hbstamps_bounds hstart hread
  obtain ⟨name, hname⟩ := Option.ne_none_iff_exists'.1 hset
  have hsession : session = heartbeatUses available hbstamps bytes calls := by
    simp only [session, heartbeatSession, hname, hbstamps]
  have hsafe := uses_safe_iff available bytes calls hlow hhigh
  rw [hsession]
  refine ⟨hsafe, ?_⟩
  refine ⟨?_, ?_⟩
  · intro hboth
    have hne := hsafe.1 fun uses huses u hu => (hboth uses huses u hu).1
    refine ⟨hne, (uses_places_iff available bytes calls hlow hhigh hne).1 ?_⟩
    exact fun uses huses u hu => (hboth uses huses u hu).2
  · rintro ⟨hne, hfew⟩ uses huses u hu
    have hplaces := (uses_places_iff available bytes calls hlow hhigh hne).2 hfew
    exact ⟨hsafe.2 hne uses huses u hu, hplaces uses huses u hu⟩

/-- A size of 0: there is no buffer, and the restart marker is copied to NULL. -/
theorem heartbeat_null_buffer :
    ∃ g, readConfig ⟨true, fun _ => none, fun _ => none⟩ defaults
        (some "heartbeat-file = /h\nheartbeat-stamps = 0\n".toList) = .ok g ∧
      g (.str .heartbeat) = some "/h".toList ∧ (g (.int .hbstamps) : Int) = 0 ∧
      heartbeatSession (fun _ => true) g (some []) [] = some [.copy 0 0] ∧
      ¬ (BufferUse.copy 0 0).Safe (g (.int .hbstamps)) := by
  have hread : ∃ g, readConfig ⟨true, fun _ => none, fun _ => none⟩ defaults
      (some "heartbeat-file = /h\nheartbeat-stamps = 0\n".toList) = .ok g ∧
      g (.str .heartbeat) = some "/h".toList ∧ (g (.int .hbstamps) : Int) = 0 :=
    ⟨_, rfl, by decide +kernel, by decide +kernel⟩
  obtain ⟨g, hg, hset, hzero⟩ := hread
  refine ⟨g, hg, hset, hzero, ?_, ?_⟩
  · simp only [heartbeatSession, hset, hzero]
    exact heartbeatUses_zero _ _ _
  · rw [hzero]
    simp [BufferUse.Safe]

/-- The default size, with a call that writes the marker and a stamp. -/
theorem heartbeat_safe_default :
    ∃ g, readConfig ⟨true, fun _ => none, fun _ => none⟩ defaults (some "heartbeat-file = /h\n".toList) =
        .ok g ∧
      ∃ uses, heartbeatSession (fun _ => true) g (some []) [⟨1060, 1060, [], none⟩] = some uses ∧
        BufferUse.write 0 2 2 ∈ uses ∧ ∀ u ∈ uses, u.Safe 300 ∧ u.PlaceFits := by
  have hread : ∃ g, readConfig ⟨true, fun _ => none, fun _ => none⟩ defaults
      (some "heartbeat-file = /h\n".toList) = .ok g ∧
      g (.str .heartbeat) = some "/h".toList ∧ (g (.int .hbstamps) : Int) = 300 :=
    ⟨_, rfl, by decide +kernel, by decide +kernel⟩
  obtain ⟨g, hg, hset, hsize⟩ := hread
  have huses : heartbeatSession (fun _ => true) g (some []) [⟨1060, 1060, [], none⟩] =
      some [.copy 0 0, .remainder 300, .copy 1 1, .remainder 300, .write 0 2 2] := by
    simp only [heartbeatSession, hset, hsize]
    decide
  have hsafe := heartbeat_safe_iff _ (fun _ _ => rfl) hg (by rw [hset]; simp) (fun _ => true) []
    [⟨1060, 1060, [], none⟩]
  rw [hsize] at hsafe
  exact ⟨g, hg, _, huses, by simp, hsafe.2.2 ⟨by decide, Or.inr (by decide)⟩ _ huses⟩

/-! ## The buffer and its contents -/

section Contents
variable {h : Nat} (hpos : 0 < h) (hint : h < 2 ^ 31) (rbuf bytes : CString) (calls : List HeartbeatCall)
include hpos hint

/-- A record of `Heartbeat` has no place exactly when the place of some use is no `int`. -/
theorem session_none_iff :
    session h rbuf (.opened bytes) calls = none ↔
      ¬ ∀ u ∈ (Runs.run (bufferStep h true) {} (heartbeatEvents bytes calls)).uses, u.PlaceFits := by
  obtain ⟨hb, hall, hfollows⟩ := session_follows hpos rbuf bytes calls
  rw [session_places_iff hpos hint, length_heartbeatEvents, hall]
  have hlen : (history (loaded rbuf (pieces bytes [])) calls).length =
      (pieces bytes []).length + 1 + (stamps calls).length := by
    rw [length_history, length_loaded]
  have hiff : Fits h (history (loaded rbuf (pieces bytes [])) calls).length ↔
      min h ((pieces bytes []).length + 1 + (stamps calls).length) ≤ 178956971 := by
    rw [hlen, Fits, Nat.min_comm, maxPlaces]
  rw [← hiff]
  cases hb with
  | none => exact iff_of_true rfl (follows_none hpos hfollows)
  | some hb => exact iff_of_false (by simp) (not_not_intro (follows_some hpos hfollows).1)

/-- **Both models count alike**: unless a record had no place, the variables of a session are
those of the buffer. -/
theorem cursor_follows {hb : Heartbeat} (hall : session h rbuf (.opened bytes) calls = some (some hb)) :
    (Runs.run (bufferStep h true) {} (heartbeatEvents bytes calls)).cursor =
      some ⟨hb.lastts, hb.nrts⟩ := by
  obtain ⟨hb', hall', hfollows⟩ := session_follows hpos rbuf bytes calls
  have hstart : ({} : BufferRun).cursor = some (cursorAt h 0) := by simp [cursorAt]
  rw [hall] at hall'
  cases hb' with
  | none => cases hall'
  | some hb' =>
    obtain rfl : hb = hb' := Option.some.inj (Option.some.inj hall')
    have his := (follows_some hpos hfollows).2
    rw [(run_at hpos hint _ hstart).1, length_heartbeatEvents, cursorAt, his.next, his.count,
      next_ringOf, count_ringOf, length_history, length_loaded]
    simp only [Nat.zero_add]

end Contents

end Watchdog
