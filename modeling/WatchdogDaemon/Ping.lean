import WatchdogDaemon.Basic
import WatchdogDaemon.Lib.Runs

/- `check_net()` of `net.c`: pings, and the replies they are credited with.

   A call sends up to `count` echo requests and waits after each for its share of the
   interval. A packet read from the raw socket is taken for the answer when it is an
   echo reply from the target that carries the daemon's id and the number of the ping in
   progress. The numbers restart at 1 in every call, and the socket keeps what arrives
   between two calls, so id and number do not say which call a reply is for.

   The network decides what is delivered and when. `Packet.answers` is the request a packet
   replies to, by call and ping; the code cannot see it, and the statements need it. The
   packet buffer is kept from packet to packet and from call to call, as in the code: a
   packet shorter than its header says leaves old bytes behind. The mask of `select` is set
   once for a ping, before its wait; a time-out of `select` empties it, and from then on the
   wait goes through its turns without reading.

   `arrivals` is what comes in while a call listens, said of the network and the clock alone:
   before the deadline of the ping in progress, before `select` has timed out in its wait, and
   before `sendto` or `recvfrom` fails.

   What is proved:
     1. `credited_iff` — in every sequence of calls, a call that answers `enoerr` has read
        a reply from the target to a request of its own exactly when no leftover comes in
        before the first such reply: a packet from the target with the daemon's id and the
        number of the ping in progress that replies to an earlier call, or to none.
     2. `credits_stale_reply` — a reply to the first ping of the call before is such a
        leftover for the first ping.

   Correspondence (C ↔ Lean):
     `in_cksum`                             ↔ `wordSum`, `inCksum`
     lines 100-107 (the request)            ↔ `echoRequest`
     lines 85-89                            ↔ `tmax`
     lines 150-164 (the test of a packet)   ↔ `ourEcho`
     the `while (1)` loop                   ↔ `awaitReply`
     the `for` loop                         ↔ `pings`
     `check_net`                            ↔ `checkNet` -/
namespace Watchdog

/-! ## Time -/

structure Timeval where
  sec : Int
  usec : Int
  deriving DecidableEq

def timeradd (a b : Timeval) : Timeval :=
  if 1000000 ≤ a.usec + b.usec then ⟨a.sec + b.sec + 1, a.usec + b.usec - 1000000⟩
  else ⟨a.sec + b.sec, a.usec + b.usec⟩

def timersub (a b : Timeval) : Timeval :=
  if a.usec - b.usec < 0 then ⟨a.sec - b.sec - 1, a.usec - b.usec + 1000000⟩
  else ⟨a.sec - b.sec, a.usec - b.usec⟩

/-- The wait for one ping: `ldiv` of the interval, with the remainder in microseconds. -/
def tmax (time count : Int) : Timeval :=
  ⟨time.tdiv count, (time.tmod count * 1000000).tdiv count⟩

/-! ## Packets -/

/-- `DATALEN + MAXIPLEN + MAXICMPLEN`. -/
def pkbufSize : Nat := 56 + 60 + 76

def icmpEcho : UInt8 := 8
def icmpEchoReply : UInt8 := 0

/-- The bytes of `htons`: the low 16 bits, high byte first. -/
def htons (x : Int) : List UInt8 :=
  [UInt8.ofNat ((x % 65536).toNat / 256), UInt8.ofNat ((x % 65536).toNat % 256)]

def ntohs (hi lo : UInt8) : Int := 256 * hi.toNat + lo.toNat

/-- The sum of the 16-bit words of a little-endian machine; an odd byte is mopped up as
the low byte of a word. -/
def wordSum : List UInt8 → Nat
  | [] => 0
  | [b] => b.toNat
  | lo :: hi :: rest => lo.toNat + 256 * hi.toNat + wordSum rest

/-- The sum folded twice, and its complement cut to 16 bits. -/
def inCksum (bytes : List UInt8) : UInt16 :=
  let sum := wordSum bytes
  let sum := sum / 65536 + sum % 65536
  let sum := sum + sum / 65536
  ~~~ UInt16.ofNat sum

/-- The ICMP message with the checksum `sum`, as it lies in memory. -/
def echoMessage (kind : UInt8) (sum : UInt16) (daemonPid : Int) (i : Nat) : List UInt8 :=
  [kind, 0, UInt8.ofNat (sum.toNat % 256), UInt8.ofNat (sum.toNat / 256)] ++ htons daemonPid ++
    htons (i + 1) ++ List.replicate 56 0

/-- Ping `i` (from 0) of a call. -/
def echoRequest (daemonPid : Int) (i : Nat) : List UInt8 :=
  echoMessage icmpEcho (inCksum (echoMessage icmpEcho 0 daemonPid i)) daemonPid i

/-- The request a packet replies to: which ping of which call. -/
structure Origin where
  call : Nat
  ping : Nat
  deriving DecidableEq

/-- A packet: its bytes from the IP header on, the address it came from, and the request
it replies to, if it is a reply to one of the daemon's. -/
structure Packet where
  data : List UInt8
  src : UInt32
  answers : Option Origin
  deriving DecidableEq

/-- The packet buffer of a target. -/
abbrev PacketBuf := { b : List UInt8 // b.length = pkbufSize }

/-- The buffer as `xcalloc` gives it. -/
def PacketBuf.zero : PacketBuf := ⟨List.replicate pkbufSize 0, List.length_replicate⟩

/-- `recvfrom` overwrites the front of the buffer. -/
def PacketBuf.fill (buf : PacketBuf) (data : List UInt8) : PacketBuf :=
  ⟨data.take pkbufSize ++ buf.1.drop data.length, by
    have := buf.2
    rw [List.length_append, List.length_take, List.length_drop]
    omega⟩

/-- A packet that was read: during which ping, and the buffer after it. -/
structure Heard where
  ping : Nat
  buf : PacketBuf
  packet : Packet

/-- Is the packet an echo reply with our id, the number of this ping and the address of
the target? The header length comes from the packet. -/
def ourEcho (daemonPid : Int) (target : UInt32) (h : Heard) : Bool :=
  let byte := fun i => h.buf.1.getD i 0
  let icp := 4 * ((byte 0).toNat % 16)
  byte icp = icmpEchoReply &&
    (ntohs (byte (icp + 4)) (byte (icp + 5)) = daemonPid &&
      ntohs (byte (icp + 6)) (byte (icp + 7)) = h.ping + 1 &&
      h.packet.src = target)

/-! ## A call -/

/-- A turn of the wait: `select` times out or fails, or `recvfrom` fails or reads a packet. -/
inductive Recv where
  | timeout
  | interrupted
  | failed (err : Errno)
  | packet (p : Packet)

/-- What happens during one ping: whether `sendto` fails, the clock after it, and the
turns of the wait with the clock at each. The turn after the last finds the time is up. -/
structure PingEnv where
  send : Option Errno
  tstart : Timeval
  turns : List (Timeval × Recv)

/-- The outcome of the wait: the buffer, what was read, and the code if the call returns. -/
structure Waited where
  buf : PacketBuf
  got : List Heard
  code : Option Int

/-- The wait after a ping; `mask` is whether `fdmask` holds the socket, and `accept` is the
test of a packet. -/
def awaitReply (accept : Heard → Bool) (timeout : Timeval) (i : Nat) :
    Bool → PacketBuf → List (Timeval × Recv) → Waited
  | _, buf, [] => ⟨buf, [], none⟩
  | mask, buf, (now, recv) :: turns =>
    -- The time is up when the difference is negative.
    if (timersub timeout now).sec < 0 then ⟨buf, [], none⟩
    -- An empty mask stays empty, and `select` reports nothing.
    else if !mask then awaitReply accept timeout i false buf turns
    else match recv with
      | .timeout => awaitReply accept timeout i false buf turns
      | .interrupted => awaitReply accept timeout i true buf turns
      | .failed err =>
        if err.1 ≠ eintr then ⟨buf, [], some err⟩ else awaitReply accept timeout i true buf turns
      | .packet p =>
        let h : Heard := ⟨i, buf.fill p.data, p⟩
        if accept h then ⟨h.buf, [h], some enoerr⟩
        else
          -- Any other packet is dropped and the wait goes on.
          let rest := awaitReply accept timeout i true h.buf turns
          { rest with got := h :: rest.got }

/-- The outcome of a call: the buffer, what was read, and the code. -/
structure Called where
  buf : PacketBuf
  got : List Heard
  code : Int

/-- The pings from number `i` on, `left` of them. -/
def pings (accept : Heard → Bool) (wait : Timeval) (env : Nat → PingEnv) : Nat → Nat → PacketBuf →
    Called
  | 0, _, buf => ⟨buf, [], enetunreach⟩
  | left + 1, i, buf =>
    match (env i).send with
    | some err => ⟨buf, [], err⟩
    | none =>
      let waited := awaitReply accept (timeradd (env i).tstart wait) i true buf (env i).turns
      match waited.code with
      | some code => ⟨waited.buf, waited.got, code⟩
      | none =>
        let rest := pings accept wait env left (i + 1) waited.buf
        { rest with got := waited.got ++ rest.got }

/-- The arguments of a call and what the network does during it. -/
structure NetCall where
  time : Int
  count : Int
  env : Nat → PingEnv

/-- `check_net` with the test of a packet as a parameter. -/
def checkNetWith (accept : Heard → Bool) (target : Option CString) (c : NetCall) (buf : PacketBuf) :
    Called :=
  if target.isNone then ⟨buf, [], enoerr⟩
  else if c.count < 1 then ⟨buf, [], einval⟩
  else pings accept (tmax c.time c.count) c.env c.count.toNat 0 buf

def checkNet (daemonPid : Int) (addr : UInt32) (target : Option CString) (c : NetCall)
    (buf : PacketBuf) : Called :=
  checkNetWith (ourEcho daemonPid addr) target c buf

/-- The buffer after the calls on one target and socket, from its start. -/
def bufAfter (daemonPid : Int) (addr : UInt32) (target : CString) (calls : List NetCall) : PacketBuf :=
  Runs.run (fun buf c => (checkNet daemonPid addr (some target) c buf).buf) .zero calls

/-! ## The network -/

/-- An error that ends the call. -/
def Recv.fatal? : Recv → Option Errno
  | .failed err => if err.1 ≠ eintr then some err else none
  | _ => none

def Recv.packet? : Recv → Option Packet
  | .packet p => some p
  | _ => none

def Recv.isTimeout : Recv → Bool
  | .timeout => true
  | _ => false

/-- What `select` reports in a wait: nothing once the time is up, and nothing after its first
time-out. -/
def reported (timeout : Timeval) (turns : List (Timeval × Recv)) : List Recv :=
  ((turns.takeWhile fun turn => 0 ≤ (timersub timeout turn.1).sec).map (·.2)).takeWhile (!·.isTimeout)

/-- The failure that ends the call in this wait. -/
def waitFailure (timeout : Timeval) (turns : List (Timeval × Recv)) : Option Errno :=
  (reported timeout turns).findSome? Recv.fatal?

/-- The packets of a wait. -/
def waitPackets (timeout : Timeval) (turns : List (Timeval × Recv)) : List Packet :=
  ((reported timeout turns).takeWhile (·.fatal?.isNone)).filterMap Recv.packet?

/-- A packet that comes in, and the ping in progress. -/
structure Arrival where
  ping : Nat
  packet : Packet

/-- What comes in during the pings from number `i` on, `left` of them. -/
def arrivalsFrom (wait : Timeval) (env : Nat → PingEnv) : Nat → Nat → List Arrival
  | 0, _ => []
  | left + 1, i =>
    if (env i).send.isSome then []
    else
      let timeout := timeradd (env i).tstart wait
      (waitPackets timeout (env i).turns).map (Arrival.mk i) ++
        if (waitFailure timeout (env i).turns).isSome then [] else arrivalsFrom wait env left (i + 1)

/-- What comes in while the call listens. -/
def arrivals (c : NetCall) : List Arrival := arrivalsFrom (tmax c.time c.count) c.env c.count.toNat 0

/-- The arrivals as they lie in the buffer, one after the other. -/
def inBuffer : PacketBuf → List Arrival → List Heard
  | _, [] => []
  | buf, a :: as => ⟨a.ping, buf.fill a.packet.data, a.packet⟩ :: inBuffer (buf.fill a.packet.data) as

def fillAll (buf : PacketBuf) (as : List Arrival) : PacketBuf :=
  as.foldl (fun buf a => buf.fill a.packet.data) buf

theorem inBuffer_append (buf : PacketBuf) (as bs : List Arrival) :
    inBuffer buf (as ++ bs) = inBuffer buf as ++ inBuffer (fillAll buf as) bs := by
  induction as generalizing buf with
  | nil => rfl
  | cons a as ih => exact congrArg _ (ih _)

/-! ## The specification -/

/-- The packet that was read is a reply from the target to a ping that call number `n`
has sent. -/
def Genuine (addr : UInt32) (n : Nat) (c : NetCall) (h : Heard) : Prop :=
  h.packet.src = addr ∧ ∃ o, h.packet.answers = some o ∧ o.call = n ∧ o.ping ≤ h.ping ∧
    (c.env o.ping).send = none

/-- The call answers `enoerr` only with a genuine reply. -/
def Credited (addr : UInt32) (n : Nat) (c : NetCall) (called : Called) : Prop :=
  called.code = enoerr → ∃ h ∈ called.got, Genuine addr n c h

/-- The bytes are an echo reply with this identifier and sequence number, behind an IP header
as long as its first byte says. -/
def Carries (id seq : Int) (bytes : List UInt8) : Prop :=
  ∃ header code sum₁ sum₂ id₁ id₂ seq₁ seq₂ rest,
    bytes = header ++ [icmpEchoReply, code, sum₁, sum₂, id₁, id₂, seq₁, seq₂] ++ rest ∧
      header.length = 4 * ((bytes.getD 0 0).toNat % 16) ∧ ntohs id₁ id₂ = id ∧ ntohs seq₁ seq₂ = seq

/-- A packet from the target with the daemon's id and the number of the ping in progress that
is no reply to this call: it is left from an earlier one, or replies to none at all. -/
structure Leftover (daemonPid : Int) (addr : UInt32) (n : Nat) (c : NetCall) (h : Heard) : Prop where
  src : h.packet.src = addr
  carries : Carries daemonPid (h.ping + 1) h.buf.1
  foreign : ¬ Genuine addr n c h

/-! ## The test of a packet -/

theorem getD_fields {bytes header fields rest : List UInt8} (h : bytes = header ++ fields ++ rest)
    (hfields : fields.length = 8) {k : Nat} (hk : k < 8) : bytes.getD (header.length + k) 0 = fields.getD k 0 := by
  rw [h, List.append_assoc, List.getD_eq_getElem?_getD, List.getElem?_append_right (Nat.le_add_right _ _),
    Nat.add_sub_cancel_left, List.getElem?_append_left (by omega), ← List.getD_eq_getElem?_getD]

/-- What the buffer holds at eight places in a row. -/
theorem exists_fields {bytes : List UInt8} {k : Nat} (h : k + 8 ≤ bytes.length) :
    ∃ header fields rest, bytes = header ++ fields ++ rest ∧ header.length = k ∧ fields.length = 8 := by
  refine ⟨bytes.take k, (bytes.drop k).take 8, (bytes.drop k).drop 8, ?_, ?_, ?_⟩
  · rw [List.append_assoc, List.take_append_drop, List.take_append_drop]
  · rw [List.length_take]
    omega
  · rw [List.length_take, List.length_drop]
    omega

/-- **The test is that of source, identifier and number.** The header of a packet is at most 60
bytes, so that all of the fields are in the buffer. -/
theorem ourEcho_iff (daemonPid : Int) (addr : UInt32) (h : Heard) :
    ourEcho daemonPid addr h = true ↔ h.packet.src = addr ∧ Carries daemonPid (h.ping + 1) h.buf.1 := by
  obtain ⟨ping, ⟨bytes, hlen⟩, packet⟩ := h
  have hsize : pkbufSize = 192 := rfl
  have hfit : 4 * ((bytes.getD 0 0).toNat % 16) + 8 ≤ bytes.length := by omega
  unfold ourEcho
  simp only [Bool.and_eq_true, decide_eq_true_eq]
  constructor
  · rintro ⟨hkind, ⟨hid, hseq⟩, hsrc⟩
    obtain ⟨header, fields, rest, hbytes, hheader, hfields⟩ := exists_fields hfit
    have hget : ∀ {k : Nat}, k < 8 → _ := fun hk => getD_fields hbytes hfields hk
    rw [← hheader] at hkind hid hseq
    rw [hget (by decide : 4 < 8), hget (by decide : 5 < 8)] at hid
    rw [hget (by decide : 6 < 8), hget (by decide : 7 < 8)] at hseq
    have hzero := hget (by decide : 0 < 8)
    rw [Nat.add_zero, hkind] at hzero
    match fields, hfields with
    | [kind, code, sum₁, sum₂, id₁, id₂, seq₁, seq₂], _ =>
      obtain rfl : icmpEchoReply = kind := hzero
      exact ⟨hsrc, header, code, sum₁, sum₂, id₁, id₂, seq₁, seq₂, rest, hbytes, hheader, hid, hseq⟩
  · rintro ⟨hsrc, header, code, sum₁, sum₂, id₁, id₂, seq₁, seq₂, rest, hbytes, hheader, hid, hseq⟩
    have hget : ∀ {k : Nat}, k < 8 → _ := fun hk => getD_fields hbytes rfl hk
    have hheader' : header.length = 4 * ((bytes.getD 0 0).toNat % 16) := hheader
    have hzero := hget (by decide : 0 < 8)
    rw [Nat.add_zero] at hzero
    rw [← hheader', hget (by decide : 4 < 8), hget (by decide : 5 < 8), hget (by decide : 6 < 8),
      hget (by decide : 7 < 8)]
    exact ⟨hzero, ⟨hid, hseq⟩, hsrc⟩

/-! ## Where a call stops listening -/

/-- `got` is what is heard up to the first packet that passes the test. -/
structure StopsAt (accept : Heard → Bool) (heard got : List Heard) (pre : List Heard) (h : Heard)
    (post : List Heard) : Prop where
  heard_eq : heard = pre ++ h :: post
  rejected : ∀ g ∈ pre, accept g = false
  accepted : accept h = true
  got_eq : got = pre ++ [h]

theorem StopsAt.append {accept : Heard → Bool} {heard got pre post : List Heard} {h : Heard}
    (hs : StopsAt accept heard got pre h post) {before : List Heard}
    (hb : ∀ g ∈ before, accept g = false) :
    StopsAt accept (before ++ heard) (before ++ got) (before ++ pre) h post := by
  refine ⟨?_, ?_, hs.accepted, ?_⟩
  · rw [hs.heard_eq, List.append_assoc]
  · intro g hg
    rcases List.mem_append.mp hg with hg | hg
    · exact hb g hg
    · exact hs.rejected g hg
  · rw [hs.got_eq, List.append_assoc]

theorem StopsAt.more {accept : Heard → Bool} {heard got pre post : List Heard} {h : Heard}
    (hs : StopsAt accept heard got pre h post) (more : List Heard) :
    StopsAt accept (heard ++ more) got pre h (post ++ more) := by
  refine ⟨?_, hs.rejected, hs.accepted, hs.got_eq⟩
  rw [hs.heard_eq, List.append_assoc]
  rfl

/-- It stops no later than at any packet that passes. -/
theorem StopsAt.first {accept : Heard → Bool} {heard got pre post pre' post' : List Heard}
    {h h' : Heard} (hs : StopsAt accept heard got pre h post) (heq : heard = pre' ++ h' :: post')
    (hh' : accept h' = true) : (pre ++ [h]).IsPrefix (pre' ++ [h']) := by
  have hle : pre.length ≤ pre'.length := by
    by_contra hlt
    have hlen : pre'.length < pre.length := Nat.lt_of_not_le hlt
    have hget : heard[pre'.length]? = some h' := by
      rw [heq, List.getElem?_append_right (Nat.le_refl _)]
      simp
    rw [hs.heard_eq, List.getElem?_append_left hlen] at hget
    rw [hs.rejected h' (List.mem_of_getElem? hget)] at hh'
    cases hh'
  have h₁ : (pre ++ [h]).IsPrefix heard := ⟨post, by rw [hs.heard_eq, List.append_assoc]; rfl⟩
  have h₂ : (pre' ++ [h']).IsPrefix heard := ⟨post', by rw [heq, List.append_assoc]; rfl⟩
  apply List.prefix_of_prefix_length_le h₁ h₂
  rw [List.length_append, List.length_append]
  exact Nat.add_le_add_right hle 1

/-! ## A call reads what comes in -/

section Listen
variable {accept : Heard → Bool}

/-- With an empty mask nothing is read. -/
theorem awaitReply_unmasked (timeout : Timeval) (i : Nat) (buf : PacketBuf) (turns : List (Timeval × Recv)) :
    awaitReply accept timeout i false buf turns = ⟨buf, [], none⟩ := by
  induction turns with
  | nil => rfl
  | cons turn turns ih =>
    obtain ⟨now, recv⟩ := turn
    simp only [awaitReply, ih, Bool.not_false, if_true, ite_self]

/-- A wait that takes nothing for an answer has read all that came in, and ends with the failure there was. -/
structure Through (accept : Heard → Bool) (timeout : Timeval) (i : Nat) (turns : List (Timeval × Recv))
    (buf : PacketBuf) (waited : Waited) : Prop where
  buf_eq : waited.buf = fillAll buf ((waitPackets timeout turns).map (Arrival.mk i))
  got_eq : waited.got = inBuffer buf ((waitPackets timeout turns).map (Arrival.mk i))
  code_eq : waited.code = (waitFailure timeout turns).map fun err => (err : Int)
  rejected : ∀ h ∈ waited.got, accept h = false

theorem reported_late {timeout now : Timeval} (h : (timersub timeout now).sec < 0) (recv : Recv)
    (turns : List (Timeval × Recv)) : reported timeout ((now, recv) :: turns) = [] := by
  unfold reported
  rw [List.takeWhile_cons_of_neg (by simpa using h)]
  rfl

theorem reported_timeout (timeout now : Timeval) (turns : List (Timeval × Recv)) :
    reported timeout ((now, .timeout) :: turns) = [] := by
  unfold reported
  rw [List.takeWhile_cons]
  split
  · exact List.takeWhile_cons_of_neg (by simp [Recv.isTimeout])
  · rfl

theorem reported_cons {timeout now : Timeval} (h : ¬ (timersub timeout now).sec < 0) {recv : Recv}
    (hrecv : recv.isTimeout = false) (turns : List (Timeval × Recv)) :
    reported timeout ((now, recv) :: turns) = recv :: reported timeout turns := by
  unfold reported
  rw [List.takeWhile_cons_of_pos (by simpa using h), List.map_cons, List.takeWhile_cons_of_pos (by simp [hrecv])]

/-- All that is delivered in time, with `select` still looking, is reported. -/
theorem reported_append {timeout : Timeval} {before : List (Timeval × Recv)}
    (htime : ∀ turn ∈ before, 0 ≤ (timersub timeout turn.1).sec)
    (htimeout : ∀ turn ∈ before, turn.2.isTimeout = false)
    (after : List (Timeval × Recv)) :
    reported timeout (before ++ after) = before.map (·.2) ++ reported timeout after := by
  induction before with
  | nil => rfl
  | cons turn before ih =>
    rw [List.cons_append, reported_cons (Int.not_lt.mpr (htime turn List.mem_cons_self)) (htimeout turn List.mem_cons_self),
      ih (fun t h => htime t (List.mem_cons_of_mem _ h)) fun t h => htimeout t (List.mem_cons_of_mem _ h)]
    rfl

theorem reported_subset {timeout : Timeval} {turns : List (Timeval × Recv)} {recv : Recv}
    (h : recv ∈ reported timeout turns) :
    ∃ turn ∈ turns, turn.2 = recv := by
  obtain ⟨turn, hturn, heq⟩ := List.mem_map.mp (List.takeWhile_subset _ h)
  exact ⟨turn, List.takeWhile_subset _ hturn, heq⟩

/-- If `recvfrom` does not fail, the call goes on to the next ping. -/
theorem waitFailure_none {timeout : Timeval} {turns : List (Timeval × Recv)}
    (h : ∀ turn ∈ turns, turn.2.fatal? = none) :
    waitFailure timeout turns = none := by
  rw [waitFailure, List.findSome?_eq_none_iff]
  intro recv hrecv
  obtain ⟨turn, hturn, rfl⟩ := reported_subset hrecv
  exact h turn hturn

theorem Through.nothing {timeout : Timeval} {i : Nat} {turns : List (Timeval × Recv)} {buf : PacketBuf}
    (h : reported timeout turns = []) : Through accept timeout i turns buf ⟨buf, [], none⟩ := by
  have hpackets : waitPackets timeout turns = [] := by rw [waitPackets, h]; rfl
  have hfailure : waitFailure timeout turns = none := by rw [waitFailure, h]; rfl
  exact ⟨by rw [hpackets]; rfl, by rw [hpackets]; rfl, by rw [hfailure]; rfl, nofun⟩

/-- A turn that neither reads nor fails. -/
theorem Through.skip {timeout now : Timeval} {i : Nat} {turns : List (Timeval × Recv)} {buf : PacketBuf} {waited : Waited}
    (h : Through accept timeout i turns buf waited) {recv : Recv}
    (hreport : reported timeout ((now, recv) :: turns) = recv :: reported timeout turns) (hfatal : recv.fatal? = none)
    (hpacket : recv.packet? = none) : Through accept timeout i ((now, recv) :: turns) buf waited := by
  have hpackets : waitPackets timeout ((now, recv) :: turns) = waitPackets timeout turns := by
    rw [waitPackets, hreport, List.takeWhile_cons_of_pos (by simp [hfatal]), List.filterMap_cons_none hpacket]
    rfl
  have hfailure : waitFailure timeout ((now, recv) :: turns) = waitFailure timeout turns := by
    rw [waitFailure, hreport, List.findSome?_cons_of_isNone (by simp [hfatal])]
    rfl
  exact ⟨by rw [hpackets]; exact h.buf_eq, by rw [hpackets]; exact h.got_eq, by rw [hfailure]; exact h.code_eq,
    h.rejected⟩

theorem waitPackets_packet {timeout now : Timeval} (h : ¬ (timersub timeout now).sec < 0) (p : Packet)
    (turns : List (Timeval × Recv)) :
    waitPackets timeout ((now, .packet p) :: turns) = p :: waitPackets timeout turns := by
  rw [waitPackets, reported_cons h rfl, List.takeWhile_cons_of_pos rfl]
  rfl

theorem waitFailure_packet {timeout now : Timeval} (h : ¬ (timersub timeout now).sec < 0) (p : Packet)
    (turns : List (Timeval × Recv)) : waitFailure timeout ((now, .packet p) :: turns) = waitFailure timeout turns := by
  rw [waitFailure, reported_cons h rfl]
  rfl

/-- A wait reads all that comes in, or stops at the first packet that passes. -/
theorem awaitReply_stops (timeout : Timeval) (i : Nat) : ∀ (turns : List (Timeval × Recv)) (buf : PacketBuf),
    Through accept timeout i turns buf (awaitReply accept timeout i true buf turns) ∨
    ((awaitReply accept timeout i true buf turns).code = some enoerr ∧
      ∃ pre h post, StopsAt accept (inBuffer buf ((waitPackets timeout turns).map (Arrival.mk i)))
        (awaitReply accept timeout i true buf turns).got pre h post)
  | [], _ => Or.inl (Through.nothing rfl)
  | (now, recv) :: turns, buf => by
    simp only [awaitReply, Bool.not_true, Bool.false_eq_true, if_false]
    split
    · next hlate => exact Or.inl (Through.nothing (reported_late hlate recv turns))
    · next hsoon =>
      cases recv with
      | timeout =>
        simp only [awaitReply_unmasked]
        exact Or.inl (Through.nothing (reported_timeout timeout now turns))
      | interrupted =>
        have hreport : reported timeout ((now, .interrupted) :: turns) = .interrupted :: reported timeout turns :=
          reported_cons hsoon rfl turns
        refine (awaitReply_stops timeout i turns buf).imp (fun h => h.skip hreport rfl rfl) ?_
        rw [show waitPackets timeout ((now, .interrupted) :: turns) = waitPackets timeout turns by
          rw [waitPackets, hreport]; rfl]
        exact id
      | failed err =>
        have hreport : reported timeout ((now, .failed err) :: turns) = .failed err :: reported timeout turns :=
          reported_cons hsoon rfl turns
        by_cases hintr : err.1 ≠ eintr
        · have hfatal : (Recv.failed err).fatal? = some err := if_pos hintr
          have hpackets : waitPackets timeout ((now, .failed err) :: turns) = [] := by
            rw [waitPackets, hreport, List.takeWhile_cons_of_neg (by simp [hfatal])]
            rfl
          have hfailure : waitFailure timeout ((now, .failed err) :: turns) = some err := by
            rw [waitFailure, hreport, List.findSome?_cons, hfatal]
          simp only [if_pos hintr]
          exact Or.inl ⟨by rw [hpackets]; rfl, by rw [hpackets]; rfl, by rw [hfailure]; rfl, nofun⟩
        · have hfatal : (Recv.failed err).fatal? = none := if_neg hintr
          simp only [if_neg hintr]
          refine (awaitReply_stops timeout i turns buf).imp (fun h => h.skip hreport hfatal rfl) ?_
          rw [show waitPackets timeout ((now, .failed err) :: turns) = waitPackets timeout turns by
            rw [waitPackets, hreport, List.takeWhile_cons_of_pos (by simp [hfatal])]; rfl]
          exact id
      | packet p =>
        rw [waitPackets_packet hsoon, List.map_cons, inBuffer]
        simp only []
        cases ha : accept ⟨i, buf.fill p.data, p⟩ with
        | true =>
          rw [if_pos rfl]
          exact Or.inr ⟨rfl, [], _, _, rfl, nofun, ha, rfl⟩
        | false =>
          have hhead : ∀ g ∈ [(⟨i, buf.fill p.data, p⟩ : Heard)], accept g = false := by
            intro g hg
            rw [List.mem_singleton.mp hg]
            exact ha
          rw [if_neg Bool.false_ne_true]
          rcases awaitReply_stops timeout i turns (buf.fill p.data) with h | ⟨hcode, pre, h, post, hs⟩
          · refine Or.inl ⟨?_, ?_, ?_, List.forall_mem_cons.mpr ⟨ha, h.rejected⟩⟩
            · rw [waitPackets_packet hsoon]
              exact h.buf_eq
            · rw [waitPackets_packet hsoon]
              exact congrArg _ h.got_eq
            · rw [waitFailure_packet hsoon]
              exact h.code_eq
          · exact Or.inr ⟨hcode, _, h, post, hs.append hhead⟩

theorem errno_ne_enoerr (err : Errno) : (err : Int) ≠ enoerr := by
  have := err.2
  unfold enoerr
  omega

theorem pings_stops (wait : Timeval) (env : Nat → PingEnv) : ∀ (left i : Nat) (buf : PacketBuf),
    ((pings accept wait env left i buf).code ≠ enoerr ∧
      ∀ h ∈ inBuffer buf (arrivalsFrom wait env left i), accept h = false) ∨
    ((pings accept wait env left i buf).code = enoerr ∧
      ∃ pre h post, StopsAt accept (inBuffer buf (arrivalsFrom wait env left i))
        (pings accept wait env left i buf).got pre h post)
  | 0, _, _ => Or.inl ⟨by simp [pings, enetunreach, enoerr], nofun⟩
  | left + 1, i, buf => by
    rw [pings, arrivalsFrom]
    cases (env i).send with
    | some err => exact Or.inl ⟨errno_ne_enoerr err, nofun⟩
    | none =>
      simp only [Option.isSome_none, Bool.false_eq_true, if_false]
      rw [inBuffer_append]
      rcases @awaitReply_stops accept (timeradd (env i).tstart wait) i (env i).turns buf with
        hwait | ⟨hcode, pre, h, post, hs⟩
      · have hrejected := hwait.rejected
        rw [hwait.got_eq] at hrejected
        rw [hwait.code_eq]
        cases waitFailure (timeradd (env i).tstart wait) (env i).turns with
        | some err =>
          refine Or.inl ⟨errno_ne_enoerr err, ?_⟩
          simpa [inBuffer] using hrejected
        | none =>
          simp only [Option.isSome_none, Bool.false_eq_true, if_false]
          rw [hwait.buf_eq, hwait.got_eq]
          rcases pings_stops wait env left (i + 1) (fillAll buf
            ((waitPackets (timeradd (env i).tstart wait) (env i).turns).map (Arrival.mk i))) with
            ⟨hcode, hall⟩ | ⟨hcode, pre, h, post, hs⟩
          · refine Or.inl ⟨hcode, fun h hmem => ?_⟩
            exact (List.mem_append.mp hmem).elim (hrejected h) (hall h)
          · exact Or.inr ⟨hcode, _, h, post, hs.append hrejected⟩
      · rw [hcode]
        exact Or.inr ⟨rfl, pre, h, _, hs.more _⟩

end Listen

/-- A call answers `enoerr` exactly when something that comes in passes its test, and it reads what comes in up to the
first such packet. -/
theorem checkNet_cases (daemonPid : Int) (addr : UInt32) (target : CString) (c : NetCall)
    (buf : PacketBuf) :
    ((checkNet daemonPid addr (some target) c buf).code ≠ enoerr ∧
      ∀ h ∈ inBuffer buf (arrivals c), ourEcho daemonPid addr h = false) ∨
    ((checkNet daemonPid addr (some target) c buf).code = enoerr ∧
      ∃ pre h post, StopsAt (ourEcho daemonPid addr) (inBuffer buf (arrivals c))
        (checkNet daemonPid addr (some target) c buf).got pre h post) := by
  unfold checkNet checkNetWith arrivals
  simp only [Option.isNone_some, Bool.false_eq_true, if_false]
  split
  · next hcount =>
    rw [Int.toNat_of_nonpos (by omega)]
    exact Or.inl ⟨by simp [einval, enoerr], nofun⟩
  · exact pings_stops (tmax c.time c.count) c.env c.count.toNat 0 buf

/-- **When replies are credited to the right call.** In every sequence of calls on one
target and socket, the next call meets its specification exactly when no leftover comes in
before the first reply to a request of this call. -/
theorem credited_iff (daemonPid : Int) (addr : UInt32) (target : CString) (calls : List NetCall)
    (c : NetCall) :
    let buf := bufAfter daemonPid addr target calls
    Credited addr calls.length c (checkNet daemonPid addr (some target) c buf) ↔
      ∀ pre h post, inBuffer buf (arrivals c) = pre ++ h :: post →
        Leftover daemonPid addr calls.length c h → ∃ g ∈ pre, Genuine addr calls.length c g := by
  intro buf
  unfold Credited
  rcases checkNet_cases daemonPid addr target c buf with ⟨hcode, hall⟩ | ⟨hcode, pre, h, post, hs⟩
  · -- The call fails, and no packet passes the test.
    refine ⟨?_, fun _ hzero => absurd hzero hcode⟩
    intro _ pre h post heq hleft
    have hmem : h ∈ inBuffer buf (arrivals c) := by
      rw [heq]
      exact List.mem_append_right pre List.mem_cons_self
    have htest := (ourEcho_iff daemonPid addr h).mpr ⟨hleft.src, hleft.carries⟩
    rw [hall h hmem] at htest
    cases htest
  · -- The call takes `h` for the answer.
    obtain ⟨hsrc, hcarries⟩ := (ourEcho_iff daemonPid addr h).mp hs.accepted
    constructor
    · intro hcredited pre' h' post' heq hleft
      obtain ⟨g, hg, hgen⟩ := hcredited hcode
      have hpasses := (ourEcho_iff daemonPid addr h').mpr ⟨hleft.src, hleft.carries⟩
      rw [hs.got_eq] at hg
      rcases List.mem_append.mp ((hs.first heq hpasses).subset hg) with hmem | hmem
      · exact ⟨g, hmem, hgen⟩
      · rw [List.mem_singleton.mp hmem] at hgen
        exact absurd hgen hleft.foreign
    · intro hnone _
      rw [hs.got_eq]
      by_cases hgen : Genuine addr calls.length c h
      · exact ⟨h, List.mem_append_right _ List.mem_cons_self, hgen⟩
      · obtain ⟨g, hg, hgen'⟩ := hnone pre h post hs.heard_eq ⟨hsrc, hcarries, hgen⟩
        exact ⟨g, List.mem_append_left _ hg, hgen'⟩

/-- Hosts copy the number and nobody else uses the id: what the target sends with this id and number replies to the ping
of that number, of this call or an earlier one. -/
def Numbered (daemonPid : Int) (addr : UInt32) (n : Nat) (c : NetCall) (h : Heard) : Prop :=
  h.packet.src = addr → Carries daemonPid (h.ping + 1) h.buf.1 →
    ∃ m ≤ n, h.packet.answers = some ⟨m, h.ping⟩ ∧ (c.env h.ping).send = none

/-- A leftover is then a late reply to the same ping of an earlier call. -/
theorem Numbered.leftover_iff {daemonPid : Int} {addr : UInt32} {n : Nat} {c : NetCall} {h : Heard}
    (hnumbered : Numbered daemonPid addr n c h) :
    Leftover daemonPid addr n c h ↔
      h.packet.src = addr ∧ Carries daemonPid (h.ping + 1) h.buf.1 ∧ ∃ m < n, h.packet.answers = some ⟨m, h.ping⟩ := by
  constructor
  · rintro ⟨hsrc, hcarries, hforeign⟩
    obtain ⟨m, hle, hanswers, hsent⟩ := hnumbered hsrc hcarries
    refine ⟨hsrc, hcarries, m, lt_of_le_of_ne hle ?_, hanswers⟩
    rintro rfl
    exact hforeign ⟨hsrc, _, hanswers, rfl, Nat.le_refl _, hsent⟩
  · rintro ⟨hsrc, hcarries, m, hlt, hanswers⟩
    refine ⟨hsrc, hcarries, ?_⟩
    rintro ⟨-, o, ho, hcall, -⟩
    rw [hanswers, Option.some.injEq] at ho
    rw [← ho] at hcall
    exact absurd hcall (Nat.ne_of_lt hlt)

/-- The answer of a host to a ping, behind an IP header of 20 bytes. -/
def echoReply (daemonPid : Int) (i : Nat) : List UInt8 :=
  [0x45] ++ List.replicate 19 0 ++ echoMessage icmpEchoReply 0 daemonPid i

/-- A call at second `now` with one ping of one second, that reads `packets` in time. -/
def onePing (now : Int) (packets : List Packet) : NetCall :=
  ⟨1, 1, fun _ => ⟨none, ⟨now, 0⟩, packets.map fun p => (⟨now, 500⟩, .packet p)⟩⟩

/-- The first call gets no answer in time and fails; its answer comes late. The second
call takes it for the answer to its own ping, which is never answered. -/
theorem credits_stale_reply :
    let late : Packet := ⟨echoReply 100 0, 7, some ⟨0, 0⟩⟩
    let buf := bufAfter 100 7 ['h'] [onePing 0 []]
    (checkNet 100 7 (some ['h']) (onePing 0 []) .zero).code = enetunreach ∧
      (checkNet 100 7 (some ['h']) (onePing 10 [late]) buf).code = enoerr ∧
      ¬ Credited 7 1 (onePing 10 [late]) (checkNet 100 7 (some ['h']) (onePing 10 [late]) buf) := by
  intro late buf
  have hcode : (checkNet 100 7 (some ['h']) (onePing 10 [late]) buf).code = enoerr := by decide
  have hgot : (checkNet 100 7 (some ['h']) (onePing 10 [late]) buf).got.map (·.packet.answers) =
      [some ⟨0, 0⟩] := by decide
  refine ⟨by decide, hcode, ?_⟩
  intro hcredited
  obtain ⟨h, hh, -, o, ho, hcall, -⟩ := hcredited hcode
  have hmem := List.mem_map_of_mem (f := fun h : Heard => h.packet.answers) hh
  rw [hgot, List.mem_singleton, ho] at hmem
  cases hmem
  cases hcall

end Watchdog
