import WatchdogDaemon.Ping

/- Which replies `check_net()` knows for its own.

   The identifier of a request is `htons (daemon_pid)`, the low 16 bits of the process id;
   that of a reply is compared with the whole process id. Encoder and decoder agree as
   long as the process id fits 16 bits, and above that no reply is ever recognised,
   however well the network works.

   There is a second way to miss a reply: `FD_SET` is called once for a ping, and a time-out of
   `select` empties the mask. The clock has then come to the deadline, and the next look at it
   ends the wait; but where it was set back in the meantime, or stands at the very deadline, the
   wait goes on and reads nothing more.

   What is proved:
     1. `recognised_iff` — when a host answers a ping in time, in whatever call and after
        whatever other packets, the call succeeds if and only if the process id is at most
        65535 and `select` has not timed out before in this wait, or another packet that
        passes the test has come in.
     2. `reply_not_recognised` — process 65636 pings a host that answers at once, and the
        network is unreachable; it is for process 100, when the clock is set back after a
        time-out. -/
namespace Watchdog

/-! ## Genuine replies -/

/-- An echo reply from the target: behind an IP header whose length is in its first byte,
an ICMP header with the identifier and the sequence number of the request for ping `i`,
byte by byte. -/
structure Answers (daemonPid : Int) (addr : UInt32) (i : Nat) (p : Packet) : Prop where
  src : p.src = addr
  data : ∃ first header code sum₁ sum₂ rest,
    p.data = (first :: header) ++ ([icmpEchoReply, code, sum₁, sum₂] ++
      ((echoRequest daemonPid i).drop 4).take 4 ++ rest) ∧
    (first :: header).length = 4 * (first.toNat % 16)

/-- A turn of the wait in which `recvfrom` does not fail. -/
def Recv.Works : Recv → Prop
  | .failed _ => False
  | _ => True

theorem Recv.Works.fatal {recv : Recv} (h : recv.Works) : recv.fatal? = none := by
  cases recv with
  | failed err => exact h.elim
  | _ => rfl

/-- The packet is delivered during ping `i`, after the turns `before`, and the clock has not passed
the deadline: the pings up to it are sent, and `recvfrom` does not fail up to there. -/
structure DeliveredInTime (c : NetCall) (i : Nat) (p : Packet) (before : List (Timeval × Recv)) : Prop where
  sent : ∀ j ≤ i, (c.env j).send = none
  works : ∀ j < i, ∀ turn ∈ (c.env j).turns, turn.2.Works
  works_before : ∀ turn ∈ before, turn.2.Works
  inTime : ∃ now after, (c.env i).turns = before ++ (now, .packet p) :: after ∧
    ∀ t ∈ before.map (·.1) ++ [now],
      0 ≤ (timersub (timeradd (c.env i).tstart (tmax c.time c.count)) t).sec

/-- `select` has not timed out. -/
def NoTimeout (before : List (Timeval × Recv)) : Prop := ∀ turn ∈ before, turn.2.isTimeout = false

/-! ## The packet comes in -/

/-- A packet that is delivered in time, with `select` still looking, comes in. -/
theorem mem_waitPackets {timeout : Timeval} {before : List (Timeval × Recv)} (after : List (Timeval × Recv))
    {now : Timeval} (p : Packet) (hworks : ∀ turn ∈ before, turn.2.Works) (htimeout : NoTimeout before)
    (htime : ∀ t ∈ before.map (·.1) ++ [now], 0 ≤ (timersub timeout t).sec) :
    p ∈ waitPackets timeout (before ++ (now, .packet p) :: after) := by
  have hnow : ¬ (timersub timeout now).sec < 0 := Int.not_lt.mpr (htime now (by simp))
  have hreport : reported timeout (before ++ (now, .packet p) :: after) =
      before.map (·.2) ++ .packet p :: reported timeout after := by
    rw [reported_append (fun turn h => htime _ (List.mem_append_left _ (List.mem_map_of_mem h))) htimeout,
      reported_cons hnow rfl]
  have hpass : ∀ recv ∈ before.map (·.2), recv.fatal?.isNone = true := by
    intro recv hrecv
    obtain ⟨turn, hturn, rfl⟩ := List.mem_map.mp hrecv
    rw [(hworks turn hturn).fatal]
    rfl
  rw [waitPackets, hreport, List.takeWhile_append_of_pos hpass, List.takeWhile_cons_of_pos rfl, List.filterMap_append]
  exact List.mem_append_right _ List.mem_cons_self

theorem inBuffer_split (buf : PacketBuf) {as : List Arrival} {a : Arrival} (h : a ∈ as) :
    ∃ b : PacketBuf, ⟨a.ping, b.fill a.packet.data, a.packet⟩ ∈ inBuffer buf as := by
  obtain ⟨pre, post, rfl⟩ := List.append_of_mem h
  rw [inBuffer_append]
  exact ⟨fillAll buf pre, List.mem_append_right _ List.mem_cons_self⟩

/-- The pings from `k` on get to the one during which the packet is delivered. -/
theorem arrivalsFrom_delivered {c : NetCall} {i : Nat} {p : Packet} {before : List (Timeval × Recv)}
    (h : DeliveredInTime c i p before) (htimeout : NoTimeout before) :
    ∀ (left k : Nat), k ≤ i → i < k + left → ⟨i, p⟩ ∈ arrivalsFrom (tmax c.time c.count) c.env left k := by
  intro left
  induction left with
  | zero =>
    intro k hk hi
    omega
  | succ left ih =>
    intro k hk hi
    rw [arrivalsFrom, h.sent k hk]
    simp only [Option.isSome_none, Bool.false_eq_true, if_false]
    by_cases hki : k = i
    · subst hki
      obtain ⟨now, after, hturns, htime⟩ := h.inTime
      have hmem := mem_waitPackets after p h.works_before htimeout htime
      rw [← hturns] at hmem
      exact List.mem_append_left _ (List.mem_map_of_mem hmem)
    · rw [waitFailure_none fun turn hturn => (h.works k (by omega) turn hturn).fatal]
      exact List.mem_append_right _ (ih (k + 1) (by omega) (by omega))

/-! ## The test of a packet -/

/-- What the decoder makes of an encoded number: its low 16 bits. -/
theorem ntohs_htons (x : Int) :
    ntohs (UInt8.ofNat ((x % 65536).toNat / 256)) (UInt8.ofNat ((x % 65536).toNat % 256)) =
      x % 65536 := by
  simp only [ntohs, UInt8.toNat_ofNat']
  omega

theorem ntohs_le (hi lo : UInt8) : ntohs hi lo ≤ 65535 := by
  have h₁ := hi.toNat_lt
  have h₂ := lo.toNat_lt
  simp only [ntohs]
  omega

/-- The identifier and the sequence number of a request, as they are sent. -/
theorem echoRequest_id (daemonPid : Int) (i : Nat) :
    ((echoRequest daemonPid i).drop 4).take 4 = htons daemonPid ++ htons (i + 1) := rfl

theorem fill_getD (buf : PacketBuf) {data : List UInt8} {k : Nat} (hk : k < data.length)
    (hsize : k < pkbufSize) : (buf.fill data).1.getD k 0 = data.getD k 0 := by
  have htake : k < (data.take pkbufSize).length := by
    rw [List.length_take]
    omega
  show (data.take pkbufSize ++ buf.1.drop data.length).getD k 0 = _
  rw [List.getD_eq_getElem?_getD, List.getD_eq_getElem?_getD, List.getElem?_append_left htake,
    List.getElem?_take_of_lt hsize]

/-- **The test of a genuine reply.** Its identifier is compared as 16 bits with the whole
process id. -/
theorem ourEcho_answers {daemonPid : Int} {addr : UInt32} {i : Nat} {p : Packet}
    (h : Answers daemonPid addr i p) (hseq : i + 1 ≤ 65535) (buf : PacketBuf) :
    ourEcho daemonPid addr ⟨i, buf.fill p.data, p⟩ = decide (daemonPid % 65536 = daemonPid) := by
  obtain ⟨first, header, code, sum₁, sum₂, rest, hdata, hlen⟩ := h.data
  have hfirst := first.toNat_lt
  have hlong : (first :: header).length + 8 ≤ p.data.length := by
    rw [hdata, echoRequest_id, List.length_append, List.length_append, List.length_append]
    simp [htons]
  have hpk : pkbufSize = 192 := rfl
  -- The fields lie within the first 68 bytes, whatever the header's length.
  have hbyte : ∀ k < 8, (buf.fill p.data).1.getD ((first :: header).length + k) 0 =
      ([icmpEchoReply, code, sum₁, sum₂] ++ htons daemonPid ++ htons (i + 1) ++ rest).getD k 0 := by
    intro k hk
    rw [fill_getD buf (by omega) (by omega), hdata, echoRequest_id, List.getD_eq_getElem?_getD,
      List.getElem?_append_right (Nat.le_add_right _ _), Nat.add_sub_cancel_left,
      ← List.getD_eq_getElem?_getD]
    rfl
  have hzero : (buf.fill p.data).1.getD 0 0 = first := by
    rw [fill_getD buf (by omega) (by omega), hdata]
    rfl
  have hicp : 4 * (((buf.fill p.data).1.getD 0 0).toNat % 16) = (first :: header).length := by
    rw [hzero, hlen]
  unfold ourEcho
  simp only [hicp]
  have h₀ := hbyte 0 (by decide)
  rw [Nat.add_zero] at h₀
  rw [h₀, hbyte 4 (by decide), hbyte 5 (by decide), hbyte 6 (by decide), hbyte 7 (by decide)]
  have hid : ntohs (([icmpEchoReply, code, sum₁, sum₂] ++ htons daemonPid ++ htons (i + 1) ++ rest).getD 4 0)
      (([icmpEchoReply, code, sum₁, sum₂] ++ htons daemonPid ++ htons (i + 1) ++ rest).getD 5 0) =
      daemonPid % 65536 := ntohs_htons daemonPid
  have hnumber : ntohs (([icmpEchoReply, code, sum₁, sum₂] ++ htons daemonPid ++ htons (i + 1) ++ rest).getD 6 0)
      (([icmpEchoReply, code, sum₁, sum₂] ++ htons daemonPid ++ htons (i + 1) ++ rest).getD 7 0) =
      i + 1 :=
    (ntohs_htons (i + 1)).trans (Int.emod_eq_of_lt (by omega) (by omega))
  rw [hid, hnumber]
  simp [h.src]

/-! ## Whole calls -/

/-- A packet that passes the test of the ping in progress. -/
def Passes (daemonPid : Int) (addr : UInt32) (h : Heard) : Prop :=
  h.packet.src = addr ∧ Carries daemonPid (h.ping + 1) h.buf.1

/-- **A reply is recognised exactly when the process id fits 16 bits and the socket is looked at.**
The reply is genuine and delivered in time during ping `i` of a call of at most 65535 pings. -/
theorem recognised_iff (daemonPid : Int) (hpid : 0 < daemonPid) (addr : UInt32) (target : CString)
    (c : NetCall) (hcount : c.count ≤ 65535) (buf : PacketBuf) (i : Nat) (hi : (i : Int) < c.count)
    (p : Packet) (before : List (Timeval × Recv)) (hread : DeliveredInTime c i p before)
    (hanswer : Answers daemonPid addr i p) :
    (checkNet daemonPid addr (some target) c buf).code = enoerr ↔
      daemonPid ≤ 65535 ∧ (NoTimeout before ∨ ∃ h ∈ inBuffer buf (arrivals c), Passes daemonPid addr h) := by
  have hpasses : NoTimeout before → daemonPid ≤ 65535 →
      ∃ h ∈ inBuffer buf (arrivals c), ourEcho daemonPid addr h = true := by
    intro htimeout hle
    obtain ⟨b, hb⟩ := inBuffer_split buf (a := ⟨i, p⟩)
      (arrivalsFrom_delivered hread htimeout c.count.toNat 0 (Nat.zero_le i) (by omega))
    refine ⟨_, hb, (ourEcho_answers hanswer (by omega) b).trans ?_⟩
    exact decide_eq_true (Int.emod_eq_of_lt (by omega) (by omega))
  obtain ⟨hcode, hall⟩ | ⟨hcode, pre, h, post, hs⟩ := checkNet_cases daemonPid addr target c buf
  · -- The call failed, so that no packet has passed.
    refine ⟨fun hok => absurd hok hcode, ?_⟩
    rintro ⟨hle, hlooks⟩
    obtain ⟨g, hmem, hpass⟩ : ∃ g ∈ inBuffer buf (arrivals c), ourEcho daemonPid addr g = true := by
      rcases hlooks with htimeout | ⟨g, hmem, hpass⟩
      · exact hpasses htimeout hle
      · exact ⟨g, hmem, (ourEcho_iff daemonPid addr g).mpr hpass⟩
    rw [hall g hmem] at hpass
    cases hpass
  · -- The call succeeded, with a packet whose identifier is the process id.
    have hpass := (ourEcho_iff daemonPid addr h).mp hs.accepted
    have hmem : h ∈ inBuffer buf (arrivals c) := by
      rw [hs.heard_eq]
      exact List.mem_append_right _ List.mem_cons_self
    obtain ⟨-, -, -, -, id₁, id₂, -, -, -, -, -, hid, -⟩ := hpass.2
    have hle := ntohs_le id₁ id₂
    rw [hid] at hle
    exact ⟨fun _ => ⟨hle, Or.inr ⟨h, hmem, hpass⟩⟩, fun _ => hcode⟩

/-- The reply of a host is a genuine one. -/
theorem answers_echoReply (daemonPid : Int) (addr : UInt32) (i : Nat) (answers : Option Origin) :
    Answers daemonPid addr i ⟨echoReply daemonPid i, addr, answers⟩ :=
  ⟨rfl, 0x45, List.replicate 19 0, 0, 0, 0, List.replicate 56 0, rfl, rfl⟩

theorem delivered_onePing (before : List Packet) (p : Packet) (after : List Packet) :
    DeliveredInTime (onePing 0 (before ++ p :: after)) 0 p (before.map fun p => (⟨0, 500⟩, .packet p)) where
  sent := fun _ _ => rfl
  works := fun j hj => absurd hj (Nat.not_lt_zero j)
  works_before := by
    intro turn hturn
    obtain ⟨q, -, rfl⟩ := List.mem_map.mp hturn
    trivial
  inTime := by
    refine ⟨⟨0, 500⟩, after.map fun p => (⟨0, 500⟩, .packet p), by simp [onePing], ?_⟩
    intro t ht
    have hclock : t = ⟨0, 500⟩ := by
      simp only [List.map_map, List.mem_append, List.mem_map, List.mem_singleton] at ht
      obtain ⟨q, -, rfl⟩ | rfl := ht <;> rfl
    rw [hclock]
    show 0 ≤ (timersub (timeradd ⟨0, 0⟩ (tmax 1 1)) ⟨0, 500⟩).sec
    decide

/-- Process 100 pings a host that answers after another packet. -/
theorem recognised_iff_small_pid :
    (checkNet 100 7 (some ['h'])
      (onePing 0 ([⟨[], 9, none⟩] ++ [⟨echoReply 100 0, 7, some ⟨0, 0⟩⟩])) .zero).code = enoerr := by
  refine (recognised_iff 100 (by decide) 7 ['h'] _ (by decide) .zero 0 (by decide) _ _
    (delivered_onePing _ _ []) (answers_echoReply 100 7 0 _)).mpr ⟨by decide, Or.inl fun turn hturn => ?_⟩
  obtain ⟨q, -, rfl⟩ := List.mem_map.mp hturn
  rfl

/-- A call with one ping of one second: `select` times out, the clock is set back to half a second after
the ping, and then the packet is delivered. -/
def setBack (p : Packet) : NetCall :=
  ⟨1, 1, fun _ => ⟨none, ⟨0, 0⟩, [(⟨0, 400000⟩, .timeout), (⟨0, 500000⟩, .packet p)]⟩⟩

/-- A packet is the answer to ping 0 of process `daemonPid`, is delivered in time, and is not recognised. -/
def Missed (daemonPid : Int) (c : NetCall) (p : Packet) : Prop :=
  (∃ before, DeliveredInTime c 0 p before) ∧ Answers daemonPid 7 0 p ∧
    (checkNet daemonPid 7 (some ['h']) c .zero).code = enetunreach

/-- Process 65636 is answered as well, and does not know it; and process 100 does not look any more. -/
theorem reply_not_recognised :
    Missed 65636 (onePing 0 [⟨echoReply 65636 0, 7, some ⟨0, 0⟩⟩]) ⟨echoReply 65636 0, 7, some ⟨0, 0⟩⟩ ∧
      Missed 100 (setBack ⟨echoReply 100 0, 7, some ⟨0, 0⟩⟩) ⟨echoReply 100 0, 7, some ⟨0, 0⟩⟩ := by
  refine ⟨⟨⟨_, delivered_onePing [] _ []⟩, answers_echoReply 65636 7 0 _, by decide⟩,
    ⟨⟨[(⟨0, 400000⟩, .timeout)], ?_, ?_, ?_, ?_⟩, answers_echoReply 100 7 0 _, by decide⟩⟩
  · exact fun _ _ => rfl
  · exact fun j hj => absurd hj (Nat.not_lt_zero j)
  · intro turn hturn
    rw [List.mem_singleton.mp hturn]
    trivial
  · exact ⟨⟨0, 500000⟩, [], rfl, by decide⟩

end Watchdog
