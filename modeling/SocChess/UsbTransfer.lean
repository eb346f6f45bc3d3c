import SocChess.Lib.Framing
import SocChess.UsbPacket

/-!
# IN transfers

`XferInTransfer` asks a device for bytes, one packet after another. It does not know
how many packets there are: a packet shorter than the size given for the endpoint is the
last one, and so is one that brings the count to what was asked for.

* `in_transfer_iff`: what a transfer returns, for every platform, in terms of the packets
  and codes it gets.
* `in_transfer_message`: a message that a device sends in packets arrives as it was, with
  any NAKs and timeouts on the way that a dispatch survives.
* `overrun_iff`: the bytes are stored as they come. A device that keeps to its packet size
  leaves the buffer alone past its end if and only if the size divides what is asked for.
-/

namespace SocChess.Usb

open Program Framing

def bmRCVTOGRD : Byte := 0x10#8
def bmRCVTOG0 : Byte := 0x10#8
def bmRCVTOG1 : Byte := 0x20#8

/-! ## `XferInTransfer` -/

/-- The variables of the loop: `xfrlen`, and the bytes stored from `data` on. -/
structure Receipt where
  xfrlen : BitVec 16
  stored : List Byte
deriving DecidableEq, Repr

/-- What follows a packet, or a code that means there is none. -/
def Receipt.judge (nbytes : BitVec 16) (maxpktsize : Byte) (v : Receipt) :
    Except Byte (List Byte) → Outcome Receipt (Byte × List Byte)
  | .error rcode => .done (rcode, v.stored)
  | .ok packet =>
    let xfrlen := v.xfrlen + BitVec.ofNat 16 packet.length
    if packet.length < maxpktsize.toNat ∨ nbytes ≤ xfrlen then .done (0x00#8, v.stored ++ packet)
    else .again ⟨xfrlen, v.stored ++ packet⟩

/-- The outcome of a transfer: its code, the bytes stored and the toggle value saved. -/
structure InResult where
  rcode : Byte
  stored : List Byte
  rcvToggle : Option Byte
deriving DecidableEq, Repr

section InTransfer

variable {P : Type} (io : Platform P) (n : Nat)

/-- A pass up to the receive buffer: the packet in it, of `pktsize` bytes, or the code the
transfer ends with. -/
def receivePacket (ep : Byte) : Prog Stop P (Except Byte (List Byte)) := do
  let rcode ← xferDispatchPkt io n tokIN ep
  if rcode ≠ 0x00#8 then return .error rcode
  else do
    let hirq ← act (io.maxRegRd rHIRQ)
    if hirq &&& bmRCVDAVIRQ = 0x00#8 then return .error 0xf0#8
    else do
      let pktsize ← act (io.maxRegRd rRCVBC)
      let packet ← act (io.maxBytesRd rRCVFIFO pktsize)
      update (io.maxRegWr rHIRQ bmRCVDAVIRQ)
      return .ok packet

/-- On success the toggle value is read. -/
def saveToggle (r : Byte × List Byte) : Prog Stop P InResult :=
  if r.1 = 0x00#8 then do
    let hrsl ← act (io.maxRegRd rHRSL)
    return ⟨r.1, r.2, some (if hrsl &&& bmRCVTOGRD ≠ 0#8 then bmRCVTOG1 else bmRCVTOG0)⟩
  else return ⟨r.1, r.2, none⟩

/-- `XferInTransfer`, with the toggle value of the endpoint as an argument and its new
value in the result. -/
def inTransfer (rcvToggle ep : Byte) (nbytes : BitVec 16) (maxpktsize : Byte) :
    Prog Stop P InResult := do
  update (io.maxRegWr rHCTL rcvToggle)
  loop .unfinished (judged (receivePacket io n ep) (Receipt.judge nbytes maxpktsize)
    (saveToggle io)) n ⟨0#16, []⟩

end InTransfer

/-! ## What is received -/

section Receive

variable {P : Type} {io : Platform P} {n : Nat} {ep : Byte} {p p' : P}

theorem maxBytesRd_length (reg nbytes : Byte) :
    (io.maxBytesRd reg nbytes p).1.length = nbytes.toNat :=
  Vector.length_toList

/-- What `receivePacket` can return: a packet has a byte for its length, and a code is
not `0`. -/
def Sound : Except Byte (List Byte) → Prop
  | .ok packet => packet.length < 2 ^ 8
  | .error rcode => rcode ≠ 0x00#8

theorem receivePacket_sound {r : Except Byte (List Byte)}
    (h : (receivePacket io n ep).run p = .ok (r, p')) : Sound r := by
  rw [receivePacket] at h
  obtain ⟨rcode, p₁, -, h⟩ := bind_eq_ok_iff.mp h
  split at h
  · next hcode =>
    cases h
    exact hcode
  · rw [run_act_bind] at h
    split at h
    · cases h
      exact (by decide : 0xf0#8 ≠ 0x00#8)
    · rw [run_act_bind, run_act_bind, run_update_bind, run_pure, Except.ok.injEq,
        Prod.mk.injEq] at h
      rw [← h.1, Sound, maxBytesRd_length]
      exact BitVec.isLt _

theorem trace_sound {rs : List (Except Byte (List Byte))}
    (h : Trace (receivePacket io n ep) rs p p') : ∀ r ∈ rs, Sound r := by
  induction h with
  | nil p => exact nofun
  | cons hx _ ih => exact List.forall_mem_cons.mpr ⟨receivePacket_sound hx, ih⟩

end Receive

/-! ## When a transfer ends -/

/-- With what a transfer of `nbytes` in packets of `m` ends, after the packets `earlier`. -/
def Ends (nbytes m : Nat) (earlier : List (List Byte)) : Except Byte (List Byte) → Prop
  | .ok last => Framed nbytes m earlier last
  | .error _ => Pending nbytes m earlier

/-- The code, and the bytes stored. -/
def outcome (earlier : List (List Byte)) : Except Byte (List Byte) → Byte × List Byte
  | .ok last => (0x00#8, (earlier ++ [last]).flatten)
  | .error rcode => (rcode, earlier.flatten)

section Settle

variable {rs : List (Except Byte (List Byte))} {nbytes : BitVec 16} {maxpktsize : Byte}
  {stored packet : List Byte}

theorem ends_cons {nbytes m : Nat} {earlier : List (List Byte)} {r : Except Byte (List Byte)} :
    Ends nbytes m (packet :: earlier) r ↔
      m ≤ packet.length ∧ packet.length < nbytes ∧ Ends (nbytes - packet.length) m earlier r := by
  cases r with
  | ok last => exact framed_cons
  | error rcode => exact pending_cons

theorem outcome_cons (packet : List Byte) (earlier : List (List Byte))
    (r : Except Byte (List Byte)) :
    outcome (packet :: earlier) r =
      ((outcome earlier r).1, packet ++ (outcome earlier r).2) := by
  cases r with
  | ok last => rfl
  | error rcode => rfl

/-- The first of some packets followed by a last result. -/
theorem exists_ok_cons_iff {Q : List (List Byte) → Except Byte (List Byte) → Prop} :
    (∃ earlier r, .ok packet :: rs = earlier.map .ok ++ [r] ∧ Q earlier r) ↔
      (rs = [] ∧ Q [] (.ok packet)) ∨
        ∃ earlier r, rs = earlier.map .ok ++ [r] ∧ Q (packet :: earlier) r := by
  constructor
  · rintro ⟨earlier, r, heq, hQ⟩
    cases earlier with
    | nil =>
      cases heq
      exact .inl ⟨rfl, hQ⟩
    | cons packet' earlier =>
      cases heq
      exact .inr ⟨earlier, r, rfl, hQ⟩
  · rintro (⟨rfl, hQ⟩ | ⟨earlier, r, rfl, hQ⟩)
    · exact ⟨[], .ok packet, rfl, hQ⟩
    · exact ⟨packet :: earlier, r, rfl, hQ⟩

theorem exists_error_cons_iff {rcode : Byte}
    {Q : List (List Byte) → Except Byte (List Byte) → Prop} :
    (∃ earlier r, .error rcode :: rs = earlier.map .ok ++ [r] ∧ Q earlier r) ↔
      rs = [] ∧ Q [] (.error rcode) := by
  constructor
  · rintro ⟨earlier, r, heq, hQ⟩
    cases earlier with
    | nil =>
      cases heq
      exact ⟨rfl, hQ⟩
    | cons packet' earlier => cases heq
  · rintro ⟨rfl, hQ⟩
    exact ⟨[], .error rcode, rfl, hQ⟩

/-- The count of the loop is the number of bytes stored, which does not overflow. -/
theorem enough_iff (hn : nbytes.toNat + 2 ^ 8 ≤ 2 ^ 16)
    (hstored : stored = [] ∨ stored.length < nbytes.toNat) (hpacket : packet.length < 2 ^ 8) :
    nbytes ≤ BitVec.ofNat 16 stored.length + BitVec.ofNat 16 packet.length ↔
      nbytes.toNat - stored.length ≤ packet.length := by
  have hlt : stored.length + packet.length < 2 ^ 16 := by
    rcases hstored with rfl | hstored
    · rw [List.length_nil]
      omega
    · omega
  rw [← BitVec.ofNat_add, BitVec.le_def, BitVec.toNat_ofNat, Nat.mod_eq_of_lt hlt]
  omega

theorem judge_last (h : packet.length < maxpktsize.toNat ∨
    nbytes ≤ BitVec.ofNat 16 stored.length + BitVec.ofNat 16 packet.length) :
    Receipt.judge nbytes maxpktsize ⟨BitVec.ofNat 16 stored.length, stored⟩ (.ok packet) =
      .done (0x00#8, stored ++ packet) :=
  if_pos h

theorem judge_more (h : ¬ (packet.length < maxpktsize.toNat ∨
    nbytes ≤ BitVec.ofNat 16 stored.length + BitVec.ofNat 16 packet.length)) :
    Receipt.judge nbytes maxpktsize ⟨BitVec.ofNat 16 stored.length, stored⟩ (.ok packet) =
      .again ⟨BitVec.ofNat 16 (stored ++ packet).length, stored ++ packet⟩ := by
  rw [List.length_append, BitVec.ofNat_add]
  exact if_neg h

/-- Which packets and codes end a transfer that has stored some bytes. -/
theorem settle_receipt_iff (hn : nbytes.toNat + 2 ^ 8 ≤ 2 ^ 16)
    (hstored : stored = [] ∨ stored.length < nbytes.toNat) (hsound : ∀ r ∈ rs, Sound r)
    {b : Byte × List Byte} :
    settle (Receipt.judge nbytes maxpktsize) ⟨BitVec.ofNat 16 stored.length, stored⟩ rs = some b ↔
      ∃ earlier r, rs = earlier.map .ok ++ [r] ∧
        Ends (nbytes.toNat - stored.length) maxpktsize.toNat earlier r ∧
        ((outcome earlier r).1, stored ++ (outcome earlier r).2) = b := by
  induction rs generalizing stored with
  | nil => simp [settle]
  | cons r rs ih =>
    cases r with
    | error rcode =>
      rw [settle_done rfl, exists_error_cons_iff]
      simp [Ends, pending_nil, outcome]
    | ok packet =>
      have hpacket : packet.length < 2 ^ 8 := hsound (.ok packet) List.mem_cons_self
      have henough := enough_iff hn hstored hpacket
      rw [exists_ok_cons_iff]
      by_cases hlast : packet.length < maxpktsize.toNat ∨
          nbytes ≤ BitVec.ofNat 16 stored.length + BitVec.ofNat 16 packet.length
      · rw [settle_done (judge_last hlast)]
        rw [henough] at hlast
        have hmore : ∀ earlier r,
            ¬ Ends (nbytes.toNat - stored.length) maxpktsize.toNat (packet :: earlier) r := by
          intro earlier r hends
          obtain ⟨hfull, hwanted, -⟩ := ends_cons.mp hends
          omega
        have hends : Ends (nbytes.toNat - stored.length) maxpktsize.toNat [] (.ok packet) :=
          framed_nil.mpr hlast
        simp [hmore, hends, outcome]
      · rw [settle_again (judge_more hlast)]
        rw [henough] at hlast
        have hnext : (stored ++ packet).length < nbytes.toNat := by
          rw [List.length_append]
          omega
        rw [ih (.inr hnext) fun r hr => hsound r (List.mem_cons_of_mem _ hr)]
        have hends : ¬ Ends (nbytes.toNat - stored.length) maxpktsize.toNat [] (.ok packet) :=
          fun h => hlast (framed_nil.mp h)
        have hcons : ∀ earlier r,
            Ends (nbytes.toNat - stored.length) maxpktsize.toNat (packet :: earlier) r ↔
              Ends (nbytes.toNat - (stored ++ packet).length) maxpktsize.toNat earlier r := by
          intro earlier r
          rw [ends_cons, List.length_append, ← Nat.sub_sub]
          exact ⟨fun h => h.2.2, fun h => ⟨by omega, by omega, h⟩⟩
        simp [hends, hcons, outcome_cons]

end Settle

section InTransfer

variable {P : Type} {io : Platform P} {n : Nat} {nbytes : BitVec 16}
  {maxpktsize rcvToggle ep : Byte} {p p' : P}

/-- The outcome of a transfer: full packets, and then a packet or a code that ends it. -/
theorem in_transfer_iff (hn : nbytes.toNat + 2 ^ 8 ≤ 2 ^ 16) {result : InResult} :
    (inTransfer io n rcvToggle ep nbytes maxpktsize).run p = .ok (result, p') ↔
      ∃ earlier r p₁, earlier.length < n ∧
        Trace (receivePacket io n ep) (earlier.map .ok ++ [r]) (io.maxRegWr rHCTL rcvToggle p) p₁ ∧
        Ends nbytes.toNat maxpktsize.toNat earlier r ∧
        (saveToggle io (outcome earlier r)).run p₁ = .ok (result, p') := by
  rw [inTransfer, run_update_bind, loop_judged_iff]
  constructor
  · rintro ⟨rs, b, p₁, hlen, htrace, hsettle, hsave⟩
    obtain ⟨earlier, r, rfl, hends, rfl⟩ :=
      (settle_receipt_iff hn (.inl rfl) (trace_sound htrace)).mp hsettle
    rw [List.length_append, List.length_map, List.length_singleton] at hlen
    exact ⟨earlier, r, p₁, hlen, htrace, hends, hsave⟩
  · rintro ⟨earlier, r, p₁, hlen, htrace, hends, hsave⟩
    refine ⟨_, _, p₁, ?_, htrace, (settle_receipt_iff hn (.inl rfl) (trace_sound htrace)).mpr
      ⟨earlier, r, rfl, hends, rfl⟩, hsave⟩
    rw [List.length_append, List.length_map, List.length_singleton]
    exact hlen

theorem saveToggle_rcode {b : Byte × List Byte} {result : InResult}
    (h : (saveToggle io b).run p = .ok (result, p')) :
    result.rcode = b.1 ∧ result.stored = b.2 := by
  unfold saveToggle at h
  split at h
  · cases h
    exact ⟨rfl, rfl⟩
  · cases h
    exact ⟨rfl, rfl⟩

theorem saveToggle_returns (io : Platform P) (b : Byte × List Byte) (p : P) :
    ∃ rcvToggle p', (saveToggle io b).run p = .ok (⟨b.1, b.2, rcvToggle⟩, p') := by
  unfold saveToggle
  split
  · exact ⟨_, _, rfl⟩
  · exact ⟨_, _, rfl⟩

/-- From `p` on, the device keeps to packets of `m` bytes. -/
def Within (io : Platform P) (n : Nat) (ep : Byte) (m : Nat) (p : P) : Prop :=
  ∀ (packets : List (List Byte)) (p' : P),
    Trace (receivePacket io n ep) (packets.map .ok) p p' →
    ∀ packet ∈ packets, packet.length ≤ m

/-- A device that keeps to its packet size overruns no buffer if the size divides what is
asked for. -/
theorem stored_le (hn : nbytes.toNat + 2 ^ 8 ≤ 2 ^ 16) (hpos : 0 < nbytes.toNat)
    (hdvd : maxpktsize.toNat ∣ nbytes.toNat)
    (hwithin : Within io n ep maxpktsize.toNat (io.maxRegWr rHCTL rcvToggle p))
    {result : InResult}
    (hrun : (inTransfer io n rcvToggle ep nbytes maxpktsize).run p = .ok (result, p')) :
    result.stored.length ≤ nbytes.toNat := by
  obtain ⟨earlier, r, p₁, -, htrace, hends, hsave⟩ := (in_transfer_iff hn).mp hrun
  rw [(saveToggle_rcode hsave).2]
  cases r with
  | error rcode =>
    cases earlier with
    | nil => exact Nat.zero_le _
    | cons packet earlier => exact (hends.wanted (List.cons_ne_nil _ _)).le
  | ok last =>
    have hpackets := hwithin (earlier ++ [last]) p₁ (by rwa [List.map_append])
    exact framed_fits hdvd hpos hends
      (fun packet hmem => hpackets packet (List.mem_append_left _ hmem))
      (hpackets last (List.mem_append_right _ (List.mem_singleton_self last)))

end InTransfer

/-! ## A scripted device -/

section Scripted

variable {n : Nat}

/-- What the chip sends for a packet: the transfer is done without an error, and data is
available, of a length, and the data. -/
def packetBytes (packet : List Byte) : List Byte :=
  [0x80#8, 0x00#8, 0x04#8, BitVec.ofNat 8 packet.length] ++ packet

/-- The scripted device that sends the packets one after another. -/
def Script.sends (packets : List (List Byte)) (after : List Byte) : Script :=
  ⟨packets.flatMap packetBytes ++ after, 0#32, 0#32⟩

theorem script_maxRegRd (reg b : Byte) (rest : List Byte) :
    Script.platform.maxRegRd reg ⟨b :: rest, 0#32, 0#32⟩ = (b, ⟨rest, 0#32, 0#32⟩) :=
  Prod.ext (Vector.getElem_ofFn (by decide)) rfl

theorem script_maxRegWr (reg val : Byte) (p : Script) :
    Script.platform.maxRegWr reg val p = p := rfl

theorem script_millis (received : List Byte) :
    Script.platform.millis ⟨received, 0#32, 0#32⟩ = (0#32, ⟨received, 0#32, 0#32⟩) :=
  Prod.ext (by decide : 0#32 / 100000#32 = 0#32) rfl

theorem script_next {k : Nat} {packet : List Byte} (hlen : packet.length = k)
    (rest : List Byte) (clock step : Word) :
    (Script.next k ⟨packet ++ rest, clock, step⟩).1.toList = packet := by
  refine List.ext_getElem (by rw [Vector.length_toList, hlen]) fun i hi hi' => ?_
  simp only [Script.next, Vector.getElem_toList, Vector.getElem_ofFn]
  rw [List.getD_eq_getElem?_getD, List.getElem?_append_left hi', List.getElem?_eq_getElem hi',
    Option.getD_some]

theorem script_maxBytesRd (reg : Byte) {nbytes : Byte} {packet : List Byte}
    (hlen : packet.length = nbytes.toNat) (rest : List Byte) :
    Script.platform.maxBytesRd reg nbytes ⟨packet ++ rest, 0#32, 0#32⟩ =
      (packet, ⟨rest, 0#32, 0#32⟩) := by
  refine Prod.ext (script_next hlen rest _ _) ?_
  change (⟨(packet ++ rest).drop nbytes.toNat, 0#32, 0#32⟩ : Script) = ⟨rest, 0#32, 0#32⟩
  rw [← hlen, List.drop_left]

theorem script_await (rest : List Byte) :
    (awaitTransfer Script.platform (n + 1) usbXferTimeout).run ⟨0x80#8 :: rest, 0#32, 0#32⟩ =
      .ok (true, ⟨rest, 0#32, 0#32⟩) := by
  have hearly : 0#32 < usbXferTimeout := by decide
  have hdone : 0x80#8 &&& bmHXFRDNIRQ ≠ 0#8 := by decide
  refine loop_done ?_ n
  rw [run_act_bind, script_millis]
  dsimp only
  rw [if_pos hearly, run_act_bind, script_maxRegRd]
  dsimp only
  rw [if_pos hdone, run_update_bind, script_maxRegWr, run_pure]

theorem script_attempt (token ep code : Byte) (rest : List Byte) :
    (attempt Script.platform (n + 1) usbXferTimeout token ep).run
        ⟨0x80#8 :: code :: rest, 0#32, 0#32⟩ = .ok (code &&& 0x0f#8, ⟨rest, 0#32, 0#32⟩) := by
  rw [attempt, run_update_bind, script_maxRegWr, bind_of_ok (script_await _), if_pos rfl,
    run_act_bind, script_maxRegRd, run_pure]

theorem script_dispatch (token ep : Byte) (rest : List Byte) :
    (xferDispatchPkt Script.platform (n + 1) token ep).run ⟨0x80#8 :: 0x00#8 :: rest, 0#32, 0#32⟩ =
      .ok (0x00#8, ⟨rest, 0#32, 0#32⟩) := by
  have hstart : 0#32 + usbXferTimeout = usbXferTimeout := BitVec.zero_add _
  have hattempt := script_attempt (n := n) token ep 0x00#8 rest
  rw [xferDispatchPkt, run_act_bind, script_millis, hstart, loop_judged_iff]
  exact ⟨[0x00#8], 0x00#8, _, Nat.succ_le_succ (Nat.zero_le n), .cons hattempt (.nil _),
    (settle_done (judge_done (by decide) (by decide))).mpr ⟨rfl, rfl⟩, rfl⟩

theorem script_receive {packet : List Byte} (hlen : packet.length < 2 ^ 8) (ep : Byte)
    (rest : List Byte) :
    (receivePacket Script.platform (n + 1) ep).run ⟨packetBytes packet ++ rest, 0#32, 0#32⟩ =
      .ok (.ok packet, ⟨rest, 0#32, 0#32⟩) := by
  have hpktsize : packet.length = (BitVec.ofNat 8 packet.length).toNat := by
    rw [BitVec.toNat_ofNat, Nat.mod_eq_of_lt hlen]
  have havailable : ¬ 0x04#8 &&& bmRCVDAVIRQ = 0x00#8 := by decide
  have hbytes : packetBytes packet ++ rest =
      0x80#8 :: 0x00#8 :: 0x04#8 :: BitVec.ofNat 8 packet.length :: (packet ++ rest) := by
    rw [packetBytes, List.append_assoc, List.cons_append, List.cons_append, List.cons_append,
      List.cons_append, List.nil_append]
  rw [hbytes, receivePacket, bind_of_ok (script_dispatch tokIN ep _), if_neg (not_not.mpr rfl),
    run_act_bind, script_maxRegRd]
  dsimp only
  rw [if_neg havailable, run_act_bind, script_maxRegRd, run_act_bind,
    script_maxBytesRd _ hpktsize, run_update_bind, script_maxRegWr, run_pure]

theorem sends_cons (packet : List Byte) (packets : List (List Byte)) (after : List Byte) :
    Script.sends (packet :: packets) after =
      ⟨packetBytes packet ++ (packets.flatMap packetBytes ++ after), 0#32, 0#32⟩ := by
  rw [Script.sends, List.flatMap_cons, List.append_assoc]

/-- The scripted device delivers its packets. -/
theorem script_trace {packets : List (List Byte)} (h : ∀ packet ∈ packets, packet.length < 2 ^ 8)
    (ep : Byte) (after : List Byte) :
    Trace (receivePacket Script.platform (n + 1) ep) (packets.map .ok)
      (Script.sends packets after) ⟨after, 0#32, 0#32⟩ := by
  induction packets with
  | nil => exact .nil _
  | cons packet packets ih =>
    rw [sends_cons]
    exact .cons (script_receive (h packet List.mem_cons_self) ep _)
      (ih fun packet' hmem => h packet' (List.mem_cons_of_mem _ hmem))

/-- After its end a script with a stopped timer does not answer. -/
theorem script_ended (ep : Byte) (r : Except Byte (List Byte)) (p' : Script) :
    (receivePacket Script.platform n ep).run ⟨[], 0#32, 0#32⟩ ≠ .ok (r, p') := by
  intro h
  rw [receivePacket] at h
  obtain ⟨rcode, p₁, hdispatch, -⟩ := bind_eq_ok_iff.mp h
  obtain ⟨-, k, hk⟩ := silent_of_dispatch script_silent rfl hdispatch
  have hpoll : Script.platform.poll^[k] ⟨[], 0#32, 0#32⟩ = ⟨[], 0#32, 0#32⟩ :=
    Function.iterate_fixed rfl k
  rw [script_millis, script_maxRegWr, Platform.reading, hpoll, script_millis] at hk
  exact absurd hk (by decide)

/-- Only the packets of the script are received. -/
theorem script_within {packets : List (List Byte)} (h : ∀ packet ∈ packets, packet.length < 2 ^ 8)
    {m : Nat} (hm : ∀ packet ∈ packets, packet.length ≤ m) (ep : Byte) :
    Within Script.platform (n + 1) ep m (Script.sends packets []) := by
  intro received p' htrace
  induction packets generalizing received with
  | nil =>
    cases received with
    | nil => exact nofun
    | cons packet received =>
      cases htrace with
      | cons hx _ => exact absurd hx (script_ended ep _ _)
  | cons packet packets ih =>
    cases received with
    | nil => exact nofun
    | cons packet' received =>
      rw [sends_cons] at htrace
      cases htrace with
      | cons hx hrest =>
        rw [script_receive (h packet List.mem_cons_self)] at hx
        cases hx
        refine List.forall_mem_cons.mpr ⟨hm packet List.mem_cons_self, ih ?_ ?_ received hrest⟩
        · exact fun packet' hmem => h packet' (List.mem_cons_of_mem _ hmem)
        · exact fun packet' hmem => hm packet' (List.mem_cons_of_mem _ hmem)

end Scripted

/-! ## Messages -/

section Message

variable {P : Type} {io : Platform P} {n : Nat} {nbytes : BitVec 16}
  {maxpktsize rcvToggle ep : Byte} {p p' : P}

/-- A message arrives exactly when it is sent in fragments. -/
theorem in_transfer_message (hn : nbytes.toNat + 2 ^ 8 ≤ 2 ^ 16) (hm : 0 < maxpktsize.toNat)
    (hwithin : Within io n ep maxpktsize.toNat (io.maxRegWr rHCTL rcvToggle p))
    {msg : List Byte} (hmsg : msg.length ≤ nbytes.toNat) :
    (∃ toggle p', (inTransfer io n rcvToggle ep nbytes maxpktsize).run p =
        .ok (⟨0x00#8, msg, toggle⟩, p')) ↔
      (fragments maxpktsize.toNat nbytes.toNat msg).length ≤ n ∧
        ∃ p₁, Trace (receivePacket io n ep)
          ((fragments maxpktsize.toNat nbytes.toNat msg).map .ok)
          (io.maxRegWr rHCTL rcvToggle p) p₁ := by
  constructor
  · rintro ⟨toggle, p', hrun⟩
    obtain ⟨earlier, r, p₁, hlen, htrace, hends, hsave⟩ := (in_transfer_iff hn).mp hrun
    have hresult := saveToggle_rcode hsave
    cases r with
    | error rcode =>
      have hcode : rcode ≠ 0x00#8 :=
        trace_sound htrace (.error rcode) (List.mem_append_right _ (List.mem_singleton_self _))
      exact absurd hresult.1.symm hcode
    | ok last =>
      have hpackets := hwithin (earlier ++ [last]) p₁ (by rwa [List.map_append])
      have heq : msg = (earlier ++ [last]).flatten := hresult.2
      have hfragments := fragments_of_framed hm hends
        (fun packet hmem => hpackets packet (List.mem_append_left _ hmem))
        (hpackets last (List.mem_append_right _ (List.mem_singleton_self last)))
      rw [heq, hfragments, List.map_append]
      refine ⟨?_, p₁, htrace⟩
      rw [List.length_append, List.length_singleton]
      exact hlen
  · rintro ⟨hlen, p₁, htrace⟩
    obtain ⟨earlier, last, heq, hframed⟩ := framed_fragments hm hmsg
    obtain ⟨toggle, p', hsave⟩ := saveToggle_returns io (outcome earlier (.ok last)) p₁
    refine ⟨toggle, p', (in_transfer_iff hn).mpr ⟨earlier, .ok last, p₁, ?_, ?_, hframed, ?_⟩⟩
    · rw [heq, List.length_append, List.length_singleton] at hlen
      exact hlen
    · rwa [heq, List.map_append] at htrace
    · rw [hsave, outcome, ← heq, flatten_fragments]

/-- Ten bytes of a device descriptor, in a packet of eight and one of two. -/
theorem in_transfer_message_descriptor :
    ∃ toggle p', (inTransfer Script.platform 2 bmRCVTOG1 0#8 18#16 8#8).run
        (Script.sends [List.replicate 8 0x12#8, List.replicate 2 0x34#8] []) =
      .ok (⟨0x00#8, List.replicate 8 0x12#8 ++ List.replicate 2 0x34#8, toggle⟩, p') := by
  have hbytes : ∀ packet ∈ [List.replicate 8 0x12#8, List.replicate 2 0x34#8],
      packet.length < 2 ^ 8 := by decide
  have hfragments : fragments (8#8).toNat (18#16).toNat
      (List.replicate 8 0x12#8 ++ List.replicate 2 0x34#8) =
      [List.replicate 8 0x12#8, List.replicate 2 0x34#8] := by
    rw [fragments_more (by decide) (by decide) (by decide), fragments_last (by decide)]
    rfl
  refine (in_transfer_message (by decide) (by decide) (script_within hbytes (by decide) 0#8)
    (by decide)).mpr ?_
  rw [hfragments]
  exact ⟨by decide, _, script_trace hbytes 0#8 []⟩

end Message

/-! ## The end of the buffer -/

section Overrun

/-- A device that sends full packets only. -/
theorem overrun_of_not_dvd {nbytes : BitVec 16} {maxpktsize : Byte}
    (hn : nbytes.toNat + 2 ^ 8 ≤ 2 ^ 16) (hm : 0 < maxpktsize.toNat)
    (hdvd : ¬ maxpktsize.toNat ∣ nbytes.toNat) :
    ∃ n p result p', Within Script.platform n 1#8 maxpktsize.toNat
        (Script.platform.maxRegWr rHCTL bmRCVTOG0 p) ∧
      (inTransfer Script.platform n bmRCVTOG0 1#8 nbytes maxpktsize).run p = .ok (result, p') ∧
      nbytes.toNat < result.stored.length := by
  have hpacket : (List.replicate maxpktsize.toNat 0#8).length = maxpktsize.toNat :=
    List.length_replicate
  obtain ⟨hframed, hlong⟩ := framed_overrun hpacket hm hdvd
  generalize List.replicate maxpktsize.toNat 0#8 = packet at *
  have hpackets : ∀ p ∈ List.replicate (nbytes.toNat / maxpktsize.toNat) packet ++ [packet],
      p = packet := by
    intro p hp
    rcases List.mem_append.mp hp with hp | hp
    · exact List.eq_of_mem_replicate hp
    · exact List.mem_singleton.mp hp
  have hbyte : ∀ p ∈ List.replicate (nbytes.toNat / maxpktsize.toNat) packet ++ [packet],
      p.length < 2 ^ 8 := by
    intro p hp
    rw [hpackets p hp, hpacket]
    exact maxpktsize.isLt
  obtain ⟨toggle, p', hsave⟩ := saveToggle_returns Script.platform
    (outcome (List.replicate (nbytes.toNat / maxpktsize.toNat) packet) (.ok packet))
    ⟨[], 0#32, 0#32⟩
  refine ⟨nbytes.toNat / maxpktsize.toNat + 1,
    Script.sends (List.replicate (nbytes.toNat / maxpktsize.toNat) packet ++ [packet]) [],
    _, p', ?_, (in_transfer_iff hn).mpr ⟨_, .ok packet, _, ?_, ?_, hframed, hsave⟩, hlong⟩
  · refine script_within hbyte (fun p hp => ?_) 1#8
    rw [hpackets p hp, hpacket]
  · rw [List.length_replicate]
    exact Nat.lt_succ_self _
  · have htrace := script_trace (n := nbytes.toNat / maxpktsize.toNat) hbyte 1#8 []
    rwa [List.map_append] at htrace

/-- The bytes stored fit what is asked for, with every device that keeps to its packet
size, if and only if that size divides it. -/
theorem overrun_iff (nbytes : BitVec 16) (maxpktsize : Byte)
    (hn : nbytes.toNat + 2 ^ 8 ≤ 2 ^ 16) (hpos : 0 < nbytes.toNat) (hm : 0 < maxpktsize.toNat) :
    (∀ (P : Type) (io : Platform P) (n : Nat) (rcvToggle ep : Byte) (p p' : P) (result : InResult),
        Within io n ep maxpktsize.toNat (io.maxRegWr rHCTL rcvToggle p) →
        (inTransfer io n rcvToggle ep nbytes maxpktsize).run p = .ok (result, p') →
        result.stored.length ≤ nbytes.toNat) ↔
      maxpktsize.toNat ∣ nbytes.toNat := by
  constructor
  · intro h
    by_contra hdvd
    obtain ⟨n, p, result, p', hwithin, hrun, hlong⟩ := overrun_of_not_dvd hn hm hdvd
    exact absurd (h Script Script.platform n _ _ p p' result hwithin hrun) (Nat.not_le.mpr hlong)
  · intro hdvd P io n rcvToggle ep p p' result hwithin hrun
    exact stored_le hn hpos hdvd hwithin hrun

/-- Reports of eight bytes are safe with packets of eight bytes and not with packets of
five. -/
theorem overrun_iff_report :
    (∀ (P : Type) (io : Platform P) (n : Nat) (rcvToggle ep : Byte) (p p' : P) (result : InResult),
      Within io n ep 8 (io.maxRegWr rHCTL rcvToggle p) →
      (inTransfer io n rcvToggle ep 8#16 8#8).run p = .ok (result, p') →
      result.stored.length ≤ 8) ∧
    ¬ ∀ (P : Type) (io : Platform P) (n : Nat) (rcvToggle ep : Byte) (p p' : P) (result : InResult),
      Within io n ep 5 (io.maxRegWr rHCTL rcvToggle p) →
      (inTransfer io n rcvToggle ep 8#16 5#8).run p = .ok (result, p') →
      result.stored.length ≤ 8 := by
  constructor
  · exact (overrun_iff 8#16 8#8 (by decide) (by decide) (by decide)).mpr (by decide)
  · exact mt (overrun_iff 8#16 5#8 (by decide) (by decide) (by decide)).mp (by decide)

end Overrun

end SocChess.Usb
