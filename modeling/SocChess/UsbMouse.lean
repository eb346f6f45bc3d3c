import SocChess.UsbMain

/-!
# A mouse report on its way to the GPIO

From the packets of a mouse to the word that the hardware takes apart. The poll asks for
eight bytes, and the transfer goes on after a packet that fills its endpoint.

* `report_reaches`: a report of one packet moves the cursor if it does not fill the packet,
  or has eight bytes. Otherwise the device is asked for more, answers that it has nothing,
  and the cursor does not move.
-/

namespace SocChess.Usb

open Program Framing

section Run

variable {P : Type} {io : Platform P} {n : Nat} {f : Firmware P} {addr ep : Byte}
  {record : EpRecord}

/-! ## One poll -/

theorem run_onChip {α : Type} {x : Prog Stop P α} {a : α} {p : P}
    (h : x.run f.chip = .ok (a, p)) : (onChip x).run f = .ok (a, { f with chip := p }) :=
  focus_eq_ok_iff.mpr ⟨p, h, rfl⟩

theorem run_endpoint (h : f.endpoint? addr ep = some record) :
    (endpoint addr ep).run f = .ok (record, f) := by
  rw [endpoint, deref, run_read_bind, h]
  rfl

theorem run_setEndpoint (h : f.endpoint? addr ep = some record) (g : EpRecord → EpRecord) :
    ∃ e, (setEndpoint addr ep g).run f = .ok ((), { f with endpoints := e }) := by
  obtain ⟨info, hinfo, -⟩ := Option.bind_eq_some_iff.mp h
  have hderef : (deref fun f => f.host.epinfo addr.toNat : Code P EpInfo).run f =
      .ok (info, f) := by
    rw [deref, run_read_bind, hinfo]
    rfl
  refine ⟨f.endpoints.modify info ep g, ?_⟩
  rw [setEndpoint, bind_of_ok (run_endpoint h), bind_of_ok hderef]
  rfl

theorem run_xferInTransfer (h : f.endpoint? addr ep = some record) {nbytes : BitVec 16}
    {maxpktsize : Byte} {result : InResult} {p : P}
    (hrun : (inTransfer io n record.rcvToggle ep nbytes maxpktsize).run f.chip = .ok (result, p)) :
    ∃ f', (xferInTransfer io n addr ep nbytes maxpktsize).run f =
      .ok (⟨result.rcode, result.stored⟩, f') ∧ f'.bridge = f.bridge := by
  rw [xferInTransfer, bind_of_ok (run_endpoint h), bind_of_ok (run_onChip hrun)]
  cases result.rcvToggle with
  | some toggle =>
    have h' : ({ f with chip := p } : Firmware P).endpoint? addr ep = some record := h
    obtain ⟨e, hset⟩ := run_setEndpoint h' fun record => { record with rcvToggle := toggle }
    exact ⟨_, bind_of_ok hset, rfl⟩
  | none => exact ⟨_, rfl, rfl⟩

/-- The chip when the packets of a poll are asked for. -/
def asked (io : Platform P) (f : Firmware P) (record : EpRecord) : P :=
  io.maxRegWr rHCTL record.rcvToggle (io.maxRegWr rPERADDR f.host.hidDevice.addr f.chip)

/-- A poll of a report returns what full packets and a last result amount to. -/
theorem run_pollReport (h : f.endpoint? f.host.hidDevice.addr 1#8 = some record)
    {earlier : List (List Byte)} {r : Except Byte (List Byte)} {p : P} (hn : earlier.length < n)
    (htrace : Trace (receivePacket io n 1#8) (earlier.map .ok ++ [r]) (asked io f record) p)
    (hends : Ends 8 (record.maxPktSize.setWidth 8 : Byte).toNat earlier r)
    (hfits : (outcome earlier r).2.length ≤ 8) :
    ∃ f', (pollReport io n).run f = .ok (⟨(outcome earlier r).1, (outcome earlier r).2⟩, f') ∧
      f'.bridge = f.bridge := by
  obtain ⟨toggle, p', hsave⟩ := saveToggle_returns io (outcome earlier r) p
  have hrun : (inTransfer io n record.rcvToggle 1#8 8#16 (record.maxPktSize.setWidth 8)).run
      (io.maxRegWr rPERADDR f.host.hidDevice.addr f.chip) = .ok (_, p') :=
    (in_transfer_iff (by decide)).mpr ⟨earlier, r, p, hn, htrace, hends, hsave⟩
  obtain ⟨f', hxfer, hbridge⟩ := run_xferInTransfer
    (f := { f with chip := io.maxRegWr rPERADDR f.host.hidDevice.addr f.chip }) h hrun
  have hperaddr : (onChip (update (io.maxRegWr rPERADDR f.host.hidDevice.addr))).run f =
      .ok ((), { f with chip := io.maxRegWr rPERADDR f.host.hidDevice.addr f.chip }) := rfl
  have hrecord : (endpoint f.host.hidDevice.addr 1#8).run
      { f with chip := io.maxRegWr rPERADDR f.host.hidDevice.addr f.chip } =
      .ok (record, { f with chip := io.maxRegWr rPERADDR f.host.hidDevice.addr f.chip }) :=
    run_endpoint h
  refine ⟨f', ?_, hbridge⟩
  rw [pollReport, run_read_bind, bind_of_ok hperaddr, bind_of_ok hrecord, bind_of_ok hxfer]
  dsimp only
  rw [if_pos hfits, run_pure]

/-! ## One iteration -/

/-- A mouse is polled in the iteration, and no interrupt comes before. -/
structure Polls (io : Platform P) (f : Firmware P) (record : EpRecord) : Prop where
  pin : io.pending f.chip = none
  state : f.host.usbTaskState = usbStateRunning
  flag : f.bridge.runningdebugflag = true
  device : f.bridge.device = 2#8
  endpoint : f.endpoint? f.host.hidDevice.addr 1#8 = some record

theorem run_mainIteration (h : Polls io f record) :
    (mainIteration io n).run f = (mouseBranch io n).run (f.pinRead io) := by
  have hstate : (f.pinRead io).host.usbTaskState = usbStateRunning := h.state
  have husb : (usbTask io n).run (f.pinRead io) = .ok ((), f.pinRead io) := by
    rw [usbTask, run_read_bind, hstate, if_neg (by decide), if_neg (by decide), if_neg (by decide),
      if_neg (by decide), run_pure]
  have hflag : ¬ (f.pinRead io).bridge.runningdebugflag = false := by
    rw [show (f.pinRead io).bridge.runningdebugflag = true from h.flag]
    decide
  have hdevice : (f.pinRead io).bridge.device = 2#8 := h.device
  rw [mainIteration, bind_of_ok (run_max3421eTask h.pin), bind_of_ok husb, run_read_bind,
    if_pos hstate, runningBranch, run_read_bind, if_neg hflag, hdevice, if_neg (by decide),
    if_pos rfl]

/-- What a poll leaves in the variables of `main` and in the GPIO. -/
theorem run_mouseBranch {f' : Firmware P} {reply : Reply}
    (h : (pollReport io n).run f = .ok (reply, f')) (hbridge : f'.bridge = f.bridge) :
    ∃ f'', (mouseBranch io n).run f = .ok ((), f'') ∧
      f''.bridge = f.bridge.pollMouse ⟨usbStateRunning, 2#8, reply.rcode,
        storeMouse f.bridge.buf reply.stored, f.bridge.kbdbuf⟩ := by
  have hpoll : (mousePoll io n).run f = .ok (reply.rcode,
      { f' with bridge := { f'.bridge with buf := storeMouse f'.bridge.buf reply.stored } }) := by
    rw [mousePoll, bind_of_ok h]
    rfl
  rw [mouseBranch, bind_of_ok hpoll, hbridge]
  unfold Bridge.pollMouse
  split
  · exact ⟨_, rfl, rfl⟩
  · split
    · exact ⟨_, rfl, rfl⟩
    · exact ⟨_, rfl, rfl⟩

/-- The chip when a mouse that is polled is asked for its packets. -/
def askedPackets (io : Platform P) (f : Firmware P) (record : EpRecord) : P :=
  asked io (f.pinRead io) record

/-- An iteration that polls a mouse writes what full packets and a last result amount to. -/
theorem run_mouseIteration (h : Polls io f record) {earlier : List (List Byte)}
    {r : Except Byte (List Byte)} {p : P} (hn : earlier.length < n)
    (htrace : Trace (receivePacket io n 1#8) (earlier.map .ok ++ [r]) (askedPackets io f record) p)
    (hends : Ends 8 (record.maxPktSize.setWidth 8 : Byte).toNat earlier r)
    (hfits : (outcome earlier r).2.length ≤ 8) :
    ∃ f', (mainIteration io n).run f = .ok ((), f') ∧ f'.bridge = f.bridge.pollMouse
      ⟨usbStateRunning, 2#8, (outcome earlier r).1, storeMouse f.bridge.buf (outcome earlier r).2,
        f.bridge.kbdbuf⟩ := by
  have hendpoint : (f.pinRead io).endpoint? (f.pinRead io).host.hidDevice.addr 1#8 = some record :=
    h.endpoint
  obtain ⟨f₁, hpoll, hbridge⟩ := run_pollReport hendpoint hn htrace hends hfits
  rw [run_mainIteration h]
  exact run_mouseBranch hpoll hbridge

/-- A mouse that has one report to send, and nothing more, moves the cursor unless the
report has fewer than eight bytes and fills its packet. -/
theorem report_reaches (h : Polls io f record) (hn : 2 ≤ n) {button dx dy : Byte}
    {rest : List Byte} {p₁ p₂ : P} (hsize : (button :: dx :: dy :: rest).length ≤ 8)
    (hreport : (receivePacket io n 1#8).run (askedPackets io f record) =
      .ok (.ok (button :: dx :: dy :: rest), p₁))
    (hnothing : (receivePacket io n 1#8).run p₁ = .ok (.error hrNAK, p₂)) :
    ∃ f', (mainIteration io n).run f = .ok ((), f') ∧ f'.bridge.buf = ⟨button, dx, dy⟩ ∧
      (usbDeltaX f'.bridge.channel1, usbDeltaY f'.bridge.channel1, Click f'.bridge.channel1) =
        if (button :: dx :: dy :: rest).length < (record.maxPktSize.setWidth 8 : Byte).toNat ∨
          8 ≤ (button :: dx :: dy :: rest).length then (dx, dy, button) else (0#8, 0#8, 0#8) := by
  generalize hpacket : button :: dx :: dy :: rest = packet at *
  have hstored : storeMouse f.bridge.buf packet = ⟨button, dx, dy⟩ := by rw [← hpacket]; rfl
  split
  · next hlast =>
    have houtcome : outcome [] (.ok packet) = (0x00#8, packet) := by simp [outcome]
    have hpoll := run_mouseIteration (r := .ok packet) h (List.length_nil.trans_lt (by omega))
      (.cons hreport (.nil p₁)) (framed_nil.mpr hlast)
    rw [houtcome, hstored] at hpoll
    obtain ⟨f', hrun, hbridge⟩ := hpoll hsize
    refine ⟨f', hrun, by rw [hbridge, pollMouse_buf], ?_⟩
    have hword := pollMouse_channel1 f.bridge
      ⟨usbStateRunning, 2#8, 0x00#8, ⟨button, dx, dy⟩, f.bridge.kbdbuf⟩
    obtain ⟨hdx, hdy, hbutton⟩ := mouseWord_fields ⟨button, dx, dy⟩
    rw [hbridge, hword]
    exact Prod.ext hdx (Prod.ext hdy hbutton)
  · next hmore =>
    have houtcome : outcome [packet] (.error hrNAK) = (hrNAK, packet) := by simp [outcome]
    have hpending : Ends 8 (record.maxPktSize.setWidth 8 : Byte).toNat [packet] (.error hrNAK) :=
      pending_cons.mpr ⟨by omega, by omega, pending_nil⟩
    have hpoll := run_mouseIteration h (List.length_singleton.trans_lt (by omega))
      (.cons hreport (.cons hnothing (.nil p₂))) hpending
    rw [houtcome, hstored] at hpoll
    obtain ⟨f', hrun, hbridge⟩ := hpoll hsize
    refine ⟨f', hrun, by rw [hbridge, pollMouse_buf], ?_⟩
    have hword := pollMouse_channel1 f.bridge
      ⟨usbStateRunning, 2#8, hrNAK, ⟨button, dx, dy⟩, f.bridge.kbdbuf⟩
    rw [if_pos rfl] at hword
    rw [hbridge, hword]
    decide

end Run

/-! ## Reports of four bytes -/

/-- The chip sends the packet, and then a NAK for every attempt that a dispatch makes. -/
def Script.reports (packet : List Byte) : Script :=
  ⟨packetBytes packet ++ (List.replicate 200 [0x80#8, 0x04#8]).flatten, 0#32, 0#32⟩

theorem script_naks (n k : Nat) (token ep : Byte) :
    Trace (attempt Script.platform (n + 1) usbXferTimeout token ep) (List.replicate k hrNAK)
      ⟨(List.replicate k [0x80#8, 0x04#8]).flatten, 0#32, 0#32⟩ ⟨[], 0#32, 0#32⟩ := by
  induction k with
  | zero => exact .nil _
  | succ k ih =>
    rw [List.replicate_succ, List.replicate_succ, List.flatten_cons]
    exact .cons (script_attempt token ep 0x04#8 _) ih

/-- A device with nothing to send. -/
theorem script_nothing (ep : Byte) :
    (receivePacket Script.platform 201 ep).run
      ⟨(List.replicate 200 [0x80#8, 0x04#8]).flatten, 0#32, 0#32⟩ =
      .ok (.error hrNAK, ⟨[], 0#32, 0#32⟩) := by
  have hverdict : Retries.Verdict ⟨0, 0⟩ (List.replicate 199 hrNAK) hrNAK := by
    refine ⟨fun code hcode => .inl (List.eq_of_mem_replicate hcode), ?_, ?_, ?_, ?_⟩
    · rw [List.count_replicate_self]
      decide
    · rw [List.count_replicate, if_neg (by decide)]
      decide
    · intro _
      rw [List.count_replicate_self]
      rfl
    · exact fun h => absurd h hrNAK_ne_hrTIMEOUT
  have hdispatch : (xferDispatchPkt Script.platform 201 tokIN ep).run
      ⟨(List.replicate 200 [0x80#8, 0x04#8]).flatten, 0#32, 0#32⟩ =
      .ok (hrNAK, ⟨[], 0#32, 0#32⟩) := by
    have hstart : 0#32 + usbXferTimeout = usbXferTimeout := BitVec.zero_add _
    rw [xferDispatchPkt, run_act_bind, script_millis, hstart, loop_judged_iff]
    refine ⟨List.replicate 199 hrNAK ++ [hrNAK], hrNAK, _, ?_, ?_, settle_of_verdict hverdict, rfl⟩
    · rw [List.length_append, List.length_replicate]
      decide
    · have htrace := script_naks 200 200 tokIN ep
      rwa [List.replicate_succ'] at htrace
  rw [receivePacket, bind_of_ok hdispatch, if_pos (by decide), run_pure]

/-- A mouse at address 1 that runs, with packets of a size. -/
def polling (maxPktSize : BitVec 16) (packet : List Byte) : Firmware Script where
  host := { Host.start with
    usbTaskState := usbStateRunning
    devtable := (Vector.replicate 9 ⟨none, 0#8⟩).setIfInBounds 1 ⟨some .hidEp, hidM⟩
    hidDevice := ⟨1#8, 0#8⟩ }
  endpoints := ⟨.zero, .zero, { EpRecord.zero with maxPktSize := maxPktSize }⟩
  bigbuf := Vector.replicate 256 0#8
  bridge := { Bridge.start 2#8 ⟨0#8, 0#8, 0#8⟩ ⟨Vector.replicate 6 0#8⟩ with
    runningdebugflag := true }
  chip := Script.reports packet

theorem polls_polling (maxPktSize : BitVec 16) (packet : List Byte) :
    Polls Script.platform (polling maxPktSize packet)
      { EpRecord.zero with maxPktSize := maxPktSize } where
  pin := if_neg (show ¬ 1#32 &&& 0x01#32 = 0#32 by decide)
  state := rfl
  flag := rfl
  device := rfl
  endpoint := rfl

theorem asked_polling (maxPktSize : BitVec 16) (packet : List Byte) :
    askedPackets Script.platform (polling maxPktSize packet)
      { EpRecord.zero with maxPktSize := maxPktSize } = Script.reports packet := by
  unfold askedPackets asked
  rw [script_maxRegWr, script_maxRegWr]
  rfl

/-- A report of four bytes moves the cursor with packets of eight bytes, and does not with
packets of four. -/
theorem report_reaches_four :
    (∃ f', (mainIteration Script.platform 201).run (polling 8#16 [1#8, 2#8, 3#8, 4#8]) =
        .ok ((), f') ∧ f'.bridge.buf = ⟨1#8, 2#8, 3#8⟩ ∧
      (usbDeltaX f'.bridge.channel1, usbDeltaY f'.bridge.channel1, Click f'.bridge.channel1) =
        (2#8, 3#8, 1#8)) ∧
    ∃ f', (mainIteration Script.platform 201).run (polling 4#16 [1#8, 2#8, 3#8, 4#8]) =
        .ok ((), f') ∧ f'.bridge.buf = ⟨1#8, 2#8, 3#8⟩ ∧
      (usbDeltaX f'.bridge.channel1, usbDeltaY f'.bridge.channel1, Click f'.bridge.channel1) =
        (0#8, 0#8, 0#8) := by
  have hbytes : [1#8, 2#8, 3#8, 4#8].length < 2 ^ 8 := by decide
  have hreport : ∀ maxPktSize, (receivePacket Script.platform 201 1#8).run
      (askedPackets Script.platform (polling maxPktSize [1#8, 2#8, 3#8, 4#8])
        { EpRecord.zero with maxPktSize := maxPktSize }) =
      .ok (.ok [1#8, 2#8, 3#8, 4#8],
        ⟨(List.replicate 200 [0x80#8, 0x04#8]).flatten, 0#32, 0#32⟩) := by
    intro maxPktSize
    rw [asked_polling]
    exact script_receive hbytes 1#8 _
  constructor
  · have hshort := report_reaches (polls_polling 8#16 _) (by decide) (by decide) (hreport 8#16)
      (script_nothing 1#8)
    rwa [if_pos (by decide)] at hshort
  · have hfull := report_reaches (polls_polling 4#16 _) (by decide) (by decide) (hreport 4#16)
      (script_nothing 1#8)
    rwa [if_neg (by decide)] at hfull

end SocChess.Usb
