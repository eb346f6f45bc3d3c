import SocChess.UsbTransfer

/-!
# The host software: `transfer.c`, `HID.c` and `MAX3421E.c`

The firmware's variables and everything that works on them: control transfers, the
probes for a boot mouse and a boot keyboard, the task that takes a device from
attachment to `USB_STATE_RUNNING`, and the interrupt handler that starts it.

A `Code` runs on the whole state, and stops with `Stop.pointer` where the C code would
follow a `NULL` pointer or leave a table, with `Stop.overrun` where it would leave a
buffer. The passes of each loop are bounded by `n`.
-/

namespace SocChess.Usb

open Program

/-! ## Variables -/

/-- `EP_RECORD` -/
structure EpRecord where
  epAddr : Byte
  attr : Byte
  maxPktSize : BitVec 16
  interval : Byte
  sndToggle : Byte
  rcvToggle : Byte
deriving DecidableEq, Repr

/-- What a pointer `epinfo` points to. -/
inductive EpInfo
  | dev0ep
  | hidEp
deriving DecidableEq, Repr

/-- `DEV_RECORD`; `NULL` is `none`. -/
structure DevRecord where
  epinfo : Option EpInfo
  devclass : Byte
deriving DecidableEq, Repr

/-- `HID_DEVICE` -/
structure HidDevice where
  addr : Byte
  interface : Byte
deriving DecidableEq, Repr

/-- The endpoint records: `dev0ep`, and `hid_ep[0]` and `hid_ep[1]`. -/
structure Endpoints where
  dev0ep : EpRecord
  hidEp0 : EpRecord
  hidEp1 : EpRecord
deriving DecidableEq, Repr

/-- The other variables of the task and the class drivers. -/
structure Host where
  usbTaskState : Byte
  usbError : Byte
  lastUsbTaskState : Byte
  usbDelay : Word
  tmpAddr : Byte
  devtable : Vector DevRecord 9
  hidDevice : HidDevice
deriving DecidableEq, Repr

/-- The state of the firmware, with the variables of `main` and the GPIO in `bridge`. -/
structure Firmware (P : Type) where
  host : Host
  endpoints : Endpoints
  bigbuf : Vector Byte 256
  bridge : Bridge
  chip : P

abbrev Code (P α : Type) := Prog Stop (Firmware P) α

def EpRecord.zero : EpRecord := ⟨0#8, 0#8, 0#16, 0#8, 0#8, 0#8⟩

/-- The variables before `main`. -/
def Host.start : Host where
  usbTaskState := 0x01#8
  usbError := 0#8
  lastUsbTaskState := 0#8
  usbDelay := 0#32
  tmpAddr := 0#8
  devtable := Vector.replicate 9 ⟨none, 0#8⟩
  hidDevice := ⟨0#8, 0#8⟩

/-- The firmware before `main`, with the contents of the local variables that `main` does
not initialise. -/
def Firmware.start {P : Type} (device : Byte) (buf : BootMouseReport) (kbdbuf : BootKbdReport)
    (p : P) : Firmware P where
  host := Host.start
  endpoints := ⟨.zero, .zero, .zero⟩
  bigbuf := Vector.replicate 256 0#8
  bridge := Bridge.start device buf kbdbuf
  chip := p

/-- The record `epinfo[ep]`. -/
def Endpoints.get? (e : Endpoints) : EpInfo → Byte → Option EpRecord
  | .dev0ep, ep => if ep = 0#8 then some e.dev0ep else none
  | .hidEp, ep =>
    if ep = 0#8 then some e.hidEp0
    else if ep = 1#8 then some e.hidEp1
    else none

def Endpoints.modify (e : Endpoints) (info : EpInfo) (ep : Byte) (g : EpRecord → EpRecord) :
    Endpoints :=
  match info with
  | .dev0ep => { e with dev0ep := g e.dev0ep }
  | .hidEp =>
    if ep = 0#8 then { e with hidEp0 := g e.hidEp0 } else { e with hidEp1 := g e.hidEp1 }

/-- `devtable[addr]` -/
def Host.record (h : Host) (addr : Nat) : DevRecord := h.devtable[addr]?.getD ⟨none, 0#8⟩

/-- `devtable[addr].epinfo` -/
def Host.epinfo (h : Host) (addr : Nat) : Option EpInfo := (h.record addr).epinfo

def Host.setRecord (h : Host) (addr : Nat) (g : DevRecord → DevRecord) : Host :=
  { h with devtable := h.devtable.setIfInBounds addr (g (h.record addr)) }

/-- `devtable[addr].epinfo[ep]` -/
def Firmware.endpoint? {P : Type} (f : Firmware P) (addr ep : Byte) : Option EpRecord :=
  (f.host.epinfo addr.toNat).bind fun info => f.endpoints.get? info ep

section Access

variable {P : Type}

def onChip {α : Type} (x : Prog Stop P α) : Code P α :=
  focus Firmware.chip (fun p f => { f with chip := p }) x

def setHost (g : Host → Host) : Code P Unit := update fun f => { f with host := g f.host }

def setBridge (g : Bridge → Bridge) : Code P Unit :=
  update fun f => { f with bridge := g f.bridge }

def setState (state : Byte) : Code P Unit := setHost fun h => { h with usbTaskState := state }

/-- What a pointer or an index leads to. -/
def deref {α : Type} (g : Firmware P → Option α) : Code P α := do
  match ← read g with
  | some a => pure a
  | none => stop .pointer

def endpoint (addr ep : Byte) : Code P EpRecord := deref fun f => f.endpoint? addr ep

/-- An assignment to fields of `devtable[addr].epinfo[ep]`. -/
def setEndpoint (addr ep : Byte) (g : EpRecord → EpRecord) : Code P Unit := do
  let _ ← endpoint addr ep
  let info ← deref fun f => f.host.epinfo addr.toNat
  update fun f => { f with endpoints := f.endpoints.modify info ep g }

/-- An assignment to fields of `devtable[addr]`. -/
def setRecord (addr : Byte) (g : DevRecord → DevRecord) : Code P Unit := do
  let _ ← deref fun f => f.host.devtable[addr.toNat]?
  setHost fun h => h.setRecord addr.toNat g

/-- The buffer after bytes are stored from its start on. -/
def overlay {size : Nat} (buf : Vector Byte size) (stored : List Byte) : Vector Byte size :=
  Vector.ofFn fun i => stored.getD i (buf.get i)

def storeIn {size : Nat} (buf : Vector Byte size) (stored : List Byte) :
    Code P (Vector Byte size) :=
  if stored.length ≤ size then pure (overlay buf stored) else stop .overrun

def storeBigbuf (stored : List Byte) : Code P Unit := do
  let buf ← read Firmware.bigbuf
  let buf ← storeIn buf stored
  update fun f => { f with bigbuf := buf }

/-- `bigbuf[i]` -/
def bigbufAt (i : Nat) : Code P Byte := do
  match ← read fun f => f.bigbuf[i]? with
  | some b => pure b
  | none => stop .overrun

/-- A 16-bit field of `bigbuf`, its low byte first. -/
def bigbufWord (i : Nat) : Code P (BitVec 16) := do
  let low ← bigbufAt i
  let high ← bigbufAt (i + 1)
  return high ++ low

end Access

/-- The body of an `if` without an `else`. -/
def whenever {ε σ : Type} (c : Prop) [Decidable c] (x : Prog ε σ Unit) : Prog ε σ Unit :=
  if c then x else pure ()

section Rules

variable {P α : Type} {E : Stop → Prop} {f : Firmware P}

@[simp] theorem wp_onChip {x : Prog Stop P α} {Q : α → Firmware P → Prop} :
    wp E (onChip x) Q f ↔ wp E x (fun a p => Q a { f with chip := p }) f.chip :=
  wp_focus _ _

@[simp] theorem wp_deref {g : Firmware P → Option α} {Q : α → Firmware P → Prop} :
    wp E (deref g) Q f ↔ (∀ a, g f = some a → Q a f) ∧ (g f = none → E .pointer) := by
  rw [deref, wp_bind, wp_read]
  cases g f with
  | some a => simp
  | none => simp

@[simp] theorem wp_setHost {g : Host → Host} {Q : Unit → Firmware P → Prop} :
    wp E (setHost g) Q f ↔ Q () { f with host := g f.host } := Iff.rfl

@[simp] theorem wp_setBridge {g : Bridge → Bridge} {Q : Unit → Firmware P → Prop} :
    wp E (setBridge g) Q f ↔ Q () { f with bridge := g f.bridge } := Iff.rfl

@[simp] theorem wp_setState {state : Byte} {Q : Unit → Firmware P → Prop} :
    wp E (setState state) Q f ↔ Q () { f with host := { f.host with usbTaskState := state } } :=
  Iff.rfl

@[simp] theorem wp_whenever {σ : Type} {c : Prop} [Decidable c] {x : Prog Stop σ Unit}
    {Q : Unit → σ → Prop} {s : σ} :
    wp E (whenever c x) Q s ↔ (c → wp E x Q s) ∧ (¬ c → Q () s) := by
  unfold whenever
  by_cases hc : c <;> simp [hc]

end Rules

/-! ## Control transfers -/

/-- `SETUP_PKT` -/
structure SetupPkt where
  bmRequestType : Byte
  bRequest : Byte
  wValueLo : Byte
  wValueHi : Byte
  wIndex : BitVec 16
  wLength : BitVec 16
deriving DecidableEq, Repr

/-- Its bytes in memory. -/
def SetupPkt.bytes (pkt : SetupPkt) : List Byte :=
  [pkt.bmRequestType, pkt.bRequest, pkt.wValueLo, pkt.wValueHi,
    pkt.wIndex.setWidth 8, (pkt.wIndex >>> 8).setWidth 8,
    pkt.wLength.setWidth 8, (pkt.wLength >>> 8).setWidth 8]

/-- A result code, and the bytes stored from `dataptr` on. -/
structure Reply where
  rcode : Byte
  stored : List Byte
deriving DecidableEq, Repr

section Control

variable {P : Type} (io : Platform P) (n : Nat)

/-- `XferInTransfer` -/
def xferInTransfer (addr ep : Byte) (nbytes : BitVec 16) (maxpktsize : Byte) : Code P Reply := do
  let record ← endpoint addr ep
  let result ← onChip (inTransfer io n record.rcvToggle ep nbytes maxpktsize)
  match result.rcvToggle with
  | some toggle => do
    setEndpoint addr ep fun record => { record with rcvToggle := toggle }
    return ⟨result.rcode, result.stored⟩
  | none => return ⟨result.rcode, result.stored⟩

/-- `XferCtrlData` -/
def xferCtrlData (addr ep : Byte) (nbytes : BitVec 16) (direction : Bool) : Code P Reply :=
  if direction then do
    setEndpoint addr ep fun record => { record with rcvToggle := bmRCVTOG1 }
    let record ← endpoint addr ep
    let reply ← xferInTransfer io n addr ep nbytes (record.maxPktSize.setWidth 8)
    if reply.rcode ≠ 0#8 then return reply
    else do
      let rcode ← onChip (xferDispatchPkt io n tokOUTHS ep)
      return { reply with rcode := rcode }
  else return ⟨0xff#8, []⟩

/-- `XferCtrlND` -/
def xferCtrlND (ep : Byte) (direction : Bool) : Code P Reply := do
  let rcode ← onChip (xferDispatchPkt io n (if direction then tokOUTHS else tokINHS) ep)
  return ⟨rcode, []⟩

/-- `XferCtrlReq`; `datastage` says that `dataptr` is not `NULL`. -/
def xferCtrlReq (addr ep : Byte) (pkt : SetupPkt) (datastage : Bool) : Code P Reply := do
  onChip (update (io.maxRegWr rPERADDR addr))
  onChip (update (io.maxBytesWr rSUDFIFO pkt.bytes))
  let rcode ← onChip (xferDispatchPkt io n tokSETUP ep)
  let direction : Bool := pkt.bmRequestType &&& 0x80#8 ≠ 0#8
  if rcode ≠ 0#8 then return ⟨rcode, []⟩
  else if datastage then xferCtrlData io n addr ep pkt.wLength direction
  else xferCtrlND io n ep direction

def xferSetAddr (oldaddr ep newaddr : Byte) : Code P Reply :=
  xferCtrlReq io n oldaddr ep ⟨0x00#8, 5#8, newaddr, 0#8, 0#16, 0#16⟩ false

def xferSetConf (addr ep confValue : Byte) : Code P Reply :=
  xferCtrlReq io n addr ep ⟨0x00#8, 9#8, confValue, 0#8, 0#16, 0#16⟩ false

def xferGetDevDescr (addr ep : Byte) (nbytes : BitVec 16) : Code P Reply :=
  xferCtrlReq io n addr ep ⟨0x80#8, 6#8, 0#8, 1#8, 0#16, nbytes⟩ true

def xferGetConfDescr (addr ep : Byte) (nbytes : BitVec 16) (conf : Byte) : Code P Reply :=
  xferCtrlReq io n addr ep ⟨0x80#8, 6#8, conf, 2#8, 0#16, nbytes⟩ true

def xferGetStrDescr (addr ep : Byte) (nbytes : BitVec 16) (index : Byte) (langid : BitVec 16) :
    Code P Reply :=
  xferCtrlReq io n addr ep ⟨0x80#8, 6#8, index, 3#8, langid, nbytes⟩ true

def xferSetProto (addr ep interface protocol : Byte) : Code P Reply :=
  xferCtrlReq io n addr ep ⟨0x21#8, 0x0b#8, protocol, 0#8, interface.setWidth 16, 0#16⟩ false

def xferGetProto (addr ep interface : Byte) : Code P Reply :=
  xferCtrlReq io n addr ep ⟨0xa1#8, 0x03#8, 0#8, 0#8, interface.setWidth 16, 1#16⟩ true

def xferGetIdle (addr ep interface reportID : Byte) : Code P Reply :=
  xferCtrlReq io n addr ep ⟨0xa1#8, 0x02#8, reportID, 0#8, interface.setWidth 16, 1#16⟩ true

end Control

end SocChess.Usb
