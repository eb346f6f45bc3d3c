import SocChess.UsbProbe

/-!
# The task, the interrupt handler and `main`

`usbTask` is one call of `USB_Task`, which takes a device from attachment to
`USB_STATE_RUNNING`; `max3421eTask` is the poll of the interrupt pin with the handler
behind it. `mainIteration` is the body of the loop of `main`, with the polls of the
device and what is written to the GPIO.
-/

namespace SocChess.Usb

open Program

/-! ## States -/

def usbStateMask : Byte := 0xf0#8
def usbStateDetached : Byte := 0x00#8
def usbDetachedInitialize : Byte := 0x01#8
def usbDetachedWaitForDevice : Byte := 0x03#8
def usbDetachedIllegal : Byte := 0x04#8
def usbStateAttached : Byte := 0x10#8
def usbAttachedSettle : Byte := 0x11#8
def usbAttachedResetDevice : Byte := 0x12#8
def usbAttachedWaitResetComplete : Byte := 0x13#8
def usbAttachedWaitSof : Byte := 0x14#8
def usbAttachedGetDeviceDescriptorSize : Byte := 0x15#8
def usbStateAddressing : Byte := 0x20#8
def usbStateConfiguring : Byte := 0x30#8

def bmBUSRST : Byte := 0x01#8
def bmSAMPLEBUS : Byte := 0x04#8
def bmLOWSPEED : Byte := 0x02#8
def bmSOFKAENAB : Byte := 0x08#8
def bmJSTATUS : Byte := 0x80#8
def bmKSTATUS : Byte := 0x40#8
def bmSE1 : Byte := 0xc0#8
def bmOSCOKIRQ : Byte := 0x01#8
def bmCHIPRES : Byte := 0x20#8
def bmGPOUT0 : Byte := 0x01#8
def bmCONDETIE : Byte := 0x20#8

/-- `bmDPPULLDN|bmDMPULLDN|bmHOST|bmSOFKAENAB` -/
def modeFsHost : Byte := 0xc9#8

/-- `MODE_FS_HOST` with `bmLOWSPEED`. -/
def modeLsHost : Byte := 0xcb#8

section Task

variable {P : Type} (io : Platform P) (n : Nat)

/-- An error of the task. -/
def failWith (error : Byte) : Code P Unit := setHost fun h =>
  { h with
    usbError := error, lastUsbTaskState := h.usbTaskState, usbTaskState := usbStateError }

/-- `USB_init` -/
def usbInit : Code P Unit := update fun f =>
  { f with
    host := { f.host with
      devtable := (Vector.replicate 9 ⟨none, 0#8⟩).setIfInBounds 0 ⟨some .dev0ep, 0#8⟩ }
    endpoints := { f.endpoints with
      dev0ep := { f.endpoints.dev0ep with
        maxPktSize := 0#16, sndToggle := bmSNDTOG0, rcvToggle := bmRCVTOG0 } } }

/-! ## `USB_Task` -/

def detachedTask (state : Byte) : Code P Unit :=
  if state = usbDetachedInitialize then do
    usbInit
    setState usbDetachedWaitForDevice
  else if state = usbDetachedWaitForDevice then
    onChip (update (io.maxRegWr rHCTL bmSAMPLEBUS))
  else pure ()

/-- `ConvUTF8ToStr` on the 254 bytes of `bString`; the string is only printed. -/
def convUTF8ToStr (length : Byte) : Code P Unit :=
  if length.toNat < 254 ∧ 2 * length.toNat < 254 + 2 then pure () else stop .overrun

/-- A string descriptor is read and printed, if the device has it. -/
def stringDescriptor (index : Byte) : Code P Unit :=
  whenever (index ≠ 0#8) do
    let strDesc ← onChip (act (io.garbage 256))
    let reply ← xferGetStrDescr io n 0#8 0#8 2#16 index 0x0409#16
    let strDesc ← storeIn strDesc reply.stored
    let reply ← xferGetStrDescr io n 0#8 0#8 ((strDesc.get 0).setWidth 16) index 0x0409#16
    let strDesc ← storeIn strDesc reply.stored
    convUTF8ToStr (((strDesc.get 0) >>> 1) - 1#8)

/-- `USB_ATTACHED_SUBSTATE_GET_DEVICE_DESCRIPTOR_SIZE`; `buf` is a `USB_DEVICE_DESCRIPTOR`. -/
def getDeviceDescriptor : Code P Unit := do
  let buf ← onChip (act (io.garbage 18))
  setEndpoint 0#8 0#8 fun e => { e with maxPktSize := 0x0008#16 }
  let reply ← xferGetDevDescr io n 0#8 0#8 8#16
  let buf ← storeIn buf reply.stored
  if reply.rcode = 0#8 then do
    setEndpoint 0#8 0#8 fun e => { e with maxPktSize := (buf.get 7).setWidth 16 }
    -- the result code of the full descriptor is not looked at
    let reply ← xferGetDevDescr io n 0#8 0#8 ((buf.get 0).setWidth 16)
    let buf ← storeIn buf reply.stored
    stringDescriptor io n (buf.get 14)
    stringDescriptor io n (buf.get 15)
    setState usbStateAddressing
  else failWith reply.rcode

def attachedTask (state : Byte) : Code P Unit :=
  if state = usbStateAttached then do
    let now ← onChip (act io.millis)
    setHost fun h => { h with usbDelay := now + 200#32, usbTaskState := usbAttachedSettle }
  else if state = usbAttachedSettle then do
    let now ← onChip (act io.millis)
    let usbDelay ← read fun f => f.host.usbDelay
    whenever (usbDelay < now) (setState usbAttachedResetDevice)
  else if state = usbAttachedResetDevice then do
    onChip (update (io.maxRegWr rHIRQ bmBUSEVENTIRQ))
    onChip (update (io.maxRegWr rHCTL bmBUSRST))
    setState usbAttachedWaitResetComplete
  else if state = usbAttachedWaitResetComplete then do
    let hctl ← onChip (act (io.maxRegRd rHCTL))
    whenever (hctl &&& bmBUSRST = 0#8) do
      let mode ← onChip (act (io.maxRegRd rMODE))
      onChip (update (io.maxRegWr rMODE (mode ||| bmSOFKAENAB)))
      setState usbAttachedWaitSof
  else if state = usbAttachedWaitSof then do
    let hirq ← onChip (act (io.maxRegRd rHIRQ))
    whenever (hirq ||| bmFRAMEIRQ ≠ 0#8) (setState usbAttachedGetDeviceDescriptorSize)
  else if state = usbAttachedGetDeviceDescriptorSize then getDeviceDescriptor io n
  else pure ()

/-- The first address from 1 to `USB_NUMDEVICES - 1` that is not taken. -/
def Host.freeAddr (h : Host) : Option Nat :=
  (List.range' 1 7).find? fun i => (h.epinfo i).isNone

/-- The loop of `USB_STATE_ADDRESSING`: a free address is taken and sent to the device. -/
def assignAddress : Code P Unit := do
  match ← read fun f => f.host.freeAddr with
  | some i => do
    let info ← read fun f => f.host.epinfo 0
    setRecord (BitVec.ofNat 8 i) fun r => { r with epinfo := info }
    let reply ← xferSetAddr io n 0#8 0#8 (BitVec.ofNat 8 i)
    if reply.rcode = 0#8 then
      setHost fun h => { h with tmpAddr := BitVec.ofNat 8 i, usbTaskState := usbStateConfiguring }
    else failWith reply.rcode
  | none => pure ()

def addressingTask : Code P Unit := do
  assignAddress io n
  let state ← read fun f => f.host.usbTaskState
  whenever (state = usbStateAddressing) (failWith 0xfe#8)

/-- The loop of `USB_STATE_CONFIGURING`: the probes are run until one returns `TRUE`. -/
def runProbes (addr : Byte) : List (Byte → Code P Bool) → Code P Bool
  | [] => return false
  | probe :: probes => do
    if ← probe addr then return true else runProbes addr probes

/-- `ClientDriverTable` -/
def clientDriverTable : List (Byte → Code P Bool) :=
  [msdProbe, hidMProbe io n, hidKProbe io n, dummyProbe]

def configuringTask : Code P Unit := do
  let addr ← read fun f => f.host.tmpAddr
  let found ← runProbes addr (clientDriverTable io n)
  whenever found (setState usbStateRunning)
  let state ← read fun f => f.host.usbTaskState
  whenever (state = usbStateConfiguring) (failWith 0xfd#8)

/-- `USB_Task`. The case of `USB_STATE_ERROR` does nothing, and is not reached: the masked
state is `0xf0` then. -/
def usbTask : Code P Unit := do
  let state ← read fun f => f.host.usbTaskState
  if state &&& usbStateMask = usbStateDetached then detachedTask io state
  else if state &&& usbStateMask = usbStateAttached then attachedTask io n state
  else if state &&& usbStateMask = usbStateAddressing then addressingTask io n
  else if state &&& usbStateMask = usbStateConfiguring then configuringTask io n
  else pure ()

/-! ## The interrupt handler -/

/-- A device is on the bus: the host mode is set for its speed. -/
def attach (fullSpeed lowSpeed : Byte) : Code P Unit := do
  let state ← read fun f => f.host.usbTaskState
  whenever (state ≠ usbAttachedWaitResetComplete) do
    let mode ← onChip (act (io.maxRegRd rMODE))
    onChip (update (io.maxRegWr rMODE (if mode &&& bmLOWSPEED = 0#8 then fullSpeed else lowSpeed)))
    setState usbStateAttached

/-- `MAX_busprobe` -/
def maxBusprobe : Code P Unit := do
  let hrsl ← onChip (act (io.maxRegRd rHRSL))
  let busSample := hrsl &&& (bmJSTATUS ||| bmKSTATUS)
  if busSample = bmJSTATUS then attach io modeFsHost modeLsHost
  else if busSample = bmKSTATUS then attach io modeLsHost modeFsHost
  else if busSample = bmSE1 then setState usbDetachedIllegal
  else do
    let state ← read fun f => f.host.usbTaskState
    if state &&& usbStateMask ≠ usbStateDetached then setState usbDetachedInitialize
    else do
      onChip (update (io.maxRegWr rMODE modeFsHost))
      setState usbDetachedWaitForDevice

/-- `MaxIntHandler` -/
def maxIntHandler : Code P Unit := do
  let hirq ← onChip (act (io.maxRegRd rHIRQ))
  whenever (hirq &&& bmCONDETIRQ ≠ 0#8) (maxBusprobe io)
  whenever (hirq &&& bmSNDBAVIRQ ≠ 0#8) (onChip (update (io.maxRegWr rSNDBC 0x00#8)))
  whenever (hirq &&& bmBUSEVENTIRQ ≠ 0#8)
    (setHost fun h => { h with usbTaskState := h.usbTaskState + 1#8 })
  -- the serviced interrupts are cleared
  onChip (update (io.maxRegWr rHIRQ (hirq &&& (bmFRAMEIRQ ||| bmCONDETIRQ ||| bmBUSEVENTIRQ))))

/-- `MAX3421E_Task` -/
def max3421eTask : Code P Unit := do
  let pin ← onChip (act io.interrupt)
  whenever (pin &&& 0x01#32 = 0#32) (maxIntHandler io)

/-! ## Initialisation -/

/-- `MAX3421E_reset` -/
def max3421eReset : Prog Stop P Unit := do
  update io.resetPin
  let _ ← act (io.maxRegRd rREVISION)
  update (io.maxRegWr rUSBCTL bmCHIPRES)
  update (io.maxRegWr rUSBCTL 0x00#8)
  loop .unfinished (fun _ => do
    let usbirq ← act (io.maxRegRd rUSBIRQ)
    if usbirq &&& bmOSCOKIRQ ≠ 0#8 then return .done () else return .again ()) n ()

/-- The wait for a second of the timer. -/
def awaitTick : Prog Stop P Unit := do
  let current ← act io.timer
  loop .unfinished (fun _ => do
    let now ← act io.timer
    if now - current < 100000000#32 then return .again () else return .done ()) n ()

/-- `Vbus_power` -/
def vbusPower (action : Bool) : Prog Stop P Unit := do
  let tmp ← act (io.maxRegRd rIOPINS1)
  update (io.maxRegWr rIOPINS1 (if action then tmp ||| bmGPOUT0 else tmp &&& ~~~bmGPOUT0))

/-- What `MAX3421E_init` does before it probes the bus. -/
def powerUp : Prog Stop P Unit := do
  update io.spiInit
  update (io.maxRegWr rPINCTL 0x1a#8)
  max3421eReset io n
  update io.timerStart
  awaitTick io n
  awaitTick io n
  awaitTick io n
  vbusPower io false
  vbusPower io true
  update (io.maxRegWr rMODE 0xd1#8)
  update (io.maxRegWr rHIEN bmCONDETIE)
  update (io.maxRegWr rHCTL bmSAMPLEBUS)

/-- `MAX3421E_init` -/
def max3421eInit : Code P Unit := do
  onChip (powerUp io n)
  maxBusprobe io
  onChip (update (io.maxRegWr rHIRQ bmCONDETIRQ))
  onChip (update (io.maxRegWr rCPUCTL 0x01#8))

/-! ## `main` -/

/-- The bytes of a report, stored in its buffer of eight bytes. -/
def storeMouse (buf : BootMouseReport) (stored : List Byte) : BootMouseReport where
  button := stored.getD 0 buf.button
  Xdispl := stored.getD 1 buf.Xdispl
  Ydispl := stored.getD 2 buf.Ydispl

def storeKbd (kbdbuf : BootKbdReport) (stored : List Byte) : BootKbdReport where
  keycode := Vector.ofFn fun i => stored.getD (i.val + 2) (kbdbuf.keycode.get i)

/-- `mousePoll` and `kbdPoll` up to the buffer: a report of eight bytes is asked for. -/
def pollReport : Code P Reply := do
  let addr ← read fun f => f.host.hidDevice.addr
  onChip (update (io.maxRegWr rPERADDR addr))
  let record ← endpoint addr 1#8
  let reply ← xferInTransfer io n addr 1#8 8#16 (record.maxPktSize.setWidth 8)
  if reply.stored.length ≤ 8 then return reply else stop .overrun

/-- `mousePoll` -/
def mousePoll : Code P Byte := do
  let reply ← pollReport io n
  setBridge fun b => { b with buf := storeMouse b.buf reply.stored }
  return reply.rcode

/-- `kbdPoll` -/
def kbdPoll : Code P Byte := do
  let reply ← pollReport io n
  setBridge fun b => { b with kbdbuf := storeKbd b.kbdbuf reply.stored }
  return reply.rcode

/-- The loop over the device table in `GetDriverandReport`; `devclasses` has four entries. -/
def reportDevices : List Nat → Byte → Code P Byte
  | [], device => return device
  | i :: is, device => do
    let record ← deref fun f => f.host.devtable[i]?
    if record.epinfo = none then reportDevices is device
    else if record.devclass.toNat < 4 then reportDevices is record.devclass
    else stop .pointer

/-- A request of one byte, which is printed. -/
def queryByte (request : Code P Reply) : Code P Unit := do
  let reply ← request
  if reply.stored.length ≤ 1 then pure () else stop .overrun

/-- `GetDriverandReport`; the address of its requests is fixed. -/
def getDriverandReport : Code P Byte := do
  let device ← reportDevices (List.range' 1 7) 0xff#8
  let interface ← read fun f => f.host.hidDevice.interface
  queryByte (xferGetIdle io n 1#8 0#8 interface 0#8)
  queryByte (xferGetProto io n 1#8 0#8 interface)
  return device

/-- The keyboard branch of the loop. -/
def keyboardBranch : Code P Unit := do
  let rcode ← kbdPoll io n
  if rcode = hrNAK then pure ()
  else if rcode ≠ 0#8 then pure ()
  else setBridge fun b => b.printHex (kbdWord b.kbdbuf) .one

/-- The mouse branch of the loop. -/
def mouseBranch : Code P Unit := do
  let rcode ← mousePoll io n
  if rcode = hrNAK then
    setBridge fun b => (b.printHex 0#32 .one).printHex 0#32 .two
  else if rcode ≠ 0#8 then
    setBridge fun b =>
      (b.printHex (Byte.promote b.buf.button <<< 16) .one).printHex (Byte.promote b.buf.button) .two
  else
    setBridge fun b => (b.printHex (mouseWord b.buf) .one).printHex (Byte.promote b.buf.button) .two

/-- The branch of `USB_STATE_RUNNING`. -/
def runningBranch : Code P Unit := do
  let b ← read Firmware.bridge
  if b.runningdebugflag = false then do
    setBridge fun b => { b with runningdebugflag := true }
    let device ← getDriverandReport io n
    setBridge fun b => { b with device := device }
  else if b.device = 1#8 then keyboardBranch io n
  else if b.device = 2#8 then mouseBranch io n
  else pure ()

/-- The branch of the other states: a device that was running is initialised again. -/
def idleBranch : Code P Unit := do
  let b ← read Firmware.bridge
  whenever (b.runningdebugflag = true) do
    setBridge fun b => { b with runningdebugflag := false }
    max3421eInit io n
    usbInit
  setBridge fun b => { b with errorflag := false }

/-- The body of the loop of `main`. -/
def mainIteration : Code P Unit := do
  max3421eTask io
  usbTask io n
  let state ← read fun f => f.host.usbTaskState
  if state = usbStateRunning then runningBranch io n
  else if state = usbStateError then setBridge fun b => { b with errorflag := true }
  else idleBranch io n

/-- `main`, with `k` iterations of its loop. -/
def main (k : Nat) : Code P Unit := do
  max3421eInit io n
  usbInit
  repeated (mainIteration io n) k

end Task

end SocChess.Usb
