import Mathlib.Data.BitVec
import SocChess.Lib.Clocked

/-!
# The USB bridge: `usb_mouse_bridge.c` and the slices of its output

The firmware runs one loop. An iteration lets the USB stack work, and then looks
at the task state and the device class; most of its exits end with `continue` or
fall through. The USB stack is an input here: `Iteration` is what it does in one
iteration.

* `Bridge.iterate` is the loop body, with the words it writes to the two channels
  of the GPIO peripheral.
* `mouseWord` packs a mouse report into a word, and `usbDeltaX`, `usbDeltaY` and
  `Click` are the slices the top level takes of that word. `mouseWord_fields`: no
  field disturbs another.
* `iterate_polls_mouse`, `iterate_polls_keyboard` and `iterate_idle` say once what
  each exit of the loop does to the channel.
-/

namespace SocChess

abbrev Byte := BitVec 8

/-- `u32`, a GPIO word. -/
abbrev Word := BitVec 32

/-! ## Reports and their packing -/

/-- The bytes of `BOOT_MOUSE_REPORT` that the loop reads. -/
structure BootMouseReport where
  button : Byte
  Xdispl : Byte
  Ydispl : Byte
deriving DecidableEq, Repr

/-- The bytes of `BOOT_KBD_REPORT` that the loop reads. -/
structure BootKbdReport where
  keycode : Vector Byte 6
deriving DecidableEq, Repr

/-- The promotion of a byte to a 32-bit integer. -/
def Byte.promote (b : Byte) : Word := b.setWidth 32

/-- The word a mouse report is written as. -/
def mouseWord (buf : BootMouseReport) : Word :=
  Byte.promote buf.Xdispl + (Byte.promote buf.Ydispl <<< 8) + (Byte.promote buf.button <<< 16)

/-- The word a keyboard report is written as. -/
def kbdWord (kbdbuf : BootKbdReport) : Word :=
  Byte.promote (kbdbuf.keycode.get 0) + (Byte.promote (kbdbuf.keycode.get 1) <<< 8) +
    (Byte.promote (kbdbuf.keycode.get 2) <<< 16) + (Byte.promote (kbdbuf.keycode.get 3) <<< 24)

/-- `usb_keycode_channel0[7:0]`. -/
def usbDeltaX (channel0 : Word) : Byte := channel0.extractLsb' 0 8

/-- `usb_keycode_channel0[15:8]`. -/
def usbDeltaY (channel0 : Word) : Byte := channel0.extractLsb' 8 8

/-- `usb_keycode_channel0[23:16]`. -/
def Click (channel0 : Word) : Byte := channel0.extractLsb' 16 8

section Packing

theorem toNat_promote (b : Byte) : (Byte.promote b).toNat = b.toNat := by
  have hb := b.isLt
  rw [Byte.promote, BitVec.toNat_setWidth]
  omega

theorem toNat_promote_shift (b : Byte) {n : Nat} (hn : n ≤ 24) :
    (Byte.promote b <<< n).toNat = b.toNat * 2 ^ n := by
  have hlt : b.toNat * 2 ^ n < 2 ^ 32 := by
    calc b.toNat * 2 ^ n < 2 ^ 8 * 2 ^ n := Nat.mul_lt_mul_of_pos_right b.isLt (Nat.two_pow_pos n)
      _ ≤ 2 ^ 8 * 2 ^ 24 := Nat.mul_le_mul_left _ (Nat.pow_le_pow_right (by decide) hn)
  rw [BitVec.toNat_shiftLeft, toNat_promote, Nat.shiftLeft_eq, Nat.mod_eq_of_lt hlt]

theorem toNat_fourBytes (b₀ b₁ b₂ b₃ : Byte) :
    (Byte.promote b₀ + (Byte.promote b₁ <<< 8) + (Byte.promote b₂ <<< 16) +
      (Byte.promote b₃ <<< 24)).toNat =
      b₀.toNat + b₁.toNat * 2 ^ 8 + b₂.toNat * 2 ^ 16 + b₃.toNat * 2 ^ 24 := by
  have h₀ := b₀.isLt
  have h₁ := b₁.isLt
  have h₂ := b₂.isLt
  have h₃ := b₃.isLt
  simp only [BitVec.toNat_add, toNat_promote, toNat_promote_shift, Nat.le_refl, Nat.reduceLeDiff]
  omega

/-- The slices of a packed word are the bytes packed into it. -/
theorem fourBytes_fields (b₀ b₁ b₂ b₃ : Byte) :
    let w := Byte.promote b₀ + (Byte.promote b₁ <<< 8) + (Byte.promote b₂ <<< 16) +
      (Byte.promote b₃ <<< 24)
    usbDeltaX w = b₀ ∧ usbDeltaY w = b₁ ∧ Click w = b₂ := by
  intro w
  have hw : w.toNat = _ := toNat_fourBytes b₀ b₁ b₂ b₃
  have h₀ := b₀.isLt
  have h₁ := b₁.isLt
  have h₂ := b₂.isLt
  have h₃ := b₃.isLt
  refine ⟨?_, ?_, ?_⟩ <;> apply BitVec.eq_of_toNat_eq <;>
    simp only [usbDeltaX, usbDeltaY, Click, BitVec.extractLsb'_toNat, hw,
      Nat.shiftRight_eq_div_pow] <;>
    omega

theorem mouseWord_fields (buf : BootMouseReport) :
    usbDeltaX (mouseWord buf) = buf.Xdispl ∧ usbDeltaY (mouseWord buf) = buf.Ydispl ∧
    Click (mouseWord buf) = buf.button := by
  have h := fourBytes_fields buf.Xdispl buf.Ydispl buf.button 0#8
  rwa [show Byte.promote 0#8 <<< 24 = 0#32 from rfl, BitVec.add_zero] at h

theorem kbdWord_fields (kbdbuf : BootKbdReport) :
    usbDeltaX (kbdWord kbdbuf) = kbdbuf.keycode.get 0 ∧
    usbDeltaY (kbdWord kbdbuf) = kbdbuf.keycode.get 1 ∧
    Click (kbdWord kbdbuf) = kbdbuf.keycode.get 2 :=
  fourBytes_fields ..

/-- A word with only the button in it. -/
theorem button_fields (button : Byte) :
    usbDeltaX (Byte.promote button <<< 16) = 0#8 ∧ usbDeltaY (Byte.promote button <<< 16) = 0#8 ∧
    Click (Byte.promote button <<< 16) = button := by
  have h := mouseWord_fields ⟨button, 0#8, 0#8⟩
  rwa [mouseWord, show Byte.promote 0#8 = 0#32 from rfl, BitVec.zero_shiftLeft, BitVec.zero_add,
    BitVec.zero_add] at h

end Packing

/-! ## The main loop -/

/-- `USB_STATE_RUNNING` -/
def usbStateRunning : Byte := 0x40#8

/-- `USB_STATE_ERROR` -/
def usbStateError : Byte := 0xff#8

def hrNAK : Byte := 0x04#8

/-- What the USB stack does in one iteration: the task state it reaches, the
device class `GetDriverandReport` finds, and the outcome of a poll with the contents
of the two report buffers after it. Only the parts an iteration asks for matter. -/
structure Iteration where
  taskState : Byte
  driver : Byte
  rcode : Byte
  buf : BootMouseReport
  kbdbuf : BootKbdReport
deriving DecidableEq, Repr

/-- The variables of `main` and the output registers of the GPIO peripheral. -/
structure Bridge where
  runningdebugflag : Bool
  errorflag : Bool
  device : Byte
  buf : BootMouseReport
  kbdbuf : BootKbdReport
  channel1 : Word
  channel2 : Word
deriving DecidableEq, Repr

/-- Before the loop the flags and the GPIO are `0`; the other variables are not
initialised. -/
def Bridge.start (device : Byte) (buf : BootMouseReport) (kbdbuf : BootKbdReport) : Bridge where
  runningdebugflag := false
  errorflag := false
  device := device
  buf := buf
  kbdbuf := kbdbuf
  channel1 := 0#32
  channel2 := 0#32

/-- The two channels of `GpioKeycode`. -/
inductive Channel
  | one
  | two
deriving DecidableEq, Repr

def Bridge.printHex (b : Bridge) (data : Word) : Channel → Bridge
  | .one => { b with channel1 := data }
  | .two => { b with channel2 := data }

/-- The keyboard branch: a report is written to channel 1, and every other outcome
leaves the channels alone. -/
def Bridge.pollKeyboard (b : Bridge) (it : Iteration) : Bridge :=
  let b := { b with kbdbuf := it.kbdbuf }
  if it.rcode = hrNAK then b
  else if it.rcode ≠ 0#8 then b
  else b.printHex (kbdWord b.kbdbuf) .one

/-- The mouse branch: every outcome is written to both channels. -/
def Bridge.pollMouse (b : Bridge) (it : Iteration) : Bridge :=
  let b := { b with buf := it.buf }
  if it.rcode = hrNAK then (b.printHex 0#32 .one).printHex 0#32 .two
  else if it.rcode ≠ 0#8 then
    (b.printHex (Byte.promote b.buf.button <<< 16) .one).printHex (Byte.promote b.buf.button) .two
  else (b.printHex (mouseWord b.buf) .one).printHex (Byte.promote b.buf.button) .two

/-- The body of the loop. -/
def Bridge.iterate (b : Bridge) (it : Iteration) : Bridge :=
  if it.taskState = usbStateRunning then
    if !b.runningdebugflag then { b with runningdebugflag := true, device := it.driver }
    else if b.device = 1#8 then b.pollKeyboard it
    else if b.device = 2#8 then b.pollMouse it
    else b
  else if it.taskState = usbStateError then { b with errorflag := true }
  else { b with runningdebugflag := false, errorflag := false }

/-! ## What an iteration writes -/

/-- This iteration polls a device of class `device`. -/
def Bridge.polls (b : Bridge) (it : Iteration) (device : Byte) : Prop :=
  it.taskState = usbStateRunning ∧ b.runningdebugflag = true ∧ b.device = device

instance (b : Bridge) (it : Iteration) (device : Byte) : Decidable (b.polls it device) := by
  unfold Bridge.polls
  infer_instance

section Iterate

variable {b : Bridge} {it : Iteration}

theorem iterate_polls_keyboard (h : b.polls it 1#8) : b.iterate it = b.pollKeyboard it := by
  obtain ⟨hstate, hflag, hdevice⟩ := h
  simp [Bridge.iterate, hstate, hflag, hdevice]

theorem iterate_polls_mouse (h : b.polls it 2#8) : b.iterate it = b.pollMouse it := by
  obtain ⟨hstate, hflag, hdevice⟩ := h
  simp [Bridge.iterate, hstate, hflag, hdevice]

/-- Without a poll the GPIO and the report buffers stay. -/
theorem iterate_idle (hkbd : ¬ b.polls it 1#8) (hmouse : ¬ b.polls it 2#8) :
    (b.iterate it).channel1 = b.channel1 ∧ (b.iterate it).buf = b.buf := by
  unfold Bridge.iterate
  split
  · next hstate =>
    split
    · exact ⟨rfl, rfl⟩
    · next hnew =>
      have hflag : b.runningdebugflag = true := by simpa using hnew
      rw [if_neg fun hdevice => hkbd ⟨hstate, hflag, hdevice⟩,
        if_neg fun hdevice => hmouse ⟨hstate, hflag, hdevice⟩]
      exact ⟨rfl, rfl⟩
  · split <;> exact ⟨rfl, rfl⟩

/-- The word a mouse poll writes to channel 1. -/
theorem pollMouse_channel1 (b : Bridge) (it : Iteration) :
    (b.pollMouse it).channel1 =
      if it.rcode = hrNAK then 0#32
      else if it.rcode ≠ 0#8 then Byte.promote it.buf.button <<< 16
      else mouseWord it.buf := by
  unfold Bridge.pollMouse
  split
  · rfl
  · split <;> rfl

theorem pollMouse_buf (b : Bridge) (it : Iteration) : (b.pollMouse it).buf = it.buf := by
  unfold Bridge.pollMouse
  split
  · rfl
  · split <;> rfl

theorem pollKeyboard_channel1 (b : Bridge) (it : Iteration) :
    (b.pollKeyboard it).channel1 = if it.rcode = 0#8 then kbdWord it.kbdbuf else b.channel1 := by
  unfold Bridge.pollKeyboard
  by_cases hnak : it.rcode = hrNAK
  · rw [if_pos hnak, if_neg (by rw [hnak]; decide)]
  · by_cases hok : it.rcode = 0#8
    · rw [if_neg hnak, if_neg (by simpa using hok), if_pos hok]
      rfl
    · rw [if_neg hnak, if_pos hok, if_neg hok]

theorem pollKeyboard_buf (b : Bridge) (it : Iteration) : (b.pollKeyboard it).buf = b.buf := by
  unfold Bridge.pollKeyboard
  split
  · rfl
  · split <;> rfl

/-- Only a mouse poll touches the mouse report buffer. -/
theorem iterate_buf (hmouse : ¬ b.polls it 2#8) : (b.iterate it).buf = b.buf := by
  by_cases hkbd : b.polls it 1#8
  · rw [iterate_polls_keyboard hkbd, pollKeyboard_buf]
  · exact (iterate_idle hkbd hmouse).2

end Iterate

end SocChess
