import SocChess.Lib.Cyclic
import SocChess.UsbMouseBridge

/-!
# The hexadecimal displays: `hex_driver.sv`

A display has four digits that share their segments: a counter selects a digit for
`2 ^ 15` clocks, and then the next one. The top level shows GPIO channel 1 on two
displays.

* `display_round_trip`: whatever the counters start from, a reader who watches the pins
  of the two displays for `2 ^ 17` clocks knows the word.
-/

namespace SocChess

/-! ## The driver -/

abbrev Nibble := BitVec 4

/-- `nibble_to_hex` -/
def nibbleToHex (nibble : Nibble) : Byte :=
  match nibble.toNat with
  | 0 => 0b00111111#8
  | 1 => 0b00000110#8
  | 2 => 0b01011011#8
  | 3 => 0b01001111#8
  | 4 => 0b01100110#8
  | 5 => 0b01101101#8
  | 6 => 0b01111101#8
  | 7 => 0b00000111#8
  | 8 => 0b01111111#8
  | 9 => 0b01101111#8
  | 10 => 0b01110111#8
  | 11 => 0b01111100#8
  | 12 => 0b00111001#8
  | 13 => 0b01011110#8
  | 14 => 0b01111001#8
  | _ => 0b01110001#8

structure HexDriver where
  counter : BitVec 17
deriving DecidableEq, Repr

/-- A rising edge of `clk`. -/
def HexDriver.clock (d : HexDriver) (reset : Bool) : HexDriver where
  counter := if reset then 0#17 else d.counter + 1#17

/-- The pins `hex_seg` and `hex_grid`. -/
structure HexPins where
  hexSeg : Byte
  hexGrid : Nibble
deriving DecidableEq, Repr

/-- `counter[16:15]` -/
def HexDriver.digit (d : HexDriver) : BitVec 2 := d.counter.extractLsb' 15 2

/-- The combinational outputs, with `digits` at the input `in`. -/
def HexDriver.pins (d : HexDriver) (reset : Bool) (digits : Vector Nibble 4) : HexPins :=
  if reset then ⟨0b11111111#8, 0b1111#4⟩
  else
    match d.digit.toNat with
    | 0 => ⟨~~~nibbleToHex (digits.get 0), 0b1110#4⟩
    | 1 => ⟨~~~nibbleToHex (digits.get 1), 0b1101#4⟩
    | 2 => ⟨~~~nibbleToHex (digits.get 2), 0b1011#4⟩
    | _ => ⟨~~~nibbleToHex (digits.get 3), 0b0111#4⟩

/-- The inputs of `hex_display_a`. -/
def displayA (channel0 : Word) : Vector Nibble 4 :=
  #v[channel0.extractLsb' 28 4, channel0.extractLsb' 24 4, channel0.extractLsb' 20 4,
    channel0.extractLsb' 16 4]

/-- The inputs of `hex_display_b`. -/
def displayB (channel0 : Word) : Vector Nibble 4 :=
  #v[channel0.extractLsb' 12 4, channel0.extractLsb' 8 4, channel0.extractLsb' 4 4,
    channel0.extractLsb' 0 4]

/-! ## A reader -/

/-- The grid that lights a digit. -/
def grid (i : Fin 4) : Nibble := ~~~(1#4 <<< i.val)

/-- The nibble that lit segments stand for. -/
def hexToNibble (hex : Byte) : Option Nibble :=
  (List.range 16).findSome? fun k =>
    if nibbleToHex (BitVec.ofNat 4 k) = hex then some (BitVec.ofNat 4 k) else none

/-- A digit that is read off the pins: from the first clock that lights it. -/
def readDigit (i : Fin 4) (shown : List HexPins) : Option Nibble :=
  shown.findSome? fun pins =>
    if pins.hexGrid = grid i then hexToNibble (~~~pins.hexSeg) else none

/-- Four digits, the first one the most significant. -/
def readDigits (shown : List HexPins) : Option (BitVec 16) := do
  let a ← readDigit 0 shown
  let b ← readDigit 1 shown
  let c ← readDigit 2 shown
  let d ← readDigit 3 shown
  return a ++ b ++ c ++ d

/-- The word that is read off the two displays. -/
def readWord (shownA shownB : List HexPins) : Option Word := do
  let high ← readDigits shownA
  let low ← readDigits shownB
  return high ++ low

/-- The pins over `n` clocks without a reset, with constant digits. -/
def HexDriver.shown (d : HexDriver) (digits : Vector Nibble 4) (n : Nat) : List HexPins :=
  (List.range n).map fun k => ((fun d => HexDriver.clock d false)^[k] d).pins false digits

/-! ## What is read -/

section Read

variable {d : HexDriver} {digits : Vector Nibble 4} {i : Fin 4} {n : Nat}

theorem hexToNibble_nibbleToHex :
    ∀ nibble : Nibble, hexToNibble (nibbleToHex nibble) = some nibble := by
  decide +kernel

/-- The counter goes round. -/
theorem counter_cycles : Cyclic.Cycles (fun d => HexDriver.clock d false) (fun _ => True)
    (fun d => d.counter.toNat) (2 ^ 17) where
  closed _ _ := trivial
  bounded d _ := d.counter.isLt
  next d _ := BitVec.toNat_add d.counter 1#17

theorem toNat_digit (d : HexDriver) : d.digit.toNat = d.counter.toNat / 2 ^ 15 := by
  have hlt := d.counter.isLt
  rw [HexDriver.digit, BitVec.extractLsb'_toNat, Nat.shiftRight_eq_div_pow]
  omega

/-- The pins light the digit that the counter selects. -/
theorem pins_eq (d : HexDriver) (digits : Vector Nibble 4) :
    d.pins false digits = ⟨~~~nibbleToHex (digits.get d.digit.toFin), grid d.digit.toFin⟩ := by
  unfold HexDriver.pins
  generalize d.digit = digit
  rw [if_neg Bool.false_ne_true]
  obtain rfl | rfl | rfl | rfl : digit = 0#2 ∨ digit = 1#2 ∨ digit = 2#2 ∨ digit = 3#2 := by
    revert digit
    decide
  · rfl
  · rfl
  · rfl
  · rfl

theorem grid_injective : ∀ i j : Fin 4, grid i = grid j → i = j := by
  decide

/-- A clock shows a digit as it is, or does not light it. -/
theorem read_pins (d : HexDriver) (digits : Vector Nibble 4) (i : Fin 4) :
    (if (d.pins false digits).hexGrid = grid i then
      hexToNibble (~~~(d.pins false digits).hexSeg) else none) =
      if d.digit.toFin = i then some (digits.get i) else none := by
  rw [pins_eq]
  by_cases hi : d.digit.toFin = i
  · rw [if_pos (congrArg grid hi), if_pos hi, BitVec.not_not, hexToNibble_nibbleToHex, hi]
  · rw [if_neg (fun h => hi (grid_injective _ _ h)), if_neg hi]

/-- In `2 ^ 17` clocks each digit is lit. -/
theorem exists_lit (d : HexDriver) (i : Fin 4) (hn : 2 ^ 17 ≤ n) :
    ∃ k < n, ((fun d => HexDriver.clock d false)^[k] d).digit.toFin = i := by
  have hi := i.isLt
  obtain ⟨k, ⟨hk, hvisit⟩, -⟩ := counter_cycles.visits_once (s := d) trivial
    (p := i.val * 2 ^ 15) (by omega)
  refine ⟨k, by omega, Fin.ext ?_⟩
  have hdigit := toNat_digit ((fun d => HexDriver.clock d false)^[k] d)
  rw [hvisit, Nat.mul_div_cancel _ (by decide)] at hdigit
  exact hdigit

theorem readDigit_shown (d : HexDriver) (digits : Vector Nibble 4) (i : Fin 4)
    (hn : 2 ^ 17 ≤ n) : readDigit i (d.shown digits n) = some (digits.get i) := by
  obtain ⟨k, hk, hlit⟩ := exists_lit d i hn
  have hsome : (readDigit i (d.shown digits n)).isSome := by
    refine List.findSome?_isSome_iff.mpr ⟨_, List.mem_map_of_mem (List.mem_range.mpr hk), ?_⟩
    rw [read_pins, if_pos hlit]
    rfl
  obtain ⟨nibble, hread⟩ := Option.isSome_iff_exists.mp hsome
  obtain ⟨pins, hmem, hpins⟩ := List.exists_of_findSome?_eq_some hread
  obtain ⟨j, -, rfl⟩ := List.mem_map.mp hmem
  rw [read_pins] at hpins
  split at hpins
  · rw [hread, hpins]
  · cases hpins

theorem readDigits_shown (d : HexDriver) (digits : Vector Nibble 4) (hn : 2 ^ 17 ≤ n) :
    readDigits (d.shown digits n) =
      some (digits.get 0 ++ digits.get 1 ++ digits.get 2 ++ digits.get 3) := by
  unfold readDigits
  simp only [readDigit_shown d digits _ hn]
  rfl

/-- A word is its nibbles. -/
theorem eight_nibbles (w : Word) :
    ((w.extractLsb' 28 4 ++ w.extractLsb' 24 4 ++ w.extractLsb' 20 4 ++ w.extractLsb' 16 4) ++
      (w.extractLsb' 12 4 ++ w.extractLsb' 8 4 ++ w.extractLsb' 4 4 ++ w.extractLsb' 0 4) : Word) =
      w := by
  refine BitVec.eq_of_getLsbD_eq fun i hi => ?_
  simp only [BitVec.getLsbD_append, BitVec.getLsbD_extractLsb']
  grind

end Read

/-- The word on the GPIO channel can be read off the displays. -/
theorem display_round_trip (a b : HexDriver) (channel0 : Word) {n : Nat} (hn : 2 ^ 17 ≤ n) :
    readWord (a.shown (displayA channel0) n) (b.shown (displayB channel0) n) = some channel0 := by
  unfold readWord
  rw [readDigits_shown a _ hn, readDigits_shown b _ hn]
  exact congrArg some (eight_nibbles channel0)

/-- The displays of the word of a mouse report, with the counters at any values. -/
theorem display_round_trip_report :
    readWord ((⟨0x1ffff#17⟩ : HexDriver).shown (displayA (mouseWord ⟨1#8, 2#8, 0xff#8⟩)) (2 ^ 17))
      ((⟨0x08000#17⟩ : HexDriver).shown (displayB (mouseWord ⟨1#8, 2#8, 0xff#8⟩)) (2 ^ 17)) =
      some (mouseWord ⟨1#8, 2#8, 0xff#8⟩) :=
  display_round_trip _ _ _ le_rfl

end SocChess
