import SocChess.TmdsEncoder

/-!
# What a TMDS channel carries

A receiver undoes the two stages of the coding from bits 9 and 8 of the symbol alone, so
it needs neither the running disparity nor any earlier symbol.

* `decode_word`: both choices of the second stage decode to the byte.
* `transitions_word`: a video symbol changes at most five times.
* `ctrltoken_transitions`: a control token changes at least seven times.
* `Carries`: which clocks the registers of the pipeline belong to.
* `video_round_trip`: the statement about runs.
-/

namespace SocChess.Hdmi

open LineCode

/-! ## Decoding -/

/-- What a receiver makes of a symbol of the video data period. -/
def tmdsDecode (s : Symbol) : BitVec 8 :=
  match (bits (s.setWidth 8)).map (s.getLsbD 9 ^^ ·) with
  | [] => 0#8
  | q :: qs => fromBits 8 (q :: unchain (!s.getLsbD 8) q qs)

/-- The symbol for the wires `q`, with the lower eight inverted if `flip`. -/
def word (flip : Bool) (q : BitVec 9) : Symbol :=
  BitVec.ofBool flip ++ BitVec.ofBool (q.getLsbD 8) ++
    (if flip then ~~~q.setWidth 8 else q.setWidth 8 : BitVec 8)

theorem bits_byte (v : BitVec 8) : bits v = v.getLsbD 0 :: (bits v).tail := by
  simp [bits_eq, List.range_succ]

/-- The counter decides by the majority of the bits. -/
theorem decision1_bitSum (v : BitVec 8) :
    decision1 (bitSum v) v = byMajority (v.getLsbD 0) (bits v).tail := by
  revert v
  decide +kernel

/-- The first stage codes the byte differentially and says how in bit 8. -/
theorem bits_qM (n1d : BitVec 4) (v : BitVec 8) :
    bits (qM n1d v) =
      v.getLsbD 0 :: chain (decision1 n1d v) (v.getLsbD 0) (bits v).tail ++
        [!decision1 n1d v] := by
  have htail : (bits v).tail = [v.getLsbD 1, v.getLsbD 2, v.getLsbD 3, v.getLsbD 4, v.getLsbD 5,
      v.getLsbD 6, v.getLsbD 7] := by
    simp [bits_eq, List.range_succ]
  unfold qM
  rw [bits_ofBoolListLE, htail]
  cases decision1 n1d v with
  | true => simp [chain]
  | false => simp [chain]

theorem bits_qM_low (n1d : BitVec 4) (v : BitVec 8) :
    bits ((qM n1d v).setWidth 8) =
      v.getLsbD 0 :: chain (decision1 n1d v) (v.getLsbD 0) (bits v).tail := by
  rw [bits_setWidth (by decide), bits_qM]
  exact List.take_left' (by simp)

theorem qM_getLsbD_eight (n1d : BitVec 4) (v : BitVec 8) :
    (qM n1d v).getLsbD 8 = !decision1 n1d v := by
  rw [getLsbD_eq_getD, bits_qM]
  simp

theorem bits_word (flip : Bool) (q : BitVec 9) :
    bits (word flip q) = (bits (q.setWidth 8)).map (flip ^^ ·) ++ [q.getLsbD 8, flip] := by
  have hbit (b : Bool) : bits (BitVec.ofBool b) = [b] := by simp [bits]
  unfold word
  rw [bits_append, bits_append, hbit, hbit]
  cases flip with
  | true => simp [bits_not]
  | false => simp

/-- Whatever the second stage does, a receiver gets the byte back. -/
theorem decode_word (flip : Bool) (n1d : BitVec 4) (v : BitVec 8) :
    tmdsDecode (word flip (qM n1d v)) = v := by
  have hlow : bits ((word flip (qM n1d v)).setWidth 8) =
      (bits ((qM n1d v).setWidth 8)).map (flip ^^ ·) := by
    rw [bits_setWidth (by decide), bits_word]
    exact List.take_left' (by simp)
  have hflip : (word flip (qM n1d v)).getLsbD 9 = flip := by
    rw [getLsbD_eq_getD, bits_word]
    simp
  have hcode : (word flip (qM n1d v)).getLsbD 8 = !decision1 n1d v := by
    rw [getLsbD_eq_getD, bits_word, ← qM_getLsbD_eight]
    simp
  have hundo (b : Bool) : (flip ^^ (flip ^^ b)) = b := by
    rw [← Bool.xor_assoc, Bool.xor_self, Bool.false_xor]
  unfold tmdsDecode
  rw [hlow, hflip, hcode, List.map_map, bits_qM_low]
  simp only [Function.comp_def, hundo, List.map_id', Bool.not_not, unchain_chain]
  rw [← bits_byte, fromBits_bits]

/-! ## Transitions -/

/-- Differential coding by majority leaves at most three changes in the byte, and the two
bits that tell how it was coded add at most one each. -/
theorem transitions_word (flip : Bool) (v : BitVec 8) :
    changesIn (bits (word flip (qM (bitSum v) v))) ≤ 5 := by
  have hfew := transitions_fewer (v.getLsbD 0) (bits v).tail
  rw [List.length_tail, length_bits, ← decision1_bitSum] at hfew
  rw [bits_word, bits_qM_low, List.map_cons, List.cons_append, changesIn]
  refine (transitions_append_le _ _ _).trans ?_
  rw [transitions_map_xor]
  show _ + 2 ≤ 5
  omega

theorem ctrltoken_transitions (c1 c0 : Bool) : 7 ≤ changesIn (bits (ctrltoken c1 c0)) := by
  cases c1 <;> cases c0 <;> decide

/-- No byte is sent as a control token. -/
theorem word_ne_ctrltoken (flip : Bool) (v : BitVec 8) (c1 c0 : Bool) :
    word flip (qM (bitSum v) v) ≠ ctrltoken c1 c0 := by
  intro heq
  have hfew := transitions_word flip v
  rw [heq] at hfew
  exact absurd (ctrltoken_transitions c1 c0) (by omega)

/-! ## The pipeline -/

namespace Encode

/-- Whether the second stage inverts. -/
def flip (e : Encode) : Bool := if e.decision2 then !e.qMReg.getLsbD 8 else e.decision3

theorem videoDout_eq (e : Encode) : e.videoDout = word e.flip e.qMReg := by
  unfold videoDout word flip
  cases e.decision2 with
  | true => cases e.qMReg.getLsbD 8 <;> rfl
  | false =>
    cases e.decision3 with
    | true => simp [BitVec.setWidth_not]
    | false => rfl

/-- The registers of the first stage hold what the clock with the inputs `j` left. -/
structure First (e : Encode) (j : EncodeIn) : Prop where
  n1d : e.n1d = bitSum j.vdin
  vdinQ : e.vdinQ = j.vdin
  vdeQ : e.vdeQ = j.vde
  adeQ : e.adeQ = j.ade
  c0Q : e.c0Q = j.c0
  c1Q : e.c1Q = j.c1
  adinQ : e.adinQ = j.adin

/-- The registers of the second stage belong to the clock with the inputs `i`. -/
structure Second (e : Encode) (i : EncodeIn) : Prop where
  qMReg : e.qMReg = qM (bitSum i.vdin) i.vdin
  vdeReg : e.vdeReg = i.vde
  adeReg : e.adeReg = i.ade
  c0Reg : e.c0Reg = i.c0
  c1Reg : e.c1Reg = i.c1
  adinReg : e.adinReg = i.adin

/-- The last two clocks had the inputs `i` and then `j`. -/
structure Carries (e : Encode) (i j : EncodeIn) : Prop where
  second : e.Second i
  first : e.First j

section Pipeline

variable {channel : Channel} {mode : Mode} {e : Encode} {i j : EncodeIn}

theorem First.clock (channel : Channel) (mode : Mode) (e : Encode) (j : EncodeIn) :
    (e.clock channel mode j).First j := ⟨rfl, rfl, rfl, rfl, rfl, rfl, rfl⟩

theorem Second.clock (h : e.First i) (k : EncodeIn) : (e.clock channel mode k).Second i where
  qMReg := by
    show qM e.n1d e.vdinQ = _
    rw [h.n1d, h.vdinQ]
  vdeReg := h.vdeQ
  adeReg := h.adeQ
  c0Reg := h.c0Q
  c1Reg := h.c1Q
  adinReg := h.adinQ

theorem First.rstRise (h : e.First j) : (e.next channel mode .rstRise).First j := by
  cases h
  constructor <;> assumption

theorem Second.rstRise (h : e.Second i) : (e.next channel mode .rstRise).Second i := by
  cases h
  constructor <;> assumption

end Pipeline

end Encode

/-- The inputs at the clocks among the events. -/
def clocks (es : List EncodeEvent) : List EncodeIn :=
  es.filterMap fun
    | .clkin i => some i
    | .rstRise => none

theorem clocks_append (es fs : List EncodeEvent) : clocks (es ++ fs) = clocks es ++ clocks fs :=
  List.filterMap_append

section Runs

variable {channel : Channel} {mode : Mode} {power : Encode} {es : List EncodeEvent}
  {front : List EncodeIn} {i j k : EncodeIn}

/-- A reset between two clocks does not disturb the pipeline. -/
theorem first_of_clocks (hes : clocks es = front ++ [j]) :
    (power.run channel mode es).First j := by
  induction es using List.reverseRecOn with
  | nil => simp [clocks] at hes
  | append_singleton es e ih =>
    rw [Encode.run, Clocked.run_concat]
    rw [clocks_append] at hes
    cases e with
    | clkin k =>
      obtain ⟨-, hlast⟩ := List.append_inj' hes rfl
      obtain rfl : k = j := List.singleton_inj.mp hlast
      exact .clock channel mode _ k
    | rstRise => exact (ih (by simpa [clocks] using hes)).rstRise

theorem carries_of_clocks (channel : Channel) (mode : Mode) (power : Encode)
    (hes : clocks es = front ++ [i, j]) :
    (power.run channel mode es).Carries i j := by
  induction es using List.reverseRecOn with
  | nil => simp [clocks] at hes
  | append_singleton es e ih =>
    rw [Encode.run, Clocked.run_concat]
    rw [clocks_append] at hes
    cases e with
    | clkin k =>
      have hsplit : clocks es ++ [k] = (front ++ [i]) ++ [j] := by
        rw [List.append_assoc]
        exact hes
      obtain ⟨hbefore, hlast⟩ := List.append_inj' hsplit rfl
      obtain rfl : k = j := List.singleton_inj.mp hlast
      exact ⟨.clock (first_of_clocks hbefore) k, .clock channel mode _ k⟩
    | rstRise =>
      have hcarries := ih (by simpa [clocks] using hes)
      exact ⟨hcarries.second.rstRise, hcarries.first.rstRise⟩

/-- In every run, whatever the registers held at power-up and however the reset rises
between the clocks, the symbol of a clock with the reset low decodes to the byte of two
clocks before, if that was a pixel. It changes at most five times and is no control
token. -/
theorem video_round_trip (channel : Channel) (mode : Mode) (power : Encode)
    (hes : clocks es = front ++ [i, j]) (hvde : i.vde = true) (hrst : k.rstin = false) :
    let d := ((power.run channel mode es).clock channel mode k).dout
    tmdsDecode d = i.vdin ∧ changesIn (bits d) ≤ 5 ∧ ∀ c1 c0, d ≠ ctrltoken c1 c0 := by
  intro d
  have hsecond := (carries_of_clocks channel mode power hes).second
  have hd : d = word (power.run channel mode es).flip (qM (bitSum i.vdin) i.vdin) := by
    show (if k.rstin then 0#10 else if (power.run channel mode es).vdeReg
      then (power.run channel mode es).videoDout else _) = _
    rw [hrst, hsecond.vdeReg, hvde, Encode.videoDout_eq, hsecond.qMReg]
    rfl
  rw [hd]
  exact ⟨decode_word _ _ _, transitions_word _ _, word_ne_ctrltoken _ _⟩

end Runs

/-- All registers zero. -/
def Encode.zero : Encode :=
  ⟨0#4, 0#8, 0#4, 0#4, 0#9, 0#5, false, false, false, false, false, false, false, false, false,
    false, 0#4, 0#4, 0#10⟩

/-- A pixel clock with the given byte. -/
def pixelIn (v : BitVec 8) : EncodeIn := ⟨false, v, 0#4, false, false, true, false⟩

theorem video_round_trip_ff :
    let es := [EncodeEvent.clkin (pixelIn 0xFF#8), .rstRise, .clkin (pixelIn 0#8)]
    tmdsDecode ((Encode.zero.run .red .hdmi es).clock .red .hdmi (pixelIn 0#8)).dout = 0xFF#8 := by
  intro es
  have hes : clocks es = [] ++ [pixelIn 0xFF#8, pixelIn 0#8] := rfl
  exact (video_round_trip .red .hdmi .zero (k := pixelIn 0#8) hes rfl rfl).1

end SocChess.Hdmi
