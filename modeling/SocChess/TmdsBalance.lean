import SocChess.TmdsChannel

/-!
# The running disparity of a TMDS channel

`cnt` is a five-bit signed number, and the encoder chooses between the two symbols for a
byte by its sign. The abstract account of what it is for: the ones less the zeros sent
since the video data period began.

* `Coherent.disparity_word`: the disparity of one symbol, from the counts of its byte.
* `Settled.next`: `cnt` is even and between -8 and 8, so it never overflows.
* `cnt_next`: one event adds to `cnt` exactly the disparity of what is sent.
* `disparity_bounded`: the statement about runs.
-/

namespace SocChess.Hdmi

open LineCode

namespace Encode

/-! ## Counting -/

/-- The second stage counts the byte that it sends. -/
structure Coherent (e : Encode) : Prop where
  n1qM : e.n1qM = bitSum (e.qMReg.setWidth 8)
  n0qM : e.n0qM = 8#4 - e.n1qM

theorem bitSum_toNat (v : BitVec 8) : (bitSum v).toNat = (bits v).count true := by
  revert v
  decide +kernel

section Counts

variable {e : Encode}

theorem Coherent.n1qM_toNat (h : e.Coherent) :
    e.n1qM.toNat = (bits (e.qMReg.setWidth 8)).count true := by
  rw [h.n1qM, bitSum_toNat]

theorem Coherent.n1qM_le (h : e.Coherent) : e.n1qM.toNat ≤ 8 := by
  rw [h.n1qM_toNat]
  exact List.count_le_length.trans (length_bits _).le

theorem Coherent.n0qM_toNat (h : e.Coherent) : e.n0qM.toNat = 8 - e.n1qM.toNat := by
  have hle := h.n1qM_le
  rw [h.n0qM, BitVec.toNat_sub_of_le]
  · rfl
  · exact hle

/-- The ones less the zeros of a video symbol. -/
theorem Coherent.disparity_word (h : e.Coherent) (flip : Bool) :
    disparity (bits (word flip e.qMReg)) =
      (if flip then 8 - 2 * (e.n1qM.toNat : Int) else 2 * (e.n1qM.toNat : Int) - 8) +
        ((if e.qMReg.getLsbD 8 then 1 else -1) + if flip then 1 else -1) := by
  have htotal := List.count_true_add_count_false (bits (e.qMReg.setWidth 8))
  rw [length_bits, ← h.n1qM_toNat] at htotal
  have hlow : disparity (bits (e.qMReg.setWidth 8)) = 2 * (e.n1qM.toNat : Int) - 8 := by
    unfold disparity
    rw [← h.n1qM_toNat]
    omega
  rw [bits_word, disparity_append]
  cases flip with
  | true =>
    have hmap : (bits (e.qMReg.setWidth 8)).map (true ^^ ·) =
        (bits (e.qMReg.setWidth 8)).map not := by simp
    rw [hmap, disparity_map_not, hlow]
    cases e.qMReg.getLsbD 8 <;> simp [disparity]
  | false =>
    have hmap : (bits (e.qMReg.setWidth 8)).map (false ^^ ·) = bits (e.qMReg.setWidth 8) := by
      simp
    rw [hmap, hlow]
    cases e.qMReg.getLsbD 8 <;> simp [disparity]

theorem Coherent.videoCnt_eq (h : e.Coherent) :
    e.videoCnt = BitVec.ofInt 5 (e.cnt.toInt + disparity (bits e.videoDout)) := by
  have hle := h.n1qM_le
  have hn0 := h.n0qM_toNat
  have hcnt : e.cnt = BitVec.ofInt 5 e.cnt.toInt := BitVec.ofInt_toInt.symm
  have hn1' : e.n1qM.setWidth 5 = BitVec.ofInt 5 e.n1qM.toNat := by
    rw [BitVec.ofInt_natCast, BitVec.ofNat_toNat]
  have hn0' : e.n0qM.setWidth 5 = BitVec.ofInt 5 (8 - e.n1qM.toNat) := by
    have hcast : (8 - e.n1qM.toNat : Int) = (e.n0qM.toNat : Nat) := by omega
    rw [hcast, BitVec.ofInt_natCast, BitVec.ofNat_toNat]
  rw [videoDout_eq, h.disparity_word]
  unfold videoCnt flip
  rw [hn1', hn0']
  generalize e.cnt.toInt = c at hcnt
  generalize (e.n1qM.toNat : Int) = n
  have htwo : (BitVec.ofBool true ++ 0#1).setWidth 5 = BitVec.ofInt 5 2 := rfl
  have hzero : (BitVec.ofBool false ++ 0#1).setWidth 5 = BitVec.ofInt 5 0 := rfl
  rw [hcnt]
  -- In every branch both sides are the same integer, taken to five bits.
  cases e.decision2 with
  | true =>
    cases e.qMReg.getLsbD 8 <;>
      simp only [Bool.not_true, Bool.not_false, Bool.false_eq_true, reduceIte,
        BitVec.sub_eq_add_neg, ← BitVec.ofInt_neg, ← BitVec.ofInt_add]
    · congr 1
      omega
    · congr 1
      omega
  | false =>
    cases e.decision3 <;> cases e.qMReg.getLsbD 8 <;>
      simp only [Bool.not_true, Bool.not_false, Bool.false_eq_true, reduceIte, htwo, hzero,
        BitVec.sub_eq_add_neg, ← BitVec.ofInt_neg, ← BitVec.ofInt_add] <;>
      exact congrArg (BitVec.ofInt 5) (by omega)

/-- `cnt` is in range. -/
structure Settled (e : Encode) : Prop extends e.Coherent where
  even : e.cnt.toInt % 2 = 0
  lower : -8 ≤ e.cnt.toInt
  upper : e.cnt.toInt ≤ 8

/-- What a video symbol adds keeps the running disparity in range: it leans against `cnt`,
and from zero a byte adds at most eight. -/
theorem Settled.add_disparity (h : e.Settled) :
    (e.cnt.toInt + disparity (bits e.videoDout)) % 2 = 0 ∧
      -8 ≤ e.cnt.toInt + disparity (bits e.videoDout) ∧
      e.cnt.toInt + disparity (bits e.videoDout) ≤ 8 := by
  obtain ⟨hcoherent, heven, hlower, hupper⟩ := h
  have hle := hcoherent.n1qM_le
  have hn0 := hcoherent.n0qM_toNat
  have hzero : e.cnt = 0#5 ↔ e.cnt.toInt = 0 := (BitVec.toInt_inj (y := 0#5)).symm
  have hequal : e.n1qM = e.n0qM ↔ e.n1qM.toNat = 4 := by
    rw [BitVec.toNat_eq]
    omega
  have hmore : e.n0qM < e.n1qM ↔ 4 < e.n1qM.toNat := by
    rw [BitVec.lt_def]
    omega
  have hless : e.n1qM < e.n0qM ↔ e.n1qM.toNat < 4 := by
    rw [BitVec.lt_def]
    omega
  rw [videoDout_eq, hcoherent.disparity_word]
  unfold flip
  cases h2 : e.decision2 with
  | true =>
    simp only [decision2, Bool.or_eq_true, decide_eq_true_eq, hzero, hequal] at h2
    cases e.qMReg.getLsbD 8 <;>
      simp only [Bool.not_true, Bool.not_false, Bool.false_eq_true, reduceIte] <;> omega
  | false =>
    simp only [decision2, Bool.or_eq_false_iff, decide_eq_false_iff_not, hzero, hequal] at h2
    cases h3 : e.decision3 with
    | true =>
      simp only [decision3, BitVec.msb_eq_toInt, hmore, hless, Bool.or_eq_true, Bool.and_eq_true,
        Bool.not_eq_true', decide_eq_true_eq, decide_eq_false_iff_not] at h3
      cases e.qMReg.getLsbD 8 <;> simp only [Bool.false_eq_true, reduceIte] <;> omega
    | false =>
      simp only [decision3, BitVec.msb_eq_toInt, hmore, hless, Bool.or_eq_false_iff,
        Bool.and_eq_false_iff, Bool.not_eq_false', decide_eq_true_eq,
        decide_eq_false_iff_not] at h3
      cases e.qMReg.getLsbD 8 <;> simp only [Bool.false_eq_true, reduceIte] <;> omega

/-- So `cnt` does not overflow. -/
theorem Settled.videoCnt_toInt (h : e.Settled) :
    e.videoCnt.toInt = e.cnt.toInt + disparity (bits e.videoDout) := by
  obtain ⟨-, hlower, hupper⟩ := h.add_disparity
  rw [h.videoCnt_eq]
  exact BitVec.toInt_ofInt_eq_self (by decide) (by omega) (by omega)

end Counts

/-! ## Events -/

/-- The video symbol that an event sends. -/
def videoWord (channel : Channel) (mode : Mode) (e : Encode) : EncodeEvent → Option (List Bool)
  | .clkin i => if e.vdeReg && !i.rstin then some (bits (e.clock channel mode i).dout) else none
  | .rstRise => none

/-- The video symbols of a run, with `none` for every event that sends none. -/
def sent (channel : Channel) (mode : Mode) :
    Encode → List EncodeEvent → List (Option (List Bool)) :=
  Clocked.viewed (next channel mode) (videoWord channel mode)

section Events

variable {channel : Channel} {mode : Mode} {e : Encode}

theorem Coherent.clock (channel : Channel) (mode : Mode) (e : Encode) (i : EncodeIn) :
    (e.clock channel mode i).Coherent := ⟨rfl, rfl⟩

/-- One event adds to `cnt` what it sends. -/
theorem cnt_next (h : e.Settled) (event : EncodeEvent) :
    (e.next channel mode event).cnt.toInt =
      Balance.step e.cnt.toInt (videoWord channel mode e event) := by
  cases event with
  | rstRise => rfl
  | clkin i =>
    show (if i.rstin then 0#5 else if e.vdeReg then e.videoCnt else 0#5).toInt =
      Balance.step _ (if e.vdeReg && !i.rstin then
        some (bits (if i.rstin then 0#10 else if e.vdeReg then e.videoDout else _)) else none)
    cases i.rstin with
    | true => cases e.vdeReg <;> rfl
    | false =>
      cases e.vdeReg with
      | true => exact h.videoCnt_toInt
      | false => rfl

theorem Coherent.settled_of_zero (h : e.Coherent) (hcnt : e.cnt = 0#5) : e.Settled := by
  refine ⟨h, ?_, ?_, ?_⟩
  all_goals rw [hcnt]; decide

theorem Settled.next (h : e.Settled) (event : EncodeEvent) :
    (e.next channel mode event).Settled := by
  cases event with
  | rstRise => exact Coherent.settled_of_zero ⟨h.n1qM, h.n0qM⟩ rfl
  | clkin i =>
    have hcoherent := Coherent.clock channel mode e i
    have hcnt : (e.clock channel mode i).cnt =
        if i.rstin then 0#5 else if e.vdeReg then e.videoCnt else 0#5 := rfl
    cases hrst : i.rstin with
    | true => exact hcoherent.settled_of_zero (by rw [hcnt, hrst]; rfl)
    | false =>
      cases hvde : e.vdeReg with
      | false => exact hcoherent.settled_of_zero (by rw [hcnt, hrst, hvde]; rfl)
      | true =>
        have hvideo : (e.clock channel mode i).cnt = e.videoCnt := by rw [hcnt, hrst, hvde]; rfl
        obtain ⟨heven, hlower, hupper⟩ := h.add_disparity
        rw [← h.videoCnt_toInt, ← hvideo] at heven hlower hupper
        exact ⟨hcoherent, heven, hlower, hupper⟩

theorem Settled.run (h : e.Settled) (es : List EncodeEvent) : (e.run channel mode es).Settled :=
  Clocked.run_invariant (I := Settled) (fun _ event h => h.next event) h es

/-- A clock with the reset high settles the encoder, whatever its registers held. -/
theorem settled_of_reset (channel : Channel) (mode : Mode) (e : Encode) {r : EncodeIn}
    (hr : r.rstin = true) : (e.clock channel mode r).Settled := by
  refine (Coherent.clock channel mode e r).settled_of_zero ?_
  show (if r.rstin then 0#5 else _) = 0#5
  rw [hr]
  rfl

/-- Along a run `cnt` is the running disparity of what has been sent. -/
theorem Settled.cnt_run (h : e.Settled) (es : List EncodeEvent) :
    (e.run channel mode es).cnt.toInt =
      Clocked.run Balance.step e.cnt.toInt (sent channel mode e es) := by
  induction es generalizing e with
  | nil => rfl
  | cons event es ih =>
    show ((e.next channel mode event).run channel mode es).cnt.toInt = _
    rw [ih (h.next event), cnt_next h event]
    rfl

end Events

end Encode

/-- In every run after a clock with the reset high, whatever the registers held at
power-up, `cnt` is the number of ones less the number of zeros sent since the video data
period began; it is even and stays between -8 and 8, so the five bits never overflow; and
in no stretch of successive video symbols do the ones and the zeros differ by more
than 16. -/
theorem disparity_bounded (channel : Channel) (mode : Mode) (power : Encode)
    (before after : List EncodeEvent) {r : EncodeIn} (hr : r.rstin = true) :
    let e := power.run channel mode (before ++ [.clkin r])
    let cnt := (e.run channel mode after).cnt.toInt
    cnt = Clocked.run Balance.step 0 (e.sent channel mode after) ∧
      cnt % 2 = 0 ∧ cnt.natAbs ≤ 8 ∧
      ∀ (front back : List (Option (List Bool))) (words : List (List Bool)),
        e.sent channel mode after = front ++ words.map some ++ back →
          (disparity words.flatten).natAbs ≤ 16 := by
  intro e cnt
  have hstart : e = (power.run channel mode before).clock channel mode r :=
    Clocked.run_concat ..
  have hsettled : e.Settled := by
    rw [hstart]
    exact Encode.settled_of_reset channel mode _ hr
  have hzero : e.cnt.toInt = 0 := by
    rw [hstart]
    show (if r.rstin then 0#5 else _ : BitVec 5).toInt = 0
    rw [hr]
    rfl
  have hrun (es : List EncodeEvent) : (e.run channel mode es).cnt.toInt =
      Clocked.run Balance.step 0 (e.sent channel mode es) := by
    rw [hsettled.cnt_run es, hzero]
  have hbound (es : List EncodeEvent) : (e.run channel mode es).cnt.toInt.natAbs ≤ 8 := by
    have hreach : (e.run channel mode es).Settled := hsettled.run es
    obtain ⟨-, -, hlower, hupper⟩ := hreach
    omega
  refine ⟨hrun after, (hsettled.run after).even, hbound after, fun front back words hsplit => ?_⟩
  show (disparity words.flatten).natAbs ≤ 2 * 8
  refine Balance.stretch (fun front' back' hstart' => ?_) hsplit
  have hfront : front' = e.sent channel mode (after.take front'.length) := by
    rw [Encode.sent, ← Clocked.viewed_take]
    show front' = (e.sent channel mode after).take _
    rw [hstart', List.take_left]
  rw [hfront, ← hrun]
  exact hbound _

/-- A clock with the reset high. -/
def resetIn : EncodeIn := { pixelIn 0#8 with rstin := true }

/-- The first four symbols of a white line after a reset. -/
theorem disparity_bounded_pixels :
    let e := Encode.zero.run .blue .hdmi ([] ++ [.clkin resetIn])
    let after := List.replicate 5 (EncodeEvent.clkin (pixelIn 0xFF#8))
    let words := (e.sent .blue .hdmi after).filterMap id
    (e.run .blue .hdmi after).cnt.toInt.natAbs ≤ 8 ∧ words.length = 4 ∧
      (disparity words.flatten).natAbs ≤ 16 := by
  intro e after words
  obtain ⟨-, -, hcnt, hstretch⟩ :=
    disparity_bounded .blue .hdmi .zero [] after (r := resetIn) rfl
  have hsplit : e.sent .blue .hdmi after = [none] ++ words.map some ++ [] := by decide
  exact ⟨hcnt, by decide, hstretch _ _ words hsplit⟩

end SocChess.Hdmi
