import Mathlib.Data.Bool.Count
import Mathlib.Data.List.Count
import Mathlib.Logic.Function.Basic
import SocChess.Lib.Clocked

/-!
# Line codes

A line code turns data bits into bits that suit a serial line: few transitions, and as
many ones as zeros in the long run.

* `bits`: a word as the list of its bits.
* `chain`, `unchain`: differential coding of a word by XOR or XNOR, and its inverse.
* `transitions_chain`: the coded word changes where the data has ones, or zeros.
* `transitions_fewer`: choosing between the two by the majority of the data bits keeps
  the transitions below half of the word's length.
* `disparity`: ones less zeros.
* `Balance`: the running disparity of a stream of words with gaps, and the bound it
  gives for every stretch without a gap.
-/

namespace LineCode

/-! ## Words -/

/-- The bits of a word, the least significant one first. -/
def bits {n : Nat} (w : BitVec n) : List Bool := List.ofFn fun i : Fin n => w[i]

@[simp] theorem length_bits {n : Nat} (w : BitVec n) : (bits w).length = n := List.length_ofFn

theorem bits_append {n m : Nat} (hi : BitVec n) (lo : BitVec m) :
    bits (hi ++ lo) = bits lo ++ bits hi := by
  refine List.ext_getElem (by simp [Nat.add_comm]) fun i hi' hlo' => ?_
  simp only [bits, List.getElem_ofFn, List.getElem_append, List.length_ofFn]
  rw [Fin.getElem_fin, BitVec.getElem_append]
  split
  · rfl
  · rfl

theorem bits_not {n : Nat} (w : BitVec n) : bits (~~~w) = (bits w).map not := by
  refine List.ext_getElem (by simp) fun i hi' _ => ?_
  simp [bits]

theorem bits_ofBoolListLE (bs : List Bool) : bits (BitVec.ofBoolListLE bs) = bs := by
  refine List.ext_getElem (by simp) fun i _ hi => ?_
  simp only [bits, List.getElem_ofFn, Fin.getElem_fin]
  rw [← BitVec.getLsbD_eq_getElem, BitVec.getLsbD_ofBoolListLE, List.getD_eq_getElem?_getD,
    List.getElem?_eq_getElem hi, Option.getD_some]

theorem bits_eq {n : Nat} (w : BitVec n) : bits w = (List.range n).map w.getLsbD := by
  refine List.ext_getElem (by simp) fun i hi _ => ?_
  have hlt : i < n := by simpa using hi
  simp [bits, BitVec.getLsbD_eq_getElem hlt]

theorem bits_injective {n : Nat} {v w : BitVec n} (h : bits v = bits w) : v = w := by
  refine BitVec.eq_of_getElem_eq fun i hi => ?_
  have hbit := congrArg (·[i]?) h
  simpa [bits, hi] using hbit

theorem getLsbD_eq_getD {n : Nat} (w : BitVec n) (k : Nat) :
    w.getLsbD k = (bits w).getD k false := by
  rw [bits_eq]
  by_cases hk : k < n
  · simp [hk]
  · simp [hk, BitVec.getLsbD_of_ge _ _ (Nat.le_of_not_lt hk)]

theorem bits_setWidth {n m : Nat} (h : m ≤ n) (w : BitVec n) :
    bits (w.setWidth m) = (bits w).take m := by
  refine List.ext_getElem (by simp [h]) fun i hi _ => ?_
  have hlt : i < m := by simpa using hi
  simp [bits, BitVec.getElem_setWidth, BitVec.getLsbD_eq_getElem (Nat.lt_of_lt_of_le hlt h)]

/-- The word with the given bits. -/
def fromBits (n : Nat) (bs : List Bool) : BitVec n := (BitVec.ofBoolListLE bs).setWidth n

theorem fromBits_bits {n : Nat} (w : BitVec n) : fromBits n (bits w) = w := by
  refine bits_injective ?_
  rw [fromBits, bits_setWidth (by simp), bits_ofBoolListLE]
  exact List.take_of_length_le (by simp)

theorem fromBits_getLsbD {n i : Nat} (f : Fin n → Bool) (hi : i < n) :
    (fromBits n (List.ofFn f)).getLsbD i = f ⟨i, hi⟩ := by
  rw [fromBits, BitVec.getLsbD_setWidth, BitVec.getLsbD_ofBoolListLE]
  simp [hi]

/-! ## Differential coding -/

/-- Each bit is the XOR of the data bit with the bit before it, inverted if `inv`. -/
def chain (inv : Bool) : Bool → List Bool → List Bool
  | _, [] => []
  | prev, d :: ds => ((prev ^^ d) ^^ inv) :: chain inv ((prev ^^ d) ^^ inv) ds

def unchain (inv : Bool) : Bool → List Bool → List Bool
  | _, [] => []
  | prev, q :: qs => ((prev ^^ q) ^^ inv) :: unchain inv q qs

@[simp] theorem length_chain (inv prev : Bool) (ds : List Bool) :
    (chain inv prev ds).length = ds.length := by
  induction ds generalizing prev with
  | nil => rfl
  | cons d ds ih => rw [chain, List.length_cons, List.length_cons, ih]

theorem unchain_chain (inv prev : Bool) (ds : List Bool) :
    unchain inv prev (chain inv prev ds) = ds := by
  induction ds generalizing prev with
  | nil => rfl
  | cons d ds ih =>
    have hhead : ((prev ^^ ((prev ^^ d) ^^ inv)) ^^ inv) = d := by
      cases prev <;> cases d <;> cases inv <;> rfl
    rw [chain, unchain, ih, hhead]

/-- The number of changes along the bits, the first being compared with `prev`. -/
def transitions : Bool → List Bool → Nat
  | _, [] => 0
  | prev, q :: qs => (if q = prev then 0 else 1) + transitions q qs

/-- The number of changes within a word. -/
def changesIn : List Bool → Nat
  | [] => 0
  | q :: qs => transitions q qs

theorem transitions_chain (inv prev : Bool) (ds : List Bool) :
    transitions prev (chain inv prev ds) = ds.count (!inv) := by
  induction ds generalizing prev with
  | nil => rfl
  | cons d ds ih =>
    rw [chain, transitions, ih, List.count_cons, Nat.add_comm]
    cases prev <;> cases d <;> cases inv <;> rfl

/-- Inverting all bits changes no change. -/
theorem transitions_map_xor (flip prev : Bool) (qs : List Bool) :
    transitions (flip ^^ prev) (qs.map (flip ^^ ·)) = transitions prev qs := by
  induction qs generalizing prev with
  | nil => rfl
  | cons q qs ih =>
    rw [List.map_cons, transitions, transitions, ih]
    cases flip <;> cases q <;> cases prev <;> rfl

theorem transitions_le_length (prev : Bool) (qs : List Bool) :
    transitions prev qs ≤ qs.length := by
  induction qs generalizing prev with
  | nil => exact Nat.le_refl 0
  | cons q qs ih =>
    have htail := ih q
    rw [transitions, List.length_cons]
    split <;> omega

theorem transitions_append_le (prev : Bool) (qs rs : List Bool) :
    transitions prev (qs ++ rs) ≤ transitions prev qs + rs.length := by
  induction qs generalizing prev with
  | nil =>
    have hbound := transitions_le_length prev rs
    rw [List.nil_append, transitions]
    omega
  | cons q qs ih =>
    have htail := ih q
    rw [List.cons_append, transitions, transitions]
    omega

/-- XNOR for a word with a majority of ones, or, without a majority, for a word that
begins with a zero. -/
def byMajority (head : Bool) (tail : List Bool) : Bool :=
  decide ((head :: tail).count false < (head :: tail).count true) ||
    (decide ((head :: tail).count true = (head :: tail).count false) && !head)

theorem transitions_fewer (head : Bool) (tail : List Bool) :
    2 * transitions head (chain (byMajority head tail) head tail) < tail.length + 1 := by
  have htotal := List.count_true_add_count_false tail
  rw [transitions_chain]
  cases hinv : byMajority head tail with
  | true =>
    have hfew : 2 * tail.count false < tail.length + 1 := by
      cases head with
      | true => simp [byMajority] at hinv; omega
      | false => simp [byMajority] at hinv; omega
    exact hfew
  | false =>
    have hfew : 2 * tail.count true < tail.length + 1 := by
      cases head with
      | true => simp [byMajority] at hinv; omega
      | false => simp [byMajority] at hinv; omega
    exact hfew

/-! ## Disparity -/

/-- Ones less zeros. -/
def disparity (qs : List Bool) : Int := qs.count true - qs.count false

theorem disparity_append (qs rs : List Bool) :
    disparity (qs ++ rs) = disparity qs + disparity rs := by
  unfold disparity
  rw [List.count_append, List.count_append]
  omega

@[simp] theorem disparity_map_not (qs : List Bool) : disparity (qs.map not) = - disparity qs := by
  have hones : (qs.map not).count true = qs.count false := by
    simpa using List.count_map_of_injective qs not Bool.involutive_not.injective false
  have hzeros : (qs.map not).count false = qs.count true := by
    simpa using List.count_map_of_injective qs not Bool.involutive_not.injective true
  unfold disparity
  rw [hones, hzeros]
  omega

/-! ## Running disparity -/

/-- The running disparity of a stream of words. A gap sets it back to zero. -/
def Balance.step (acc : Int) : Option (List Bool) → Int
  | some qs => acc + disparity qs
  | none => 0

namespace Balance

theorem run_words (acc : Int) (words : List (List Bool)) :
    Clocked.run Balance.step acc (words.map some) = acc + disparity words.flatten := by
  induction words generalizing acc with
  | nil => simp [disparity]
  | cons qs words ih =>
    rw [List.map_cons, Clocked.run_cons, ih, List.flatten_cons, disparity_append, Balance.step,
      Int.add_assoc]

/-- If the running disparity never leaves `[-bound, bound]`, no stretch of the stream
without a gap has more than `2 * bound` ones more than zeros, or zeros more than ones. -/
theorem stretch {bound : Nat} {stream : List (Option (List Bool))}
    (hbound : ∀ front back, stream = front ++ back →
      (Clocked.run Balance.step 0 front).natAbs ≤ bound)
    {front back : List (Option (List Bool))} {words : List (List Bool)}
    (hsplit : stream = front ++ words.map some ++ back) :
    (disparity words.flatten).natAbs ≤ 2 * bound := by
  have hstart := hbound front (words.map some ++ back) (by rw [hsplit, List.append_assoc])
  have hend := hbound (front ++ words.map some) back hsplit
  rw [Clocked.run_append, run_words] at hend
  omega

end Balance

end LineCode
