import Mathlib.Data.Nat.ModEq
import Mathlib.Logic.ExistsUnique
import SocChess.Lib.Clocked

/-!
# Machines that go round in a cycle

A free-running machine is a step `f : σ → σ` without inputs. `Cycles` says that on an
invariant set of states it steps through the positions `0, …, N - 1` in cyclic order.
Then any `N` consecutive states visit each position exactly once
(`Cycles.visits_once`), and any event that belongs to one position happens exactly
once among them (`Cycles.happens_once`). `settles` is the rule for getting into such
a set from anywhere: a measure that falls by one at every step until it is zero.
-/

namespace Cyclic

variable {σ ι : Type*} {f : σ → σ}

/-- On the states `I`, which it does not leave, `f` steps through `N` positions in
cyclic order. -/
structure Cycles (f : σ → σ) (I : σ → Prop) (pos : σ → Nat) (N : Nat) : Prop where
  closed : ∀ s, I s → I (f s)
  bounded : ∀ s, I s → pos s < N
  next : ∀ s, I s → pos (f s) = (pos s + 1) % N

/-! ## Going round -/

namespace Cycles

variable {I : σ → Prop} {pos : σ → Nat} {N : Nat} {s : σ}

theorem closed_iterate (h : Cycles f I pos N) (hs : I s) (n : Nat) : I (f^[n] s) := by
  induction n with
  | zero => exact hs
  | succ n ih =>
    rw [Function.iterate_succ_apply']
    exact h.closed _ ih

theorem pos_iterate (h : Cycles f I pos N) (hs : I s) (n : Nat) :
    pos (f^[n] s) = (pos s + n) % N := by
  induction n with
  | zero => exact (Nat.mod_eq_of_lt (h.bounded s hs)).symm
  | succ n ih =>
    rw [Function.iterate_succ_apply', h.next _ (h.closed_iterate hs n), ih, Nat.mod_add_mod,
      Nat.add_assoc]

/-- In any `N` consecutive states each position is visited exactly once. -/
theorem visits_once (h : Cycles f I pos N) (hs : I s) {p : Nat} (hp : p < N) :
    ∃! n, n < N ∧ pos (f^[n] s) = p := by
  have hlt := h.bounded s hs
  have hpos : 0 < N := Nat.zero_lt_of_lt hp
  refine ⟨(p + (N - pos s)) % N, ⟨Nat.mod_lt _ hpos, ?_⟩, ?_⟩
  · have hround : pos s + (p + (N - pos s)) = p + N := by omega
    rw [h.pos_iterate hs, Nat.add_mod_mod, hround, Nat.add_mod_right, Nat.mod_eq_of_lt hp]
  · rintro n ⟨hn, hvisit⟩
    rw [h.pos_iterate hs] at hvisit
    have hsame : pos s + n ≡ pos s + (p + (N - pos s)) [MOD N] := by
      have hround : pos s + (p + (N - pos s)) = p + N := by omega
      rw [hround, Nat.ModEq, hvisit, Nat.add_mod_right, Nat.mod_eq_of_lt hp]
    have hmod : n % N = (p + (N - pos s)) % N := Nat.ModEq.add_left_cancel' _ hsame
    rwa [Nat.mod_eq_of_lt hn] at hmod

/-- An event that happens at exactly one position happens exactly once in any `N`
consecutive states. -/
theorem happens_once (h : Cycles f I pos N) (hs : I s) (event : σ → Prop) {p : Nat} (hp : p < N)
    (hevent : ∀ s, I s → (event s ↔ pos s = p)) : ∃! n, n < N ∧ event (f^[n] s) := by
  obtain ⟨n, ⟨hn, hvisit⟩, hunique⟩ := h.visits_once hs hp
  refine ⟨n, ⟨hn, (hevent _ (h.closed_iterate hs n)).mpr hvisit⟩, ?_⟩
  rintro m ⟨hm, hhappens⟩
  exact hunique m ⟨hm, (hevent _ (h.closed_iterate hs m)).mp hhappens⟩

end Cycles

/-! ## Settling -/

/-- A measure that falls at every step until it is zero is zero after as many steps as
it was at the start, and stays zero. -/
theorem settles {μ : σ → Nat} (hfall : ∀ s, μ (f s) ≤ μ s - 1) {s : σ} {n : Nat} (h : μ s ≤ n) :
    μ (f^[n] s) = 0 := by
  induction n generalizing s with
  | zero => exact Nat.le_zero.mp h
  | succ n ih =>
    have hstep := hfall s
    rw [Function.iterate_succ_apply]
    exact ih (by omega)

/-- Running a clocked machine on a constant input. -/
theorem run_replicate (step : σ → ι → σ) (s : σ) (i : ι) (n : Nat) :
    Clocked.run step s (List.replicate n i) = (fun s => step s i)^[n] s := by
  induction n generalizing s with
  | zero => rfl
  | succ n ih => rw [List.replicate_succ, Clocked.run_cons, ih, Function.iterate_succ_apply]

end Cyclic
