import Mathlib.Algebra.BigOperators.Group.Finset.Piecewise
import SocChess.Lib.SelectMove

/-!
# Following pieces by identity

Pieces with the same code look alike on a board. A trail gives some of the pieces
of a starting position a name and follows each of them through the moves: where
it stands, until it is captured, and how often it has moved.

* `Follows`: the trail agrees with the board. Every named piece stands where the
  trail says, no two stand on one square, and every entry with the code of a named
  piece is one of them. `Follows.relocate` is the step lemma.
* `Kept.follow`: a fact about where a piece stands and how often it has moved,
  kept by each of its moves.
* `Follows.moved_follow`: every move of a named piece is counted once.
-/

namespace Tracking

open SelectMove (relocate relocate_target relocate_other relocate_cases)

variable {K S P : Type*}

/-- The whereabouts of the named pieces `K` (`none` once captured) and the number of
moves each has made. -/
structure Trail (K S : Type*) where
  place : K → Option S
  moves : K → Nat

variable [DecidableEq S]

/-- The trail after a move from `s` to `d`. -/
def Trail.follow (t : Trail K S) (s d : S) : Trail K S where
  place k := if t.place k = some s then some d else if t.place k = some d then none else t.place k
  moves k := if t.place k = some s then t.moves k + 1 else t.moves k

/-! ## One move of one piece -/

section Follow

variable {t : Trail K S} {k : K} {s d q : S}

/-- A piece stands after a move where it was moved to, or where it stood before. -/
theorem Trail.place_follow (h : (t.follow s d).place k = some q) :
    (t.place k = some s ∧ q = d) ∨ (t.place k = some q ∧ q ≠ s ∧ q ≠ d) := by
  unfold follow at h
  simp only at h
  split at h
  · next hmoved => exact .inl ⟨hmoved, (Option.some.inj h).symm⟩
  · next hstay =>
    split at h
    · cases h
    · next hsafe =>
      refine .inr ⟨h, ?_, ?_⟩
      · rintro rfl
        exact hstay h
      · rintro rfl
        exact hsafe h

theorem Trail.moves_follow_moved (h : t.place k = some s) :
    (t.follow s d).moves k = t.moves k + 1 := if_pos h

theorem Trail.moves_follow_other (h : t.place k ≠ some s) :
    (t.follow s d).moves k = t.moves k := if_neg h

end Follow

/-! ## A trail on a board -/

/-- The trail `t` of pieces with the codes `code` agrees with `board`. -/
structure Follows (code : K → P) (board : S → P) (t : Trail K S) : Prop where
  sound : ∀ k s, t.place k = some s → board s = code k
  apart : ∀ j k s, t.place j = some s → t.place k = some s → j = k
  complete : ∀ k s, board s = code k → ∃ j, code j = code k ∧ t.place j = some s

namespace Follows

variable {code : K → P} {board : S → P} {t : Trail K S} {s d : S}

theorem relocate (h : Follows code board t) (hne : s ≠ d) {vacant : P}
    (hvacant : ∀ k, code k ≠ vacant) :
    Follows code (relocate vacant board s d) (t.follow s d) where
  sound k q hplace := by
    rcases Trail.place_follow hplace with ⟨hs, rfl⟩ | ⟨hq, hqs, hqd⟩
    · rw [relocate_target _ _ hne]
      exact h.sound k s hs
    · rw [relocate_other _ _ hqs hqd]
      exact h.sound k q hq
  apart j k q hj hk := by
    -- Whatever stood on `d` before is gone, so only the moved piece stands there.
    rcases Trail.place_follow hj with ⟨hjs, rfl⟩ | ⟨hjq, -, hjd⟩
    · rcases Trail.place_follow hk with ⟨hks, -⟩ | ⟨-, -, hkd⟩
      · exact h.apart j k s hjs hks
      · exact absurd rfl hkd
    · rcases Trail.place_follow hk with ⟨-, rfl⟩ | ⟨hkq, -, -⟩
      · exact absurd rfl hjd
      · exact h.apart j k q hjq hkq
  complete k q hq := by
    rcases relocate_cases vacant board hne q with ⟨-, heq⟩ | ⟨rfl, heq⟩ | ⟨hs, hd, heq⟩
    · rw [heq] at hq
      exact absurd hq.symm (hvacant k)
    · rw [heq] at hq
      obtain ⟨j, hcode, hplace⟩ := h.complete k s hq
      exact ⟨j, hcode, if_pos hplace⟩
    · rw [heq] at hq
      obtain ⟨j, hcode, hplace⟩ := h.complete k q hq
      refine ⟨j, hcode, ?_⟩
      have hstay : t.place j ≠ some s := by simp [hplace, hs]
      have hsafe : t.place j ≠ some d := by simp [hplace, hd]
      simp only [Trail.follow, if_neg hstay, if_neg hsafe]
      exact hplace

end Follows

/-! ## The history of a piece -/

/-- `J` holds of every piece on the board, the square it stands on and the number of
its moves. -/
def Kept (J : K → S → Nat → Prop) (t : Trail K S) : Prop :=
  ∀ k s, t.place k = some s → J k s (t.moves k)

theorem Kept.follow {J : K → S → Nat → Prop} {t : Trail K S} {s d : S} (h : Kept J t)
    (hmove : ∀ k, t.place k = some s → J k s (t.moves k) → J k d (t.moves k + 1)) :
    Kept J (t.follow s d) := by
  intro k q hplace
  rcases Trail.place_follow hplace with ⟨hs, rfl⟩ | ⟨hq, hqs, -⟩
  · rw [Trail.moves_follow_moved hs]
    exact hmove k hs (h k s hs)
  · have hstay : t.place k ≠ some s := by
      rw [hq]
      simpa using hqs
    rw [Trail.moves_follow_other hstay]
    exact h k q hq

/-! ## Counting moves -/

variable [Fintype K]

/-- The number of moves made by all named pieces. -/
def Trail.moved (t : Trail K S) : Nat := ∑ k, t.moves k

/-- A move from a square without a named piece is not counted. -/
theorem Trail.moved_follow_other {t : Trail K S} {s : S} (h : ∀ k, t.place k ≠ some s) (d : S) :
    (t.follow s d).moved = t.moved :=
  Finset.sum_congr rfl fun k _ => moves_follow_other (h k)

theorem Follows.moved_follow [DecidableEq K] {code : K → P} {board : S → P} {t : Trail K S}
    (h : Follows code board t) {k : K} {s : S} (hk : t.place k = some s) (d : S) :
    (t.follow s d).moved = t.moved + 1 := by
  have hone : ∀ j, (t.follow s d).moves j = t.moves j + if k = j then 1 else 0 := by
    intro j
    by_cases hj : k = j
    · subst hj
      rw [Trail.moves_follow_moved hk, if_pos rfl]
    · rw [Trail.moves_follow_other fun hplace => hj (h.apart k j s hk hplace), if_neg hj]
      rfl
  unfold Trail.moved
  rw [Finset.sum_congr rfl fun j _ => hone j, Finset.sum_add_distrib, Finset.sum_ite_eq]
  simp

end Tracking
