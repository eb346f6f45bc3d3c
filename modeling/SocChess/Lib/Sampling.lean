import Mathlib.Algebra.BigOperators.Group.List.Basic
import SocChess.Lib.Clocked

/-!
# A register sampled without a handshake

A writer overwrites a register and a reader samples it, each at its own pace. A word
is sampled once for every sample that falls in its window, between the write that puts
it on the register and the next write: possibly never, possibly many times.

* `System.run_reader`: a reader next to such a register goes by `reads`.
* `reads_windows`: the samples of a run, word by word.
* `sum_reads`: what an accumulating reader has added up.
* `sum_reads_once`: it is the sum of the overwritten words if each was sampled once.
-/

namespace Sampling

variable {W M : Type*}

/-- What can happen to the register. -/
inductive Access (W : Type*)
  | write (w : W)
  | sample
deriving DecidableEq, Repr

def Access.map {V : Type*} (f : V → W) : Access V → Access W
  | .write v => .write (f v)
  | .sample => .sample

/-- The words written in a run, in order. -/
def writes (es : List (Access W)) : List W :=
  es.filterMap fun
    | .write w => some w
    | .sample => none

/-- The words sampled in a run, in order, starting with `w` on the register. -/
def reads : W → List (Access W) → List W
  | _, [] => []
  | _, .write w :: es => reads w es
  | w, .sample :: es => w :: reads w es

/-- A register and the state of its reader. -/
structure System (W S : Type*) where
  word : W
  reader : S

/-- The reader takes in the current word at each sample. -/
def System.step {S : Type*} (read : S → W → S) (x : System W S) : Access W → System W S
  | .write w => { x with word := w }
  | .sample => { x with reader := read x.reader x.word }

theorem System.run_reader {S : Type*} (read : S → W → S) (x : System W S) (es : List (Access W)) :
    (Clocked.run (System.step read) x es).reader = Clocked.run read x.reader (reads x.word es) := by
  induction es generalizing x with
  | nil => rfl
  | cons e es ih =>
    cases e with
    | write w => exact ih { x with word := w }
    | sample => exact ih { x with reader := read x.reader x.word }

/-- The words that were overwritten in a run, in order, each with the number of
samples in its window; `w` has been sampled `n` times before the run. -/
def overwritten : W → Nat → List (Access W) → List (W × Nat)
  | _, _, [] => []
  | w, n, .write w' :: es => (w, n) :: overwritten w' 0 es
  | w, n, .sample :: es => overwritten w (n + 1) es

/-- The word still on the register, with the number of times it has been sampled. -/
def pending : W → Nat → List (Access W) → W × Nat
  | w, n, [] => (w, n)
  | _, _, .write w' :: es => pending w' 0 es
  | w, n, .sample :: es => pending w (n + 1) es

/-- The windows are those of the first word and of the words written. -/
theorem windows_words (w : W) (n : Nat) (es : List (Access W)) :
    (overwritten w n es).map Prod.fst ++ [(pending w n es).1] = w :: writes es := by
  induction es generalizing w n with
  | nil => rfl
  | cons e es ih =>
    cases e with
    | write w' => exact congrArg (w :: ·) (ih w' 0)
    | sample => exact ih w (n + 1)

/-- Each word is sampled as often as there are samples in its window. -/
theorem reads_windows (w : W) (n : Nat) (es : List (Access W)) :
    List.replicate n w ++ reads w es =
      (overwritten w n es).flatMap (fun p => List.replicate p.2 p.1) ++
        List.replicate (pending w n es).2 (pending w n es).1 := by
  induction es generalizing w n with
  | nil => simp [reads, overwritten, pending]
  | cons e es ih =>
    cases e with
    | write w' =>
      have h := ih w' 0
      simp only [List.replicate_zero, List.nil_append] at h
      simp only [reads, overwritten, pending, List.flatMap_cons, List.append_assoc, h]
    | sample =>
      have h := ih w (n + 1)
      rw [List.replicate_succ', List.append_assoc] at h
      exact h

section Sum

variable [AddCommMonoid M] (f : W → M)

theorem sum_flatMap_replicate (ps : List (W × Nat)) :
    ((ps.flatMap fun p => List.replicate p.2 p.1).map f).sum =
      (ps.map fun p => p.2 • f p.1).sum := by
  induction ps with
  | nil => rfl
  | cons p ps ih => simp [ih]

/-- A reader that adds up what it samples adds each word once per sample in its
window. -/
theorem sum_reads (w : W) (es : List (Access W)) :
    ((reads w es).map f).sum =
      ((overwritten w 0 es).map fun p => p.2 • f p.1).sum +
        (pending w 0 es).2 • f (pending w 0 es).1 := by
  have h := reads_windows w 0 es
  simp only [List.replicate_zero, List.nil_append] at h
  rw [h, List.map_append, List.sum_append, sum_flatMap_replicate, List.map_replicate,
    List.sum_replicate]

/-- If every overwritten word that counts was sampled exactly once, the sum is that
of the overwritten words and the samples of the pending one. -/
theorem sum_reads_once {w : W} {es : List (Access W)}
    (honce : ∀ p ∈ overwritten w 0 es, f p.1 ≠ 0 → p.2 = 1) :
    ((reads w es).map f).sum =
      ((overwritten w 0 es).map fun p => f p.1).sum +
        (pending w 0 es).2 • f (pending w 0 es).1 := by
  rw [sum_reads]
  congr 2
  refine List.map_congr_left fun p hp => ?_
  by_cases hzero : f p.1 = 0
  · rw [hzero, nsmul_zero]
  · rw [honce p hp hzero, one_nsmul]

end Sum

end Sampling
