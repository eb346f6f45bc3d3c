import Mathlib.Logic.Basic
import Mathlib.Data.List.Basic
import Mathlib.Data.List.Induction

/-!
# Clocked machines

A clocked machine is a next-state function `step : σ → ι → σ`; a run folds it
over a list of inputs, one per clock. This module has the rules that a proof
about whole runs uses in place of its own induction:

* `run_invariant`, `run_invariant_mem`: what one step keeps, every run keeps;
* `run_related`: two machines that one step keeps related stay related;
* `feed`: the same for an endless stream of inputs;
* `run_simulates`: a step-by-step abstraction, where the abstract machine sees
  each input through a state-dependent view (an input it must not see becomes
  its idle input), is an abstraction of runs;
* `Latest` and `run_latest`: the last input of a kind in a run, and what it has set
  up;
* `AfterReset`: the states reached after at least one reset input, from any
  power-up state, with `AfterReset.invariant` as their induction rule;
* `total`: how many clocks of a run have a cost, with `run_counter` for a counter
  in the state;
* `changes` and `changes_le_total`: how often an observation changes along a
  run, bounded by a potential and a per-step cost.
-/

namespace Clocked

variable {σ τ ι κ ω : Type*}

/-! ## Runs -/

/-- The state after the inputs `is`, one per clock, from `s`. -/
def run (step : σ → ι → σ) (s : σ) (is : List ι) : σ := is.foldl step s

section Runs

variable {step : σ → ι → σ}

@[simp] theorem run_nil (s : σ) : run step s [] = s := rfl

@[simp] theorem run_cons (s : σ) (i : ι) (is : List ι) :
    run step s (i :: is) = run step (step s i) is := rfl

theorem run_append (s : σ) (is js : List ι) :
    run step s (is ++ js) = run step (run step s is) js := List.foldl_append

theorem run_concat (s : σ) (is : List ι) (i : ι) :
    run step s (is ++ [i]) = step (run step s is) i := run_append s is [i]

theorem run_map (f : κ → ι) (s : σ) (ks : List κ) :
    run step s (ks.map f) = run (fun s k => step s (f k)) s ks := List.foldl_map

/-- The rule for runs whose inputs all satisfy `P`. -/
theorem run_invariant_mem {I : σ → Prop} {P : ι → Prop} (hstep : ∀ s i, P i → I s → I (step s i))
    {s : σ} (hs : I s) {is : List ι} (his : ∀ i ∈ is, P i) : I (run step s is) := by
  induction is generalizing s with
  | nil => exact hs
  | cons i is ih =>
    have hfirst : I (step s i) := hstep s i (his i List.mem_cons_self) hs
    exact ih hfirst fun j hj => his j (List.mem_cons_of_mem _ hj)

theorem run_invariant {I : σ → Prop} (hstep : ∀ s i, I s → I (step s i)) {s : σ} (hs : I s)
    (is : List ι) : I (run step s is) :=
  run_invariant_mem (P := fun _ => True) (fun s i _ h => hstep s i h) hs fun _ _ => trivial

/-- Two machines, the second fed `f i` where the first is fed `i`, stay related
along every run. -/
theorem run_related {step' : τ → κ → τ} {R : σ → τ → Prop} {f : ι → κ}
    (hstep : ∀ s t i, R s t → R (step s i) (step' t (f i))) {s : σ} {t : τ} (h : R s t)
    (is : List ι) : R (run step s is) (run step' t (is.map f)) := by
  induction is generalizing s t with
  | nil => exact h
  | cons i is ih => exact ih (hstep s t i h)

/-- A part of the state with a next-state function of its own. -/
theorem run_project {step' : τ → ι → τ} {f : σ → τ} (hstep : ∀ s i, f (step s i) = step' (f s) i)
    (s : σ) (is : List ι) : f (run step s is) = run step' (f s) is := by
  induction is generalizing s with
  | nil => rfl
  | cons i is ih => rw [run_cons, ih, hstep, run_cons]

end Runs

/-! ## Streams of inputs -/

/-- The state after the first `n` inputs of an endless stream. -/
def feed (step : σ → ι → σ) (s : σ) (is : Nat → ι) : Nat → σ
  | 0 => s
  | n + 1 => step (feed step s is n) (is n)

section Streams

variable {step : σ → ι → σ}

theorem feed_add (s : σ) (is : Nat → ι) (n m : Nat) :
    feed step s is (n + m) =
      run step (feed step s is n) ((List.range m).map fun k => is (n + k)) := by
  induction m with
  | zero => rfl
  | succ m ih =>
    rw [List.range_succ, List.map_append, run_append, ← ih]
    rfl

theorem feed_shift (s : σ) (is : Nat → ι) (n m : Nat) :
    feed step s is (n + m) = feed step (feed step s is n) (fun k => is (n + k)) m := by
  induction m with
  | zero => rfl
  | succ m ih => rw [← Nat.add_assoc, feed, ih, feed]

/-- A part of the state that steps on its own, by inputs that the whole computes. -/
theorem feed_project {step' : τ → κ → τ} {f : σ → τ} {g : σ → ι → κ}
    (hstep : ∀ s i, f (step s i) = step' (f s) (g s i)) (s : σ) (is : Nat → ι) (n : Nat) :
    f (feed step s is n) = feed step' (f s) (fun k => g (feed step s is k) (is k)) n := by
  induction n with
  | zero => rfl
  | succ n ih => rw [feed, hstep, ih, feed]

end Streams

/-! ## Simulation through a view -/

/-- What an observer sees of the inputs `is` when input `i` at state `s` looks
like `view s i`. -/
def viewed (step : σ → ι → σ) (view : σ → ι → κ) : σ → List ι → List κ
  | _, [] => []
  | s, i :: is => view s i :: viewed step view (step s i) is

theorem run_simulates {step : σ → ι → σ} {astep : τ → κ → τ} {view : σ → ι → κ} {abs : σ → τ}
    {I : σ → Prop} (hinv : ∀ s i, I s → I (step s i))
    (hstep : ∀ s i, I s → abs (step s i) = astep (abs s) (view s i)) {s : σ} (hs : I s)
    (is : List ι) : abs (run step s is) = run astep (abs s) (viewed step view s is) := by
  induction is generalizing s with
  | nil => rfl
  | cons i is ih =>
    rw [run_cons, ih (hinv s i hs), hstep s i hs]
    rfl

theorem mem_viewed {step : σ → ι → σ} {view : σ → ι → κ} {s : σ} {is : List ι} {k : κ}
    (h : k ∈ viewed step view s is) : ∃ s' i, i ∈ is ∧ k = view s' i := by
  induction is generalizing s with
  | nil => exact absurd h List.not_mem_nil
  | cons i is ih =>
    simp only [viewed, List.mem_cons] at h
    rcases h with rfl | h
    · exact ⟨s, i, List.mem_cons_self, rfl⟩
    · obtain ⟨s', i', hmem, hk⟩ := ih h
      exact ⟨s', i', List.mem_cons_of_mem _ hmem, hk⟩

theorem viewed_take (step : σ → ι → σ) (view : σ → ι → κ) (s : σ) (is : List ι) (n : Nat) :
    (viewed step view s is).take n = viewed step view s (is.take n) := by
  induction is generalizing s n with
  | nil => rw [viewed, List.take_nil, List.take_nil, viewed]
  | cons i is ih =>
    cases n with
    | zero => rfl
    | succ n => rw [viewed, List.take_succ_cons, List.take_succ_cons, viewed, ih]

/-! ## The latest input of a kind -/

/-- Of the inputs of the run, `i` between `front` and `back` is the last one for which
`sel` holds. -/
structure Latest (step : σ → ι → σ) (sel : σ → ι → Bool) (s : σ) (is front : List ι) (i : ι)
    (back : List ι) : Prop where
  split : is = front ++ i :: back
  holds : sel (run step s front) i = true
  last : ∀ between j after, back = between ++ j :: after →
    sel (run step s (front ++ i :: between)) j = false

section Latest

variable {step : σ → ι → σ} {sel : σ → ι → Bool} {s : σ} {is front back : List ι} {i : ι}

theorem Latest.of_last (h : sel (run step s front) i = true) :
    Latest step sel s (front ++ [i]) front i [] where
  split := rfl
  holds := h
  last between j after hsplit := by simp at hsplit

theorem Latest.snoc (h : Latest step sel s is front i back) {j : ι}
    (hj : sel (run step s is) j = false) :
    Latest step sel s (is ++ [j]) front i (back ++ [j]) where
  split := by rw [h.split, List.append_assoc, List.cons_append]
  holds := h.holds
  last between j' after hsplit := by
    rcases List.eq_nil_or_concat after with rfl | ⟨after', j'', rfl⟩
    · obtain ⟨rfl, hsame⟩ := List.append_inj' hsplit rfl
      obtain rfl : j = j' := by simpa using hsame
      rw [← h.split]
      exact hj
    · rw [List.concat_eq_append, ← List.cons_append, ← List.append_assoc] at hsplit
      obtain ⟨hback, -⟩ := List.append_inj' hsplit rfl
      exact h.last between j' after' hback

/-- If a state with `P` is entered only through inputs selected by `sel`, then in a run
from a state without `P` to one with `P` there is a latest such input, and a relation to
it that it sets up and that no other input breaks holds at the end. -/
theorem run_latest {I P : σ → Prop} {R : ι → σ → Prop} (hinv : ∀ s i, I s → I (step s i))
    (hset : ∀ s i, I s → sel s i = true → R i (step s i))
    (henter : ∀ s i, I s → sel s i = false → P (step s i) → P s)
    (hkeep : ∀ s i i₀, I s → sel s i = false → P (step s i) → R i₀ s → R i₀ (step s i))
    (hs : I s) (hstart : ¬ P s) (is : List ι) (hend : P (run step s is)) :
    ∃ front i back, Latest step sel s is front i back ∧ R i (run step s is) := by
  -- From the end of the run: the last input is the one looked for, or it changes nothing.
  induction is using List.reverseRecOn with
  | nil => exact absurd hend hstart
  | append_singleton is j ih =>
    have hreach : I (run step s is) := run_invariant hinv hs is
    rw [run_append] at hend ⊢
    cases hj : sel (run step s is) j with
    | true => exact ⟨is, j, [], .of_last hj, hset _ j hreach hj⟩
    | false =>
      have hbefore : P (run step s is) := henter _ j hreach hj hend
      obtain ⟨front, i, back, hlatest, hrel⟩ := ih hbefore
      exact ⟨front, i, back ++ [j], hlatest.snoc hj, hkeep _ j i hreach hj hend hrel⟩

end Latest

/-! ## Reset -/

/-- `s` is reached by a run with at least one reset input in it. Nothing is
assumed of the power-up state. -/
def AfterReset (step : σ → ι → σ) (isReset : ι → Prop) (s : σ) : Prop :=
  ∃ power before r after, isReset r ∧ s = run step power (before ++ r :: after)

namespace AfterReset

variable {step : σ → ι → σ} {isReset : ι → Prop}

theorem of_reset (s : σ) {r : ι} (hr : isReset r) : AfterReset step isReset (step s r) :=
  ⟨s, [], r, [], hr, rfl⟩

theorem extend {s : σ} (h : AfterReset step isReset s) (is : List ι) :
    AfterReset step isReset (run step s is) := by
  obtain ⟨power, before, r, after, hr, rfl⟩ := h
  refine ⟨power, before, r, after ++ is, hr, ?_⟩
  rw [← run_append, List.append_assoc, List.cons_append]

/-- Induction over the states reached after a reset. -/
theorem invariant {I : σ → Prop} (hreset : ∀ s r, isReset r → I (step s r))
    (hstep : ∀ s i, I s → I (step s i)) {s : σ} (h : AfterReset step isReset s) : I s := by
  obtain ⟨power, before, r, after, hr, rfl⟩ := h
  rw [run_append, run_cons]
  exact run_invariant hstep (hreset _ r hr) after

/-- The last input was the reset, or the state before it was also reached after
a reset. -/
theorem last {s : σ} (h : AfterReset step isReset s) :
    (∃ s₀ r, isReset r ∧ s = step s₀ r) ∨ ∃ s₀ i, AfterReset step isReset s₀ ∧ s = step s₀ i := by
  obtain ⟨power, before, r, after, hr, rfl⟩ := h
  rcases List.eq_nil_or_concat after with rfl | ⟨front, i, rfl⟩
  · exact .inl ⟨run step power before, r, hr, by rw [run_append]; rfl⟩
  · refine .inr ⟨run step power (before ++ r :: front), i,
      ⟨power, before, r, front, hr, rfl⟩, ?_⟩
    rw [List.concat_eq_append, ← List.cons_append, ← List.append_assoc, run_append]
    rfl

end AfterReset

/-! ## Changes of an observation -/

section Changes

variable (step : σ → ι → σ)

/-- The number of clocks of the run at which `obs` changes. -/
def changes [DecidableEq ω] (obs : σ → ω) : σ → List ι → Nat
  | _, [] => 0
  | s, i :: is => (if obs (step s i) = obs s then 0 else 1) + changes obs (step s i) is

/-- The number of clocks of the run at which `cost` holds. -/
def total (cost : σ → ι → Bool) : σ → List ι → Nat
  | _, [] => 0
  | s, i :: is => (if cost s i then 1 else 0) + total cost (step s i) is

variable {step}

/-- No clock of a run has a cost that none of its prefixes is followed by. -/
theorem total_eq_zero {cost : σ → ι → Bool} {s : σ} {is : List ι}
    (h : ∀ before i after, is = before ++ i :: after → cost (run step s before) i = false) :
    total step cost s is = 0 := by
  induction is generalizing s with
  | nil => rfl
  | cons i is ih =>
    have hhead : cost s i = false := h [] i is rfl
    have htail : total step cost (step s i) is = 0 :=
      ih fun before j after hsplit => h (i :: before) j after (by rw [hsplit]; rfl)
    simp [total, hhead, htail]

theorem total_project {step' : τ → ι → τ} {f : σ → τ} (hstep : ∀ s i, f (step s i) = step' (f s) i)
    (cost : τ → ι → Bool) (s : σ) (is : List ι) :
    total step (fun s i => cost (f s) i) s is = total step' cost (f s) is := by
  induction is generalizing s with
  | nil => rfl
  | cons i is ih => rw [total, total, ih, hstep]

/-- A counter that goes up exactly at the clocks of cost. -/
theorem run_counter {I : σ → Prop} {cost : σ → ι → Bool} {count : σ → Nat}
    (hinv : ∀ s i, I s → I (step s i))
    (hcount : ∀ s i, I s → count (step s i) = count s + if cost s i then 1 else 0) {s : σ}
    (hs : I s) (is : List ι) : count (run step s is) = count s + total step cost s is := by
  induction is generalizing s with
  | nil => rfl
  | cons i is ih => rw [run_cons, ih (hinv s i hs), hcount s i hs, total, Nat.add_assoc]

/-! The rules below bound the changes of `obs` by a potential `φ` and a cost:
every change is paid for by a fall of `φ`, and `φ` rises by at most one and only
at a clock of cost. -/

section Potential

variable [DecidableEq ω] {obs : σ → ω} {cost : σ → ι → Bool} {φ : σ → Nat} {I : σ → Prop}
  (hinv : ∀ s i, I s → I (step s i))
  (hpay : ∀ s i, I s → (if obs (step s i) = obs s then 0 else 1) + φ (step s i) ≤
    φ s + if cost s i then 1 else 0)

include hinv hpay

/-- There are at most as many changes as potential and total cost. -/
theorem changes_le_total {s : σ} (hs : I s) (is : List ι) :
    changes step obs s is ≤ φ s + total step cost s is := by
  induction is generalizing s with
  | nil => simp [changes]
  | cons i is ih =>
    have hhead := hpay s i hs
    have htail := ih (hinv s i hs)
    simp only [changes, total]
    omega

/-- If a change leaves no potential behind and no clock has a cost once `obs` has
changed, `obs` changes at most once. -/
theorem changes_le_one (hspent : ∀ s i, I s → obs (step s i) ≠ obs s → φ (step s i) = 0) {s : σ}
    (hs : I s) {is : List ι}
    (h : ∀ before i after, is = before ++ i :: after → 1 ≤ changes step obs s before →
      cost (run step s before) i = false) : changes step obs s is ≤ 1 := by
  induction is generalizing s with
  | nil => simp [changes]
  | cons i is ih =>
    by_cases hsame : obs (step s i) = obs s
    · have htail : changes step obs (step s i) is ≤ 1 := by
        refine ih (hinv s i hs) fun before j after hsplit hchanged => ?_
        refine h (i :: before) j after (by rw [hsplit]; rfl) ?_
        simpa [changes, hsame] using hchanged
      simpa [changes, hsame] using htail
    · have hfree : total step cost (step s i) is = 0 := by
        refine total_eq_zero fun before j after hsplit => ?_
        refine h (i :: before) j after (by rw [hsplit]; rfl) ?_
        simp [changes, hsame]
      have hbound := changes_le_total hinv hpay (hinv s i hs) is
      rw [hfree, hspent s i hs hsame] at hbound
      simp only [changes, if_neg hsame]
      omega

end Potential

end Changes

end Clocked
