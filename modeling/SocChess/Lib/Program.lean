import Mathlib.Logic.Basic
import Mathlib.Data.List.Basic

/-!
# Programs that may stop

A `Prog ε σ α` runs on a state of `σ`. It returns a value of `α` with the state it
leaves, or stops for a reason of `ε`; nothing is known of the state then.

* `focus`: a program on a part of the state, which leaves the rest alone.
* `loop`: a loop that is left from its middle, with a bound on its passes.
  `loop_judged_iff` says what the results are of one that runs one program and judges
  its values.
* `wp E x Q s`: from `s`, the program returns with `Q`, or stops for a reason in `E`.
  One rule for each way to build a program; `wp_loop` is the rule of the invariant, and
  `wp_repeated` of an invariant that counts the runs of a program.
-/

namespace Program

/-! ## Programs -/

structure Prog (ε σ α : Type) where
  run : σ → Except ε (α × σ)

section Operations

variable {ε σ τ α β : Type}

def Prog.bind (x : Prog ε σ α) (f : α → Prog ε σ β) : Prog ε σ β where
  run s :=
    match x.run s with
    | .ok (a, s') => (f a).run s'
    | .error e => .error e

instance : Monad (Prog ε σ) where
  pure a := ⟨fun s => .ok (a, s)⟩
  bind := Prog.bind

/-- A value of the state. -/
def read (f : σ → α) : Prog ε σ α := ⟨fun s => .ok (f s, s)⟩

def update (f : σ → σ) : Prog ε σ Unit := ⟨fun s => .ok ((), f s)⟩

/-- A step that cannot stop. -/
def act (f : σ → α × σ) : Prog ε σ α := ⟨fun s => .ok (f s)⟩

def stop (e : ε) : Prog ε σ α := ⟨fun _ => .error e⟩

/-- `x` on a part of the state. -/
def focus (get : τ → σ) (set : σ → τ → τ) (x : Prog ε σ α) : Prog ε τ α where
  run t :=
    match x.run (get t) with
    | .ok (a, s) => .ok (a, set s t)
    | .error e => .error e

/-- The outcome of a pass of a loop: the variables of the next pass, or the result. -/
inductive Outcome (ρ β : Type)
  | again (r : ρ)
  | done (b : β)

/-- At most `n` passes; a loop that would go on stops with `unfinished`. -/
def loop {ρ : Type} (unfinished : ε) (body : ρ → Prog ε σ (Outcome ρ β)) :
    Nat → ρ → Prog ε σ β
  | 0, _ => stop unfinished
  | n + 1, r => do
    match ← body r with
    | .again r' => loop unfinished body n r'
    | .done b => pure b

def repeated (x : Prog ε σ Unit) : Nat → Prog ε σ Unit
  | 0 => pure ()
  | n + 1 => do
    repeated x n
    x

end Operations

/-! ## Results -/

section Results

variable {ε σ τ α β : Type} {x : Prog ε σ α} {f : α → Prog ε σ β} {s s' : σ} {b : β}

theorem bind_of_ok {a : α} {s₁ : σ} (h : x.run s = .ok (a, s₁)) :
    (x >>= f).run s = (f a).run s₁ := by
  change (match x.run s with | .ok (a, s₁) => (f a).run s₁ | .error e => .error e) = _
  rw [h]

theorem bind_of_error {e : ε} (h : x.run s = .error e) : (x >>= f).run s = .error e := by
  change (match x.run s with | .ok (a, s₁) => (f a).run s₁ | .error e => .error e) = _
  rw [h]

theorem bind_eq_ok_iff : (x >>= f).run s = .ok (b, s') ↔
    ∃ a s₁, x.run s = .ok (a, s₁) ∧ (f a).run s₁ = .ok (b, s') := by
  cases hx : x.run s with
  | ok as =>
    rw [bind_of_ok hx]
    constructor
    · exact fun h => ⟨as.1, as.2, rfl, h⟩
    · rintro ⟨a, s₁, heq, h⟩
      cases heq
      exact h
  | error e =>
    rw [bind_of_error hx]
    exact ⟨nofun, fun ⟨_, _, heq, _⟩ => nomatch heq⟩

/-- What follows `x` matters only where `x` returns. -/
theorem bind_congr_ok {g : α → Prog ε σ β}
    (h : ∀ a s₁, x.run s = .ok (a, s₁) → (f a).run s₁ = (g a).run s₁) :
    (x >>= f).run s = (x >>= g).run s := by
  cases hx : x.run s with
  | ok as =>
    rw [bind_of_ok hx, bind_of_ok hx]
    exact h as.1 as.2 hx
  | error e => rw [bind_of_error hx, bind_of_error hx]

/-- What follows depends on the result only. -/
theorem bind_congr_run {y : Prog ε σ α} {t : σ} (h : x.run s = y.run t) :
    (x >>= f).run s = (y >>= f).run t := by
  change (match x.run s with | .ok (a, s₁) => (f a).run s₁ | .error e => .error e) = _
  rw [h]
  rfl

@[simp] theorem run_pure (a : α) : (pure a : Prog ε σ α).run s = .ok (a, s) := rfl

@[simp] theorem run_read_bind (g : σ → α) : (read g >>= f).run s = (f (g s)).run s := rfl

@[simp] theorem run_update_bind (g : σ → σ) (f : Unit → Prog ε σ β) :
    (update g >>= f).run s = (f ()).run (g s) := rfl

@[simp] theorem run_act_bind (g : σ → α × σ) :
    (act g >>= f).run s = (f (g s).1).run (g s).2 := rfl

theorem focus_eq_ok_iff {get : τ → σ} {set : σ → τ → τ} {t t' : τ} {a : α} :
    (focus get set x).run t = .ok (a, t') ↔ ∃ s, x.run (get t) = .ok (a, s) ∧ t' = set s t := by
  unfold focus
  dsimp only
  cases x.run (get t) with
  | ok as =>
    constructor
    · intro h
      cases h
      exact ⟨as.2, rfl, rfl⟩
    · rintro ⟨s, heq, rfl⟩
      cases heq
      rfl
  | error e => exact ⟨nofun, fun ⟨_, heq, _⟩ => nomatch heq⟩

theorem repeated_succ_of_ok {x : Prog ε σ Unit} {s₁ : σ} (h : x.run s = .ok ((), s₁)) (n : Nat) :
    (repeated x (n + 1)).run s = (repeated x n).run s₁ := by
  induction n with
  | zero => exact h
  | succ n ih => exact bind_congr_run ih

end Results

/-! ## Loops -/

section Loops

variable {ε σ β ρ : Type} {unfinished : ε} {body : ρ → Prog ε σ (Outcome ρ β)}

theorem loop_again {r r₁ : ρ} {s s₁ : σ} (h : (body r).run s = .ok (.again r₁, s₁)) (n : Nat) :
    (loop unfinished body (n + 1) r).run s = (loop unfinished body n r₁).run s₁ := by
  rw [loop, bind_of_ok h]

theorem loop_done {r : ρ} {s s₁ : σ} {b : β} (h : (body r).run s = .ok (.done b, s₁)) (n : Nat) :
    (loop unfinished body (n + 1) r).run s = .ok (b, s₁) := by
  rw [loop, bind_of_ok h, run_pure]

end Loops

/-! ## Loops that judge one program -/

section Judged

variable {ε σ α β γ ρ : Type}

/-- `Trace x as s s'`: run over and over, `x` returns the values `as` and leads to `s'`. -/
inductive Trace (x : Prog ε σ α) : List α → σ → σ → Prop
  | nil (s : σ) : Trace x [] s s
  | cons {a : α} {as : List α} {s s₁ s' : σ} : x.run s = .ok (a, s₁) → Trace x as s₁ s' →
      Trace x (a :: as) s s'

/-- What a loop that judges values makes of a list of them: it goes on after each but
the last. -/
def settle (judge : ρ → α → Outcome ρ β) (r : ρ) : List α → Option β
  | [] => none
  | a :: as =>
    match judge r a with
    | .again r' => settle judge r' as
    | .done b => if as.isEmpty then some b else none

theorem settle_again {judge : ρ → α → Outcome ρ β} {r r' : ρ} {a : α} {as : List α}
    (h : judge r a = .again r') : settle judge r (a :: as) = settle judge r' as := by
  rw [settle, h]

theorem settle_done {judge : ρ → α → Outcome ρ β} {r : ρ} {a : α} {as : List α} {b b' : β}
    (h : judge r a = .done b) : settle judge r (a :: as) = some b' ↔ as = [] ∧ b = b' := by
  rw [settle, h]
  cases as with
  | nil => simp
  | cons a' as => simp

/-- A pass that runs `x`, judges its value and, on leaving, runs `final`. -/
def judged (x : Prog ε σ α) (judge : ρ → α → Outcome ρ β) (final : β → Prog ε σ γ) (r : ρ) :
    Prog ε σ (Outcome ρ γ) := do
  let a ← x
  match judge r a with
  | .again r' => return .again r'
  | .done b => do
    let c ← final b
    return .done c

variable {x : Prog ε σ α} {judge : ρ → α → Outcome ρ β} {final : β → Prog ε σ γ}

theorem judged_of_again {r r' : ρ} {a : α} {s s₁ : σ} (hx : x.run s = .ok (a, s₁))
    (hj : judge r a = .again r') : (judged x judge final r).run s = .ok (.again r', s₁) := by
  rw [judged, bind_of_ok hx, hj, run_pure]

theorem judged_of_done {r : ρ} {a : α} {b : β} {c : γ} {s s₁ s' : σ}
    (hx : x.run s = .ok (a, s₁)) (hj : judge r a = .done b)
    (hfinal : (final b).run s₁ = .ok (c, s')) :
    (judged x judge final r).run s = .ok (.done c, s') := by
  rw [judged, bind_of_ok hx, hj]
  exact (bind_of_ok hfinal).trans rfl

/-- The results of such a loop: the values of `x` settle it. -/
theorem loop_judged_iff {unfinished : ε} {n : Nat} {r : ρ} {s s' : σ} {c : γ} :
    (loop unfinished (judged x judge final) n r).run s = .ok (c, s') ↔
      ∃ as b s₁, as.length ≤ n ∧ Trace x as s s₁ ∧ settle judge r as = some b ∧
        (final b).run s₁ = .ok (c, s') := by
  induction n generalizing r s with
  | zero =>
    constructor
    · exact nofun
    · rintro ⟨as, b, s₁, hlen, -, hsettle, -⟩
      rw [List.length_eq_zero_iff.mp (Nat.le_zero.mp hlen)] at hsettle
      cases hsettle
  | succ n ih =>
    constructor
    · intro h
      rw [loop, bind_eq_ok_iff] at h
      obtain ⟨outcome, s₂, hpass, hrest⟩ := h
      obtain ⟨a, s₁, hx, hjudge⟩ := bind_eq_ok_iff.mp hpass
      cases hj : judge r a with
      | again r' =>
        rw [hj] at hjudge
        cases hjudge
        obtain ⟨as, b, s₃, hlen, htrace, hsettle, hfinal⟩ := ih.mp hrest
        refine ⟨a :: as, b, s₃, Nat.succ_le_succ hlen, .cons hx htrace, ?_, hfinal⟩
        rwa [settle_again hj]
      | done b =>
        rw [hj] at hjudge
        obtain ⟨c', s₃, hfinal, heq⟩ := bind_eq_ok_iff.mp hjudge
        cases heq
        cases hrest
        exact ⟨[a], b, s₁, Nat.succ_le_succ (Nat.zero_le n), .cons hx (.nil s₁),
          (settle_done hj).mpr ⟨rfl, rfl⟩, hfinal⟩
    · rintro ⟨as, b, s₁, hlen, htrace, hsettle, hfinal⟩
      cases htrace with
      | nil => cases hsettle
      | @cons a as _ s₂ _ hx htrace =>
        cases hj : judge r a with
        | again r' =>
          rw [settle_again hj] at hsettle
          rw [loop_again (judged_of_again hx hj)]
          exact ih.mpr ⟨as, b, s₁, Nat.le_of_succ_le_succ hlen, htrace, hsettle, hfinal⟩
        | done b' =>
          obtain ⟨rfl, rfl⟩ := (settle_done hj).mp hsettle
          cases htrace
          exact loop_done (judged_of_done hx hj hfinal) n

end Judged

/-! ## Weakest preconditions -/

section Wp

variable {ε σ τ α β : Type} {E : ε → Prop}

def wp (E : ε → Prop) (x : Prog ε σ α) (Q : α → σ → Prop) (s : σ) : Prop :=
  match x.run s with
  | .ok (a, s') => Q a s'
  | .error e => E e

variable {x : Prog ε σ α} {Q R : α → σ → Prop} {s : σ}

@[simp] theorem wp_pure (a : α) : wp E (pure a : Prog ε σ α) Q s ↔ Q a s := Iff.rfl

@[simp] theorem wp_bind (f : α → Prog ε σ β) (Q : β → σ → Prop) :
    wp E (x >>= f) Q s ↔ wp E x (fun a s' => wp E (f a) Q s') s := by
  unfold wp
  cases hx : x.run s with
  | ok as => rw [bind_of_ok hx]
  | error e => rw [bind_of_error hx]

@[simp] theorem wp_read (f : σ → α) : wp E (read f) Q s ↔ Q (f s) s := Iff.rfl

@[simp] theorem wp_update (f : σ → σ) (Q : Unit → σ → Prop) :
    wp E (update f) Q s ↔ Q () (f s) := Iff.rfl

@[simp] theorem wp_act (f : σ → α × σ) : wp E (act f) Q s ↔ Q (f s).1 (f s).2 := Iff.rfl

@[simp] theorem wp_stop (e : ε) : wp E (stop e : Prog ε σ α) Q s ↔ E e := Iff.rfl

@[simp] theorem wp_ite (c : Prop) [Decidable c] (y : Prog ε σ α) :
    wp E (if c then x else y) Q s ↔ if c then wp E x Q s else wp E y Q s := by
  split <;> rfl

@[simp] theorem wp_focus (get : τ → σ) (set : σ → τ → τ) {Q : α → τ → Prop} {t : τ} :
    wp E (focus get set x) Q t ↔ wp E x (fun a s => Q a (set s t)) (get t) := by
  unfold wp focus
  dsimp only
  cases x.run (get t) with
  | ok as => rfl
  | error e => rfl

theorem wp_mono (h : wp E x Q s) (hQR : ∀ a s', Q a s' → R a s') : wp E x R s := by
  unfold wp at h ⊢
  cases hx : x.run s with
  | ok as =>
    rw [hx] at h
    exact hQR _ _ h
  | error e =>
    rw [hx] at h
    exact h

theorem wp_bind_of {f : α → Prog ε σ β} {Q : β → σ → Prop} (h : wp E x R s)
    (hf : ∀ a s', R a s' → wp E (f a) Q s') : wp E (x >>= f) Q s :=
  (wp_bind f Q).mpr (wp_mono h hf)

/-- After a program that changes nothing. -/
theorem wp_bind_read {f : α → Prog ε σ β} {Q : β → σ → Prop} (h : wp E x (fun _ s' => s' = s) s)
    (hf : ∀ a, wp E (f a) Q s) : wp E (x >>= f) Q s :=
  wp_bind_of h fun a s' hs' => by rw [hs']; exact hf a

/-- What is known of a result that is returned. -/
theorem wp_ok (h : wp E x Q s) {a : α} {s' : σ} (hx : x.run s = .ok (a, s')) : Q a s' := by
  unfold wp at h
  rwa [hx] at h

/-- What every pass keeps, and gives when it leaves, holds of the result. -/
theorem wp_loop {ρ : Type} {unfinished : ε} {body : ρ → Prog ε σ (Outcome ρ β)}
    {I : ρ → σ → Prop} {Q : β → σ → Prop} (hstop : E unfinished)
    (hbody : ∀ r s, I r s → wp E (body r) (fun outcome s' =>
      match outcome with
      | .again r' => I r' s'
      | .done b => Q b s') s)
    {n : Nat} {r : ρ} (h : I r s) : wp E (loop unfinished body n r) Q s := by
  induction n generalizing r s with
  | zero => exact hstop
  | succ n ih =>
    rw [loop, wp_bind]
    refine wp_mono (hbody r s h) fun outcome s' hs' => ?_
    cases outcome with
    | again r' => exact ih hs'
    | done b => exact hs'

theorem wp_repeated {x : Prog ε σ Unit} {I : Nat → σ → Prop}
    (hx : ∀ n s, I n s → wp E x (fun _ s' => I (n + 1) s') s) (h : I 0 s) (n : Nat) :
    wp E (repeated x n) (fun _ s' => I n s') s := by
  induction n with
  | zero => exact h
  | succ n ih =>
    rw [repeated, wp_bind]
    exact wp_mono ih fun _ s' hs' => hx n s' hs'

end Wp

end Program
