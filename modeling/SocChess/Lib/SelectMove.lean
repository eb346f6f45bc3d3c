import Mathlib.Logic.Function.Basic
import SocChess.Lib.Clocked

/-!
# Two-player select-and-move games

A board is a table of pieces; a player clicks on a square holding one of their
pieces to select it, and then on another square to move it there. The rules
(which pieces a side owns, which moves are legal) are parameters. A click is one
atomic step of the game.

`Rules.Sound` is the invariant that the selected square holds a piece of the side
to move. Under it a click is idempotent (`click_click`): a second click on the
same place, with nothing in between, changes nothing. `board_invariant` carries
a property of boards along whole plays.
-/

namespace SelectMove

/-- The rules of a game on squares `S`, pieces `P` and sides `A`. -/
structure Rules (S P A : Type*) where
  /-- What a move leaves behind. -/
  vacant : P
  owns : A → P → Bool
  opponent : A → A
  legal : (S → P) → A → S → S → Bool

/-- What the player does at one instant. -/
inductive Click (S : Type*)
  | released
  | offBoard
  | on (sq : S)
deriving DecidableEq, Repr

/-- The same click with its square renamed. -/
def Click.map {S T : Type*} (f : S → T) : Click S → Click T
  | .released => .released
  | .offBoard => .offBoard
  | .on sq => .on (f sq)

inductive Phase (S : Type*)
  | idle
  | selected (sq : S)
deriving DecidableEq, Repr

structure Game (S P A : Type*) where
  phase : Phase S
  board : S → P
  player : A

variable {S P A : Type*}

/-! ## The invariant -/

namespace Rules

/-- The selected square holds a piece of the side to move. -/
def Sound (R : Rules S P A) (g : Game S P A) : Prop :=
  ∀ s, g.phase = .selected s → R.owns g.player (g.board s)

variable {R : Rules S P A} {g : Game S P A}

theorem sound_of_idle (h : g.phase = .idle) : R.Sound g := fun _ hs => nomatch h.symm.trans hs

/-- A source square differs from the destination of its move: the destination is
not owned by the side to move. -/
theorem source_ne (R : Rules S P A) {board : S → P} {player : A} {s d : S}
    (hown : R.owns player (board s)) (hdest : R.owns player (board d) = false) : s ≠ d := by
  rintro rfl
  rw [hdest] at hown
  cases hown

end Rules

/-! ## One click -/

section Play

variable [DecidableEq S]

/-- The board after the piece on `s` has moved to `d`. -/
def relocate (vacant : P) (board : S → P) (s d : S) : S → P :=
  Function.update (Function.update board d (board s)) s vacant

@[simp] theorem relocate_source (e : P) (board : S → P) (s d : S) :
    relocate e board s d s = e := Function.update_self ..

theorem relocate_target (e : P) (board : S → P) {s d : S} (h : s ≠ d) :
    relocate e board s d d = board s := by
  rw [relocate, Function.update_of_ne (Ne.symm h), Function.update_self]

theorem relocate_other (e : P) (board : S → P) {s d q : S} (hs : q ≠ s) (hd : q ≠ d) :
    relocate e board s d q = board q := by
  rw [relocate, Function.update_of_ne hs, Function.update_of_ne hd]

/-- Every square of the board after a move: the source, the destination, and the squares
that keep their piece. -/
theorem relocate_cases (e : P) (board : S → P) {s d : S} (hne : s ≠ d) (q : S) :
    (q = s ∧ relocate e board s d q = e) ∨
    (q = d ∧ relocate e board s d q = board s) ∨
    (q ≠ s ∧ q ≠ d ∧ relocate e board s d q = board q) := by
  by_cases hs : q = s
  · subst hs
    exact .inl ⟨rfl, relocate_source ..⟩
  · by_cases hd : q = d
    · subst hd
      exact .inr (.inl ⟨rfl, relocate_target e board hne⟩)
    · exact .inr (.inr ⟨hs, hd, relocate_other e board hs hd⟩)

namespace Rules

/-- One click. With a piece selected, a click on an own piece selects that piece
instead, a click on a legal destination moves, and any other click deselects. -/
def click (R : Rules S P A) (g : Game S P A) : Click S → Game S P A
  | .released => g
  | .offBoard => { g with phase := .idle }
  | .on d =>
    if R.owns g.player (g.board d) then { g with phase := .selected d }
    else match g.phase with
      | .idle => g
      | .selected s =>
        if R.legal g.board g.player s d then
          ⟨.idle, relocate R.vacant g.board s d, R.opponent g.player⟩
        else { g with phase := .idle }

variable {R : Rules S P A} {g : Game S P A}

theorem click_on_own {d : S} (h : R.owns g.player (g.board d)) :
    R.click g (.on d) = { g with phase := .selected d } := by
  simp [click, h]

theorem click_idle {d : S} (hphase : g.phase = .idle) (h : R.owns g.player (g.board d) = false) :
    R.click g (.on d) = g := by
  simp [click, h, hphase]

theorem click_move {s d : S} (hphase : g.phase = .selected s)
    (h : R.owns g.player (g.board d) = false) (hlegal : R.legal g.board g.player s d) :
    R.click g (.on d) = ⟨.idle, relocate R.vacant g.board s d, R.opponent g.player⟩ := by
  simp [click, h, hphase, hlegal]

theorem click_deselect {s d : S} (hphase : g.phase = .selected s)
    (h : R.owns g.player (g.board d) = false) (hlegal : R.legal g.board g.player s d = false) :
    R.click g (.on d) = { g with phase := .idle } := by
  simp [click, h, hphase, hlegal]

/-- Every case of a click, each with the facts that select it. -/
theorem click_cases (R : Rules S P A) (g : Game S P A) (c : Click S) :
    (R.click g c = g) ∨
    (R.click g c = { g with phase := .idle }) ∨
    (∃ d, c = .on d ∧ R.owns g.player (g.board d) ∧
      R.click g c = { g with phase := .selected d }) ∨
    (∃ s d, c = .on d ∧ g.phase = .selected s ∧ R.owns g.player (g.board d) = false ∧
      R.legal g.board g.player s d ∧
      R.click g c = ⟨.idle, relocate R.vacant g.board s d, R.opponent g.player⟩) := by
  cases c with
  | released => exact .inl rfl
  | offBoard => exact .inr (.inl rfl)
  | on d =>
    cases hown : R.owns g.player (g.board d) with
    | true => exact .inr (.inr (.inl ⟨d, rfl, hown, click_on_own hown⟩))
    | false =>
      cases hphase : g.phase with
      | idle => exact .inl (click_idle hphase hown)
      | selected s =>
        cases hlegal : R.legal g.board g.player s d with
        | true =>
          have hmove := click_move hphase hown hlegal
          exact .inr (.inr (.inr ⟨s, d, rfl, rfl, hown, hlegal, hmove⟩))
        | false => exact .inr (.inl (click_deselect hphase hown hlegal))

theorem Sound.click (h : R.Sound g) (c : Click S) : R.Sound (R.click g c) := by
  rcases R.click_cases g c with heq | heq | ⟨d, -, hown, heq⟩ | ⟨s, d, -, -, -, -, heq⟩ <;> rw [heq]
  · exact h
  · exact sound_of_idle rfl
  · rintro s ⟨⟩
    exact hown
  · exact sound_of_idle rfl

/-- Clicking the same place twice is clicking it once. A second click on a piece
selects it again, a place that deselected is not an own piece, and a piece that
has just moved belongs to the side no longer to move. -/
theorem click_click (hopp : ∀ a p, R.owns a p → R.owns (R.opponent a) p = false)
    (h : R.Sound g) (c : Click S) : R.click (R.click g c) c = R.click g c := by
  cases c with
  | released => rfl
  | offBoard => rfl
  | on d =>
    cases hown : R.owns g.player (g.board d) with
    | true =>
      rw [click_on_own hown, click_on_own (by exact hown)]
    | false =>
      cases hphase : g.phase with
      | idle => rw [click_idle hphase hown, click_idle hphase hown]
      | selected s =>
        cases hlegal : R.legal g.board g.player s d with
        | true =>
          have hne := R.source_ne (h s hphase) hown
          rw [click_move hphase hown hlegal]
          refine click_idle rfl ?_
          show R.owns (R.opponent g.player) (relocate R.vacant g.board s d d) = false
          rw [relocate_target _ _ hne]
          exact hopp _ _ (h s hphase)
        | false =>
          rw [click_deselect hphase hown hlegal]
          exact click_idle rfl hown

/-- A first click followed by any mixture of releases and clicks on the same
place is that first click. -/
theorem run_same_place (hopp : ∀ a p, R.owns a p → R.owns (R.opponent a) p = false)
    (h : R.Sound g) (c : Click S) {cs : List (Click S)} (hcs : ∀ c' ∈ cs, c' = c ∨ c' = .released) :
    Clocked.run R.click (R.click g c) cs = R.click g c := by
  induction cs with
  | nil => rfl
  | cons c' cs ih =>
    have hrest := ih fun c'' hmem => hcs c'' (List.mem_cons_of_mem _ hmem)
    rcases hcs c' List.mem_cons_self with rfl | rfl
    · rw [Clocked.run_cons, click_click hopp h]
      exact hrest
    · exact hrest

/-- A property of boards that every legal move of an owned piece keeps holds
along every play. -/
theorem board_invariant {I : (S → P) → Prop}
    (hmove : ∀ board player s d, I board → R.owns player (board s) →
      R.owns player (board d) = false → R.legal board player s d →
      I (relocate R.vacant board s d))
    (h : R.Sound g) (hI : I g.board) (cs : List (Click S)) :
    R.Sound (Clocked.run R.click g cs) ∧ I (Clocked.run R.click g cs).board := by
  refine Clocked.run_invariant (I := fun g => R.Sound g ∧ I g.board) ?_ ⟨h, hI⟩ cs
  rintro g c ⟨hsound, hboard⟩
  refine ⟨hsound.click c, ?_⟩
  rcases R.click_cases g c with heq | heq | ⟨d, -, -, heq⟩ | ⟨s, d, -, hphase, hdest, hlegal, heq⟩
  · rw [heq]
    exact hboard
  · rw [heq]
    exact hboard
  · rw [heq]
    exact hboard
  · rw [heq]
    exact hmove g.board g.player s d hboard (hsound s hphase) hdest hlegal

end Rules

end Play

end SelectMove
