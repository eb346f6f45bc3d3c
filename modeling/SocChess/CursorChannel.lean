import SocChess.Lib.Sampling
import SocChess.MouseCursor

/-!
# The GPIO word between the bridge and the cursor

The bridge overwrites channel 1 at every poll and the cursor samples it at every frame
edge. Nothing else synchronises the two loops, so a report counts once for every
frame edge that falls between its poll and the next one.

* `Pointer.Refines.step`: the two loops refine a register sampled without a handshake,
  so in every interleaving the cursor samples what `Sampling.reads` says
  (`pointer_frames`).
* `reports_not_once`: a report can be lost, and it can be added twice.
* `reports_per_frame`: what is added instead, and when it is each report once.
-/

namespace SocChess

open Sampling (Access System reads overwritten pending writes)
open Saturating (Free walk walk_free)

/-! ## The two loops -/

/-- One iteration of the bridge that polls a running mouse and gets a report or a
NAK. -/
structure MousePoll extends Iteration where
  running : taskState = usbStateRunning
  answered : rcode = 0#8 ∨ rcode = hrNAK

/-- The report a poll returns, if it returns one. -/
def MousePoll.report (poll : MousePoll) : Option BootMouseReport :=
  if poll.rcode = 0#8 then some poll.buf else none

/-- The word written for a poll. -/
def outcomeWord : Option BootMouseReport → Word
  | none => 0#32
  | some r => mouseWord r

/-- The signed displacements of a poll. -/
def outcomeX : Option BootMouseReport → Int
  | none => 0
  | some r => r.Xdispl.toInt

def outcomeY : Option BootMouseReport → Int
  | none => 0
  | some r => r.Ydispl.toInt

/-- The bridge and the cursor. -/
structure Pointer where
  bridge : Bridge
  cursor : MouseCursor

/-- A poll by the bridge or an edge of the vertical sync. -/
def Pointer.step (p : Pointer) : Access MousePoll → Pointer
  | .write poll => { p with bridge := p.bridge.iterate poll.toIteration }
  | .sample => { p with cursor := p.cursor.frameWord p.bridge.channel1 }

abbrev Pointer.run : Pointer → List (Access MousePoll) → Pointer := Clocked.run Pointer.step

/-- The bridge has found a running mouse. -/
def Bridge.PollingMouse (b : Bridge) : Prop := b.runningdebugflag = true ∧ b.device = 2#8

/-- The polls of an interleaving, seen by their outcomes. -/
def outcomes (es : List (Access MousePoll)) : List (Access (Option BootMouseReport)) :=
  es.map (Access.map MousePoll.report)

section Pointer

/-- A poll overwrites the word with its outcome, and the bridge goes on polling. -/
theorem iterate_mousePoll {b : Bridge} (h : b.PollingMouse) (poll : MousePoll) :
    (b.iterate poll.toIteration).channel1 = outcomeWord poll.report ∧
    (b.iterate poll.toIteration).PollingMouse := by
  have hpolls : b.polls poll.toIteration 2#8 := ⟨poll.running, h⟩
  rw [iterate_polls_mouse hpolls]
  constructor
  · rw [pollMouse_channel1, MousePoll.report]
    rcases poll.answered with hok | hnak
    · rw [hok]
      rfl
    · rw [hnak]
      rfl
  · unfold Bridge.pollMouse
    split
    · exact h
    · split <;> exact h

/-- The two loops are a register sampled without a handshake. -/
def Pointer.Refines (p : Pointer) (x : System (Option BootMouseReport) MouseCursor) : Prop :=
  p.bridge.PollingMouse ∧ p.bridge.channel1 = outcomeWord x.word ∧ p.cursor = x.reader

/-- The cursor takes in the word of an outcome. -/
def MouseCursor.read (c : MouseCursor) (o : Option BootMouseReport) : MouseCursor :=
  c.frameWord (outcomeWord o)

theorem Pointer.Refines.step {p : Pointer} {x : System (Option BootMouseReport) MouseCursor}
    (h : p.Refines x) (e : Access MousePoll) :
    (p.step e).Refines (x.step MouseCursor.read (e.map MousePoll.report)) := by
  obtain ⟨hp, hword, hcursor⟩ := h
  cases e with
  | write poll =>
    obtain ⟨hnext, hpolling⟩ := iterate_mousePoll hp poll
    exact ⟨hpolling, hnext, hcursor⟩
  | sample =>
    refine ⟨hp, hword, ?_⟩
    show p.cursor.frameWord p.bridge.channel1 = x.reader.frameWord (outcomeWord x.word)
    rw [hword, hcursor]

/-- The cursor samples what the interleaving says. -/
theorem pointer_frames {p : Pointer} {o : Option BootMouseReport} (hp : p.bridge.PollingMouse)
    (hword : p.bridge.channel1 = outcomeWord o) (es : List (Access MousePoll)) :
    (p.run es).cursor = p.cursor.frames ((reads o (outcomes es)).map outcomeWord) := by
  have hstart : p.Refines ⟨o, p.cursor⟩ := ⟨hp, hword, rfl⟩
  have hrun : (p.run es).Refines (Clocked.run (System.step MouseCursor.read) _ (outcomes es)) :=
    Clocked.run_related (R := Pointer.Refines) (fun _ _ e h => h.step e) hstart es
  obtain ⟨-, -, hcursor⟩ := hrun
  rw [MouseCursor.frames, Clocked.run_map]
  exact hcursor.trans (System.run_reader MouseCursor.read _ _)

theorem outcome_displacement (o : Option BootMouseReport) :
    (usbDeltaX (outcomeWord o)).toInt = outcomeX o ∧
    (usbDeltaY (outcomeWord o)).toInt = outcomeY o := by
  cases o with
  | none => exact ⟨rfl, rfl⟩
  | some r =>
    obtain ⟨hx, hy, -⟩ := mouseWord_fields r
    exact ⟨congrArg BitVec.toInt hx, congrArg BitVec.toInt hy⟩

/-- The cursor walks with the displacements it samples. -/
theorem pointer_walk {p : Pointer} {o : Option BootMouseReport} (hp : p.bridge.PollingMouse)
    (hword : p.bridge.channel1 = outcomeWord o) (hc : p.cursor.OnScreen)
    (es : List (Access MousePoll)) :
    (p.run es).cursor.x = walk 0 639 p.cursor.x ((reads o (outcomes es)).map outcomeX) ∧
    (p.run es).cursor.y = walk 0 479 p.cursor.y ((reads o (outcomes es)).map outcomeY) := by
  have hwalk := frames_walk hc ((reads o (outcomes es)).map outcomeWord)
  have hx (o : Option BootMouseReport) := (outcome_displacement o).1
  have hy (o : Option BootMouseReport) := (outcome_displacement o).2
  simp only [List.map_map, Function.comp_def, hx, hy] at hwalk
  rw [pointer_frames hp hword]
  exact hwalk

/-- A walk without a clamp, by the windows of the words: each displacement counts once
per sample, so once if every overwritten report was sampled exactly once. -/
theorem walk_windows {lo hi p : Int} {f : Option BootMouseReport → Int} (hnone : f none = 0)
    {os : List (Access (Option BootMouseReport))} (hfree : Free lo hi p ((reads none os).map f)) :
    let done := overwritten none 0 os
    let last := pending none 0 os
    walk lo hi p ((reads none os).map f) =
      p + (done.map fun w => w.2 • f w.1).sum + last.2 • f last.1 ∧
    ((∀ w ∈ done, w.1 ≠ none → w.2 = 1) →
      walk lo hi p ((reads none os).map f) =
        p + (done.map fun w => f w.1).sum + last.2 • f last.1) := by
  intro done last
  rw [walk_free hfree]
  constructor
  · rw [Sampling.sum_reads, add_assoc]
  · intro honce
    have hcounted : ∀ w ∈ done, f w.1 ≠ 0 → w.2 = 1 := by
      intro w hw hmoves
      refine honce w hw fun hempty => hmoves ?_
      rw [hempty, hnone]
    rw [Sampling.sum_reads_once f hcounted, add_assoc]

end Pointer

/-! ## Lost and repeated reports -/

/-- Each report once: every overwritten report was sampled exactly once and the
pending one at most once. -/
def EachOnce (os : List (Access (Option BootMouseReport))) : Prop :=
  (∀ w ∈ overwritten none 0 os, w.1 ≠ none → w.2 = 1) ∧
  ((pending none 0 os).1 ≠ none → (pending none 0 os).2 ≤ 1)

/-- The poll of a mouse that has moved right by `d`. -/
def pollRight (d : Byte) : MousePoll where
  toIteration := ⟨usbStateRunning, 2#8, 0#8, ⟨0#8, d, 0#8⟩, ⟨.replicate 6 0#8⟩⟩
  running := rfl
  answered := .inl rfl

/-- A poll of a mouse that has nothing to report. -/
def pollNak : MousePoll where
  toIteration := ⟨usbStateRunning, 2#8, hrNAK, ⟨0#8, 0#8, 0#8⟩, ⟨.replicate 6 0#8⟩⟩
  running := rfl
  answered := .inr rfl

/-- A running mouse with nothing reported yet, and the cursor in the centre. -/
def pointerStart : Pointer where
  bridge := { Bridge.start 2#8 ⟨0#8, 0#8, 0#8⟩ ⟨.replicate 6 0#8⟩ with runningdebugflag := true }
  cursor := ⟨cursorXCenter, cursorYCenter⟩

/-- A report is lost when the next poll comes before the frame edge: the cursor stays at
320, and the report would have taken it to 325. -/
theorem reports_not_once :
    ¬ ∀ (p : Pointer), p.bridge.PollingMouse → p.bridge.channel1 = 0#32 → p.cursor.OnScreen →
      ∀ es : List (Access MousePoll),
      EachOnce (outcomes es) ∧
      (Free 0 639 p.cursor.x ((reads none (outcomes es)).map outcomeX) →
        (p.run es).cursor.x =
          p.cursor.x + ((overwritten none 0 (outcomes es)).map fun w => outcomeX w.1).sum +
            (pending none 0 (outcomes es)).2 • outcomeX (pending none 0 (outcomes es)).1) := by
  intro hclaim
  let lost : List (Access MousePoll) := [.write (pollRight 5#8), .write pollNak, .sample]
  obtain ⟨-, hdisplaced⟩ := hclaim pointerStart ⟨rfl, rfl⟩ rfl (by decide) lost
  have hsum : (pointerStart.run lost).cursor.x = 325 := hdisplaced (by decide)
  have hstays : (pointerStart.run lost).cursor.x = 320 := by decide
  rw [hstays] at hsum
  exact absurd hsum (by decide)

-- One report across two frame edges moves the cursor twice.
example : (pointerStart.run [.write (pollRight 5#8), .sample, .sample, .write pollNak]).cursor =
    ⟨330#10, cursorYCenter⟩ := by
  decide

/-- What reaches the cursor in every interleaving. The words on the channel are the
outcomes of the polls in order; the cursor samples each of them once per frame edge in
its window, so without a clamp each displacement is added that often. If every
overwritten report had exactly one frame edge in its window, the displacement is the
sum of the reports, the pending one excepted. -/
theorem reports_per_frame {p : Pointer} (hp : p.bridge.PollingMouse)
    (hzero : p.bridge.channel1 = 0#32) (hc : p.cursor.OnScreen) (es : List (Access MousePoll)) :
    let os := outcomes es
    let done := overwritten none 0 os
    let last := pending none 0 os
    let p' := p.run es
    let sampled := done.flatMap (fun w => List.replicate w.2 w.1) ++ List.replicate last.2 last.1
    done.map Prod.fst ++ [last.1] = none :: writes os ∧
    p'.cursor = p.cursor.frames (sampled.map outcomeWord) ∧
    (Free 0 639 p.cursor.x (sampled.map outcomeX) →
      p'.cursor.x =
        p.cursor.x + (done.map fun w => w.2 • outcomeX w.1).sum + last.2 • outcomeX last.1 ∧
      ((∀ w ∈ done, w.1 ≠ none → w.2 = 1) →
        p'.cursor.x =
          p.cursor.x + (done.map fun w => outcomeX w.1).sum + last.2 • outcomeX last.1)) ∧
    (Free 0 479 p.cursor.y (sampled.map outcomeY) →
      p'.cursor.y =
        p.cursor.y + (done.map fun w => w.2 • outcomeY w.1).sum + last.2 • outcomeY last.1 ∧
      ((∀ w ∈ done, w.1 ≠ none → w.2 = 1) →
        p'.cursor.y =
          p.cursor.y + (done.map fun w => outcomeY w.1).sum + last.2 • outcomeY last.1)) := by
  intro os done last p' sampled
  have hsampled : sampled = reads none os := (Sampling.reads_windows none 0 os).symm
  have hword : p.bridge.channel1 = outcomeWord none := hzero
  obtain ⟨hx, hy⟩ := pointer_walk hp hword hc es
  rw [hsampled, hx, hy]
  refine ⟨Sampling.windows_words none 0 os, pointer_frames hp hword es, ?_, ?_⟩
  · exact fun hfree => walk_windows rfl hfree
  · exact fun hfree => walk_windows rfl hfree

/-- A mouse moves right by 5, and the next poll comes after one frame edge. -/
theorem reports_per_frame_right :
    (pointerStart.run
      [.write (pollRight 5#8), .sample, .write pollNak, .sample]).cursor.x = 325 := by
  obtain ⟨-, -, hx, -⟩ := reports_per_frame (p := pointerStart) ⟨rfl, rfl⟩ rfl (by decide)
    [.write (pollRight 5#8), .sample, .write pollNak, .sample]
  have hsum := (hx (by decide)).2 (by decide)
  rw [hsum]
  decide

end SocChess
