import EnginePipe.Proofs.Frame.Reassembly

/-!
# Deliveries

Frames reach a reassembler one after another, each on one line or in slices with the sentinel behind them.  The
slices may be any: they need not be those that a framing cuts, and some may be empty.  Any line may have line
ends behind it.

A reassembler takes the line ends off before it looks at a line, so it is enough to follow the texts.  A
delivery finds nothing gathered and leaves nothing.

* `feed_lines`: line ends change nothing.
* `feed_layout`: one frame.
* `feed_deliveries`: **a reassembler gives back what is delivered**, each frame as soon as it is whole.
-/

namespace EnginePipe

/-- Line ends behind a line: none, or some of both kinds. -/
structure LineEnd where
  text : String
  isEnd : ∀ c ∈ text.toList, c = '\r' ∨ c = '\n'

/-- A text, and the line ends behind it. -/
structure Line where
  text : String
  ending : LineEnd

/-- What is pushed. -/
def Line.full (line : Line) : String := line.text ++ line.ending.text

/-- How a frame is laid out as lines. -/
inductive Layout (frame : String) where
  /-- On one line. -/
  | whole (ending : LineEnd)
  /-- In slices, the sentinel behind them. -/
  | sliced (slices : List Line) (ending : LineEnd) (joined : String.join (slices.map Line.text) = frame)
      (apart : Framing.sentinel ∉ slices.map Line.text)

/-- The lines of a layout. -/
def Layout.lines {frame : String} : Layout frame → List Line
  | .whole ending => [⟨frame, ending⟩]
  | .sliced slices ending _ _ => slices ++ [⟨Framing.sentinel, ending⟩]

/-- What each of the lines should complete: the frame at once if it is on one line, else at the last slice that
is not empty; and nothing at the sentinel. -/
def Layout.answers {frame : String} : Layout frame → List (Option String)
  | .whole _ => [some frame]
  | .sliced slices _ _ _ => Reassembler.atLast frame (slices.map Line.text) ++ [none]

/-- A request on its way to an engine. -/
structure Delivery where
  request : Request
  layout : Layout request.encode

namespace Delivery

/-- The frame that is delivered. -/
def frame (d : Delivery) : String := d.request.encode

/-- The lines that are pushed. -/
def lines (d : Delivery) : List String := d.layout.lines.map Line.full

/-- What each of them should complete. -/
def answers (d : Delivery) : List (Option String) := d.layout.answers

end Delivery

namespace Reassembler

/-! ### Line ends -/

theorem chomp_full (line : Line) : chomp line.full = chomp line.text := by
  rw [chomp, Line.full, String.toList_append, Text.dropWhileEnd_append_of_pos, chomp]
  intro c hc
  simpa using line.ending.isEnd c hc

theorem push_full (r : Reassembler) (line : Line) : r.push line.full = r.push line.text := by
  rw [push, push, chomp_full]

/-- **Line ends change nothing.** -/
theorem feed_lines (r : Reassembler) (lines : List Line) :
    r.feed (lines.map Line.full) = r.feed (lines.map Line.text) := by
  induction lines generalizing r with
  | nil => rfl
  | cons line lines ih => rw [List.map_cons, List.map_cons, feed_cons, feed_cons, push_full, ih]

/-! ### One frame -/

section

variable {frame : String} (hw : Whole frame) (layout : Layout frame)

include hw

/-- A layout of a frame brings it out where it should, and leaves nothing. -/
theorem feed_layout : empty.feed (layout.lines.map Line.full) = (layout.answers, empty) := by
  rw [feed_lines]
  cases layout with
  | whole ending => exact feed_whole hw
  | sliced slices ending joined apart =>
    have hg : gathered (slices.map Line.text) = frame.toList := by
      rw [gathered, ← String.toList_join, joined]
    have hlast : empty.feed (List.map Line.text [⟨Framing.sentinel, ending⟩]) = ([none], empty) :=
      feed_sentinel_empty
    rw [Layout.lines, List.map_append, feed_append, feed_slices hw hg apart, hlast]
    rfl

/-- The answers of a layout have the frame in them once. -/
theorem filterMap_answers : layout.answers.filterMap id = [frame] := by
  cases layout with
  | whole ending => rfl
  | sliced slices ending joined apart =>
    have hg : gathered (slices.map Line.text) ≠ [] := by
      rw [gathered, ← String.toList_join, joined]
      exact hw.toList_ne_nil
    rw [Layout.answers, List.filterMap_append, filterMap_atLast frame hg]
    rfl

end

/-! ### Many frames -/

theorem feed_flatMap_lines (ds : List Delivery) :
    empty.feed (ds.flatMap Delivery.lines) = (ds.flatMap Delivery.answers, empty) := by
  induction ds with
  | nil => rfl
  | cons d ds ih =>
    have hd : empty.feed d.lines = (d.answers, empty) := feed_layout d.request.whole_encode d.layout
    rw [List.flatMap_cons, feed_append, hd, ih, List.flatMap_cons]

theorem filterMap_flatMap_answers (ds : List Delivery) :
    (ds.flatMap Delivery.answers).filterMap id = ds.map Delivery.frame := by
  induction ds with
  | nil => rfl
  | cons d ds ih =>
    have hd : d.answers.filterMap id = [d.frame] := filterMap_answers d.request.whole_encode d.layout
    rw [List.flatMap_cons, List.filterMap_append, hd, ih, List.map_cons, List.singleton_append]

/-- **A reassembler gives back what is delivered.**  Every line completes what it should: a frame comes out at its
last slice that is not empty, and at no other line.  So the frames come out in order and nothing else does, and
between two of them nothing is gathered. -/
theorem feed_deliveries (ds : List Delivery) :
    empty.feed (ds.flatMap Delivery.lines) = (ds.flatMap Delivery.answers, empty) ∧
    (empty.run (ds.flatMap Delivery.lines)).1 = ds.map Delivery.frame ∧
    ∀ n, ((empty.run ((ds.take n).flatMap Delivery.lines)).2).isPending = false := by
  refine ⟨feed_flatMap_lines ds, ?_, fun n => ?_⟩
  · rw [run_eq_feed, feed_flatMap_lines]
    exact filterMap_flatMap_answers ds
  · rw [run_eq_feed, feed_flatMap_lines]
    rfl

/-- A frame in slices, two of them empty, and one on a line of its own. -/
example : empty.feed ["[1\n", "", "2]\r\n", "\n", "END", "[3]\n"] =
    ([none, none, some "[12]", none, none, some "[3]"], empty) := by cbv

end Reassembler

end EnginePipe
