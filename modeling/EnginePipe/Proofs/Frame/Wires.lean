import EnginePipe.Proofs.Frame.Reassembly
import EnginePipe.Proofs.Text.Lines

/-!
# Requests over one wire

The requests that a host makes are ASCII, so each of them can be laid out in any framing.  The lines of
their wire texts, one after the other, complete the requests in order.  They do so unless a slice is the
sentinel, which needs a limit below ten bytes: then the frame is torn and all that follows is out of
step.

* `Framing.run_lines`, `Framing.run_torn`: the lines of one frame.
* `Sending.run_wires`: **the lines of all wire texts complete the frames exactly if no frame is torn**.
-/

namespace EnginePipe

/-! ### ASCII requests -/

namespace Json

theorem isAscii_printChar {c d : Char} (hc : Text.isAscii c) (h : d ∈ printChar c) : Text.isAscii d := by
  unfold printChar at h
  split at h
  · simp only [List.mem_cons, List.not_mem_nil, or_false] at h
    rcases h with rfl | rfl <;> decide
  split at h
  · simp only [List.mem_cons, List.not_mem_nil, or_false] at h
    rcases h with rfl | rfl <;> decide
  split at h
  · simp only [List.mem_cons, List.not_mem_nil, or_false] at h
    rcases h with rfl | rfl <;> decide
  split at h
  · simp only [List.mem_cons, List.not_mem_nil, or_false] at h
    rcases h with rfl | rfl <;> decide
  split at h
  · simp only [List.mem_cons, List.not_mem_nil, or_false] at h
    rcases h with rfl | rfl <;> decide
  split at h
  · simp only [List.mem_cons, List.not_mem_nil, or_false] at h
    rcases h with rfl | rfl <;> decide
  split at h
  · simp only [List.mem_cons, List.not_mem_nil, or_false] at h
    rcases h with rfl | rfl <;> decide
  split at h
  · rcases List.mem_cons.1 h with rfl | h
    · decide
    rcases List.mem_cons.1 h with rfl | h
    · decide
    · exact Text.isAscii_of_mem_hex4 h
  · rw [List.mem_singleton.1 h]
    exact hc

theorem isAscii_printString {s : String} (hs : ∀ c ∈ s.toList, Text.isAscii c) :
    ∀ c ∈ printString s, Text.isAscii c := by
  intro c hc
  rcases List.mem_cons.1 hc with rfl | hc
  · decide
  rcases List.mem_append.1 hc with hc | hc
  · obtain ⟨d, hd, hcd⟩ := List.mem_flatMap.1 hc
    exact isAscii_printChar (hs d hd) hcd
  · rw [List.mem_singleton.1 hc]
    decide

theorem isAscii_printNat {n : Nat} {c : Char} (h : c ∈ printNat n) : Text.isAscii c := by
  have hc := toNat_of_isDigit (isDigit_of_mem_printNat h)
  have h9 : '9'.toNat = 57 := rfl
  exact decide_eq_true (by omega)

end Json

namespace Request

theorem encode_evaluate (id : ContextId) (source : String) :
    (evaluate id source).encode.toList =
      '[' :: (Json.printNat id.toNat ++ ',' :: Json.printString source ++ [']']) := by
  rw [encode, toValue, Json.Value.compact, String.toList_ofList, Json.Value.print, Json.Value.printItems,
    Json.Value.printItems, Json.Value.print, Json.Value.print, Json.printInt, if_neg (by omega)]
  rfl

theorem encode_teardown (id : ContextId) :
    (teardown id).encode.toList = '[' :: (Json.printNat id.toNat ++ [']']) := by
  rw [encode, toValue, Json.Value.compact, String.toList_ofList, Json.Value.print, Json.Value.printItems,
    Json.Value.print, Json.printInt, if_neg (by omega)]
  rfl

/-- A request whose text is ASCII. -/
def IsPlain (r : Request) : Prop := ∀ c ∈ r.encode.toList, Text.isAscii c

theorem isPlain_escaped (id : ContextId) (source : String) : (escaped id source).IsPlain := by
  intro c hc
  rw [escaped, encode_evaluate] at hc
  rcases List.mem_cons.1 hc with rfl | hc
  · decide
  rcases List.mem_append.1 hc with hc | hc
  · rcases List.mem_append.1 hc with hc | hc
    · exact Json.isAscii_printNat hc
    · rcases List.mem_cons.1 hc with rfl | hc
      · decide
      · exact Json.isAscii_printString (Text.escape_isAscii source) c hc
  · rw [List.mem_singleton.1 hc]
    decide

theorem isPlain_teardown (id : ContextId) : (teardown id).IsPlain := by
  intro c hc
  rw [encode_teardown] at hc
  rcases List.mem_cons.1 hc with rfl | hc
  · decide
  rcases List.mem_append.1 hc with hc | hc
  · exact Json.isAscii_printNat hc
  · rw [List.mem_singleton.1 hc]
    decide

end Request

/-! ### The lines of one frame -/

namespace Framing

/-- A framing under which no slice is the sentinel. -/
def IsSafe : Framing → Prop
  | .line => True
  | .chunked size => Slices.safeSize ≤ size

theorem gathered_ofFrame {frame : String} {size : Nat} {slices : List String}
    (h : Slices.ofFrame frame size = some slices) : Reassembler.gathered slices = frame.toList := by
  obtain ⟨cs, hcs, rfl⟩ := Option.map_eq_some_iff.1 h
  rw [Reassembler.gathered, List.flatMap_map]
  simp only [String.toList_ofList]
  rw [← Slices.flatten_ofChars hcs]
  exact List.flatMap_id'

theorem exists_lines {frame : String} (h : ∀ c ∈ frame.toList, Text.isAscii c) (framing : Framing) :
    ∃ lines, framing.lines frame = some lines := by
  cases framing with
  | line => exact ⟨[frame], rfl⟩
  | chunked size =>
    obtain ⟨cs, hcs⟩ := Option.isSome_iff_exists.1 (Slices.isSome_ofChars h size)
    exact ⟨_, by rw [lines, Slices.ofFrame, hcs]; rfl⟩

theorem exists_encode {r : Request} (h : r.IsPlain) (framing : Framing) :
    ∃ lines, framing.lines r.encode = some lines ∧
      framing.encode r = some (Text.joinLines lines) := by
  obtain ⟨ls, hls⟩ := exists_lines h framing
  refine ⟨ls, hls, ?_⟩
  rw [encode, wrap, hls]
  rfl

section

variable {framing : Framing} {frame : String} {lines : List String} (hw : Whole frame)
    (hl : framing.lines frame = some lines)

include hw hl

theorem unbroken_of_mem_lines : ∀ line ∈ lines, Unbroken line := by
  cases framing with
  | line =>
    cases hl
    intro line hm
    rw [List.mem_singleton.1 hm]
    exact hw.oneLine
  | chunked size =>
    obtain ⟨slices, hs, rfl⟩ := Option.map_eq_some_iff.1 hl
    intro line hm
    rcases List.mem_append.1 hm with hm | hm
    · intro c hc
      refine hw.oneLine c ?_
      rw [← gathered_ofFrame hs]
      exact List.mem_flatMap.2 ⟨line, hm, hc⟩
    · rw [List.mem_singleton.1 hm]
      exact unbroken_sentinel

/-- **The lines of a frame complete it** and leave nothing, if no slice is the sentinel. -/
theorem run_lines (hs : sentinel ∉ lines.dropLast) :
    Reassembler.empty.run lines = ([frame], Reassembler.empty) := by
  rw [Reassembler.run_eq_feed]
  cases framing with
  | line =>
    cases hl
    rw [Reassembler.feed_whole hw]
    rfl
  | chunked size =>
    obtain ⟨slices, hslices, rfl⟩ := Option.map_eq_some_iff.1 hl
    have hg := gathered_ofFrame hslices
    rw [List.dropLast_concat] at hs
    rw [Reassembler.feed_append, Reassembler.feed_slices hw hg hs, Reassembler.feed_sentinel_empty,
      List.filterMap_append, Reassembler.filterMap_atLast frame (hg ▸ hw.toList_ne_nil)]
    rfl

/-- A frame with a slice that is the sentinel is torn: what comes out first is something else. -/
theorem run_torn (hs : sentinel ∈ lines.dropLast) (more : List String) :
    ∃ torn rest, (Reassembler.empty.run (lines ++ more)).1 = torn :: rest ∧ torn ≠ frame := by
  cases framing with
  | line =>
    cases hl
    exact absurd hs List.not_mem_nil
  | chunked size =>
    obtain ⟨slices, hslices, rfl⟩ := Option.map_eq_some_iff.1 hl
    have hg := gathered_ofFrame hslices
    rw [List.dropLast_concat] at hs
    rw [List.append_assoc]
    exact Reassembler.run_of_torn hw (p := "") (by rw [String.toList_empty, List.nil_append, hg]) hs _

theorem sentinel_not_mem_of_isSafe (hf : framing.IsSafe) : sentinel ∉ lines.dropLast := by
  cases framing with
  | line =>
    cases hl
    exact List.not_mem_nil
  | chunked size =>
    obtain ⟨slices, hslices, rfl⟩ := Option.map_eq_some_iff.1 hl
    obtain ⟨chars, hchars, rfl⟩ := Option.map_eq_some_iff.1 hslices
    obtain ⟨cs, hcs⟩ := hw.bracketed
    rw [hcs, ← List.cons_append] at hchars
    rw [List.dropLast_concat]
    intro hm
    obtain ⟨slice, hslice, he⟩ := List.mem_map.1 hm
    refine Slices.sentinel_not_mem_ofChars hf hchars ?_
    rw [← he, String.toList_ofList]
    exact hslice

end

end Framing

/-! ### Many requests -/

/-- A request that a host makes, and the framing that it is sent in. -/
structure Sending where
  context : ContextId
  /-- The source text to evaluate; none to forget the context. -/
  source : Option String
  /-- The size of slices; none for whole lines. -/
  size : Option Nat

namespace Sending

/-- The request. -/
def request (s : Sending) : Request :=
  match s.source with
  | some source => .escaped s.context source
  | none => .teardown s.context

/-- The framing. -/
def framing (s : Sending) : Framing :=
  match s.size with
  | some size => .ofSize size
  | none => .line

/-- The frame that the engine is to receive. -/
def frame (s : Sending) : String := s.request.encode

/-- A line before the last is the sentinel. -/
def IsTorn (s : Sending) : Prop :=
  ∃ lines, s.framing.lines s.frame = some lines ∧ Framing.sentinel ∈ lines.dropLast

theorem isPlain_request (s : Sending) : s.request.IsPlain := by
  unfold request
  split
  · exact Request.isPlain_escaped _ _
  · exact Request.isPlain_teardown _

theorem whole_frame (s : Sending) : Whole s.frame := s.request.whole_encode

theorem isSafe_framing {s : Sending} (h : ∀ size ∈ s.size, Slices.safeSize ≤ size) :
    s.framing.IsSafe := by
  unfold framing
  split
  · next size hs => exact Nat.le_trans (h size hs) (Nat.le_max_left _ _)
  · trivial

theorem size_of_isTorn {s : Sending} (h : s.IsTorn) : ∃ size, s.size = some size ∧ size < Slices.safeSize := by
  by_contra hn
  have hsafe : ∀ size ∈ s.size, Slices.safeSize ≤ size := fun size hs => by
    by_contra hlt
    exact hn ⟨size, hs, Nat.not_le.1 hlt⟩
  obtain ⟨lines, hl, hm⟩ := h
  exact Framing.sentinel_not_mem_of_isSafe s.whole_frame hl (isSafe_framing hsafe) hm

/-- The lines of all sendings. -/
theorem exists_wires (sent : List Sending) :
    ∃ (wires : List String) (layouts : List (List String)),
      sent.mapM (fun s => s.framing.encode s.request) = some wires ∧
      sent.map (fun s => s.framing.lines s.frame) = layouts.map some ∧
      String.join wires = Text.joinLines layouts.flatten := by
  induction sent with
  | nil => exact ⟨[], [], rfl, rfl, rfl⟩
  | cons s sent ih =>
    obtain ⟨wires, layouts, hwires, hlayouts, hjoin⟩ := ih
    obtain ⟨lines, hl, he⟩ := Framing.exists_encode s.isPlain_request s.framing
    refine ⟨Text.joinLines lines :: wires, lines :: layouts, ?_, ?_, ?_⟩
    · rw [List.mapM_cons, he, hwires]
      rfl
    · rw [List.map_cons, List.map_cons, hlayouts]
      exact congrArg (· :: _) hl
    · rw [String.join_cons, hjoin, List.flatten_cons, Text.joinLines_append]

theorem run_layouts {sent : List Sending} {layouts : List (List String)}
    (h : sent.map (fun s => s.framing.lines s.frame) = layouts.map some) :
    Reassembler.empty.run layouts.flatten = (sent.map frame, Reassembler.empty) ↔
      ∀ s ∈ sent, ¬ s.IsTorn := by
  induction sent generalizing layouts with
  | nil =>
    cases layouts with
    | nil => exact ⟨fun _ s hs => absurd hs List.not_mem_nil, fun _ => rfl⟩
    | cons lines layouts => cases h
  | cons s sent ih =>
    cases layouts with
    | nil => cases h
    | cons lines layouts =>
      obtain ⟨hfirst, hlayouts⟩ := List.cons.inj h
      have hl : s.framing.lines s.frame = some lines := hfirst
      rw [List.forall_mem_cons, List.flatten_cons, List.map_cons]
      by_cases hs : Framing.sentinel ∈ lines.dropLast
      · obtain ⟨torn, rest, hrun, hne⟩ := Framing.run_torn s.whole_frame hl hs layouts.flatten
        constructor
        · intro he
          rw [he] at hrun
          exact absurd (List.cons.inj hrun).1.symm hne
        · intro hall
          exact absurd ⟨lines, hl, hs⟩ hall.1
      · have hnot : ¬ s.IsTorn := by
          rintro ⟨lines', hl', hs'⟩
          rw [hl] at hl'
          cases hl'
          exact hs hs'
        rw [Reassembler.run_append, Framing.run_lines s.whole_frame hl hs]
        simp only [hnot, not_false_iff, true_and, ← ih hlayouts, List.singleton_append]
        constructor
        · intro he
          rw [Prod.mk.injEq] at he
          exact Prod.ext (List.cons.inj he.1).2 he.2
        · intro he
          rw [he]

/-- **The lines of all wire texts complete the frames, in order and with nothing left, exactly if no
frame is torn**; and a frame is torn only by a limit below `Slices.safeSize`. -/
theorem run_wires (sent : List Sending) :
    ∃ wires, sent.mapM (fun s => s.framing.encode s.request) = some wires ∧
      (Reassembler.empty.run (Text.linesOf (String.join wires)) = (sent.map frame, Reassembler.empty) ↔
        ∀ s ∈ sent, ¬ s.IsTorn) ∧
      ∀ s : Sending, s.IsTorn → ∃ size, s.size = some size ∧ size < Slices.safeSize := by
  obtain ⟨wires, layouts, hwires, hlayouts, hjoin⟩ := exists_wires sent
  refine ⟨wires, hwires, ?_, fun s => size_of_isTorn⟩
  have hunbroken : ∀ line ∈ layouts.flatten, '\n' ∉ line.toList := by
    intro line hm
    obtain ⟨lines, hlines, hline⟩ := List.mem_flatten.1 hm
    have hmem : some lines ∈ sent.map (fun s => s.framing.lines s.frame) := by
      rw [hlayouts]
      exact List.mem_map_of_mem hlines
    obtain ⟨s, _, hs⟩ := List.mem_map.1 hmem
    exact (Framing.unbroken_of_mem_lines s.whole_frame hs line hline).not_newline_mem
  rw [hjoin, Text.linesOf_joinLines hunbroken]
  exact run_layouts hlayouts

/-- A source text that is cut at its `END` by the smallest slices. -/
def tornExample : Sending := ⟨1, some "'abENDé'", some 7⟩

theorem exists_torn_wires :
    ¬ ∀ sent : List Sending, ∃ wires, sent.mapM (fun s => s.framing.encode s.request) = some wires ∧
      Reassembler.empty.run (Text.linesOf (String.join wires)) = (sent.map frame, Reassembler.empty) := by
  intro h
  obtain ⟨wires, hwires, hrun⟩ := h [tornExample]
  have hw : [tornExample].mapM (fun s => s.framing.encode s.request) =
      some ["[1,\"'ab\nEND\n\\\\u00e9\n'\"]\nEND\n"] := by decide +kernel
  rw [hw, Option.some.injEq] at hwires
  subst hwires
  exact absurd hrun (by decide +kernel)

end Sending

end EnginePipe
