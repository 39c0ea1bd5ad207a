import EnginePipe.Frame.Reassembler
import EnginePipe.Proofs.Frame.Slicing
import EnginePipe.Proofs.Json.Extension
import EnginePipe.Proofs.Json.Soundness

/-!
# Slices come together again

An encoded request is a bracketed text, so it can be read and no proper beginning of it can
(`Request.whole_encode`).  Gathering its slices therefore completes exactly one frame, at the last slice
that is not empty, and the sentinel behind them finds nothing gathered.  A slice that is the sentinel
itself ends the frame too early.

* `feed_slices`: slices bring their frame out at the last one that is not empty, and leave nothing.
* `run_of_torn`: a slice that is the sentinel tears the frame.
-/

namespace EnginePipe

/-! ### Whole frames -/

/-- A frame that is complete at its last character and not before. -/
structure Whole (frame : String) : Prop where
  /-- It stands between brackets. -/
  bracketed : ∃ cs, frame.toList = '[' :: (cs ++ [']'])
  read : (Json.read? frame).isSome
  beginning : ∀ cs tail, frame.toList = cs ++ tail → tail ≠ [] → Json.readChars? cs = none
  /-- It has no line end in it. -/
  oneLine : ∀ c ∈ frame.toList, 0x20 ≤ c.toNat

namespace Request

theorem sound_toValue (r : Request) : r.toValue.Sound 1 := by
  have hid : ∀ id : ContextId, (Json.Value.integer id.toNat).Sound 0 := by
    intro id
    have hlt : id.toNat < 2 ^ 64 := id.toNat_lt
    refine .integer ?_ ?_
    · rw [Json.minInteger]
      omega
    · rw [Json.maxInteger]
      omega
  cases r with
  | evaluate id source =>
    refine .array fun item hi => ?_
    rcases List.mem_cons.1 hi with rfl | hi
    · exact hid id
    · rw [List.mem_singleton.1 hi]
      exact .string source
  | teardown id =>
    refine .array fun item hi => ?_
    rw [List.mem_singleton.1 hi]
    exact hid id

theorem reread_toValue (r : Request) : r.toValue.reread = r.toValue := by
  cases r <;> rfl

theorem value_encode (r : Request) :
    Json.value Json.maxNesting r.encode.toList = some (r.toValue, []) := by
  have hsound : r.toValue.Sound Json.maxNesting := r.sound_toValue.mono (by decide)
  have h := Json.value_print_of_sound hsound Json.endsNumber_nil
  rw [List.append_nil, reread_toValue] at h
  rw [encode, Json.Value.compact, String.toList_ofList]
  exact h

theorem read_encode (r : Request) : Json.read? r.encode = some r.toValue := by
  rw [Json.read?, Json.readChars?, value_encode]
  rfl

/-- **A request is read back from its text.** -/
theorem decode_encode (r : Request) : decode? r.encode = some r := by
  rw [decode?, read_encode]
  exact ofValue?_toValue r

theorem bracketed_encode (r : Request) : ∃ cs, r.encode.toList = '[' :: (cs ++ [']']) := by
  cases r <;> exact ⟨_, by rw [encode, Json.Value.compact, String.toList_ofList, toValue, Json.Value.print]⟩

/-- **An encoded request is whole.** -/
theorem whole_encode (r : Request) : Whole r.encode where
  bracketed := r.bracketed_encode
  read := by
    rw [read_encode]
    rfl
  oneLine := fun c hc => mem_encode_ge hc
  beginning := by
    intro cs tail h ht
    have hvalue := r.value_encode
    obtain ⟨inside, hin⟩ := r.bracketed_encode
    cases cs with
    | nil => rfl
    | cons c cs =>
      have hc : c = '[' := by
        rw [hin, List.cons_append] at h
        exact (List.cons.inj h).1.symm
      rw [h, hc, List.cons_append] at hvalue
      rw [hc]
      exact Json.readChars?_of_proper_beginning hvalue ht

end Request

namespace Whole

variable {frame : String} (h : Whole frame)

include h

theorem ne_sentinel : frame ≠ Framing.sentinel := by
  intro he
  obtain ⟨cs, hcs⟩ := h.bracketed
  rw [he] at hcs
  exact absurd (List.cons.inj hcs).1 (by decide)

theorem toList_ne_nil : frame.toList ≠ [] := by
  obtain ⟨cs, hcs⟩ := h.bracketed
  rw [hcs]
  exact List.cons_ne_nil _ _

end Whole

/-! ### Lines as they are pushed -/

/-- A line without a character that ends lines. -/
def Unbroken (line : String) : Prop := ∀ c ∈ line.toList, 0x20 ≤ c.toNat

theorem Unbroken.not_newline_mem {line : String} (h : Unbroken line) : '\n' ∉ line.toList :=
  fun hm => absurd (h '\n' hm) (by decide)

theorem unbroken_sentinel : Unbroken Framing.sentinel := by
  unfold Unbroken Framing.sentinel
  simp

namespace Reassembler

theorem chomp_of_unbroken {line : String} (h : Unbroken line) : chomp line = line := by
  have key : ∀ cs : List Char, (∀ c ∈ cs, 0x20 ≤ c.toNat) →
      cs.dropWhile (fun c => decide (c = '\r') || decide (c = '\n')) = cs := by
    intro cs hcs
    cases cs with
    | nil => rfl
    | cons c cs =>
      have hc := hcs c List.mem_cons_self
      have hr : c ≠ '\r' := fun he => absurd (he ▸ hc) (by decide)
      have hn : c ≠ '\n' := fun he => absurd (he ▸ hc) (by decide)
      rw [List.dropWhile_cons_of_neg (by simp [hr, hn])]
  rw [chomp, Text.dropWhileEnd, key _ fun c hc => h c (List.mem_reverse.1 hc), List.reverse_reverse,
    String.ofList_toList]

section

variable {line p : String} (hu : Unbroken line) (hs : line ≠ Framing.sentinel)

include hu hs

theorem push_of_read (hr : (Json.read? (p ++ line)).isSome) :
    (⟨p⟩ : Reassembler).push line = (some (p ++ line), empty) := by
  rw [push]
  simp only [chomp_of_unbroken hu, if_neg hs, if_pos hr]

theorem push_of_not_read (hr : Json.read? (p ++ line) = none) :
    (⟨p⟩ : Reassembler).push line = (none, ⟨p ++ line⟩) := by
  rw [push]
  simp only [chomp_of_unbroken hu, if_neg hs, hr]
  rfl

end

theorem push_sentinel_empty : empty.push Framing.sentinel = (none, empty) := by
  rw [push]
  simp only [chomp_of_unbroken unbroken_sentinel, if_pos]
  rfl

theorem push_sentinel {p : String} (hp : p ≠ "") :
    (⟨p⟩ : Reassembler).push Framing.sentinel = (some p, empty) := by
  have hpending : isPending ⟨p⟩ = true := by
    rw [isPending, Bool.not_eq_true', String.isEmpty_eq_false_iff]
    exact hp
  rw [push]
  simp only [chomp_of_unbroken unbroken_sentinel, if_pos, hpending]

theorem run_cons (r : Reassembler) (line : String) (lines : List String) :
    r.run (line :: lines) =
      ((r.push line).1.toList ++ ((r.push line).2.run lines).1, ((r.push line).2.run lines).2) := rfl

/-! ### Line by line -/

/-- Feeds lines in order; says for each of them which frame it completes, if any. -/
def feed (r : Reassembler) : List String → List (Option String) × Reassembler
  | [] => ([], r)
  | line :: lines => ((r.push line).1 :: ((r.push line).2.feed lines).1, ((r.push line).2.feed lines).2)

theorem feed_cons (r : Reassembler) (line : String) (lines : List String) :
    r.feed (line :: lines) =
      ((r.push line).1 :: ((r.push line).2.feed lines).1, ((r.push line).2.feed lines).2) := rfl

theorem feed_append (r : Reassembler) (xs ys : List String) :
    r.feed (xs ++ ys) = ((r.feed xs).1 ++ ((r.feed xs).2.feed ys).1, ((r.feed xs).2.feed ys).2) := by
  induction xs generalizing r with
  | nil => rfl
  | cons x xs ih => rw [List.cons_append, feed_cons, ih, feed_cons, List.cons_append]

/-- A run gives what its lines complete. -/
theorem run_eq_feed (r : Reassembler) (lines : List String) :
    r.run lines = ((r.feed lines).1.filterMap id, (r.feed lines).2) := by
  induction lines generalizing r with
  | nil => rfl
  | cons line lines ih =>
    rw [run_cons, ih, feed_cons]
    cases (r.push line).1 <;> rfl

theorem feed_sentinel_empty : empty.feed [Framing.sentinel] = ([none], empty) := by
  rw [feed_cons, push_sentinel_empty]
  rfl

/-! ### One frame -/

/-- The characters of some lines. -/
def gathered (lines : List String) : List Char := lines.flatMap String.toList

theorem gathered_cons (line : String) (lines : List String) :
    gathered (line :: lines) = line.toList ++ gathered lines := List.flatMap_cons

theorem ne_empty_of_gathered {line : String} {lines : List String} (h : gathered (line :: lines) ≠ [])
    (hs : gathered lines = []) : line ≠ "" := by
  rintro rfl
  rw [gathered_cons, hs] at h
  exact h rfl

/-- The frame at the last of its slices that is not empty, and nothing at the others. -/
def atLast (frame : String) : List String → List (Option String)
  | [] => []
  | slice :: slices =>
    (if slice ≠ "" ∧ gathered slices = [] then some frame else none) :: atLast frame slices

theorem atLast_cons_of_last (frame : String) {slice : String} {slices : List String} (h : slice ≠ "")
    (hs : gathered slices = []) : atLast frame (slice :: slices) = some frame :: atLast frame slices := by
  rw [atLast, if_pos ⟨h, hs⟩]

theorem atLast_cons_of_more (frame slice : String) {slices : List String} (hs : gathered slices ≠ []) :
    atLast frame (slice :: slices) = none :: atLast frame slices := by
  rw [atLast, if_neg fun h => hs h.2]

theorem atLast_of_gathered_nil (frame : String) {slices : List String} (h : gathered slices = []) :
    atLast frame slices = slices.map fun _ => none := by
  induction slices with
  | nil => rfl
  | cons slice slices ih =>
    rw [gathered_cons, List.append_eq_nil_iff] at h
    have hslice : ¬(slice ≠ "" ∧ gathered slices = []) := fun hs => hs.1 (String.toList_inj.1 h.1)
    rw [atLast, if_neg hslice, ih h.2, List.map_cons]

/-- Slices complete their frame once. -/
theorem filterMap_atLast (frame : String) {slices : List String} (h : gathered slices ≠ []) :
    (atLast frame slices).filterMap id = [frame] := by
  induction slices with
  | nil => exact absurd rfl h
  | cons slice slices ih =>
    by_cases hs : gathered slices = []
    · rw [atLast_cons_of_last frame (ne_empty_of_gathered h hs) hs, atLast_of_gathered_nil frame hs]
      simp
    · rw [atLast_cons_of_more frame slice hs, List.filterMap_cons_none rfl, ih hs]

/-- Empty slices complete nothing. -/
theorem feed_of_gathered_nil {slices : List String} (h : gathered slices = []) :
    empty.feed slices = (slices.map fun _ => none, empty) := by
  induction slices with
  | nil => rfl
  | cons slice slices ih =>
    rw [gathered_cons, List.append_eq_nil_iff] at h
    have hslice : slice = "" := String.toList_inj.1 h.1
    have hpush : empty.push "" = (none, empty) :=
      push_of_not_read (fun c hc => absurd hc (by simp)) (by decide) rfl
    rw [feed_cons, hslice, hpush, ih h.2, List.map_cons]

section

variable {frame : String} (hw : Whole frame)

include hw

theorem unbroken_of_gathered {p line : String} {lines : List String}
    (h : p.toList ++ gathered (line :: lines) = frame.toList) : Unbroken line := by
  intro c hc
  refine hw.oneLine c ?_
  rw [← h, gathered_cons]
  exact List.mem_append_right _ (List.mem_append_left _ hc)

theorem read?_of_gathered {p line : String} {lines : List String}
    (h : p.toList ++ gathered (line :: lines) = frame.toList) (hn : gathered lines ≠ []) :
    Json.read? (p ++ line) = none := by
  rw [Json.read?, String.toList_append]
  refine hw.beginning _ (gathered lines) ?_ hn
  rw [← h, gathered_cons, List.append_assoc]

/-- **What is gathered grows to the frame and comes out** at the last slice that is not empty. -/
theorem feed_of_gathered {slices : List String} {p : String} (h : p.toList ++ gathered slices = frame.toList)
    (hn : gathered slices ≠ []) (hs : Framing.sentinel ∉ slices) :
    (⟨p⟩ : Reassembler).feed slices = (atLast frame slices, empty) := by
  induction slices generalizing p with
  | nil => exact absurd rfl hn
  | cons slice slices ih =>
    have hu := unbroken_of_gathered hw h
    have hne : slice ≠ Framing.sentinel := fun he => hs (he ▸ List.mem_cons_self)
    have hrest : Framing.sentinel ∉ slices := fun hm => hs (List.mem_cons_of_mem _ hm)
    have happ : (p ++ slice).toList ++ gathered slices = frame.toList := by
      rw [String.toList_append, List.append_assoc, ← gathered_cons]
      exact h
    by_cases hg : gathered slices = []
    · have hframe : p ++ slice = frame := by
        rw [hg, List.append_nil] at happ
        exact String.toList_inj.1 happ
      rw [feed_cons, push_of_read hu hne (by rw [hframe]; exact hw.read), hframe, feed_of_gathered_nil hg,
        atLast_cons_of_last frame (ne_empty_of_gathered hn hg) hg, atLast_of_gathered_nil frame hg]
    · rw [feed_cons, push_of_not_read hu hne (read?_of_gathered hw h hg), ih happ hg hrest,
        atLast_cons_of_more frame slice hg]

/-- The slices of a frame bring it out line by line. -/
theorem feed_slices {slices : List String} (h : gathered slices = frame.toList) (hs : Framing.sentinel ∉ slices) :
    empty.feed slices = (atLast frame slices, empty) :=
  feed_of_gathered hw (p := "") (by rw [String.toList_empty, List.nil_append, h])
    (h ▸ hw.toList_ne_nil) hs

/-- A frame on one line comes out at once. -/
theorem feed_whole : empty.feed [frame] = ([some frame], empty) := by
  have hslice : frame ≠ "" := fun he => hw.toList_ne_nil (by rw [he, String.toList_empty])
  rw [feed_slices hw (List.flatMap_singleton ..) (by simpa using Ne.symm hw.ne_sentinel),
    atLast_cons_of_last frame hslice rfl]
  rfl

/-- A sentinel before the end brings out less than the frame, and at once. -/
theorem run_of_torn {lines : List String} {p : String}
    (h : p.toList ++ gathered lines = frame.toList) (hs : Framing.sentinel ∈ lines)
    (more : List String) :
    ∃ torn rest, ((⟨p⟩ : Reassembler).run (lines ++ more)).1 = torn :: rest ∧ torn ≠ frame := by
  induction lines generalizing p with
  | nil => exact absurd hs List.not_mem_nil
  | cons line lines ih =>
    rw [List.cons_append, run_cons]
    by_cases hl : line = Framing.sentinel
    · have hp : p ≠ "" := by
        rintro rfl
        obtain ⟨cs, hcs⟩ := hw.bracketed
        rw [hcs, gathered_cons, hl] at h
        exact absurd (List.cons.inj h).1 (by decide)
      refine ⟨p, _, by rw [hl, push_sentinel hp]; rfl, ?_⟩
      rintro rfl
      rw [gathered_cons, hl] at h
      have hlen := congrArg List.length h
      rw [List.length_append, List.length_append, show Framing.sentinel.toList.length = 3 from rfl] at hlen
      omega
    · have hrest : Framing.sentinel ∈ lines := by
        rcases List.mem_cons.1 hs with he | hm
        · exact absurd he.symm hl
        · exact hm
      have hg : gathered lines ≠ [] := by
        intro hnil
        have hempty := List.flatMap_eq_nil_iff.1 hnil _ hrest
        exact absurd hempty (by decide)
      have happ : (p ++ line).toList ++ gathered lines = frame.toList := by
        rw [String.toList_append, List.append_assoc, ← gathered_cons]
        exact h
      rw [push_of_not_read (unbroken_of_gathered hw h) hl (read?_of_gathered hw h hg)]
      exact ih happ hrest

end

end Reassembler

end EnginePipe
