import EnginePipe.Engine.Program
import EnginePipe.Proofs.Frame.Wires

/-!
# Serving one request

A toy engine behind a pipe hears the lines of one request.  Whatever the framing, it serves the request
once, when the frame is complete: its table of scopes changes as the request says, and one line goes out,
unless the source text ends the engine.  The lines behind the frame change nothing.

* `Table.serve`: what a request does to a table of scopes, and the response to it.
* `Pipe.hear_lines`: **the lines of a request make the engine serve it, once**.
-/

namespace EnginePipe.Engine

open Channel (Heard)

/-! ### Tables of scopes -/

/-- The scopes that an engine keeps, by context. -/
abbrev Table : Type := List (ContextId × Scope)

namespace Table

/-- The scope of a context; it starts empty. -/
def scope (table : Table) (id : ContextId) : Scope := (table.lookup id).getD []

/-- Drops the scope of a context. -/
def forget (table : Table) (id : ContextId) : Table := table.filter (fun entry => entry.1 ≠ id)

/-- Keeps a scope for a context. -/
def keep (table : Table) (id : ContextId) (scope : Scope) : Table := (id, scope) :: table.forget id

/-- The contexts that have a scope. -/
def keys (table : Table) : List ContextId := table.map Prod.fst

theorem mem_keys_forget {table : Table} {id other : ContextId} :
    other ∈ (table.forget id).keys ↔ other ∈ table.keys ∧ other ≠ id := by
  rw [keys, keys, forget, List.mem_map, List.mem_map]
  constructor
  · rintro ⟨entry, hm, rfl⟩
    obtain ⟨hm, hne⟩ := List.mem_filter.1 hm
    exact ⟨⟨entry, hm, rfl⟩, of_decide_eq_true hne⟩
  · rintro ⟨⟨entry, hm, rfl⟩, hne⟩
    exact ⟨entry, List.mem_filter.2 ⟨hm, decide_eq_true hne⟩, rfl⟩

theorem mem_keys_keep {table : Table} {id other : ContextId} {scope : Scope} :
    other ∈ (table.keep id scope).keys ↔ other ∈ table.keys ∨ other = id := by
  have hkeys : (table.keep id scope).keys = id :: (table.forget id).keys := rfl
  rw [hkeys, List.mem_cons, mem_keys_forget]
  by_cases h : other = id
  · exact ⟨fun _ => Or.inr h, fun _ => Or.inl h⟩
  · exact ⟨fun hm => Or.inl (hm.resolve_left h).1, fun hm => Or.inr ⟨hm.resolve_right h, h⟩⟩

theorem scope_keep_self (table : Table) (id : ContextId) (scope : Scope) :
    (table.keep id scope).scope id = scope :=
  Toy.scope_keep_self { scopes := table } id scope

theorem scope_keep_of_ne (table : Table) {id other : ContextId} (h : other ≠ id) (scope : Scope) :
    (table.keep id scope).scope other = table.scope other :=
  Toy.scope_keep_of_ne { scopes := table } h scope

theorem scope_forget_of_ne (table : Table) {id other : ContextId} (h : other ≠ id) :
    (table.forget id).scope other = table.scope other := by
  rw [Table.scope, forget, Toy.lookup_filter_ne h]
  rfl

end Table

/-- The response to a source text; none if it ends the engine. -/
def Outcome.response? : Outcome → Option Response
  | .value v => some (.ok v)
  | .error message => some (.err message)
  | .exit => none

/-- Carries out a request on a table. -/
def Table.serve [Build] (table : Table) : Request → Option Response × Table
  | .teardown id => (some (.ok .null), table.forget id)
  | .evaluate id source =>
    ((evaluate source.toList (table.scope id)).1.response?,
      table.keep id (evaluate source.toList (table.scope id)).2)

theorem Toy.serve_eq [Build] (t : Toy) (r : Request) :
    t.serve r = ((Table.serve t.scopes r).1, { t with scopes := (Table.serve t.scopes r).2 }) := by
  cases r with
  | teardown id => rfl
  | evaluate id source =>
    rw [Toy.serve, Table.serve]
    generalize hr : evaluate source.toList (t.scope id) = result
    have hr' : evaluate source.toList (Table.scope t.scopes id) = result := hr
    rw [hr']
    obtain ⟨outcome, scope⟩ := result
    cases outcome <;> rfl

/-! ### What was heard -/

theorem requests_append_line (heard : List Heard) (text : String) :
    Heard.requests (heard ++ [.line text]) = Heard.requests heard := by
  rw [Heard.requests, List.filterMap_append]
  exact List.append_nil _

theorem requests_append_request (heard : List Heard) (r : Request) :
    Heard.requests (heard ++ [.request r]) = Heard.requests heard ++ [r] := by
  rw [Heard.requests, List.filterMap_append]
  rfl

/-! ### Hearing lines -/

theorem Toy.react_of_none [Build] {t : Toy} {line : String} {r : Reassembler}
    (h : t.reassembler.push line = (none, r)) :
    t.react line = ({ answers := [] }, ⟨t.scopes, r, t.heard ++ [.line line]⟩) := by
  rw [Toy.react, h]
  rfl

theorem Toy.react_of_request [Build] {t : Toy} {line : String} {r : Reassembler} {request : Request}
    (h : t.reassembler.push line = (some request.encode, r)) :
    t.react line =
      (match (Table.serve t.scopes request).1 with
        | some response => { answers := [response.encode] }
        | none => { answers := [], exits := true },
        ⟨(Table.serve t.scopes request).2, r, t.heard ++ [.line line] ++ [.request request]⟩) := by
  rw [Toy.react, h]
  simp only [Toy.answer, Request.decode_encode, Toy.serve_eq, Toy.note]
  generalize Table.serve t.scopes request = served
  obtain ⟨response, table⟩ := served
  cases response <;> rfl

namespace Pipe

variable [Build]

theorem hear_toy (t : Toy) (input output : List UInt8) (line : String) :
    (⟨.toy t, input, output, false⟩ : Pipe Program).hear (Text.bytes line) =
      ⟨.toy (t.react line).2, input,
        output ++ (t.react line).1.answers.flatMap (fun answer => Text.bytes (answer ++ "\n")),
        (t.react line).1.exits⟩ := by
  rw [hear, if_neg (by simp)]
  simp only [Text.ofBytes?_bytes]
  rfl

theorem foldl_hear_of_gone {p : Pipe Program} (h : p.isGone) (lines : List (List UInt8)) :
    lines.foldl hear p = p := by
  induction lines with
  | nil => rfl
  | cons line lines ih =>
    rw [List.foldl_cons, hear, if_pos h]
    exact ih

/-- Lines that complete no frame are only noted. -/
theorem hear_of_run_nil {lines : List String} {t : Toy} {r : Reassembler}
    (h : t.reassembler.run lines = ([], r)) (input output : List UInt8) :
    ∃ heard, Heard.requests heard = Heard.requests t.heard ∧
      (lines.map Text.bytes).foldl hear (⟨.toy t, input, output, false⟩ : Pipe Program) =
        ⟨.toy ⟨t.scopes, r, heard⟩, input, output, false⟩ := by
  induction lines generalizing t with
  | nil =>
    cases h
    exact ⟨t.heard, rfl, rfl⟩
  | cons line lines ih =>
    rw [Reassembler.run_cons] at h
    obtain ⟨hframe, hrest⟩ := List.append_eq_nil_iff.1 (congrArg Prod.fst h)
    have hpush : t.reassembler.push line = (none, (t.reassembler.push line).2) :=
      Prod.ext (Option.toList_eq_nil_iff.1 hframe) rfl
    have hreact := Toy.react_of_none hpush
    have hleft : ((t.reassembler.push line).2.run lines).2 = r := congrArg Prod.snd h
    obtain ⟨heard, hheard, hfold⟩ :=
      ih (t := ⟨t.scopes, (t.reassembler.push line).2, t.heard ++ [.line line]⟩)
        (Prod.ext hrest hleft)
    refine ⟨heard, hheard.trans (requests_append_line _ _), ?_⟩
    rw [List.map_cons, List.foldl_cons, hear_toy, hreact]
    simp only [List.flatMap_nil, List.append_nil]
    exact hfold

/-- **The lines of a request make the engine serve it, once.** -/
theorem hear_lines {lines : List String} {t : Toy} {request : Request}
    (h : t.reassembler.run lines = ([request.encode], .empty)) (input output : List UInt8) :
    ∃ heard, Heard.requests heard = Heard.requests t.heard ++ [request] ∧
      (lines.map Text.bytes).foldl hear (⟨.toy t, input, output, false⟩ : Pipe Program) =
        ⟨.toy ⟨(Table.serve t.scopes request).2, .empty, heard⟩, input,
          output ++ (Table.serve t.scopes request).1.toList.flatMap
            (fun response => Text.bytes (response.encode ++ "\n")),
          (Table.serve t.scopes request).1.isNone⟩ := by
  induction lines generalizing t with
  | nil => cases h
  | cons line lines ih =>
    rw [Reassembler.run_cons] at h
    rw [List.map_cons, List.foldl_cons, hear_toy]
    cases hpush : t.reassembler.push line with
    | mk frame r =>
      rw [hpush] at h
      cases frame with
      | none =>
        have hrun : r.run lines = ([request.encode], .empty) := h
        obtain ⟨heard, hheard, hfold⟩ := ih (t := ⟨t.scopes, r, t.heard ++ [.line line]⟩) hrun
        refine ⟨heard, ?_, ?_⟩
        · rw [hheard, requests_append_line]
        · rw [Toy.react_of_none hpush]
          simp only [List.flatMap_nil, List.append_nil]
          exact hfold
      | some frame =>
        have hfirst := congrArg Prod.fst h
        simp only [Option.toList_some, List.singleton_append] at hfirst
        obtain ⟨rfl, hnil⟩ := List.cons.inj hfirst
        have hempty : r = .empty := by
          rw [Reassembler.push] at hpush
          dsimp only at hpush
          split at hpush
          · split at hpush
            · exact (congrArg Prod.snd hpush).symm
            · cases hpush
          split at hpush
          · exact (congrArg Prod.snd hpush).symm
          · cases hpush
        have hleft : (r.run lines).2 = .empty := congrArg Prod.snd h
        have hrun : r.run lines = ([], .empty) := Prod.ext hnil hleft
        rw [Toy.react_of_request hpush]
        generalize Table.serve t.scopes request = served
        obtain ⟨response, table⟩ := served
        cases response with
        | none =>
          refine ⟨t.heard ++ [.line line] ++ [.request request], ?_, ?_⟩
          · rw [requests_append_request, requests_append_line]
          · rw [foldl_hear_of_gone rfl, hempty]
            rfl
        | some response =>
          obtain ⟨heard, hheard, hfold⟩ :=
            hear_of_run_nil (t := ⟨table, r, t.heard ++ [.line line] ++ [.request request]⟩) hrun input
              (output ++ Text.bytes (response.encode ++ "\n"))
          refine ⟨heard, ?_, ?_⟩
          · rw [hheard, requests_append_request, requests_append_line]
          · simp only [List.flatMap_cons, List.flatMap_nil, List.append_nil, Option.toList_some,
              Option.isNone_some]
            exact hfold

end Pipe

end EnginePipe.Engine
