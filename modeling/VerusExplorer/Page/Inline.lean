import VerusExplorer.Lib.Loops
import VerusExplorer.Page.Panel
import VerusExplorer.Page.Positions
import Mathlib.Data.List.Perm.Basic
import Mathlib.Data.List.Sort

/-!
# Inline diagnostics

The squiggles of the editor are computed from the diagnostics of the last run and from the document
as it is now (`computeInlineDiagnostics`, `public/app.js`), which may have been edited or replaced
since.

* `inlineDiagnostic` is the body of the loop, `computeInlineDiagnostics` the function.
* `Marks doc d e` — the entry `e` is a proper one for the diagnostic `d`.
* **`computeInlineDiagnostics_marks`** — for any diagnostics and any document, no line is asked for
  that is not there, and the entries are sorted and proper, one for each diagnostic whose lines
  are there.
-/

namespace VerusExplorer

open Utf16

/-! ## The source -/

/-- A diagnostic as the linter of the editor takes it. -/
structure InlineDiagnostic where
  fromPos : ℕ
  toPos : ℕ
  severity : Severity
  message : JsString
  deriving DecidableEq, Repr

/-- `to` in the loop of `computeInlineDiagnostics`: nothing where the loop continues. -/
def inlineEnd (doc : Doc) (loc : Loc) (fromPos : ℕ) : Except RangeError (Option ℕ) :=
  match loc.ends with
  | some (endLine, endCol) => do
      let toPos ← toOffset doc endLine endCol
      pure (toPos.map fun toPos =>
        if toPos ≤ fromPos then min (fromPos + 1) doc.length else toPos)
  | none => do
      let info ← doc.line loc.line
      pure (some info.toPos)

/-- The body of that loop: the entry that is pushed, if any. -/
def inlineDiagnostic (doc : Doc) (d : Diagnostic) : Except RangeError (Option InlineDiagnostic) :=
  match d.loc with
  | none => pure none
  | some loc => do
      match ← toOffset doc loc.line loc.col with
      | none => pure none
      | some fromPos => do
          let toPos ← inlineEnd doc loc fromPos
          pure (toPos.map fun toPos => ⟨fromPos, toPos, d.severity, d.rendered⟩)

def computeInlineDiagnostics (doc : Doc) (diagnostics : List Diagnostic) :
    Except RangeError (List InlineDiagnostic) := do
  let diags ← Loops.collect (inlineDiagnostic doc) diagnostics
  pure (diags.insertionSort fun a b => a.fromPos ≤ b.fromPos)

/-! ## Proper entries -/

/-- The lines at which a diagnostic starts and, if that is known, ends are in the document. -/
def Diagnostic.Placed (doc : Doc) (d : Diagnostic) : Prop :=
  ∃ loc ∈ d.loc, doc.HasLine loc.line ∧ ∀ e ∈ loc.ends, doc.HasLine e.1

instance (doc : Doc) : DecidablePred (Diagnostic.Placed doc) := fun d =>
  match h : d.loc with
  | none => isFalse fun ⟨_, hloc, _⟩ => absurd (h.symm.trans hloc) (by simp)
  | some loc =>
      decidable_of_iff (doc.HasLine loc.line ∧ ∀ e ∈ loc.ends, doc.HasLine e.1)
        ⟨fun hp => ⟨loc, h, hp⟩, fun ⟨_, hloc, hp⟩ => by
          cases Option.some_inj.mp (h.symm.trans hloc)
          exact hp⟩

/-- A diagnostic without an end, of which the entry starts where the line ends. -/
def Diagnostic.EndlessAt (doc : Doc) (d : Diagnostic) (pos : ℕ) : Prop :=
  ∃ loc ∈ d.loc, loc.ends = none ∧ ∃ info, doc.line loc.line = .ok info ∧ info.toPos = pos

/-- An entry for a diagnostic that the editor accepts: it shows the diagnostic, it is a range of
the document, and only at the end of the document or of an open line is the range empty. -/
structure Marks (doc : Doc) (d : Diagnostic) (e : InlineDiagnostic) : Prop where
  severity : e.severity = d.severity
  message : e.message = d.rendered
  start : ∃ loc ∈ d.loc, toOffset doc loc.line loc.col = .ok (some e.fromPos)
  le : e.fromPos ≤ e.toPos
  length : e.toPos ≤ doc.length
  empty : e.fromPos = e.toPos → e.fromPos = doc.length ∨ d.EndlessAt doc e.fromPos

section Entries

variable {doc : Doc} {n : ℕ}

/-- An offset that is found lies in the document. -/
lemma exists_toOffset (h : doc.HasLine n) (col : ℕ) :
    ∃ pos, toOffset doc n col = .ok (some pos) ∧ pos ≤ Lines.lineEnd doc.lineTexts (n - 1) :=
  ⟨_, toOffset_of_hasLine h col, Nat.min_le_right _ _⟩

/-- Where a start is found, the end decides. -/
lemma inlineDiagnostic_eq {d : Diagnostic} {loc : Loc} (hloc : d.loc = some loc) {pos : ℕ}
    (hpos : toOffset doc loc.line loc.col = .ok (some pos)) {toPos : Option ℕ}
    (hto : inlineEnd doc loc pos = .ok toPos) :
    inlineDiagnostic doc d
      = .ok (toPos.map fun toPos => ⟨pos, toPos, d.severity, d.rendered⟩) := by
  simp only [inlineDiagnostic, hloc, hpos]
  show (do let toPos ← inlineEnd doc loc pos; pure (toPos.map _) : Except RangeError _) = _
  rw [hto]
  rfl

/-- Without an end the entry goes to the end of its line. -/
lemma inlineEnd_endless {loc : Loc} (hends : loc.ends = none) (h : doc.HasLine loc.line)
    (pos : ℕ) :
    inlineEnd doc loc pos = .ok (some (Lines.lineEnd doc.lineTexts (loc.line - 1))) := by
  simp only [inlineEnd, hends, Doc.line_of_hasLine h]
  rfl

/-- An end that does not lie after the start is moved one unit after it, if there is one. -/
lemma inlineEnd_ended {loc : Loc} {e : ℕ × ℕ} (hends : loc.ends = some e) (h : doc.HasLine e.1)
    {pos : ℕ} (hpos : pos ≤ doc.length) :
    ∃ toPos, inlineEnd doc loc pos = .ok (some toPos) ∧ pos ≤ toPos ∧ toPos ≤ doc.length
      ∧ (pos = toPos → pos = doc.length) := by
  obtain ⟨toPos, hto, hle⟩ := exists_toOffset h e.2
  have hlength : toPos ≤ doc.length := hle.trans h.bounds.2
  refine ⟨if toPos ≤ pos then min (pos + 1) doc.length else toPos, ?_, ?_⟩
  · simp only [inlineEnd, hends, hto]
    rfl
  · split_ifs <;> omega

/-- Every diagnostic whose lines are there has an entry. -/
lemma exists_marks {d : Diagnostic} (h : d.Placed doc) :
    ∃ e, inlineDiagnostic doc d = .ok (some e) ∧ Marks doc d e := by
  obtain ⟨loc, hloc, hline, hends⟩ := h
  obtain ⟨pos, hpos, hle⟩ := exists_toOffset hline loc.col
  have hlength : pos ≤ doc.length := hle.trans hline.bounds.2
  cases he : loc.ends with
  | none =>
      refine ⟨_, inlineDiagnostic_eq hloc hpos (inlineEnd_endless he hline pos), ?_⟩
      refine ⟨rfl, rfl, ⟨loc, hloc, hpos⟩, hle, hline.bounds.2, fun heq => Or.inr ?_⟩
      exact ⟨loc, hloc, he, _, Doc.line_of_hasLine hline, heq.symm⟩
  | some e =>
      obtain ⟨toPos, hto, hfrom, hbound, hempty⟩ := inlineEnd_ended he (hends e he) hlength
      refine ⟨_, inlineDiagnostic_eq hloc hpos hto, ?_⟩
      exact ⟨rfl, rfl, ⟨loc, hloc, hpos⟩, hfrom, hbound, fun heq => Or.inl (hempty heq)⟩

/-- No other diagnostic has one. -/
lemma inlineDiagnostic_of_not_placed {d : Diagnostic} (h : ¬d.Placed doc) :
    inlineDiagnostic doc d = .ok none := by
  cases hloc : d.loc with
  | none =>
      simp only [inlineDiagnostic, hloc]
      rfl
  | some loc =>
      by_cases hline : doc.HasLine loc.line
      · obtain ⟨pos, hpos, -⟩ := exists_toOffset hline loc.col
        have hnot : ¬∀ e ∈ loc.ends, doc.HasLine e.1 := fun hends => h ⟨loc, hloc, hline, hends⟩
        push Not at hnot
        obtain ⟨e, he, hend⟩ := hnot
        have hto : inlineEnd doc loc pos = .ok none := by
          simp only [inlineEnd, Option.mem_def.mp he, toOffset_of_not_hasLine hend]
          rfl
        exact inlineDiagnostic_eq hloc hpos hto
      · simp only [inlineDiagnostic, hloc, toOffset_of_not_hasLine hline]
        rfl

end Entries

/-- **Inline diagnostics are valid on any document.**  Whatever diagnostics there are and whatever
the document has become, no line is asked for that is not there, the entries are sorted by their
start, and they are those of the diagnostics whose lines are there, each a proper one. -/
theorem computeInlineDiagnostics_marks (doc : Doc) (diagnostics : List Diagnostic) :
    ∃ entries, computeInlineDiagnostics doc diagnostics = .ok entries
      ∧ entries.Pairwise (fun a b => a.fromPos ≤ b.fromPos)
      ∧ ∃ placed, (diagnostics.filter (Diagnostic.Placed doc)).Perm placed
        ∧ List.Forall₂ (Marks doc) placed entries := by
  obtain ⟨diags, hdiags, hmarks⟩ :
      ∃ diags, Loops.collect (inlineDiagnostic doc) diagnostics = .ok diags
        ∧ List.Forall₂ (Marks doc) (diagnostics.filter (Diagnostic.Placed doc)) diags :=
    Loops.collect_forall₂ (fun _ h => exists_marks h)
      (fun _ h => inlineDiagnostic_of_not_placed h) diagnostics
  let r : InlineDiagnostic → InlineDiagnostic → Prop := fun a b => a.fromPos ≤ b.fromPos
  have : Std.Total r := ⟨fun a b => Nat.le_total a.fromPos b.fromPos⟩
  have : IsTrans InlineDiagnostic r := ⟨fun _ _ _ => Nat.le_trans⟩
  have hcomp : Relation.Comp (List.Forall₂ (Marks doc)) List.Perm
      (diagnostics.filter (Diagnostic.Placed doc)) (diags.insertionSort r) :=
    ⟨diags, hmarks, (List.perm_insertionSort r diags).symm⟩
  rw [List.forall₂_comp_perm_eq_perm_comp_forall₂] at hcomp
  refine ⟨diags.insertionSort r, ?_, List.pairwise_insertionSort r diags, hcomp⟩
  rw [computeInlineDiagnostics, hdiags]
  rfl

end VerusExplorer
