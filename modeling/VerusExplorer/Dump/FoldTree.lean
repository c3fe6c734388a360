import VerusExplorer.Dump.Scanner

/-!
# Fold trees

What a dumped body stands for when its markers are balanced: plain lines and sections, each with a
label, a marker that says whether it is folded at first, and a tree inside
(`finalizeBannerBody`, `public/app.js`).

* `PlainLine`, `Label` — lines and labels that cannot be taken for anything else.
* `FoldTree.serialise` — the marked text; `FoldTree.forest` — the tree of its banners and lines.
* **`finalizeBannerBody_foldTree`** — the scanner returns the rendering of the pruned tree.
-/

namespace VerusExplorer

open Utf16 Lines

/-- A line that is no marker. -/
structure PlainLine where
  text : JsString
  oneLine : nl ∉ text
  notOpen : isOpen text = false
  notClose : isClose text = false

/-- A label fits on its line. -/
structure Label where
  text : JsString
  oneLine : nl ∉ text

/-- A forest of sections, first child and next sibling.  A section is folded at first if it has the
marker `>`, and not if it has `v`; it may have no label. -/
inductive FoldTree where
  | nil
  | line (l : PlainLine) (rest : FoldTree)
  | sect (autoFold : Bool) (label : Option Label) (kids rest : FoldTree)

namespace FoldTree

/-! ## The marked text -/

/-- A label with the blank before it. -/
def labelText : Option Label → JsString
  | none => []
  | some label => 32 :: label.text

def openLine (autoFold : Bool) (label : Option Label) : JsString :=
  js ";;" ++ (if autoFold then 62 else 118) :: labelText label

def serialLines : FoldTree → List JsString
  | nil => []
  | line l rest => l.text :: rest.serialLines
  | sect autoFold label kids rest =>
      openLine autoFold label :: kids.serialLines ++ js ";;<" :: rest.serialLines

def serialise (o : FoldTree) : JsString := join nl o.serialLines

/-! ## The tree -/

/-- A banner as it is shown. -/
def banner (label : Option Label) : JsString := js ";;" ++ labelText label

def forest : FoldTree → Fold.Forest UInt16
  | nil => .nil
  | line l rest => .line l.text rest.forest
  | sect autoFold label kids rest => .sect autoFold (banner label) kids.forest rest.forest

/-! ## The scanner reads the tree -/

lemma nl_notMem_openLine (autoFold : Bool) (label : Option Label) :
    nl ∉ openLine autoFold label := by
  have hlabel : nl ∉ labelText label := by
    cases label with
    | none => exact List.not_mem_nil
    | some label =>
        intro hmem
        rcases List.mem_cons.mp hmem with h | h
        · exact absurd h (by decide)
        · exact label.oneLine h
  intro hmem
  rcases List.mem_append.mp hmem with h | h
  · exact absurd h (by decide)
  · rcases List.mem_cons.mp h with h | h
    · cases autoFold
      all_goals exact absurd h (by decide)
    · exact hlabel h

lemma nl_notMem_serialLines : ∀ (o : FoldTree), ∀ l ∈ o.serialLines, nl ∉ l
  | nil, _, hl => absurd hl List.not_mem_nil
  | line k rest, l, hl => by
      rcases List.mem_cons.mp hl with rfl | hl
      · exact k.oneLine
      · exact nl_notMem_serialLines rest l hl
  | sect autoFold label kids rest, l, hl => by
      rcases List.mem_append.mp hl with hl | hl
      · rcases List.mem_cons.mp hl with rfl | hl
        · exact nl_notMem_openLine autoFold label
        · exact nl_notMem_serialLines kids l hl
      · rcases List.mem_cons.mp hl with rfl | hl
        · decide
        · exact nl_notMem_serialLines rest l hl

lemma lineToken_openLine (autoFold : Bool) (label : Option Label) :
    lineToken (openLine autoFold label) = .opn autoFold (banner label) := by
  cases autoFold
  all_goals
    cases label with
    | none => rfl
    | some label => rfl

lemma lineToken_plainLine (l : PlainLine) : lineToken l.text = .line l.text := by
  rw [lineToken, l.notOpen, l.notClose]
  rfl

/-- The tokens of the text are those of the tree. -/
lemma tokens_serialLines : ∀ o : FoldTree, o.serialLines.map lineToken = o.forest.tokens
  | nil => rfl
  | line l rest => by
      rw [serialLines, List.map_cons, lineToken_plainLine, tokens_serialLines rest]
      rfl
  | sect autoFold label kids rest => by
      have hclose : lineToken (js ";;<") = .cls := rfl
      rw [serialLines, List.cons_append, List.map_cons, List.map_append, List.map_cons,
        lineToken_openLine, hclose, tokens_serialLines kids, tokens_serialLines rest]
      rfl

/-- A tree without lines is the empty text, which has one blank line. -/
lemma eq_nil_of_serialLines {o : FoldTree} (h : o.serialLines = []) : o = nil := by
  cases o with
  | nil => rfl
  | line l rest => exact absurd h (by simp [serialLines])
  | sect autoFold label kids rest => exact absurd h (by simp [serialLines])

lemma finalizeBannerBody_serialise (o : FoldTree) :
    finalizeBannerBody o.serialise = renderForest o.forest.prune.dropBlank := by
  by_cases hnil : o.serialLines = []
  · rw [eq_nil_of_serialLines hnil]
    rfl
  · refine finalizeBannerBody_forest ?_
    rw [serialise, splitOn_join (nl_notMem_serialLines o) hnil, tokens_serialLines]

end FoldTree

/-- **The scanner computes the fold tree.**  The body is the lines of the pruned tree, banners
without their markers and no blank lines at the start; there is one range for each section that is
left, children before their parent, from the end of its banner to the end of its last line; and the
sections that are folded at first are those with `>`.  A section is left if and only if it has a
plain line somewhere below it. -/
theorem finalizeBannerBody_foldTree (o : FoldTree) :
    let shown := o.forest.prune.dropBlank
    let r := finalizeBannerBody o.serialise
    r.body = join nl shown.lines
      ∧ r.foldable = (shown.spans 0).map (rangeOf shown.lines)
      ∧ r.autoFolded = ((shown.spans 0).filter (·.auto)).map (rangeOf shown.lines)
      ∧ (∀ i < shown.lines.length,
        r.body.take (lineEnd shown.lines i) = join nl (shown.lines.take (i + 1)))
      ∧ shown.Full ∧ o.forest.prune.plainLines = o.forest.plainLines := by
  intro shown r
  have hr : r = renderForest shown := o.finalizeBannerBody_serialise
  rw [hr]
  exact ⟨rfl, rfl, rfl, fun i hi => take_lineEnd nl hi, (Fold.Forest.full_prune _).dropBlank,
    Fold.Forest.plainLines_prune _⟩

end VerusExplorer
