import VerusExplorer.Lib.Lines
import VerusExplorer.Page.Editor
import Mathlib.Data.Nat.Init

/-!
# Positions in the document

rustc reports a position as a line and a column, both from 1 on, and counts the scalar values of the
line.  The editor counts UTF-16 units from the start of the document (`public/app.js`).

* `Doc.line` is the editor's; `toOffset` is how `computeInlineDiagnostics` finds the offset of a
  position, `jumpToLoc` where a click on a diagnostic takes the cursor.
* `scalarOffset` — where a scalar value of a line starts: the number of units that stand before it.
* **`toOffset_eq_scalarOffset_iff`** — both land on the scalar value rustc meant exactly when none
  before it on its line is outside the Basic Multilingual Plane.
-/

namespace VerusExplorer

open Utf16

/-! ## The source -/

/-- The lines of a document. -/
def Doc.lineTexts (d : Doc) : List JsString := d.text.splitOn 10

def Doc.length (d : Doc) : ℕ := d.text.length

/-- A line as the editor describes it. -/
structure Line where
  fromPos : ℕ
  toPos : ℕ
  deriving DecidableEq, Repr

/-- The error of a question for a line that is not there. -/
inductive RangeError where
  | invalidLineNumber (n : ℕ)
  deriving DecidableEq, Repr

/-- `doc.line`. -/
def Doc.line (d : Doc) (n : ℕ) : Except RangeError Line :=
  if n < 1 ∨ n > d.lines then throw (.invalidLineNumber n)
  else pure ⟨Lines.lineStart d.lineTexts (n - 1), Lines.lineEnd d.lineTexts (n - 1)⟩

/-- `toOffset` of `computeInlineDiagnostics`. -/
def toOffset (doc : Doc) (line col : ℕ) : Except RangeError (Option ℕ) :=
  if line < 1 ∨ line > doc.lines then pure none
  else do
    let info ← doc.line line
    pure (some (min (info.fromPos + (col - 1)) info.toPos))

/-- What a jump dispatches: the new cursor, which is scrolled to, and the line that flashes. -/
structure Jump where
  anchor : ℕ
  flash : ℕ
  deriving DecidableEq, Repr

def jumpToLoc (doc : Doc) (line col : ℕ) : Except RangeError (Option Jump) :=
  if line < 1 ∨ line > doc.lines then pure none
  else do
    let lineInfo ← doc.line line
    let pos := min (lineInfo.fromPos + (col - 1)) lineInfo.toPos
    pure (some { anchor := pos, flash := lineInfo.fromPos })

/-! ## Lines that exist -/

/-- A line number of the document. -/
def Doc.HasLine (d : Doc) (n : ℕ) : Prop := 1 ≤ n ∧ n ≤ d.lines

/-- The offset at which a line starts. -/
def Doc.lineFrom (d : Doc) (n : ℕ) : ℕ := Lines.lineStart d.lineTexts (n - 1)

instance (d : Doc) (n : ℕ) : Decidable (d.HasLine n) := inferInstanceAs (Decidable (_ ∧ _))

section Existing

variable {d : Doc} {n : ℕ}

lemma length_lineTexts (d : Doc) : d.lineTexts.length = d.lines := Lines.length_splitOn 10 d.text

lemma Doc.hasLine_iff : d.HasLine n ↔ ¬(n < 1 ∨ n > d.lines) := by
  rw [Doc.HasLine]
  omega

lemma Doc.line_of_hasLine (h : d.HasLine n) :
    d.line n = .ok ⟨Lines.lineStart d.lineTexts (n - 1), Lines.lineEnd d.lineTexts (n - 1)⟩ :=
  if_neg (Doc.hasLine_iff.mp h)

lemma toOffset_of_hasLine (h : d.HasLine n) (col : ℕ) :
    toOffset d n col = .ok (some (min (Lines.lineStart d.lineTexts (n - 1) + (col - 1))
      (Lines.lineEnd d.lineTexts (n - 1)))) := by
  rw [toOffset, if_neg (Doc.hasLine_iff.mp h), Doc.line_of_hasLine h]
  rfl

lemma toOffset_of_not_hasLine (h : ¬d.HasLine n) (col : ℕ) : toOffset d n col = .ok none :=
  if_pos (not_not.mp (mt Doc.hasLine_iff.mpr h))

lemma jumpToLoc_of_hasLine (h : d.HasLine n) (col : ℕ) :
    jumpToLoc d n col = .ok (some
      { anchor := min (Lines.lineStart d.lineTexts (n - 1) + (col - 1))
          (Lines.lineEnd d.lineTexts (n - 1))
        flash := Lines.lineStart d.lineTexts (n - 1) }) := by
  rw [jumpToLoc, if_neg (Doc.hasLine_iff.mp h), Doc.line_of_hasLine h]
  rfl

/-- The editor's lines lie in the document. -/
lemma Doc.HasLine.bounds (h : d.HasLine n) :
    Lines.lineStart d.lineTexts (n - 1) ≤ Lines.lineEnd d.lineTexts (n - 1)
      ∧ Lines.lineEnd d.lineTexts (n - 1) ≤ d.length := by
  have hi : n - 1 < d.lineTexts.length := by
    rw [length_lineTexts]
    have := h.1
    have := h.2
    omega
  refine ⟨Lines.lineStart_le_lineEnd hi, ?_⟩
  have hle := Lines.lineEnd_le_length_join 10 hi
  rwa [Doc.lineTexts, Lines.join_splitOn] at hle

/-- Lines are told apart by where they start. -/
lemma lineFrom_inj {m : ℕ} (hm : d.HasLine m) (hn : d.HasLine n)
    (h : d.lineFrom m = d.lineFrom n) : m = n := by
  have heq := (Lines.lineStart_strictMono d.lineTexts).injective h
  have := hm.1
  have := hn.1
  omega

end Existing

/-! ## Scalar values -/

/-- The lines of a source text, as rustc sees them. -/
def sourceLines (src : List Char) : List (List Char) := src.splitOn '\n'

/-- The offset at which the scalar value in column `col` of line `line` starts, or the line ends if
it has one column less: the units of all that stands before it. -/
def scalarOffset (src : List Char) (line col : ℕ) : ℕ :=
  let before := Lines.unlines '\n' ((sourceLines src).take (line - 1))
  let inLine := (((sourceLines src)[line - 1]?).getD []).take (col - 1)
  (encode (before ++ inLine)).length

/-- The editor and rustc agree on the lines. -/
lemma lineTexts_eq {d : Doc} {src : List Char} (h : d.text = encode src) :
    d.lineTexts = (sourceLines src).map encode := by
  have hnl : units '\n' = [10] := by decide
  have hjoin : encode src = Lines.join 10 ((sourceLines src).map encode) := by
    conv_lhs => rw [← Lines.join_splitOn '\n' src]
    exact Lines.flatMap_join units hnl (sourceLines src)
  rw [Doc.lineTexts, h, hjoin, Lines.splitOn_join ?_ (by simp [sourceLines, List.splitOn_ne_nil])]
  intro l hl
  obtain ⟨cs, hcs, rfl⟩ := List.mem_map.mp hl
  rw [mem_encode_iff (by decide)]
  rintro ⟨c, hc, heq⟩
  have hc' : c = '\n' := Char.toNat_inj.mp heq
  exact Lines.not_mem_of_mem_splitOn hcs (hc' ▸ hc)

section Meant

variable {d : Doc} {src : List Char} {n : ℕ} {line : List Char}

lemma hasLine_of_sourceLines (h : d.text = encode src) (hn : 1 ≤ n)
    (hline : (sourceLines src)[n - 1]? = some line) : d.HasLine n := by
  have hlt := (List.getElem?_eq_some_iff.mp hline).1
  refine ⟨hn, ?_⟩
  rw [← length_lineTexts, lineTexts_eq h, List.length_map]
  omega

/-- The units of the lines before, and those of the scalar values before. -/
lemma scalarOffset_eq (h : d.text = encode src) (hline : (sourceLines src)[n - 1]? = some line)
    (col : ℕ) :
    scalarOffset src n col
      = Lines.lineStart d.lineTexts (n - 1) + (encode (line.take (col - 1))).length := by
  have hlt := (List.getElem?_eq_some_iff.mp hline).1
  have hbefore : encode (Lines.unlines '\n' ((sourceLines src).take (n - 1)))
      = Lines.unlines 10 (d.lineTexts.take (n - 1)) := by
    have hnl : units '\n' = [10] := by decide
    rw [lineTexts_eq h, ← List.map_take]
    simp only [encode, Lines.unlines, List.flatMap_assoc, List.flatMap_map, List.flatMap_append,
      List.flatMap_singleton, hnl]
  rw [scalarOffset, hline, Option.getD_some, encode_append, hbefore, List.length_append,
    Lines.length_unlines_take]
  rw [lineTexts_eq h, List.length_map]
  omega

/-- What is computed from a column: as many units as there are scalar values before. -/
lemma columnOffset_eq (h : d.text = encode src) (hline : (sourceLines src)[n - 1]? = some line)
    {col : ℕ} (hcol : col ≤ line.length + 1) :
    min (Lines.lineStart d.lineTexts (n - 1) + (col - 1)) (Lines.lineEnd d.lineTexts (n - 1))
      = Lines.lineStart d.lineTexts (n - 1) + (line.take (col - 1)).length := by
  have hunits : d.lineTexts[n - 1]? = some (encode line) := by
    rw [lineTexts_eq h, List.getElem?_map, hline]
    rfl
  have hle := length_le_length_encode line
  rw [Lines.lineEnd_eq_lineStart_add hunits, List.length_take]
  omega

/-- **Positions land where rustc meant exactly when the line is of one unit a scalar up to there.**
The offset of a squiggle's end and the cursor after a click are where the scalar value in that
column starts, or where the line ends for the column after the last, if and only if every scalar
value before it on the line is in the Basic Multilingual Plane. -/
theorem toOffset_eq_scalarOffset_iff (h : d.text = encode src) (hn : 1 ≤ n)
    (hline : (sourceLines src)[n - 1]? = some line) {col : ℕ} (hlast : col ≤ line.length + 1) :
    (toOffset d n col = .ok (some (scalarOffset src n col))
        ∧ ∃ jump, jumpToLoc d n col = .ok (some jump) ∧ jump.anchor = scalarOffset src n col)
      ↔ ∀ c ∈ line.take (col - 1), c.toNat < 0x10000 := by
  have hex := hasLine_of_sourceLines h hn hline
  have hoffset := columnOffset_eq h hline hlast
  rw [toOffset_of_hasLine hex, jumpToLoc_of_hasLine hex, hoffset, scalarOffset_eq h hline,
    ← length_encode_eq_iff]
  constructor
  · rintro ⟨hsome, -⟩
    have heq := Option.some_inj.mp (Except.ok.inj hsome)
    omega
  · intro heq
    rw [heq]
    exact ⟨rfl, _, rfl, rfl⟩

end Meant

/-- A line with a scalar value outside the Basic Multilingual Plane in its second column. -/
def smileyLine : List Char := ['é', '😀', 'x', 'y']

/-- A document of that line after another one. -/
def smileyDoc : Doc := ⟨encode ('a' :: '\n' :: smileyLine), by decide⟩

/-- Up to the second column the positions are right. -/
theorem toOffset_eq_scalarOffset_smiley :
    toOffset smileyDoc 2 2 = .ok (some (scalarOffset ('a' :: '\n' :: smileyLine) 2 2)) := by
  have hline : (sourceLines ('a' :: '\n' :: smileyLine))[2 - 1]? = some smileyLine := by decide
  have hplane : ∀ c ∈ smileyLine.take (2 - 1), c.toNat < 0x10000 := by
    intro c hc
    obtain rfl : c = 'é' := List.mem_singleton.mp hc
    decide
  exact ((toOffset_eq_scalarOffset_iff (d := smileyDoc) rfl (by decide) hline
    (by decide)).mpr hplane).1

/-- The `x` in the third column starts at offset 5; the squiggle and the cursor land at offset 4, in
the middle of the scalar value before it. -/
theorem toOffset_ne_scalarOffset_smiley :
    let src := 'a' :: '\n' :: smileyLine
    smileyDoc.text = encode src ∧ (sourceLines src)[1]? = some smileyLine
      ∧ smileyLine[2]? = some 'x' ∧ scalarOffset src 2 3 = 5
      ∧ toOffset smileyDoc 2 3 = .ok (some 4)
      ∧ jumpToLoc smileyDoc 2 3 = .ok (some { anchor := 4, flash := 2 }) := by
  decide

end VerusExplorer
