import VerusExplorer.Lib.Lines
import VerusExplorer.Lib.Fold
import VerusExplorer.Lib.Utf16

/-!
# The fold scanner of the browser

`finalizeBannerBody` (`public/app.js`) turns a dumped section body into what the output view
shows: it strips the marker characters, removes empty sections, and returns the ranges the editor
may fold.  It works on a growing string and records *offsets* into it.

* `isOpen`, `isClose`, `stripMarker`, `scanLine`, `finalizeBannerBody` follow the source; offsets
  are in UTF-16 units, as the editor counts them.
* `Refines` relates a scanner state to a state of `Fold.Machine`, which counts lines.  Each
  recorded offset is the end of a kept line, and cutting the string back to a recorded length is
  cutting the kept lines back (`refines_scanLine`).
* **`finalizeBannerBody_eq`** — on every input the scanner computes what the machine does, so
  what is proved about the machine, or about forests, holds of the scanner's offsets.
-/

namespace VerusExplorer

open Utf16 Lines

/-! ## The source -/

/-- `'\n'`. -/
def nl : UInt16 := 10

def isOpen (l : JsString) : Bool :=
  (js ";;").isPrefixOf l && l[2]?.any (js "v>").contains && (l.length == 3 || l[3]? == some 32)

def isClose (l : JsString) : Bool := l == js ";;<" || (js ";;< ").isPrefixOf l

/-- Drop the `>` or `v` of an opening marker. -/
def stripMarker (line : JsString) : JsString := js ";;" ++ line.drop 3

/-- A range the editor may fold. -/
structure FoldRange where
  fromPos : ℕ
  toPos : ℕ
  deriving DecidableEq, Repr

/-- A stack entry of the scanner. -/
structure OpenSection where
  cleanedLenAtOpen : ℕ
  openLineEnd : ℕ
  autoFold : Bool
  deriving DecidableEq, Repr

/-- The scanner's variables; the innermost open section is at the head of `stack`. -/
structure Scan where
  cleaned : JsString := []
  foldable : List FoldRange := []
  autoFolded : List FoldRange := []
  stack : List OpenSection := []
  deriving DecidableEq, Repr

def appendLine (cleaned line : JsString) : JsString :=
  (if cleaned.length > 0 then cleaned ++ [nl] else cleaned) ++ line

def Scan.emitRange (s : Scan) (o : OpenSection) (toPos : ℕ) : Scan :=
  if toPos > o.openLineEnd then
    { s with
      foldable := s.foldable ++ [⟨o.openLineEnd, toPos⟩]
      autoFolded := if o.autoFold then s.autoFolded ++ [⟨o.openLineEnd, toPos⟩] else s.autoFolded }
  else s

/-- The body of the scanner's loop over the lines. -/
def scanLine (s : Scan) (l : JsString) : Scan :=
  if isOpen l then
    { s with
      cleaned := appendLine s.cleaned (stripMarker l)
      stack :=
        { cleanedLenAtOpen := s.cleaned.length
          openLineEnd := (appendLine s.cleaned (stripMarker l)).length
          autoFold := l[2]? == some 62 } :: s.stack }
  else if isClose l then
    match s.stack with
    | [] => s
    | o :: stack =>
        if s.cleaned.length = o.openLineEnd then
          { s with cleaned := s.cleaned.take o.cleanedLenAtOpen, stack }
        else Scan.emitRange { s with stack } o s.cleaned.length
  else { s with cleaned := appendLine s.cleaned l }

/-- The loop after the last line: sections still open fold to the end. -/
def Scan.closeAll (s : Scan) : Scan :=
  s.stack.foldl (fun s o => s.emitRange o s.cleaned.length) { s with stack := [] }

structure Finalized where
  body : JsString
  foldable : List FoldRange
  autoFolded : List FoldRange
  deriving DecidableEq, Repr

def finalizeBannerBody (body : JsString) : Finalized :=
  let s := ((body.splitOn nl).foldl scanLine {}).closeAll
  { body := s.cleaned, foldable := s.foldable, autoFolded := s.autoFolded }

/-! ## Lines as tokens -/

/-- What a line is to the scanner. -/
def lineToken (l : JsString) : Fold.Token UInt16 :=
  if isOpen l then .opn (l[2]? == some 62) (stripMarker l)
  else if isClose l then .cls
  else .line l

lemma stripMarker_ne_nil (l : JsString) : stripMarker l ≠ [] := by
  simp [stripMarker, js, units_ne_nil]

lemma banner_ne_nil {l : JsString} {auto : Bool} {b : JsString}
    (h : lineToken l = .opn auto b) : b ≠ [] := by
  simp only [lineToken] at h
  split_ifs at h
  obtain ⟨-, rfl⟩ := Fold.Token.opn.inj h
  exact stripMarker_ne_nil l

/-! ## The scanner refines the machine -/

/-- The offsets of a span of kept lines. -/
def rangeOf (kept : List JsString) (s : Fold.Span) : FoldRange :=
  ⟨lineEnd kept s.first, lineEnd kept s.last⟩

/-- The stack entry of a section whose banner is kept line `o.banner`. -/
def sectionOf (kept : List JsString) (o : Fold.Opening) : OpenSection :=
  ⟨(join nl (kept.take o.banner)).length, lineEnd kept o.banner, o.auto⟩

/-- The scanner state `s` holds, as text and offsets, what the machine state `m` holds as
lines. -/
structure Refines (s : Scan) (m : Fold.Machine UInt16) : Prop where
  cleaned : s.cleaned = join nl m.kept
  foldable : s.foldable = m.spans.map (rangeOf m.kept)
  autoFolded : s.autoFolded = (m.spans.filter (·.auto)).map (rangeOf m.kept)
  stack : s.stack = m.opened.map (sectionOf m.kept)

/-- Lines that do not start with a blank one are empty only if there are none. -/
lemma join_eq_nil_iff {kept : List JsString} (h : kept.head? ≠ some []) :
    join nl kept = [] ↔ kept = [] := by
  cases kept with
  | nil => simp
  | cons k ks =>
      have hk : k ≠ [] := by simpa using h
      cases ks with
      | nil => simpa using hk
      | cons k' ks => simp [join_cons nl k (List.cons_ne_nil k' ks), hk]

lemma appendLine_join {kept : List JsString} (h : kept.head? ≠ some []) {l : JsString}
    (hl : kept ≠ [] ∨ l ≠ []) : appendLine (join nl kept) l = join nl (kept ++ [l]) := by
  rw [appendLine]
  by_cases hk : kept = []
  · subst hk
    simp
  · have hpos : (join nl kept).length > 0 :=
      List.length_pos_iff.mpr fun h0 => hk ((join_eq_nil_iff h).mp h0)
    rw [if_pos hpos, join_concat, unlines_eq_join nl hk]

/-- Ranges and stack entries recorded so far survive a further line. -/
lemma map_rangeOf_append {m : Fold.Machine UInt16} (h : m.WF) (ls : List JsString)
    {spans : List Fold.Span} (hs : spans ⊆ m.spans) :
    spans.map (rangeOf (m.kept ++ ls)) = spans.map (rangeOf m.kept) := by
  refine List.map_congr_left ?_
  intro s hmem
  have h1 := h.first_lt s (hs hmem)
  have h2 := h.last_lt s (hs hmem)
  rw [rangeOf, rangeOf, lineEnd_append ls (by omega), lineEnd_append ls h2]

lemma map_sectionOf_append {m : Fold.Machine UInt16} (h : m.WF) (ls : List JsString) :
    m.opened.map (sectionOf (m.kept ++ ls)) = m.opened.map (sectionOf m.kept) := by
  refine List.map_congr_left ?_
  intro o ho
  have h1 := h.opened_lt o ho
  rw [sectionOf, sectionOf, lineEnd_append ls h1,
    List.take_append_of_le_length (Nat.le_of_lt h1)]

lemma Refines.append {s : Scan} {m : Fold.Machine UInt16} (h : Refines s m) (hm : m.WF)
    {l : JsString} (hl : m.kept ≠ [] ∨ l ≠ []) :
    Refines { s with cleaned := appendLine s.cleaned l } { m with kept := m.kept ++ [l] } where
  cleaned := by simp only [h.cleaned, appendLine_join hm.head_ne hl]
  foldable := by
    simp only [h.foldable, map_rangeOf_append hm _ (List.Subset.refl _)]
  autoFolded := by
    simp only [h.autoFolded, map_rangeOf_append hm _ (List.filter_subset_self _)]
  stack := by simp only [h.stack, map_sectionOf_append hm]

lemma lt_of_mem_spans {m : Fold.Machine UInt16} (h : m.WF) {s : Fold.Span} (hs : s ∈ m.spans)
    {o : Fold.Opening} {os : List Fold.Opening} (ho : m.opened = o :: os)
    (hlen : m.kept.length = o.banner + 1) : s.last < o.banner := by
  have h1 := h.last_lt s hs
  have h2 := h.last_ne s hs o (by simp [ho])
  omega

/-- Deleting the innermost section: no range and no stack entry reaches into what is cut. -/
lemma Refines.cut {s : Scan} {m : Fold.Machine UInt16} (h : Refines s m) (hm : m.WF)
    {o : Fold.Opening} {os : List Fold.Opening} (ho : m.opened = o :: os)
    (hlen : m.kept.length = o.banner + 1) {stack : List OpenSection}
    (hstack : stack = os.map (sectionOf m.kept)) :
    Refines { s with cleaned := s.cleaned.take (sectionOf m.kept o).cleanedLenAtOpen, stack }
      { m with kept := m.kept.take o.banner, opened := os } := by
  have hrange : ∀ sp ∈ m.spans, rangeOf m.kept sp = rangeOf (m.kept.take o.banner) sp := by
    intro sp hsp
    have h1 := hm.first_lt sp hsp
    have h2 := lt_of_mem_spans hm hsp ho hlen
    rw [rangeOf, rangeOf, lineEnd_take (by omega), lineEnd_take h2]
  have hnest := hm.nested
  rw [ho, List.pairwise_cons] at hnest
  refine ⟨?_, ?_, ?_, ?_⟩
  · simp only [h.cleaned, sectionOf, take_length_join_take]
  · simp only [h.foldable]
    exact List.map_congr_left hrange
  · simp only [h.autoFolded]
    exact List.map_congr_left fun sp hsp => hrange sp (List.mem_of_mem_filter hsp)
  · simp only [hstack]
    refine List.map_congr_left ?_
    intro o' ho'
    have := hnest.1 o' ho'
    rw [sectionOf, sectionOf, lineEnd_take this, List.take_take, Nat.min_eq_left (by omega)]

/-- Recording the range of a section that ends with the last kept line. -/
lemma Refines.emitRange {s : Scan} {m : Fold.Machine UInt16} (h : Refines s m)
    {o : Fold.Opening} (hlt : o.banner + 1 < m.kept.length) :
    Refines (s.emitRange (sectionOf m.kept o) s.cleaned.length)
      { m with spans := m.spans ++ [⟨o.banner, m.kept.length - 1, o.auto⟩] } := by
  have hlen : s.cleaned.length = lineEnd m.kept (m.kept.length - 1) := by
    rw [h.cleaned, length_join nl (List.ne_nil_of_length_pos (by omega))]
  have hgt : s.cleaned.length > (sectionOf m.kept o).openLineEnd := by
    rw [h.cleaned]
    exact (lineEnd_lt_length_join nl (by omega)).mpr hlt
  rw [Scan.emitRange, if_pos hgt]
  refine ⟨h.cleaned, ?_, ?_, h.stack⟩
  · simp [h.foldable, rangeOf, sectionOf, hlen]
  · cases ha : o.auto <;> simp [h.autoFolded, rangeOf, sectionOf, hlen, ha]

/-- **One line.**  The scanner's step refines the machine's step on the line's token. -/
lemma refines_scanLine {s : Scan} {m : Fold.Machine UInt16} (h : Refines s m) (hm : m.WF)
    (l : JsString) : Refines (scanLine s l) (m.step (lineToken l)) := by
  simp only [scanLine, lineToken]
  split_ifs with hopen hclose
  · -- an opening marker: the banner is kept and its end recorded
    have happ := h.append hm (l := stripMarker l) (Or.inr (stripMarker_ne_nil l))
    refine ⟨happ.cleaned, happ.foldable, happ.autoFolded, ?_⟩
    simp only [Fold.Machine.step, List.map_cons]
    refine congrArg₂ _ ?_ happ.stack
    have hend := lineEnd_last nl m.kept (stripMarker l)
    rw [sectionOf, List.take_left, hend, ← happ.cleaned, ← h.cleaned]
  · -- a closing marker: the innermost section is deleted or gets its range
    cases ho : m.opened with
    | nil =>
        have hs : s.stack = [] := by rw [h.stack, ho]; rfl
        simpa [hs, Fold.Machine.step, ho] using h
    | cons o os =>
        have hs : s.stack = sectionOf m.kept o :: os.map (sectionOf m.kept) := by
          rw [h.stack, ho]; rfl
        have holt : o.banner < m.kept.length := hm.opened_lt o (by simp [ho])
        have hiff : s.cleaned.length = (sectionOf m.kept o).openLineEnd
            ↔ m.kept.length = o.banner + 1 := by
          rw [h.cleaned]
          exact length_join_eq_lineEnd_iff nl holt
        simp only [hs, Fold.Machine.step, ho, Fold.Machine.close]
        by_cases hlen : m.kept.length = o.banner + 1
        · rw [if_pos (hiff.mpr hlen), if_pos hlen]
          exact h.cut hm ho hlen rfl
        · rw [if_neg (fun h' => hlen (hiff.mp h')), if_neg hlen]
          have hpop : Refines { s with stack := os.map (sectionOf m.kept) }
              { m with opened := os } := ⟨h.cleaned, h.foldable, h.autoFolded, rfl⟩
          exact hpop.emitRange (o := o) (by simp only; omega)
  · -- a plain line
    simp only [Fold.Machine.step, Fold.Machine.keep]
    split_ifs with hblank
    · have hcl : appendLine s.cleaned l = s.cleaned := by
        rw [h.cleaned, hblank.1, hblank.2]
        simp [appendLine]
      rw [hcl]
      exact h
    · exact h.append hm (by tauto)

/-- **The scanner's loop** refines the machine's run on the tokens of the lines. -/
lemma refines_foldl {s : Scan} {m : Fold.Machine UInt16} (h : Refines s m) (hm : m.WF) :
    ∀ ls : List JsString, Refines (ls.foldl scanLine s) (m.run (ls.map lineToken))
      ∧ (m.run (ls.map lineToken)).WF
  | [] => ⟨h, hm⟩
  | l :: ls => refines_foldl (refines_scanLine h hm l) (hm.step fun _ _ => banner_ne_nil) ls

/-- The sections still open at the end, innermost first. -/
lemma refines_closeAll_foldl {m : Fold.Machine UInt16} :
    ∀ (os : List Fold.Opening) {s : Scan} {spans : List Fold.Span},
      (∀ o ∈ os, o.banner < m.kept.length) →
      Refines s { m with spans, opened := [] } →
      Refines ((os.map (sectionOf m.kept)).foldl (fun s o => s.emitRange o s.cleaned.length) s)
        { m with
          spans := spans ++ os.filterMap fun o =>
            if o.banner + 1 < m.kept.length then some ⟨o.banner, m.kept.length - 1, o.auto⟩
            else none
          opened := [] }
  | [], s, spans, _, h => by simpa using h
  | o :: os, s, spans, hlt, h => by
      have holt : o.banner < m.kept.length := hlt o (by simp)
      have hrest := fun o' ho' => hlt o' (List.mem_cons_of_mem o ho')
      rw [List.map_cons, List.foldl_cons, List.filterMap_cons]
      by_cases hin : o.banner + 1 < m.kept.length
      · simp only [if_pos hin]
        have := refines_closeAll_foldl os hrest (h.emitRange (o := o) hin)
        simpa using this
      · have hno : s.emitRange (sectionOf m.kept o) s.cleaned.length = s := by
          have := (lineEnd_lt_length_join nl holt).not.mpr hin
          rw [Scan.emitRange, if_neg]
          rw [h.cleaned]
          exact this
        simp only [if_neg hin, hno]
        exact refines_closeAll_foldl os hrest h

/-- **On every input** the scanner returns the kept lines of the machine as its body and the
machine's spans, read as offsets, as its ranges. -/
theorem finalizeBannerBody_eq (body : JsString) :
    let m := Fold.Machine.init.run ((body.splitOn nl).map lineToken)
    finalizeBannerBody body =
      { body := join nl m.kept
        foldable := m.finish.map (rangeOf m.kept)
        autoFolded := (m.finish.filter (·.auto)).map (rangeOf m.kept) } := by
  intro m
  have hinit : Refines {} (Fold.Machine.init : Fold.Machine UInt16) :=
    ⟨rfl, rfl, rfl, rfl⟩
  obtain ⟨hrun, hwf⟩ := refines_foldl hinit Fold.Machine.wf_init (body.splitOn nl)
  set s := (body.splitOn nl).foldl scanLine {} with hs
  have hpop : Refines { s with stack := [] } { m with spans := m.spans, opened := [] } :=
    ⟨hrun.cleaned, hrun.foldable, hrun.autoFolded, rfl⟩
  have hend : Refines s.closeAll { m with spans := m.finish, opened := [] } := by
    rw [Scan.closeAll, hrun.stack]
    exact refines_closeAll_foldl m.opened hwf.opened_lt hpop
  simp only [finalizeBannerBody, ← hs]
  simp only [hend.cleaned, hend.foldable, hend.autoFolded]

/-- What the scanner returns for the serialisation of a forest. -/
def renderForest (f : Fold.Forest UInt16) : Finalized where
  body := join nl f.lines
  foldable := (f.spans 0).map (rangeOf f.lines)
  autoFolded := ((f.spans 0).filter (·.auto)).map (rangeOf f.lines)

/-- **On a balanced text** the scanner renders the pruned forest. -/
theorem finalizeBannerBody_forest {body : JsString} {f : Fold.Forest UInt16}
    (h : (body.splitOn nl).map lineToken = f.tokens) :
    finalizeBannerBody body = renderForest f.prune.dropBlank := by
  obtain ⟨hkept, hspans⟩ := Fold.Machine.run_init_tokens f
  rw [finalizeBannerBody_eq, h]
  simp only [hkept, hspans, renderForest]

end VerusExplorer
