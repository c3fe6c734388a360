import VerusExplorer.Dump.Ranges
import VerusExplorer.Lib.FoldView
import VerusExplorer.Lib.Machine
import VerusExplorer.Page.Editor
import VerusExplorer.Page.Sections
import Mathlib.Algebra.Group.Nat.Even

/-!
# The output view

The output view is an editor of CodeMirror that nobody edits in: a tab is shown by replacing its
document, and its sections are closed and opened in its gutter (`public/app.js`).  CodeMirror itself
is no part of the repository.

* `LANGUAGE_FOR_SECTION`, `sectionFold` and `renderOutputView` follow the source.
* `CodeMirror` — what the page uses of it; `CodeMirror.Documented` — what that does; `listView` is
  an editor that does it.
* `SectionView.WF` — the folds of a tab: whole lines, each at a line of its own.
* `Shows.click` — what a click in the gutter does; **`mem_clicks`** — what many do.
-/

namespace VerusExplorer

open Utf16 Lines
open Fold (first_lt_of_mem_finish pairwise_finish)

/-! ## The source -/

inductive Language where
  | rust
  | sexp
  deriving DecidableEq, Repr

/-- `LANGUAGE_FOR_SECTION`. -/
def LANGUAGE_FOR_SECTION : OrderedMap JsString Language :=
  (["AST_PRE", "AST", "HIR", "HIR_TYPED", "MIR_BUILT", "MIR_DROPS", "MIR_OPT"].map
      fun tab => (js tab, .rust))
    ++ ["VIR_RAW", "VIR_SIMPLE", "VIR_PRUNED", "SST_AST", "SST_POLY", "AIR_INITIAL", "AIR_MIDDLE",
      "AIR_FINAL", "SMT_QUERY", "SMT_RESPONSE", "SMT_TRANSCRIPT"].map fun tab => (js tab, .sexp)

lemma language_of_banner :
    ∀ tab ∈ bannerFoldTabs, LANGUAGE_FOR_SECTION.get? tab = some .sexp := by decide

/-- `sectionFold`. -/
def sectionFold (folds : List FoldRange) (lineEnd : ℕ) : Option FoldRange :=
  folds.foldl (fun best f =>
    if f.fromPos = lineEnd ∧ best.all (fun b => f.toPos > b.toPos) then some f else best) none

/-- What the page uses of CodeMirror.  Positions count units of UTF-16, and a line is given by its
end. -/
structure CodeMirror where
  State : Type
  doc : State → JsString
  language : State → Option Language
  foldedRanges : State → List FoldRange
  /-- What is to be seen of the document, less the placeholders for what is folded. -/
  displayed : State → JsString
  /-- What the language offers to fold at a line. -/
  syntaxFolding : State → ℕ → Option FoldRange
  /-- The transaction that replaces the whole document and the language. -/
  replaceDoc : State → JsString → Option Language → State
  foldEffect : State → FoldRange → State
  /-- A click in the fold gutter beside a line, with the fold service of the view. -/
  clickGutter : (ℕ → Option FoldRange) → State → ℕ → State

/-- The fold service of the output view. -/
def RunCaches.foldService (c : RunCaches) (currentTab : Option JsString) :
    ℕ → Option FoldRange :=
  sectionFold ((currentTab.bind fun tab => c.sectionFolds.get? tab).getD [])

/-- `renderOutputView`, up to where the view is scrolled to. -/
def renderOutputView (cm : CodeMirror) (c : RunCaches) (currentTab : Option JsString)
    (s : cm.State) : cm.State :=
  let body := (currentTab.bind fun tab => c.sectionCache.get? tab).getD []
  let s := cm.replaceDoc s body (currentTab.bind fun tab => LANGUAGE_FOR_SECTION.get? tab)
  ((currentTab.bind fun tab => c.sectionAutoFolded.get? tab).getD []).foldl cm.foldEffect s

/-! ## CodeMirror -/

/-- The text less what stands in the ranges. -/
def outside (ranges : List FoldRange) (text : JsString) : JsString :=
  without (fun p => ranges.any fun f => f.fromPos ≤ p && p < f.toPos) 0 text

namespace CodeMirror

variable (cm : CodeMirror)

/-- A line that ends at `p` and that is there to be clicked at: no folded range touches it but at
its end. -/
def Beside (s : cm.State) (p : ℕ) : Prop :=
  let ls := (cm.doc s).splitOn nl
  ∃ j < ls.length, p = lineEnd ls j
    ∧ ∀ f ∈ cm.foldedRanges s, p ≤ f.fromPos ∨ f.toPos < lineStart ls j

instance (s : cm.State) (p : ℕ) : Decidable (cm.Beside s p) :=
  inferInstanceAs (Decidable (∃ j < ((cm.doc s).splitOn nl).length,
    p = lineEnd ((cm.doc s).splitOn nl) j ∧ ∀ f ∈ cm.foldedRanges s,
      p ≤ f.fromPos ∨ f.toPos < lineStart ((cm.doc s).splitOn nl) j))

/-- Each click is beside a line that is there when it comes. -/
def Clickable (service : ℕ → Option FoldRange) (s : cm.State) (clicks : List ℕ) : Prop :=
  Machine.Along (cm.clickGutter service) cm.Beside s clicks

/-- The view after some clicks. -/
def clicked (service : ℕ → Option FoldRange) (s : cm.State) (clicks : List ℕ) : cm.State :=
  Machine.run (cm.clickGutter service) s clicks

/-- What the page relies on.  A document that replaces another one starts with nothing folded.  A
click beside a line unfolds the range that is folded there, or else folds what the service has for
the line, or else what the language has.  The stream language of the parenthesized tabs has nothing
to fold. -/
structure Documented : Prop where
  doc_replaceDoc : ∀ s body language,
    cm.doc (cm.replaceDoc s body language) = (Doc.ofText body).text
  language_replaceDoc : ∀ s body language, cm.language (cm.replaceDoc s body language) = language
  folded_replaceDoc : ∀ s body language, cm.foldedRanges (cm.replaceDoc s body language) = []
  doc_foldEffect : ∀ s f, cm.doc (cm.foldEffect s f) = cm.doc s
  language_foldEffect : ∀ s f, cm.language (cm.foldEffect s f) = cm.language s
  folded_foldEffect : ∀ s f, f.fromPos < f.toPos → f.toPos ≤ (cm.doc s).length →
    ∀ g, g ∈ cm.foldedRanges (cm.foldEffect s f) ↔ g ∈ cm.foldedRanges s ∨ g = f
  doc_clickGutter : ∀ service s p, cm.doc (cm.clickGutter service s p) = cm.doc s
  language_clickGutter : ∀ service s p, cm.language (cm.clickGutter service s p) = cm.language s
  unfolds : ∀ service s p, cm.Beside s p → ∀ f ∈ cm.foldedRanges s, f.fromPos = p →
    (∀ g ∈ cm.foldedRanges s, g.fromPos = p → g = f) →
    ∀ g, g ∈ cm.foldedRanges (cm.clickGutter service s p) ↔ g ∈ cm.foldedRanges s ∧ g ≠ f
  folds : ∀ service s p, cm.Beside s p → (∀ f ∈ cm.foldedRanges s, f.fromPos ≠ p) →
    ∀ g, g ∈ cm.foldedRanges (cm.clickGutter service s p)
      ↔ g ∈ cm.foldedRanges s ∨ g ∈ (service p).or (cm.syntaxFolding s p)
  syntaxFolding_sexp : ∀ s p, cm.language s = some .sexp → cm.syntaxFolding s p = none
  displayed_eq : ∀ s, cm.displayed s = outside (cm.foldedRanges s) (cm.doc s)

end CodeMirror

/-- The state of a view that keeps what is folded in a list, and whose languages fold nothing. -/
structure ListView where
  doc : JsString
  language : Option Language
  folded : List FoldRange
  deriving DecidableEq

abbrev listView : CodeMirror where
  State := ListView
  doc := ListView.doc
  language := ListView.language
  foldedRanges := ListView.folded
  displayed s := outside s.folded s.doc
  syntaxFolding _ _ := none
  replaceDoc _ body language := ⟨(Doc.ofText body).text, language, []⟩
  foldEffect s f := { s with folded := s.folded ++ [f] }
  clickGutter service s p :=
    match s.folded.find? (·.fromPos = p) with
    | some f => { s with folded := s.folded.filter (· ≠ f) }
    | none => { s with folded := s.folded ++ (service p).toList }

lemma documented_listView : listView.Documented where
  doc_replaceDoc _ _ _ := rfl
  language_replaceDoc _ _ _ := rfl
  folded_replaceDoc _ _ _ := rfl
  doc_foldEffect _ _ := rfl
  language_foldEffect _ _ := rfl
  folded_foldEffect s f _ _ g := by
    show g ∈ s.folded ++ [f] ↔ _
    rw [List.mem_append, List.mem_singleton]
  doc_clickGutter service s p := by
    show ListView.doc (match s.folded.find? (·.fromPos = p) with | some f => _ | none => _) = _
    split <;> rfl
  language_clickGutter service s p := by
    show ListView.language (match s.folded.find? (·.fromPos = p) with | some f => _ | none => _) = _
    split <;> rfl
  unfolds service s p _ f hf hat hall g := by
    obtain ⟨f', hf'⟩ := Option.isSome_iff_exists.mp
      (List.find?_isSome.mpr ⟨f, hf, by simpa using hat⟩ :
        (s.folded.find? (·.fromPos = p)).isSome = true)
    obtain rfl : f' = f :=
      hall f' (List.mem_of_find?_eq_some hf') (by simpa using List.find?_some hf')
    show g ∈ ListView.folded (match s.folded.find? (·.fromPos = p) with | some f => _ | none => _)
      ↔ _
    rw [hf', List.mem_filter, decide_eq_true_eq]
  folds service s p _ hnone g := by
    have hfind : s.folded.find? (·.fromPos = p) = none :=
      List.find?_eq_none.mpr fun f hf => by simpa using hnone f hf
    show g ∈ ListView.folded (match s.folded.find? (·.fromPos = p) with | some f => _ | none => _)
      ↔ _
    rw [hfind, List.mem_append, Option.mem_toList]
    show _ ↔ _ ∨ g ∈ (service p).or none
    rw [Option.or_none]
    rfl
  syntaxFolding_sexp _ _ _ := rfl
  displayed_eq _ := rfl

/-! ## The folds of a section -/

/-- The range runs from the end of a line to the end of a later one. -/
def FoldRange.Spans (ls : List JsString) (f : FoldRange) : Prop :=
  ∃ i k, i < k ∧ k < ls.length ∧ f = ⟨lineEnd ls i, lineEnd ls k⟩

lemma FoldRange.Spans.bounds {body : JsString} {f : FoldRange} (h : f.Spans (body.splitOn nl)) :
    f.fromPos < f.toPos ∧ f.toPos ≤ body.length := by
  obtain ⟨i, k, hik, hk, rfl⟩ := h
  have hle := lineEnd_le_length_join nl hk
  rw [join_splitOn] at hle
  exact ⟨lineEnd_strictMono hik hk, hle⟩

/-- The folds of a section: whole lines, each fold at a line of its own, and those closed at first
among them. -/
structure SectionView.WF (v : SectionView) : Prop where
  spans : ∀ f ∈ v.folds, f.Spans (v.body.splitOn nl)
  apart : (v.folds.map FoldRange.fromPos).Nodup
  auto : v.autoFolded ⊆ v.folds

lemma SectionView.wf_plain (raw : JsString) : SectionView.WF ⟨raw, [], []⟩ where
  spans := fun _ hf => absurd hf List.not_mem_nil
  apart := List.nodup_nil
  auto := List.nil_subset _

lemma splitOn_kept {body : JsString} (h : (scanned body).kept ≠ []) :
    (join nl (scanned body).kept).splitOn nl = (scanned body).kept :=
  splitOn_join (nl_notMem_kept body) h

lemma wf_scannedSection (tab raw : JsString) : (scannedSection tab raw).WF := by
  have hr : finalizeBannerBody raw = ⟨join nl (scanned raw).kept,
      (scanned raw).finish.map (rangeOf (scanned raw).kept),
      ((scanned raw).finish.filter (·.auto)).map (rangeOf (scanned raw).kept)⟩ :=
    finalizeBannerBody_eq raw
  have hspan := fun s hs => first_lt_of_mem_finish (s := s) (wf_scanned raw) hs
  rw [scannedSection, hr]
  refine ⟨?_, ?_, ?_⟩
  · intro f hf
    obtain ⟨s, hs, rfl⟩ := List.mem_map.mp hf
    obtain ⟨hlt, hlast⟩ := hspan s hs
    have hne : (scanned raw).kept ≠ [] := List.ne_nil_of_length_pos (Nat.zero_lt_of_lt hlast)
    dsimp only
    rw [splitOn_kept hne]
    exact ⟨s.first, s.last, hlt, hlast, rfl⟩
  · refine List.pairwise_map.mpr (List.pairwise_map.mpr ?_)
    have hpairs := pairwise_finish (laminar_scanned raw) (wf_scanned raw)
    refine hpairs.imp_of_mem fun {s t} hs ht h => ?_
    obtain ⟨hs1, hs2⟩ := hspan s hs
    obtain ⟨ht1, ht2⟩ := hspan t ht
    exact (rangeOf_apart hs1 ht1 hs2 ht2 h).fromPos_ne (lineEnd_strictMono hs1 hs2)
      (lineEnd_strictMono ht1 ht2)
  · dsimp only
    split_ifs
    · exact List.nil_subset _
    · exact List.map_subset _ (List.filter_sublist.subset)

lemma wf_shown (mode : ActionMode) (tab raw : JsString) : (mode.shown tab raw).WF := by
  cases mode with
  | execute => exact SectionView.wf_plain raw
  | verify =>
      rw [ActionMode.shown, shownSection_eq]
      split_ifs
      · exact wf_scannedSection tab raw
      · exact SectionView.wf_plain raw

/-- The folds of a tab after a run. -/
lemma wf_of_view {mode : ActionMode} {calls : List Callback} {threw : Option JsString}
    (hplain : ∀ k ∈ calls, k.Plain) (hnames : ((sectionsOf calls).map Prod.fst).Nodup)
    {tab : JsString} {v : SectionView} (hv : (finishRun mode calls threw {}).view tab = some v) :
    v.WF := by
  obtain ⟨raw, rfl⟩ := exists_shown_of_view hplain hnames hv
  exact wf_shown mode tab raw

/-! ## Clicks -/

/-- The service offers a range that starts at the line if there is one. -/
lemma sectionFold_spec (folds : List FoldRange) (lineEnd : ℕ) :
    (∀ f ∈ sectionFold folds lineEnd, f ∈ folds ∧ f.fromPos = lineEnd)
      ∧ (sectionFold folds lineEnd = none → ∀ f ∈ folds, f.fromPos ≠ lineEnd) := by
  induction folds using List.reverseRecOn with
  | nil =>
      exact ⟨fun _ h => absurd h (by simp [sectionFold]), fun _ _ h => absurd h List.not_mem_nil⟩
  | append_singleton folds f ih =>
      obtain ⟨hsome, hnone⟩ := ih
      have hstep : sectionFold (folds ++ [f]) lineEnd
          = if f.fromPos = lineEnd ∧ (sectionFold folds lineEnd).all (fun b => f.toPos > b.toPos)
            then some f else sectionFold folds lineEnd := by
        rw [sectionFold, List.foldl_append, List.foldl_cons, List.foldl_nil]
        rfl
      rw [hstep]
      split_ifs with hbest
      · refine ⟨fun g hg => ?_, fun h => by cases h⟩
        obtain rfl := Option.some.inj hg
        exact ⟨List.mem_append_right _ (List.mem_singleton_self _), hbest.1⟩
      · refine ⟨fun g hg => ⟨List.mem_append_left _ (hsome g hg).1, (hsome g hg).2⟩, ?_⟩
        intro h g hg
        rcases List.mem_append.mp hg with hg | hg
        · exact hnone h g hg
        · obtain rfl := List.mem_singleton.mp hg
          rw [h] at hbest
          exact fun heq => hbest ⟨heq, rfl⟩

section Clicks

variable {cm : CodeMirror} (hcm : cm.Documented) {v : SectionView} (hv : v.WF)

/-- The view shows the tab, with some of its folds closed. -/
structure CodeMirror.Shows (cm : CodeMirror) (v : SectionView) (s : cm.State) : Prop where
  doc : cm.doc s = v.body
  language : cm.language s = some .sexp
  folded : ∀ f ∈ cm.foldedRanges s, f ∈ v.folds

include hv in
lemma SectionView.WF.eq_of_fromPos {f g : FoldRange} (hf : f ∈ v.folds) (hg : g ∈ v.folds)
    (h : f.fromPos = g.fromPos) : f = g :=
  List.inj_on_of_nodup_map hv.apart hf hg h

include hcm

lemma folded_foldEffects : ∀ (fs : List FoldRange) (s : cm.State),
    (∀ f ∈ fs, f.fromPos < f.toPos ∧ f.toPos ≤ (cm.doc s).length) →
    cm.doc (fs.foldl cm.foldEffect s) = cm.doc s
      ∧ cm.language (fs.foldl cm.foldEffect s) = cm.language s
      ∧ ∀ g, g ∈ cm.foldedRanges (fs.foldl cm.foldEffect s) ↔ g ∈ cm.foldedRanges s ∨ g ∈ fs
  | [], s, _ => ⟨rfl, rfl, fun g => by simp⟩
  | f :: fs, s, h => by
      have hdoc := hcm.doc_foldEffect s f
      obtain ⟨hdocs, hlanguages, hfolded⟩ := folded_foldEffects fs (cm.foldEffect s f) fun g hg =>
        hdoc ▸ h g (List.mem_cons_of_mem f hg)
      obtain ⟨hlt, hle⟩ := h f List.mem_cons_self
      refine ⟨hdocs.trans hdoc, hlanguages.trans (hcm.language_foldEffect s f), fun g => ?_⟩
      rw [List.foldl_cons, hfolded, hcm.folded_foldEffect s f hlt hle, List.mem_cons, or_assoc]

lemma CodeMirror.Shows.displayed {s : cm.State} (h : cm.Shows v s) :
    cm.displayed s = outside (cm.foldedRanges s) v.body := by
  rw [hcm.displayed_eq, h.doc]

include hv

/-- A tab as it is rendered. -/
lemma shows_render {c : RunCaches} {tab : JsString} (hview : c.view tab = some v)
    (htab : tab ∈ bannerFoldTabs) (hcr : (13 : UInt16) ∉ v.body) (s : cm.State) :
    cm.Shows v (renderOutputView cm c (some tab) s)
      ∧ ∀ f, f ∈ cm.foldedRanges (renderOutputView cm c (some tab) s) ↔ f ∈ v.autoFolded := by
  obtain ⟨body, hbody, rfl⟩ := Option.map_eq_some_iff.mp hview
  let folds := (c.sectionFolds.get? tab).getD []
  let auto := (c.sectionAutoFolded.get? tab).getD []
  let s₀ := cm.replaceDoc s body (some .sexp)
  have hrender : renderOutputView cm c (some tab) s = auto.foldl cm.foldEffect s₀ := by
    rw [renderOutputView, Option.bind_some, Option.bind_some, Option.bind_some, hbody,
      language_of_banner tab htab]
    rfl
  have hdoc : cm.doc s₀ = body :=
    (hcm.doc_replaceDoc s body _).trans (normalizeBreaks_of_notMem hcr (by simp))
  have hnone : cm.foldedRanges s₀ = [] := hcm.folded_replaceDoc s body _
  have hrange : ∀ f ∈ auto, f.fromPos < f.toPos ∧ f.toPos ≤ (cm.doc s₀).length := by
    intro f hf
    rw [hdoc]
    exact (hv.spans f (hv.auto hf)).bounds
  obtain ⟨hdocs, hlanguage, hfolded⟩ := folded_foldEffects hcm auto s₀ hrange
  rw [hrender]
  have hmem : ∀ f, f ∈ cm.foldedRanges (auto.foldl cm.foldEffect s₀) ↔ f ∈ auto := by
    intro f
    rw [hfolded, hnone]
    simp
  exact ⟨⟨hdocs.trans hdoc, hlanguage.trans (hcm.language_replaceDoc s body _),
    fun f hf => hv.auto ((hmem f).mp hf)⟩, hmem⟩

/-- A click opens or closes the fold of its line and leaves the others alone. -/
lemma CodeMirror.Shows.click {s : cm.State} (h : cm.Shows v s) {p : ℕ} (hp : cm.Beside s p) :
    cm.Shows v (cm.clickGutter (sectionFold v.folds) s p)
      ∧ ∀ f, f ∈ cm.foldedRanges (cm.clickGutter (sectionFold v.folds) s p)
        ↔ f ∈ v.folds
          ∧ (if f.fromPos = p then f ∉ cm.foldedRanges s else f ∈ cm.foldedRanges s) := by
  have hmem : ∀ f, f ∈ cm.foldedRanges (cm.clickGutter (sectionFold v.folds) s p)
      ↔ f ∈ v.folds
        ∧ (if f.fromPos = p then f ∉ cm.foldedRanges s else f ∈ cm.foldedRanges s) := by
    intro f
    by_cases hclosed : ∃ g ∈ cm.foldedRanges s, g.fromPos = p
    · obtain ⟨g, hg, hat⟩ := hclosed
      have hone : ∀ f ∈ v.folds, f.fromPos = p → f = g := fun f hf hfat =>
        hv.eq_of_fromPos hf (h.folded g hg) (hfat.trans hat.symm)
      rw [hcm.unfolds _ s p hp g hg hat fun f hf hfat => hone f (h.folded f hf) hfat]
      by_cases hf : f.fromPos = p
      · rw [if_pos hf]
        constructor
        · exact fun hboth => absurd (hone f (h.folded f hboth.1) hf) hboth.2
        · exact fun hboth => absurd (hone f hboth.1 hf ▸ hg) hboth.2
      · rw [if_neg hf]
        exact ⟨fun hboth => ⟨h.folded f hboth.1, hboth.1⟩,
          fun hboth => ⟨hboth.2, fun heq => hf (heq ▸ hat)⟩⟩
    · have hopen : ∀ f ∈ cm.foldedRanges s, f.fromPos ≠ p := fun f hf hat =>
        hclosed ⟨f, hf, hat⟩
      obtain ⟨hsome, hno⟩ := sectionFold_spec v.folds p
      rw [hcm.folds _ s p hp hopen, hcm.syntaxFolding_sexp s p h.language, Option.or_none]
      by_cases hf : f.fromPos = p
      · rw [if_pos hf]
        constructor
        · rintro (hold | hnew)
          · exact absurd hf (hopen f hold)
          · exact ⟨(hsome f hnew).1, fun hold => hopen f hold hf⟩
        · rintro ⟨hfold, -⟩
          cases hservice : sectionFold v.folds p with
          | none => exact absurd hf (hno hservice f hfold)
          | some g =>
              obtain ⟨hg, hat⟩ := hsome g hservice
              exact Or.inr (congrArg some (hv.eq_of_fromPos hg hfold (hat.trans hf.symm)))
      · rw [if_neg hf]
        constructor
        · rintro (hold | hnew)
          · exact ⟨h.folded f hold, hold⟩
          · exact absurd (hsome f hnew).2 hf
        · exact fun hboth => Or.inl hboth.2
  exact ⟨⟨(hcm.doc_clickGutter _ s p).trans h.doc,
    (hcm.language_clickGutter _ s p).trans h.language, fun f hf => ((hmem f).mp hf).1⟩, hmem⟩

omit hcm in
/-- The lines that are there are those that no closed fold has behind its banner. -/
lemma CodeMirror.Shows.beside_iff {s : cm.State} (h : cm.Shows v s) {p : ℕ} :
    let ls := v.body.splitOn nl
    cm.Beside s p ↔ ∃ j < ls.length, p = lineEnd ls j
      ∧ ∀ f ∈ cm.foldedRanges s, ¬(f.fromPos < lineStart ls j ∧ lineEnd ls j ≤ f.toPos) := by
  have hspans := fun f hf => hv.spans f (h.folded f hf)
  rw [CodeMirror.Beside, h.doc]
  generalize v.body.splitOn nl = ls at hspans
  dsimp only
  refine exists_congr fun j => and_congr_right fun hj => and_congr_right ?_
  rintro rfl
  refine forall₂_congr fun f hf => ?_
  obtain ⟨a, b, hab, hb, rfl⟩ := hspans f hf
  have hstart : lineStart ls j ≤ lineEnd ls j := lineStart_le_lineEnd hj
  constructor
  · rintro (hbehind | hbefore) ⟨hfrom, hto⟩
    · exact absurd (hstart.trans hbehind) (Nat.not_le.mpr hfrom)
    · exact absurd (hbefore.trans_le hstart) (Nat.not_lt.mpr hto)
  · intro hnot
    rcases Nat.lt_or_ge a j with haj | hja
    · right
      obtain ⟨i, rfl⟩ : ∃ i, j = i + 1 := ⟨j - 1, by omega⟩
      have hfrom : lineEnd ls a ≤ lineEnd ls i := lineEnd_le_lineEnd (by omega) (by omega)
      have hbi : b ≤ i := by
        by_contra hlt
        refine hnot ⟨?_, lineEnd_le_lineEnd (by omega) hb⟩
        rw [lineStart_succ]
        exact Nat.lt_succ_of_le hfrom
      rw [lineStart_succ]
      exact Nat.lt_succ_of_le (lineEnd_le_lineEnd hbi (by omega))
    · exact Or.inl (lineEnd_le_lineEnd hja (by omega))

/-- **Some clicks**: what counts is whether there were evenly many beside the line of a fold. -/
lemma mem_clicks {s : cm.State} (h : cm.Shows v s) {clicks : List ℕ}
    (hclicks : cm.Clickable (sectionFold v.folds) s clicks) :
    let t := cm.clicked (sectionFold v.folds) s clicks
    cm.Shows v t ∧ ∀ f, f ∈ cm.foldedRanges t
      ↔ f ∈ v.folds ∧ (f ∈ cm.foldedRanges s ↔ Even (clicks.count f.fromPos)) := by
  induction clicks generalizing s with
  | nil =>
      refine ⟨h, fun f => ?_⟩
      rw [List.count_nil]
      exact ⟨fun hf => ⟨h.folded f hf, iff_of_true hf (by simp)⟩, fun hf => hf.2.mpr (by simp)⟩
  | cons p clicks ih =>
      obtain ⟨hp, hrest⟩ := Machine.along_cons.mp hclicks
      obtain ⟨hshows, hmem⟩ := h.click hcm hv hp
      obtain ⟨hlast, hfolded⟩ := ih hshows hrest
      refine ⟨hlast, fun f => ?_⟩
      refine (hfolded f).trans (and_congr_right fun hf => ?_)
      rw [hmem, List.count_cons]
      by_cases hat : f.fromPos = p
      · have hbeq : (p == f.fromPos) = true := by simp [hat]
        rw [if_pos hat, if_pos hbeq, Nat.even_add_one]
        tauto
      · have hbeq : (p == f.fromPos) = false := by simpa using Ne.symm hat
        rw [if_neg hat, hbeq, if_neg Bool.false_ne_true, Nat.add_zero]
        tauto

end Clicks

/-! ## What is to be seen -/

/-- A range with whole lines in it hides these lines. -/
lemma FoldRange.Spans.hides {ls : List JsString} {f : FoldRange} (hf : f.Spans ls) {i p : ℕ}
    (hi : i + 1 < ls.length) (hle : lineEnd ls i ≤ p) (hlt : p < lineEnd ls (i + 1)) :
    (f.fromPos ≤ p && p < f.toPos)
      = (f.fromPos < lineStart ls (i + 1) && lineEnd ls (i + 1) ≤ f.toPos) := by
  obtain ⟨a, b, hab, hb, rfl⟩ := hf
  have hmono : ∀ {j k}, j ≤ k → k < ls.length → lineEnd ls j ≤ lineEnd ls k :=
    fun hjk hk => lineEnd_le_lineEnd hjk hk
  rw [lineStart_succ, Bool.eq_iff_iff]
  simp only [Bool.and_eq_true, decide_eq_true_eq]
  constructor
  · rintro ⟨hfrom, hto⟩
    refine ⟨?_, ?_⟩
    · by_contra hnot
      have ha : i < a := by
        by_contra hle'
        have := hmono (Nat.le_of_not_lt hle') (by omega)
        omega
      have := hmono (j := i + 1) (k := a) ha (by omega)
      omega
    · by_contra hnot
      have hbi : b ≤ i := by
        by_contra hle'
        have := hmono (j := i + 1) (k := b) (by omega) hb
        omega
      have := hmono hbi (by omega)
      omega
  · rintro ⟨hfrom, hto⟩
    omega

/-- **Visible are whole lines.** -/
lemma outside_lines {ls : List JsString} (hne : ls ≠ []) {closed : List FoldRange}
    (h : ∀ f ∈ closed, f.Spans ls) :
    outside closed (join nl ls)
      = join nl (without (fun j => closed.any fun f =>
          f.fromPos < lineStart ls j && lineEnd ls j ≤ f.toPos) 0 ls) := by
  have hpos := List.length_pos_iff.mpr hne
  refine without_join nl (List.any_eq_false.mpr fun f _ => by simp [lineStart]) hne ?_ ?_
  · intro p hp
    refine List.any_eq_false.mpr fun f hf => ?_
    obtain ⟨a, b, hab, hb, rfl⟩ := h f hf
    have hfirst : lineEnd ls 0 ≤ lineEnd ls a := lineEnd_le_lineEnd (Nat.zero_le a) (by omega)
    simp only [Bool.and_eq_true, decide_eq_true_eq]
    omega
  · intro i p hi hle hlt
    rw [Bool.eq_iff_iff, List.any_eq_true, List.any_eq_true]
    refine exists_congr fun f => and_congr_right fun hf => ?_
    rw [(h f hf).hides hi hle hlt]

end VerusExplorer
