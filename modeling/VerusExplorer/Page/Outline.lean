import VerusExplorer.Dump.FoldTree
import VerusExplorer.Dump.Walk
import VerusExplorer.Page.OutputView

/-!
# Opening and closing sections

The tabs with banners in the output view, whose sections are closed and opened in the gutter
(`public/app.js`).

* **`outline_clicks`** — each fold is opened and closed by itself, from the line of its banner, and
  what is displayed are whole lines: those that no closed fold has behind its banner.
* **`firstView_walks`** — at first a walk of `Printable` items shows the local ones in full and one
  line for each group of items of a library.
* **`outline_tree`** — a tab whose text stands for a tree of sections shows the tree, whichever
  sections have been opened and closed.
-/

namespace VerusExplorer

open Utf16 Lines Fold

variable {cm : CodeMirror}

/-- A tab a run has dumped. -/
lemma view_of_dump {calls : List Callback} (threw : Option JsString)
    (hplain : ∀ k ∈ calls, k.Plain) (hnames : ((sectionsOf calls).map Prod.fst).Nodup)
    {tab raw : JsString} (hdump : (tab, raw) ∈ sectionsOf calls) :
    (finishRun .verify calls threw {}).view tab = some (shownSection tab raw) := by
  have h := (view_finishRun .verify threw hplain hnames).2 (tab, raw) hdump
  rwa [ActionMode.shown] at h

/-- The fold service offers the folds of the tab. -/
lemma foldService_of_view {c : RunCaches} {tab : JsString} {v : SectionView}
    (hv : c.view tab = some v) : c.foldService (some tab) = sectionFold v.folds := by
  obtain ⟨body, -, rfl⟩ := Option.map_eq_some_iff.mp hv
  rfl

/-- A call of `emitSection` declares no ranges. -/
lemma plain_emitSection (tab : JsString) (body : Str) :
    ∀ k ∈ [Callback.dump tab (emitSection body)], k.Plain := by
  intro k hk name blocks heq
  obtain rfl := List.mem_singleton.mp hk
  obtain ⟨-, rfl⟩ := Callback.dump.inj heq
  rw [dumpedSection_emitSection]

/-- A tab after some clicks. -/
lemma shows_clicked (hcm : cm.Documented) {mode : ActionMode} {calls : List Callback}
    {threw : Option JsString} (hplain : ∀ k ∈ calls, k.Plain)
    (hnames : ((sectionsOf calls).map Prod.fst).Nodup) {tab : JsString}
    (htab : tab ∈ bannerFoldTabs) {v : SectionView}
    (hv : (finishRun mode calls threw {}).view tab = some v) (hcr : (13 : UInt16) ∉ v.body)
    (s : cm.State) {clicks : List ℕ} :
    let c := finishRun mode calls threw {}
    let first := renderOutputView cm c (some tab) s
    cm.Clickable (c.foldService (some tab)) first clicks →
      let t := cm.clicked (c.foldService (some tab)) first clicks
      cm.Shows v t ∧ ∀ f, f ∈ cm.foldedRanges t
        ↔ f ∈ v.folds ∧ (f ∈ v.autoFolded ↔ Even (clicks.count f.fromPos)) := by
  intro c first hclicks
  have hwf := wf_of_view hplain hnames hv
  obtain ⟨hfirst, hauto⟩ := shows_render hcm hwf hv htab hcr s
  have hservice : c.foldService (some tab) = sectionFold v.folds := foldService_of_view hv
  rw [hservice] at hclicks ⊢
  obtain ⟨hshows, hfolded⟩ := mem_clicks hcm hwf hfirst hclicks
  exact ⟨hshows, fun f => (hfolded f).trans (and_congr_right fun _ => by rw [hauto])⟩

/-- **Each fold is opened and closed by itself.**  After a run that dumps its sections under
different names and declares no ranges for them, in a tab with banners whose text has no carriage
return, and after any clicks in the gutter since the tab was rendered, a fold is closed exactly if
it was closed at first and the clicks beside its banner are evenly many, or neither.  What is
displayed are the lines that no closed fold has behind its banner, and these can be clicked
beside. -/
theorem outline_clicks (hcm : cm.Documented) (mode : ActionMode) (calls : List Callback)
    (threw : Option JsString) (hplain : ∀ k ∈ calls, k.Plain)
    (hnames : ((sectionsOf calls).map Prod.fst).Nodup) {tab : JsString}
    (htab : tab ∈ bannerFoldTabs) {v : SectionView}
    (hv : (finishRun mode calls threw {}).view tab = some v) (hcr : (13 : UInt16) ∉ v.body)
    (s : cm.State) (clicks : List ℕ) :
    let c := finishRun mode calls threw {}
    let first := renderOutputView cm c (some tab) s
    cm.Clickable (c.foldService (some tab)) first clicks →
      let t := cm.clicked (c.foldService (some tab)) first clicks
      let ls := v.body.splitOn nl
      let hidden := fun j => (cm.foldedRanges t).any fun f =>
        f.fromPos < lineStart ls j && lineEnd ls j ≤ f.toPos
      (∀ f, f ∈ cm.foldedRanges t
          ↔ f ∈ v.folds ∧ (f ∈ v.autoFolded ↔ Even (clicks.count f.fromPos)))
        ∧ cm.displayed t = join nl (without hidden 0 ls)
        ∧ ∀ p, cm.Beside t p ↔ ∃ j < ls.length, p = lineEnd ls j ∧ hidden j = false := by
  intro c first hclicks t ls hidden
  have hwf := wf_of_view hplain hnames hv
  obtain ⟨hshows, hfolded⟩ := shows_clicked hcm hplain hnames htab hv hcr s hclicks
  have hspans : ∀ f ∈ cm.foldedRanges t, f.Spans ls := fun f hf =>
    hwf.spans f (hshows.folded f hf)
  refine ⟨hfolded, ?_, fun p => ?_⟩
  · have hjoin : v.body = join nl ls := (join_splitOn nl v.body).symm
    rw [hshows.displayed hcm, hjoin, outside_lines (List.splitOn_ne_nil nl v.body) hspans]
  · refine (hshows.beside_iff hwf).trans ?_
    refine exists_congr fun j => and_congr_right fun _ => and_congr_right fun _ => ?_
    simp only [hidden, List.any_eq_false, Bool.and_eq_true, decide_eq_true_eq]
    rfl

/-- A function of a library, in its group. -/
def groupCall : Callback :=
  .dump (js "VIR_RAW") (emitSection ";;> function vstd\n;;> function f\nx\n;;<\n;;<\n".toList)

/-- Opening the group shows the banner of the function. -/
theorem outline_clicks_group :
    let c := finishRun .verify [groupCall] none {}
    let first := renderOutputView listView c (some (js "VIR_RAW")) ⟨[], none, []⟩
    listView.displayed (listView.clicked (c.foldService (some (js "VIR_RAW"))) first [16])
      = js ";; function vstd\n;; function f" := by
  intro c first
  have hview : c.view (js "VIR_RAW") = some ⟨js ";; function vstd\n;; function f\nx",
      [⟨30, 32⟩, ⟨16, 32⟩], [⟨30, 32⟩, ⟨16, 32⟩]⟩ := by decide
  have hbeside : listView.Beside first 16 := by decide
  obtain ⟨-, hdisplayed, -⟩ := outline_clicks documented_listView .verify [groupCall] none
    (plain_emitSection _ _) (by decide) (by decide) hview (by decide) ⟨[], none, []⟩ [16]
    (Machine.along_cons.mpr ⟨hbeside, Machine.along_nil _⟩)
  rw [hdisplayed]
  decide

/-! ## Tabs of walks -/

lemma nl_notMem_runLines {g : List WalkItem} (h : ∀ it ∈ g, it.Printable) :
    ∀ l ∈ runLines g, nl ∉ l := by
  have hbanner : ∀ label : Str, '\n' ∉ label → nl ∉ bannerLine label := by
    intro label hlabel
    rw [bannerLine, nl_mem_encode]
    simpa using hlabel
  intro l hl
  rcases List.mem_append.mp hl with hl | hl
  · obtain ⟨k, hk, rfl⟩ := List.mem_map.mp hl
    obtain ⟨it, hit, hrun⟩ : ∃ it ∈ g, it.run = some k := by
      cases g with
      | nil => cases hk
      | cons it g => exact ⟨it, List.mem_cons_self, Option.mem_toList.mp hk⟩
    obtain ⟨krate, hkrate, rfl⟩ := Option.map_eq_some_iff.mp hrun
    refine hbanner _ ?_
    simp [wrapLabel, (h it hit).kind, (h it hit).krate krate hkrate]
  · obtain ⟨it, hit, hl⟩ := List.mem_flatMap.mp hl
    rcases List.mem_cons.mp hl with rfl | hl
    · exact hbanner _ (h it hit).label
    · obtain ⟨t, ht, rfl⟩ := List.mem_map.mp hl
      rw [nl_mem_encode]
      exact not_mem_of_mem_splitLines ht

lemma nl_notMem_shownLines {walks : List WalkBuilder}
    (h : ∀ b ∈ walks, ∀ it ∈ b.items, it.Printable) :
    ∀ l ∈ (shownRuns walks).flatMap runLines, nl ∉ l := by
  intro l hl
  obtain ⟨g, hg, hl⟩ := List.mem_flatMap.mp hl
  refine nl_notMem_runLines (fun it hit => ?_) l hl
  have hflat : it ∈ (shownRuns walks).flatten := List.mem_flatten_of_mem hg hit
  rw [flatten_shownRuns, List.mem_filter, (flatMap_sorted_perm walks).mem_iff] at hflat
  obtain ⟨b, hb, hitb⟩ := List.mem_flatMap.mp hflat.1
  exact h b hb it hitb

lemma finalizeBannerBody_shown {walks : List WalkBuilder}
    (h : ∀ b ∈ walks, ∀ it ∈ b.items, it.Printable) :
    finalizeBannerBody (dumpedSection (emitSection (walks.flatMap WalkBuilder.finish))).1
      = shownBody walks := by
  by_cases hne : walkRuns walks = []
  · rw [← renderForest_shownRuns, flatMap_finish, hne]
    rfl
  · rw [finalizeBannerBody_forest (tokens_emitted h hne), renderForest_shownRuns]

/-! ## The first view of a walk -/

/-- The lines of a run that are seen at first: all of them if its items are local, or else the
banner of its wrapper. -/
def firstLines (g : List WalkItem) : List JsString :=
  match Runs.runKey WalkItem.run g with
  | none => g.flatMap itemLines
  | some k => [bannerLine (wrapLabel k)]

lemma view_runForest {g : List WalkItem} (h : ∀ it ∈ g, it.run = Runs.runKey WalkItem.run g) :
    (runForest g).view Span.auto 0 = firstLines g := by
  rw [runForest, firstLines]
  cases hkey : Runs.runKey WalkItem.run g with
  | none =>
      dsimp only
      rw [Forest.view_concat_auto, List.flatMap_map]
      refine List.flatMap_congr fun it hit => ?_
      have hkrate : it.krate = none := Option.map_eq_none_iff.mp ((h it hit).trans hkey)
      rw [itemForest, hkrate, Forest.view, Forest.view, List.append_nil, Forest.view_ofLines]
      rfl
  | some k => rfl

/-- A scanned line lies behind a banner exactly if the span of lines hides it. -/
lemma rangeOf_hides {ls : List JsString} {s : Span} (hs : s.first ≤ s.last)
    (hlast : s.last < ls.length) {j : ℕ} (hj : j < ls.length) :
    ((rangeOf ls s).fromPos < lineStart ls j && lineEnd ls j ≤ (rangeOf ls s).toPos)
      = s.hides j := by
  rw [Bool.eq_iff_iff, Span.hides_iff, Bool.and_eq_true, decide_eq_true_eq, decide_eq_true_eq]
  show lineEnd ls s.first < lineStart ls j ∧ lineEnd ls j ≤ lineEnd ls s.last ↔ _
  have hend : lineEnd ls j ≤ lineEnd ls s.last ↔ j ≤ s.last := by
    refine ⟨fun h => ?_, fun h => lineEnd_le_lineEnd h hlast⟩
    by_contra hnot
    have := lineEnd_strictMono (Nat.lt_of_not_le hnot) hj
    omega
  rw [hend]
  refine and_congr_left fun _ => ?_
  cases j with
  | zero => simp [lineStart]
  | succ i =>
      rw [lineStart_succ, Nat.lt_succ_iff, Nat.lt_succ_iff]
      refine ⟨fun h => ?_, fun h => lineEnd_le_lineEnd h (by omega)⟩
      by_contra hnot
      have := lineEnd_strictMono (Nat.lt_of_not_le hnot) (hs.trans_lt hlast)
      omega

lemma shownSection_of_mem {tab : JsString} (h : tab ∈ bannerFoldTabs) (raw : JsString) :
    shownSection tab raw = scannedSection tab raw := by
  rw [shownSection_eq]
  split_ifs with hraw
  · rfl
  · obtain rfl : raw = [] := by
      by_contra hne
      exact hraw ⟨h, hne⟩
    rw [scannedSection, show finalizeBannerBody [] = ⟨[], [], []⟩ by decide]
    split_ifs
    · rfl
    · rfl

/-- What is left of some lines when spans of them are closed. -/
lemma outside_spans {ls : List JsString} (hne : ls ≠ []) {closed : List FoldRange}
    (h : ∀ f ∈ closed, f.Spans ls) {spans : List Span}
    (hspans : ∀ s ∈ spans, s.first ≤ s.last ∧ s.last < ls.length)
    (hclosed : ∀ f, f ∈ closed ↔ f ∈ spans.map (rangeOf ls)) :
    outside closed (join nl ls) = join nl (without (hiddenBy spans) 0 ls) := by
  rw [outside_lines hne h]
  refine congrArg _ (without_congr fun j _ hj => ?_)
  rw [Nat.zero_add] at hj
  rw [Bool.eq_iff_iff, List.any_eq_true, hiddenBy, List.any_eq_true]
  constructor
  · rintro ⟨f, hf, hhides⟩
    obtain ⟨s, hs, rfl⟩ := List.mem_map.mp ((hclosed f).mp hf)
    obtain ⟨hle, hlast⟩ := hspans s hs
    exact ⟨s, hs, rangeOf_hides hle hlast hj ▸ hhides⟩
  · rintro ⟨s, hs, hhides⟩
    obtain ⟨hle, hlast⟩ := hspans s hs
    exact ⟨rangeOf ls s, (hclosed _).mpr (List.mem_map_of_mem hs),
      (rangeOf_hides hle hlast hj).trans hhides⟩

/-- **What a walk looks like at first.**  When a tab with banners that has some walks, other than
`SMT_RESPONSE`, is rendered, it shows the items that have a text, group by group: the local ones in
full, and of each group of a library one line.  The items are `Printable`, and the text has no
carriage return. -/
theorem firstView_walks (hcm : cm.Documented) (walks : List WalkBuilder)
    (h : ∀ b ∈ walks, ∀ it ∈ b.items, it.Printable) (hcr : (13 : UInt16) ∉ (shownBody walks).body)
    (calls : List Callback) (threw : Option JsString) (hplain : ∀ k ∈ calls, k.Plain)
    (hnames : ((sectionsOf calls).map Prod.fst).Nodup) {tab : JsString}
    (htab : tab ∈ bannerFoldTabs) (hresponse : tab ≠ js "SMT_RESPONSE")
    (hdump : Callback.dump tab (emitSection (walks.flatMap WalkBuilder.finish)) ∈ calls)
    (s : cm.State) :
    cm.displayed (renderOutputView cm (finishRun .verify calls threw {}) (some tab) s)
      = join nl ((shownRuns walks).flatMap firstLines) := by
  obtain ⟨raw, hraw⟩ : ∃ raw, raw
      = (dumpedSection (emitSection (walks.flatMap WalkBuilder.finish))).1 := ⟨_, rfl⟩
  have hmem : (tab, raw) ∈ sectionsOf calls := List.mem_filterMap.mpr ⟨_, hdump, hraw ▸ rfl⟩
  have hview := view_of_dump threw hplain hnames hmem
  let ls := (shownRuns walks).flatMap runLines
  let closed := (layout 0 (shownRuns walks)).filter (·.auto)
  have hv : shownSection tab raw = ⟨join nl ls, (layout 0 (shownRuns walks)).map (rangeOf ls),
      closed.map (rangeOf ls)⟩ := by
    rw [shownSection_of_mem htab, scannedSection, hraw, finalizeBannerBody_shown h]
    rw [if_neg hresponse]
    rfl
  have hwf : (shownSection tab raw).WF := wf_shown .verify tab raw
  rw [hv] at hview hwf
  obtain ⟨hshows, hauto⟩ := shows_render hcm hwf hview htab hcr s
  have hfirst : without (hiddenBy closed) 0 ls = (shownRuns walks).flatMap firstLines := by
    have htree := Forest.without_lines Span.auto (.concat ((shownRuns walks).map runForest)) 0
    rw [spans_concat_runForest, lines_concat_runForest, Forest.view_concat_auto,
      List.flatMap_map] at htree
    exact htree.trans (List.flatMap_congr fun g hg => view_runForest (mem_shownRuns hg).2)
  rw [hshows.displayed hcm, ← hfirst]
  by_cases hne : ls = []
  · rw [hne]
    rfl
  have hsplit : (join nl ls).splitOn nl = ls := splitOn_join (nl_notMem_shownLines h) hne
  refine outside_spans hne (fun f hf => ?_) (fun s hs => ?_) hauto
  · exact hsplit ▸ hwf.spans f (hshows.folded f hf)
  · have hmem := List.mem_of_mem_filter hs
    rw [← spans_concat_runForest] at hmem
    obtain ⟨-, hle, hlast⟩ := Forest.mem_spans_bounds hmem
    rw [lines_concat_runForest, Nat.zero_add] at hlast
    exact ⟨hle, hlast⟩

/-- The group of the library is closed, the local function is there in full. -/
theorem firstView_mixedWalk :
    let calls := [.dump (js "VIR_RAW") (emitSection ([mixedWalk].flatMap WalkBuilder.finish))]
    listView.displayed (renderOutputView listView (finishRun .verify calls none {})
        (some (js "VIR_RAW")) ⟨[], none, []⟩)
      = js ";; function vstd\n;; function f a.rs:1\nx\n\ny" := by
  intro calls
  rw [firstView_walks documented_listView [mixedWalk] mixedWalk_printable (by decide) calls none
    (plain_emitSection _ _) (by decide) (by decide) (by decide) (List.mem_singleton_self _)]
  decide

/-! ## The view of a tree -/

namespace FoldTree

variable (o : FoldTree)

/-- The tree without its empty sections, and without the blank lines it then starts with. -/
def shown : Forest UInt16 := o.forest.prune.dropBlank

/-- A tab whose text stands for the tree. -/
lemma shownSection_serialise {tab : JsString} (htab : tab ∈ bannerFoldTabs) :
    shownSection tab o.serialise
      = ⟨join nl o.shown.lines, (o.shown.spans 0).map (rangeOf o.shown.lines),
        if tab = js "SMT_RESPONSE" then []
        else ((o.shown.spans 0).filter (·.auto)).map (rangeOf o.shown.lines)⟩ := by
  rw [shownSection_of_mem htab, scannedSection, o.finalizeBannerBody_serialise]
  rfl

/-- The lines that are kept of the text of a tree. -/
lemma kept_scanned (hne : o.shown.lines ≠ []) : (scanned o.serialise).kept = o.shown.lines := by
  have hlines : o.serialLines ≠ [] := by
    intro hnil
    rw [eq_nil_of_serialLines hnil] at hne
    exact hne rfl
  rw [scanned, serialise, splitOn_join o.nl_notMem_serialLines hlines, o.tokens_serialLines,
    (Machine.run_init_tokens _).1, shown]

lemma splitOn_shown (hne : o.shown.lines ≠ []) :
    (join nl o.shown.lines).splitOn nl = o.shown.lines := by
  have hkept := o.kept_scanned hne
  rw [← hkept] at hne
  rw [← hkept, splitOn_kept hne]

/-- A range is that of one section. -/
lemma rangeOf_inj {s t : Span} (hs : s ∈ o.shown.spans 0) (ht : t ∈ o.shown.spans 0)
    (h : rangeOf o.shown.lines s = rangeOf o.shown.lines t) : s = t := by
  have hwf := wf_shown .verify (js "AIR_FINAL") o.serialise
  have hapart := hwf.apart
  rw [ActionMode.shown, o.shownSection_serialise (by decide), List.map_map] at hapart
  exact List.inj_on_of_nodup_map hapart hs ht (congrArg FoldRange.fromPos h)

/-- A range is among those of some sections if its own is. -/
lemma rangeOf_mem_map {p : Span → Bool} {s : Span} (hs : s ∈ o.shown.spans 0) :
    rangeOf o.shown.lines s ∈ ((o.shown.spans 0).filter p).map (rangeOf o.shown.lines)
      ↔ p s = true := by
  refine ⟨fun h => ?_, fun h => List.mem_map_of_mem (List.mem_filter.mpr ⟨hs, h⟩)⟩
  obtain ⟨t, ht, heq⟩ := List.mem_map.mp h
  obtain ⟨ht, hp⟩ := List.mem_filter.mp ht
  exact o.rangeOf_inj ht hs heq ▸ hp

end FoldTree

/-- The sections of a tab that are closed after some clicks: those that are closed at first, or
those that have been clicked oddly often, but not both. -/
def closedAfter (tab : JsString) (ls : List JsString) (clicks : List ℕ) (s : Span) : Bool :=
  (tab != js "SMT_RESPONSE" && s.auto) == (clicks.count (lineEnd ls s.first) % 2 == 0)

/-- The ranges that are closed are those of these sections. -/
lemma FoldTree.mem_closed (o : FoldTree) {tab : JsString} (htab : tab ∈ bannerFoldTabs)
    (clicks : List ℕ) (f : FoldRange) :
    let v := shownSection tab o.serialise
    (f ∈ v.folds ∧ (f ∈ v.autoFolded ↔ Even (clicks.count f.fromPos)))
      ↔ f ∈ ((o.shown.spans 0).filter (closedAfter tab o.shown.lines clicks)).map
        (rangeOf o.shown.lines) := by
  intro v
  have hv := o.shownSection_serialise htab
  have hspan : ∀ s ∈ o.shown.spans 0,
      ((rangeOf o.shown.lines s ∈ v.autoFolded
          ↔ Even (clicks.count (rangeOf o.shown.lines s).fromPos))
        ↔ closedAfter tab o.shown.lines clicks s = true) := by
    intro s hs
    have hauto : rangeOf o.shown.lines s ∈ v.autoFolded
        ↔ (tab != js "SMT_RESPONSE" && s.auto) = true := by
      rw [show v = _ from hv]
      dsimp only
      split_ifs with hresponse
      · simp [hresponse]
      · rw [o.rangeOf_mem_map hs]
        simp [hresponse]
    have heven : Even (clicks.count (rangeOf o.shown.lines s).fromPos)
        ↔ (clicks.count (lineEnd o.shown.lines s.first) % 2 == 0) = true := by
      rw [Nat.even_iff, beq_iff_eq]
      rfl
    rw [hauto, heven, ← Bool.eq_iff_iff]
    exact beq_iff_eq.symm
  have hfolds : v.folds = (o.shown.spans 0).map (rangeOf o.shown.lines) :=
    congrArg SectionView.folds hv
  rw [hfolds]
  constructor
  · rintro ⟨hf, h⟩
    obtain ⟨s, hs, rfl⟩ := List.mem_map.mp hf
    exact (o.rangeOf_mem_map hs).mpr ((hspan s hs).mp h)
  · intro hf
    obtain ⟨s, hs, rfl⟩ := List.mem_map.mp hf
    obtain ⟨hs, h⟩ := List.mem_filter.mp hs
    exact ⟨List.mem_map_of_mem hs, (hspan s hs).mpr h⟩

/-- **The output view is the tree.**  A tab whose text stands for a tree of sections, without a
carriage return, shows after any clicks in the gutter the tree without its empty sections and
without the blank lines it then starts with: of a section that is closed the banner, of any other
one the banner and what is in it. -/
theorem outline_tree (hcm : cm.Documented) (o : FoldTree) (calls : List Callback)
    (threw : Option JsString) (hplain : ∀ k ∈ calls, k.Plain)
    (hnames : ((sectionsOf calls).map Prod.fst).Nodup) {tab : JsString}
    (htab : tab ∈ bannerFoldTabs) (hdump : (tab, o.serialise) ∈ sectionsOf calls)
    (hcr : (13 : UInt16) ∉ join nl o.shown.lines) (s : cm.State) (clicks : List ℕ) :
    let c := finishRun .verify calls threw {}
    let first := renderOutputView cm c (some tab) s
    cm.Clickable (c.foldService (some tab)) first clicks →
      cm.displayed (cm.clicked (c.foldService (some tab)) first clicks)
        = join nl (o.shown.view (closedAfter tab o.shown.lines clicks) 0) := by
  intro c first hclicks
  have hview : c.view tab = _ := view_of_dump threw hplain hnames hdump
  have hwf : (shownSection tab o.serialise).WF := wf_shown .verify tab o.serialise
  have hbody : (shownSection tab o.serialise).body = join nl o.shown.lines :=
    congrArg SectionView.body (o.shownSection_serialise htab)
  obtain ⟨hshows, hfolded⟩ :=
    shows_clicked hcm hplain hnames htab hview (hbody ▸ hcr) s hclicks
  rw [hshows.displayed hcm, hbody, ← Forest.without_lines]
  by_cases hne : o.shown.lines = []
  · rw [hne]
    rfl
  refine outside_spans hne (fun f hf => ?_) (fun s hs => ?_) fun f =>
    (hfolded f).trans (o.mem_closed htab clicks f)
  · have hspan := hwf.spans f (hshows.folded f hf)
    rwa [hbody, o.splitOn_shown hne] at hspan
  · obtain ⟨-, hle, hlast⟩ := Forest.mem_spans_bounds (List.mem_of_mem_filter hs)
    exact ⟨hle, by rwa [Nat.zero_add] at hlast⟩

/-- A check with a reply, both folded at first. -/
def nestedTree : FoldTree :=
  .sect true (some ⟨js "check", by decide⟩)
    (.sect true (some ⟨js "response", by decide⟩)
      (.line ⟨js "unsat", by decide, by decide, by decide⟩ .nil) .nil) .nil

def nestedCall : Callback :=
  .dump (js "SMT_TRANSCRIPT")
    (emitSection ";;> check\n;;> response\nunsat\n;;<\n;;<".toList)

/-- The check is opened, and then the reply. -/
theorem outline_tree_nested :
    let c := finishRun .verify [nestedCall] none {}
    let service := c.foldService (some (js "SMT_TRANSCRIPT"))
    let first := renderOutputView listView c (some (js "SMT_TRANSCRIPT")) ⟨[], none, []⟩
    listView.displayed (listView.clicked service first [8]) = js ";; check\n;; response"
      ∧ listView.displayed (listView.clicked service first [8, 20])
        = js ";; check\n;; response\nunsat" := by
  intro c service first
  have hdump : (js "SMT_TRANSCRIPT", nestedTree.serialise) ∈ sectionsOf [nestedCall] := by decide
  have hcr : (13 : UInt16) ∉ join nl nestedTree.shown.lines := by decide
  have hview := outline_tree documented_listView nestedTree [nestedCall] none
    (plain_emitSection _ _) (by decide) (by decide) hdump hcr ⟨[], none, []⟩
  have hcheck : listView.Beside first 8 := by decide
  have hreply : listView.Beside (listView.clickGutter service first 8) 20 := by decide
  rw [hview [8] (Machine.along_cons.mpr ⟨hcheck, Machine.along_nil _⟩),
    hview [8, 20] (Machine.along_cons.mpr
      ⟨hcheck, Machine.along_cons.mpr ⟨hreply, Machine.along_nil _⟩⟩)]
  decide

end VerusExplorer
