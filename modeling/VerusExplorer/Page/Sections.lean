import VerusExplorer.Page.Tabs
import VerusExplorer.Verify.Dumps
import VerusExplorer.Verify.Emitted

/-!
# What the page shows of a run

The way of a section from `emit_section` to the output view (`public/app.js`): `verus_dump` stores
it, `finalizeBannerSections` scans the sections with banners, and the view reads three maps.

* `RunCaches.view` — what the output view has of a tab; `shownSection` — what it should have.
* `view_finishRun` — after a run that dumps its sections under different names it has that.
* **`verify_views`** — it has that of every section of `verify`, however far the run has got.
-/

namespace VerusExplorer

open Utf16

/-! ## The output view -/

/-- What the output view has of a tab: the text, the ranges the gutter offers, and those that are
folded when the tab is shown. -/
structure SectionView where
  body : JsString
  folds : List FoldRange
  autoFolded : List FoldRange
  deriving DecidableEq, Repr

def RunCaches.view (c : RunCaches) (tab : JsString) : Option SectionView :=
  (c.sectionCache.get? tab).map fun body =>
    ⟨body, (c.sectionFolds.get? tab).getD [], (c.sectionAutoFolded.get? tab).getD []⟩

/-- The scan of a section that is not empty. -/
def scannedSection (tab raw : JsString) : SectionView :=
  let r := finalizeBannerBody raw
  ⟨r.body, r.foldable, if tab = js "SMT_RESPONSE" then [] else r.autoFolded⟩

/-- What the page makes of a text it has been given for a tab. -/
def shownSection (tab raw : JsString) : SectionView :=
  if bannerFoldTabs.contains tab && !raw.isEmpty then scannedSection tab raw else ⟨raw, [], []⟩

lemma shownSection_eq (tab raw : JsString) : shownSection tab raw
    = if tab ∈ bannerFoldTabs ∧ raw ≠ [] then scannedSection tab raw else ⟨raw, [], []⟩ := by
  simp [shownSection]

/-- The section a call dumps, as it is stored. -/
def Callback.dumped : Callback → Option (JsString × JsString)
  | .dump name blocks => some (name, (dumpedSection blocks).1)
  | _ => none

/-- The sections some calls dump. -/
def sectionsOf (calls : List Callback) : List (JsString × JsString) :=
  calls.filterMap Callback.dumped

/-- The call does not declare ranges of its own. -/
def Callback.Plain (k : Callback) : Prop :=
  ∀ name blocks, k = .dump name blocks → (dumpedSection blocks).2 = []

/-! ## The calls -/

lemma filterMap_cons_toList {α β : Type} (f : α → Option β) (a : α) (as : List α) :
    (a :: as).filterMap f = (f a).toList ++ as.filterMap f := by
  rw [List.filterMap_cons]
  cases f a <;> rfl

lemma Callback.run_plain {k : Callback} (hk : k.Plain) (c : RunCaches) :
    (k.run c).sectionCache
        = k.dumped.toList.foldl (fun m e => OrderedMap.set e.1 e.2 m) c.sectionCache
      ∧ (k.run c).sectionFolds = c.sectionFolds
      ∧ (k.run c).sectionAutoFolded = c.sectionAutoFolded := by
  cases k with
  | dump name blocks =>
      have hranges : (dumpedSection blocks).2.isEmpty = true :=
        List.isEmpty_iff.mpr (hk name blocks rfl)
      rw [Callback.run, RunCaches.dump]
      dsimp only
      rw [if_pos hranges]
      exact ⟨rfl, rfl, rfl⟩
  | _ => exact ⟨rfl, rfl, rfl⟩

lemma foldl_run_plain :
    ∀ (calls : List Callback) (c : RunCaches), (∀ k ∈ calls, k.Plain) →
      (calls.foldl Callback.run c).sectionCache
          = (sectionsOf calls).foldl (fun m e => OrderedMap.set e.1 e.2 m) c.sectionCache
        ∧ (calls.foldl Callback.run c).sectionFolds = c.sectionFolds
        ∧ (calls.foldl Callback.run c).sectionAutoFolded = c.sectionAutoFolded
  | [], _, _ => ⟨rfl, rfl, rfl⟩
  | k :: calls, c, h => by
      obtain ⟨hcache, hfolds, hauto⟩ := k.run_plain (h k List.mem_cons_self) c
      obtain ⟨hcache', hfolds', hauto'⟩ :=
        foldl_run_plain calls (k.run c) fun k' hk' => h k' (List.mem_cons_of_mem k hk')
      have hsections : sectionsOf (k :: calls) = k.dumped.toList ++ sectionsOf calls :=
        filterMap_cons_toList _ k calls
      refine ⟨?_, hfolds'.trans hfolds, hauto'.trans hauto⟩
      rw [List.foldl_cons, hcache', hcache, hsections, List.foldl_append]

/-- Sections of different names are stored as they come. -/
lemma foldl_run_sections {calls : List Callback} (hplain : ∀ k ∈ calls, k.Plain)
    (hnames : ((sectionsOf calls).map Prod.fst).Nodup) :
    (calls.foldl Callback.run {}).sectionCache = sectionsOf calls
      ∧ ∀ x ∈ sectionsOf calls, (calls.foldl Callback.run {}).view x.1 = some ⟨x.2, [], []⟩ := by
  obtain ⟨hcache, hfolds, hauto⟩ := foldl_run_plain calls {} hplain
  have hstored : (calls.foldl Callback.run {}).sectionCache = sectionsOf calls :=
    hcache.trans (OrderedMap.foldl_set_of_nodup (sectionsOf calls) [] hnames)
  refine ⟨hstored, fun x hx => ?_⟩
  rw [RunCaches.view, hstored, hfolds, hauto, (OrderedMap.mem_iff_get? hnames).mp hx]
  rfl

/-! ## The scan -/

section Finalize

variable {c c' : RunCaches} {tab name raw : JsString}

lemma view_congr (hcache : c.sectionCache.get? tab = c'.sectionCache.get? tab)
    (hfolds : c.sectionFolds.get? tab = c'.sectionFolds.get? tab)
    (hauto : c.sectionAutoFolded.get? tab = c'.sectionAutoFolded.get? tab) :
    c.view tab = c'.view tab := by
  rw [RunCaches.view, RunCaches.view, hcache, hfolds, hauto]

/-- What the scan of a section does to the maps. -/
lemma finalizeBannerSection_maps (h : c.sectionCache.get? name = some raw) (hraw : raw ≠ []) :
    let r := finalizeBannerBody raw
    let c' := finalizeBannerSection c name
    c'.sectionCache = c.sectionCache.set name r.body
      ∧ c'.sectionFolds
        = (if r.foldable = [] then c.sectionFolds else c.sectionFolds.set name r.foldable)
      ∧ c'.sectionAutoFolded
        = (if r.autoFolded = [] ∨ name = js "SMT_RESPONSE" then c.sectionAutoFolded
          else c.sectionAutoFolded.set name r.autoFolded) := by
  simp only [finalizeBannerSection, h, List.isEmpty_iff, Bool.or_eq_true, beq_iff_eq]
  rw [if_neg hraw]
  split_ifs
  all_goals exact ⟨rfl, rfl, rfl⟩

/-- A section that is not there or empty is not scanned. -/
lemma finalizeBannerSection_skip (h : ∀ raw ∈ c.sectionCache.get? name, raw = []) :
    finalizeBannerSection c name = c := by
  rw [finalizeBannerSection]
  cases hget : c.sectionCache.get? name with
  | none => rfl
  | some raw => exact if_pos (List.isEmpty_iff.mpr (h raw hget))

/-- Setting the ranges of a section, unless there are none. -/
lemma getD_set_ranges (m : OrderedMap JsString (List FoldRange)) (ranges : List FoldRange)
    {p : Prop} [Decidable p] (hget : (m.get? tab).getD [] = []) :
    (OrderedMap.get? tab (if p then m else m.set tab ranges)).getD []
      = if p then [] else ranges := by
  split_ifs
  · exact hget
  · rw [OrderedMap.get?_set_self]
    rfl

/-- The scan of one section leaves the others as they are. -/
lemma finalizeBannerSection_of_ne (h : tab ≠ name) :
    (finalizeBannerSection c name).view tab = c.view tab := by
  by_cases hskip : ∀ raw ∈ c.sectionCache.get? name, raw = []
  · rw [finalizeBannerSection_skip hskip]
  · push Not at hskip
    obtain ⟨raw, hget, hraw⟩ := hskip
    obtain ⟨hcache, hfolds, hauto⟩ := finalizeBannerSection_maps hget hraw
    apply view_congr
    · rw [hcache, OrderedMap.get?_set_of_ne h]
    · rw [hfolds]
      split_ifs
      · rfl
      · rw [OrderedMap.get?_set_of_ne h]
    · rw [hauto]
      split_ifs
      · rfl
      · rw [OrderedMap.get?_set_of_ne h]

/-- The scan of a section as it was stored. -/
lemma finalizeBannerSection_self (h : c.view tab = some ⟨raw, [], []⟩) :
    (finalizeBannerSection c tab).view tab
      = some (if raw = [] then ⟨raw, [], []⟩ else scannedSection tab raw) := by
  have hstored := h
  rw [RunCaches.view, Option.map_eq_some_iff] at hstored
  obtain ⟨body, hbody, heq⟩ := hstored
  obtain ⟨rfl, hfolds, hauto⟩ := SectionView.mk.inj heq
  split_ifs with hraw
  · rw [finalizeBannerSection_skip fun raw hget => ?_, h]
    rw [hbody] at hget
    exact Option.some_inj.mp hget ▸ hraw
  · obtain ⟨hcache', hfolds', hauto'⟩ := finalizeBannerSection_maps hbody hraw
    rw [RunCaches.view, hcache', hfolds', hauto', OrderedMap.get?_set_self,
      getD_set_ranges _ _ hfolds, getD_set_ranges _ _ hauto, Option.map_some, scannedSection]
    congr 2
    · split_ifs with hnone
      · exact hnone.symm
      · rfl
    · by_cases hresponse : tab = js "SMT_RESPONSE"
      · rw [if_pos (Or.inr hresponse), if_pos hresponse]
      · rw [if_neg hresponse]
        split_ifs with hnone
        · exact (hnone.resolve_right hresponse).symm
        · rfl

/-- The scan changes no name. -/
lemma finalizeBannerSection_names :
    (finalizeBannerSection c name).sectionCache.map Prod.fst = c.sectionCache.map Prod.fst := by
  by_cases hskip : ∀ raw ∈ c.sectionCache.get? name, raw = []
  · rw [finalizeBannerSection_skip hskip]
  · push Not at hskip
    obtain ⟨raw, hget, hraw⟩ := hskip
    rw [(finalizeBannerSection_maps hget hraw).1]
    refine OrderedMap.keys_set_of_has _ ?_
    rw [OrderedMap.has, Option.mem_def.mp hget]
    rfl

/-- The scan of several sections: each is scanned once. -/
lemma foldl_finalizeBannerSection_view :
    ∀ {names : List JsString} {c : RunCaches}, names.Nodup → c.view tab = some ⟨raw, [], []⟩ →
      (names.foldl finalizeBannerSection c).view tab
        = some (if tab ∈ names ∧ raw ≠ [] then scannedSection tab raw else ⟨raw, [], []⟩)
  | [], c, _, h => by simpa using h
  | name :: names, c, hnodup, h => by
      obtain ⟨hnot, hnodup⟩ := List.nodup_cons.mp hnodup
      rw [List.foldl_cons]
      by_cases heq : tab = name
      · subst heq
        have hrest : ∀ (names : List JsString) (c : RunCaches), tab ∉ names →
            (names.foldl finalizeBannerSection c).view tab = c.view tab := by
          intro names
          induction names with
          | nil => exact fun _ _ => rfl
          | cons name names ih =>
              intro c hnot
              rw [List.mem_cons, not_or] at hnot
              rw [List.foldl_cons, ih _ hnot.2, finalizeBannerSection_of_ne hnot.1]
        rw [hrest names _ hnot, finalizeBannerSection_self h]
        by_cases hraw : raw = []
        · simp [hraw]
        · simp [hraw]
      · have h' := (finalizeBannerSection_of_ne (c := c) heq).trans h
        rw [foldl_finalizeBannerSection_view hnodup h']
        simp [heq]

lemma foldl_finalizeBannerSection_names :
    ∀ (names : List JsString) (c : RunCaches),
      (names.foldl finalizeBannerSection c).sectionCache.map Prod.fst
        = c.sectionCache.map Prod.fst
  | [], _ => rfl
  | name :: names, c => by
      rw [List.foldl_cons, foldl_finalizeBannerSection_names names, finalizeBannerSection_names]

end Finalize

/-! ## A whole run -/

lemma nodup_bannerFoldTabs : bannerFoldTabs.Nodup := by decide

/-- What is left of a run after its calls and the scan is not about sections. -/
lemma finishRun_sections (mode : ActionMode) (calls : List Callback) (threw : Option JsString)
    (c : RunCaches) :
    ∃ c' : RunCaches, c'.sectionCache = (calls.foldl Callback.run c).sectionCache
      ∧ c'.view = (calls.foldl Callback.run c).view
      ∧ (finishRun mode calls threw c).sectionCache
        = (if mode = .verify then finalizeBannerSections c' else c').sectionCache
      ∧ (finishRun mode calls threw c).view
        = (if mode = .verify then finalizeBannerSections c' else c').view := by
  have hdiags : ∀ c : RunCaches,
      (if c.diags.isEmpty then c else consolidateDiags c).sectionCache = c.sectionCache
        ∧ (if c.diags.isEmpty then c else consolidateDiags c).view = c.view := by
    intro c
    split_ifs
    · exact ⟨rfl, rfl⟩
    · exact ⟨rfl, rfl⟩
  have hfinish : ∀ c' : RunCaches, finishRun mode calls threw c = finishRun mode [] none c' →
      c'.sectionCache = (calls.foldl Callback.run c).sectionCache →
      c'.view = (calls.foldl Callback.run c).view →
      ∃ c' : RunCaches, c'.sectionCache = (calls.foldl Callback.run c).sectionCache
        ∧ c'.view = (calls.foldl Callback.run c).view
        ∧ (finishRun mode calls threw c).sectionCache
          = (if mode = .verify then finalizeBannerSections c' else c').sectionCache
        ∧ (finishRun mode calls threw c).view
          = (if mode = .verify then finalizeBannerSections c' else c').view := by
    intro c' hrun hcache hview
    obtain ⟨hcache', hview'⟩ := hdiags (if mode = .verify then finalizeBannerSections c' else c')
    rw [hrun]
    exact ⟨c', hcache, hview, hcache', hview'⟩
  cases threw with
  | none => exact hfinish _ rfl rfl rfl
  | some message =>
      cases mode with
      | verify =>
          refine hfinish (runVerifyOnError message (calls.foldl Callback.run c)) rfl ?_ ?_
          · rw [runVerifyOnError]
            split_ifs
            · rfl
            · rfl
          · rw [runVerifyOnError]
            split_ifs
            · rfl
            · rfl
      | execute =>
          exact hfinish (runProgramOnError message (calls.foldl Callback.run c)) rfl rfl rfl

/-- The text and the ranges a run of a mode leaves. -/
def ActionMode.shown (mode : ActionMode) (tab raw : JsString) : SectionView :=
  match mode with
  | .verify => shownSection tab raw
  | .execute => ⟨raw, [], []⟩

/-- **After a run that dumps its sections under different names the page has all of them**, in the
order of the dumps, and no other. -/
lemma view_finishRun (mode : ActionMode) {calls : List Callback} (threw : Option JsString)
    (hplain : ∀ k ∈ calls, k.Plain) (hnames : ((sectionsOf calls).map Prod.fst).Nodup) :
    let c := finishRun mode calls threw {}
    c.sectionCache.map Prod.fst = (sectionsOf calls).map Prod.fst
      ∧ ∀ x ∈ sectionsOf calls, c.view x.1 = some (mode.shown x.1 x.2) := by
  intro c
  obtain ⟨hstored, hviews⟩ := foldl_run_sections hplain hnames
  obtain ⟨c', hcache', hview', hcache, hview⟩ := finishRun_sections mode calls threw {}
  cases mode with
  | execute =>
      refine ⟨?_, fun x hx => ?_⟩
      · rw [hcache, if_neg (by simp), hcache', hstored]
      · rw [hview, if_neg (by simp), hview', hviews x hx]
        rfl
  | verify =>
      rw [if_pos rfl] at hcache hview
      refine ⟨?_, fun x hx => ?_⟩
      · rw [hcache, finalizeBannerSections, foldl_finalizeBannerSection_names, hcache', hstored]
      · rw [hview, finalizeBannerSections, ActionMode.shown, shownSection_eq]
        exact foldl_finalizeBannerSection_view nodup_bannerFoldTabs
          ((congrFun hview' x.1).trans (hviews x hx))

/-- A tab after such a run. -/
lemma exists_shown_of_view {mode : ActionMode} {calls : List Callback} {threw : Option JsString}
    (hplain : ∀ k ∈ calls, k.Plain) (hnames : ((sectionsOf calls).map Prod.fst).Nodup)
    {tab : JsString} {v : SectionView} (hv : (finishRun mode calls threw {}).view tab = some v) :
    ∃ raw, v = mode.shown tab raw := by
  obtain ⟨hkeys, hviews⟩ := view_finishRun mode threw hplain hnames
  have htab : tab ∈ (sectionsOf calls).map Prod.fst := by
    obtain ⟨body, hbody, -⟩ := Option.map_eq_some_iff.mp hv
    rw [← hkeys]
    by_contra hnone
    rw [OrderedMap.get?_eq_none_iff.mpr hnone] at hbody
    cases hbody
  obtain ⟨x, hx, rfl⟩ := List.mem_map.mp htab
  exact ⟨x.2, (Option.some.inj ((hviews x hx).symm.trans hv)).symm⟩

/-! ## The pipelines -/

section Trace

variable {σ F : Type} (C : Compiler σ F)

lemma callbacks_plain (call : StageCall) : ∀ k ∈ C.callbacks call, k.Plain := by
  intro k hk name blocks heq
  subst heq
  cases call with
  | dump name' body =>
      obtain ⟨rfl, rfl⟩ := Callback.dump.inj (List.mem_singleton.mp hk)
      rw [dumpedSection_emitSection]
  | report msg level =>
      obtain ⟨d, -, hd⟩ := List.mem_map.mp hk
      exact absurd hd (by simp)
  | write w =>
      obtain ⟨stream, bytes⟩ := w
      cases stream <;> exact absurd (List.mem_singleton.mp hk) (by simp [ProgramWrite.callback,
        verusExplorerStdout, verusExplorerStderr])
  | _ => exact absurd (List.mem_singleton.mp hk) (by simp)

lemma sectionsOf_callbacks (call : StageCall) :
    sectionsOf (C.callbacks call)
      = call.dumped.toList.map fun x => (x.1, encode (trimEnd x.2)) := by
  cases call with
  | dump name body =>
      show [(name, (dumpedSection (emitSection body)).1)] = _
      rw [dumpedSection_emitSection]
      rfl
  | report msg level =>
      show ((C.emitted msg level).map Callback.diagnostic).filterMap Callback.dumped = []
      rw [List.filterMap_map]
      exact List.filterMap_eq_nil_iff.mpr fun _ _ => rfl
  | write w =>
      obtain ⟨stream, bytes⟩ := w
      cases stream <;> rfl
  | _ => rfl

/-- The page is told of the dumps of a run, in order. -/
lemma sectionsOf_trace (trace : List StageCall) :
    sectionsOf (trace.flatMap C.callbacks)
      = (dumps trace).map fun x => (x.1, encode (trimEnd x.2)) := by
  induction trace with
  | nil => rfl
  | cons call trace ih =>
      have hsplit : sectionsOf ((call :: trace).flatMap C.callbacks)
          = sectionsOf (C.callbacks call) ++ sectionsOf (trace.flatMap C.callbacks) := by
        rw [List.flatMap_cons]
        exact List.filterMap_append
      have hdumps : dumps (call :: trace) = call.dumped.toList ++ dumps trace :=
        filterMap_cons_toList _ call trace
      rw [hsplit, hdumps, List.map_append, ih, sectionsOf_callbacks]

/-- As far as a run has got, the page has the sections dumped. -/
lemma views_of_trace (mode : ActionMode) {trace : List StageCall}
    (hnames : ((dumps trace).map Prod.fst).Nodup) {calls : List Callback}
    (hcalls : calls <+: trace.flatMap C.callbacks) (threw : Option JsString) :
    let c := finishRun mode calls threw {}
    ∃ sections, sections <+: dumps trace
      ∧ (calls = trace.flatMap C.callbacks → sections = dumps trace)
      ∧ c.sectionCache.map Prod.fst = sections.map Prod.fst
      ∧ ∀ x ∈ sections, c.view x.1 = some (mode.shown x.1 (encode (trimEnd x.2))) := by
  intro c
  have hdumped : sectionsOf calls <+: sectionsOf (trace.flatMap C.callbacks) :=
    hcalls.filterMap _
  rw [sectionsOf_trace] at hdumped
  obtain ⟨sections, hfront, hsections⟩ := List.prefix_map_iff.mp hdumped
  have hplain : ∀ k ∈ calls, k.Plain := by
    intro k hk
    obtain ⟨call, -, hcall⟩ := List.mem_flatMap.mp (hcalls.subset hk)
    exact callbacks_plain C call k hcall
  have hsame : (sectionsOf calls).map Prod.fst = sections.map Prod.fst := by
    rw [hsections, List.map_map]
    rfl
  obtain ⟨hcache, hviews⟩ := view_finishRun mode threw hplain
    (hsame ▸ hnames.sublist (hfront.map Prod.fst).sublist)
  refine ⟨sections, hfront, fun hall => hfront.eq_of_length ?_, hcache.trans hsame, ?_⟩
  · have hlength := congrArg List.length hsections
    rw [hall, sectionsOf_trace, List.length_map, List.length_map] at hlength
    exact hlength.symm
  · intro x hx
    refine hviews (x.1, encode (trimEnd x.2)) ?_
    rw [hsections]
    exact List.mem_map_of_mem hx

end Trace

/-! ## The panel -/

/-- The diagnostic a call brings. -/
def Callback.diag : Callback → Option DiagJson
  | .diagnostic d => d
  | _ => none

/-- The verdict a call brings. -/
def Callback.entry : Callback → Option VerdictEntry
  | .verdict v => v
  | _ => none

/-- The output a call brings. -/
def Callback.chunk : Callback → Option RunChunk
  | .stdout text => some ⟨.stdout, text⟩
  | .stderr text => some ⟨.stderr, text⟩
  | _ => none

lemma Callback.run_reports (c : RunCaches) (k : Callback) :
    (k.run c).diags = c.diags ++ k.diag.toList
      ∧ (k.run c).verdicts = c.verdicts ++ k.entry.toList
      ∧ (k.run c).runOutput = c.runOutput ++ k.chunk.toList := by
  have hdump : ∀ name blocks, (c.dump name blocks).runOutput = c.runOutput := by
    intro name blocks
    simp only [RunCaches.dump]
    split <;> rfl
  cases k <;> simp [Callback.run, Callback.diag, Callback.entry, Callback.chunk, hdump]

lemma foldl_run_reports :
    ∀ (calls : List Callback) (c : RunCaches), (calls.foldl Callback.run c).reports
      = (c.diags ++ calls.filterMap Callback.diag, c.verdicts ++ calls.filterMap Callback.entry,
        c.diagnostics, c.runOutput ++ calls.filterMap Callback.chunk)
  | [], c => by simp [RunCaches.reports]
  | k :: calls, c => by
      obtain ⟨hdiags, hverdicts, hchunks⟩ := k.run_reports c
      rw [List.foldl_cons, foldl_run_reports calls (k.run c), hdiags, hverdicts, hchunks,
        k.run_diagnostics, filterMap_cons_toList, filterMap_cons_toList, filterMap_cons_toList,
        List.append_assoc, List.append_assoc, List.append_assoc]

/-- The panel of these diagnostics, verdicts and chunks. -/
def panelOf (docLines : ℕ) (diags : List DiagJson) (verdicts : List VerdictEntry)
    (chunks : List RunChunk) : Panel where
  verdict := verdictBlock docLines verdicts
  output := outputBlocks chunks
  diagnostics := (diags.filterMap DiagJson.consolidate).map (diagnosticBlock docLines)

/-- The chunk a run that is cut off leaves (`onError` of `runProgram`). -/
def abortedChunk (message : JsString) : RunChunk :=
  ⟨.stderr, js "\n[run aborted: " ++ message ++ js "]\n"⟩

lemma renderMeta_of_reports {docLines : ℕ} {c : RunCaches} {diags : List DiagJson}
    {verdicts : List VerdictEntry} {chunks : List RunChunk}
    (h : c.reports = (diags, verdicts, [], chunks)) :
    renderMeta docLines (if c.diags.isEmpty then c else consolidateDiags c)
      = panelOf docLines diags verdicts chunks := by
  obtain ⟨hdiags, hverdicts, hdiagnostics, hchunks⟩ :
      c.diags = diags ∧ c.verdicts = verdicts ∧ c.diagnostics = [] ∧ c.runOutput = chunks := by
    simpa [RunCaches.reports] using h
  subst hdiags hverdicts hchunks
  split_ifs with hempty
  · rw [renderMeta, hdiagnostics, panelOf, List.isEmpty_iff.mp hempty]
    rfl
  · rw [renderMeta, consolidateDiags, hdiagnostics, panelOf]
    rfl

/-- The panel of a run that returns. -/
lemma renderMeta_finishRun (docLines : ℕ) (mode : ActionMode) (calls : List Callback) :
    renderMeta docLines (finishRun mode calls none {})
      = panelOf docLines (calls.filterMap Callback.diag) (calls.filterMap Callback.entry)
        (calls.filterMap Callback.chunk) := by
  have hreports := foldl_run_reports calls {}
  refine renderMeta_of_reports (c := if mode = .verify then _ else _) ?_
  split_ifs
  · rw [finalizeBannerSections_reports, hreports]
    rfl
  · exact hreports

/-- The panel of an interpreted program that is cut off. -/
lemma renderMeta_finishRun_aborted (docLines : ℕ) (calls : List Callback) (message : JsString) :
    renderMeta docLines (finishRun .execute calls (some message) {})
      = panelOf docLines (calls.filterMap Callback.diag) (calls.filterMap Callback.entry)
        (calls.filterMap Callback.chunk ++ [abortedChunk message]) := by
  have hreports := foldl_run_reports calls {}
  refine renderMeta_of_reports (c := runProgramOnError message (calls.foldl Callback.run {})) ?_
  obtain ⟨hdiags, hverdicts, hdiagnostics, hchunks⟩ := by
    simpa [RunCaches.reports] using hreports
  simp [RunCaches.reports, runProgramOnError, hdiags, hverdicts, hdiagnostics, hchunks,
    abortedChunk]

section Trace

variable {σ F : Type} (C : Compiler σ F)

/-- The diagnostics the page gets of a call. -/
def Compiler.diags : StageCall → List DiagJson
  | .rustc d => d.toList
  | .report msg level => (C.emitted msg level).reduceOption
  | _ => []

def StageCall.reported : StageCall → Option (Message × Option MessageLevel)
  | .report msg level => some (msg, level)
  | _ => none

/-- The diagnostics reported, in order. -/
def reported (calls : List StageCall) : List (Message × Option MessageLevel) :=
  calls.filterMap StageCall.reported

/-- The diagnostic rustc has raised. -/
def StageCall.raised : StageCall → Option DiagJson
  | .rustc d => d
  | _ => none

/-- What rustc has raised during some calls. -/
def raised (calls : List StageCall) : List DiagJson := calls.filterMap StageCall.raised

/-- The verdict the page gets of a call. -/
def StageCall.entry : StageCall → Option VerdictEntry
  | .verdict line => parseVerdict (encode line)
  | _ => none

/-- The output the page gets of a call. -/
def StageCall.chunk : StageCall → Option RunChunk
  | .write w => some ⟨w.stream, encode (Utf8.lossy w.bytes)⟩
  | .runStderr text => some ⟨.stderr, encode text⟩
  | _ => none

/-- What the page is told of a call, for the panel. -/
lemma callbacks_reports (call : StageCall) :
    (C.callbacks call).filterMap Callback.diag = C.diags call
      ∧ (C.callbacks call).filterMap Callback.entry = call.entry.toList
      ∧ (C.callbacks call).filterMap Callback.chunk = call.chunk.toList := by
  cases call with
  | rustc d => cases d <;> exact ⟨rfl, rfl, rfl⟩
  | report msg level =>
      refine ⟨?_, ?_, ?_⟩
      · show ((C.emitted msg level).map Callback.diagnostic).filterMap Callback.diag = _
        rw [List.filterMap_map]
        rfl
      · show ((C.emitted msg level).map Callback.diagnostic).filterMap Callback.entry = []
        rw [List.filterMap_map]
        exact List.filterMap_eq_nil_iff.mpr fun _ _ => rfl
      · show ((C.emitted msg level).map Callback.diagnostic).filterMap Callback.chunk = []
        rw [List.filterMap_map]
        exact List.filterMap_eq_nil_iff.mpr fun _ _ => rfl
  | verdict line =>
      show _ ∧ [Callback.verdict (parseVerdict (encode line))].filterMap Callback.entry
        = (parseVerdict (encode line)).toList ∧ _
      cases parseVerdict (encode line) <;> exact ⟨rfl, rfl, rfl⟩
  | dump name body => exact ⟨rfl, rfl, rfl⟩
  | bench label ms => exact ⟨rfl, rfl, rfl⟩
  | write w =>
      obtain ⟨stream, bytes⟩ := w
      cases stream <;> exact ⟨rfl, rfl, rfl⟩
  | runStderr text => exact ⟨rfl, rfl, rfl⟩

lemma trace_reports (trace : List StageCall) :
    (trace.flatMap C.callbacks).filterMap Callback.diag = trace.flatMap C.diags
      ∧ (trace.flatMap C.callbacks).filterMap Callback.entry = trace.filterMap StageCall.entry
      ∧ (trace.flatMap C.callbacks).filterMap Callback.chunk
        = trace.filterMap StageCall.chunk := by
  induction trace with
  | nil => exact ⟨rfl, rfl, rfl⟩
  | cons call trace ih =>
      obtain ⟨hdiags, hentries, hchunks⟩ := ih
      obtain ⟨hdiag, hentry, hchunk⟩ := callbacks_reports C call
      refine ⟨?_, ?_, ?_⟩
      · rw [List.flatMap_cons, List.filterMap_append, hdiags, hdiag, List.flatMap_cons]
      · rw [List.flatMap_cons, List.filterMap_append, hentries, hentry, filterMap_cons_toList]
      · rw [List.flatMap_cons, List.filterMap_append, hchunks, hchunk, filterMap_cons_toList]

/-- Without reports the page gets the diagnostics of rustc. -/
lemma diags_of_unreported :
    ∀ {calls : List StageCall}, reported calls = [] → calls.flatMap C.diags = raised calls
  | [], _ => rfl
  | call :: calls, h => by
      have hrest : reported calls = [] := by
        rw [reported, filterMap_cons_toList, List.append_eq_nil_iff] at h
        exact h.2
      rw [List.flatMap_cons, diags_of_unreported hrest, raised, raised, filterMap_cons_toList]
      cases call with
      | report msg level => exact absurd h (by simp [reported, StageCall.reported])
      | _ => rfl

/-- The panel of a run of a pipeline. -/
lemma panel_of_trace (docLines : ℕ) (mode : ActionMode) (trace : List StageCall) :
    renderMeta docLines (finishRun mode (trace.flatMap C.callbacks) none {})
      = panelOf docLines (trace.flatMap C.diags) (trace.filterMap StageCall.entry)
        (trace.filterMap StageCall.chunk) := by
  obtain ⟨hdiags, hentries, hchunks⟩ := trace_reports C trace
  rw [renderMeta_finishRun, hdiags, hentries, hchunks]

end Trace

/-! ## `verify` -/

/-- Each section of `verify` has a tab of its own. -/
lemma verifySections_tabs :
    verifySections.Nodup ∧ ∀ tab ∈ verifySections, tab ∈ sectionOrder false := by decide

/-- **However far a run of `verify` has got when it returns or traps, the page shows the sections
dumped so far and no others**, each under a tab of its own, trimmed and, if it has banners, scanned.
A run that returns has dumped the Rust trees and, if VIR has been built, VIR and then the bodies of
its `VerifyOutput` that are not blank, the logs among them as the run over the modules has left
them. -/
theorem verify_views {σ F : Type} (C : Compiler σ F) (W : World σ F) (fuel : Fuel) (s : Pipe σ)
    (calls : List Callback) (threw : Option JsString)
    (hcalls : calls <+: (C.verify W fuel s).calls.flatMap C.callbacks) :
    let r := C.verify W fuel s
    let c := finishRun .verify calls threw {}
    (∃ sections, sections <+: dumps r.calls
        ∧ (calls = r.calls.flatMap C.callbacks → sections = dumps r.calls)
        ∧ c.sectionCache.map Prod.fst = sections.map Prod.fst
        ∧ ∀ x ∈ sections, c.view x.1 = some (shownSection x.1 (encode (trimEnd x.2))))
      ∧ (c.sectionCache.map Prod.fst).Nodup
      ∧ (∀ tab ∈ c.sectionCache.map Prod.fst, tab ∈ sectionOrder false)
      ∧ ∃ rust : List (JsString × Str), rust.map Prod.fst = Compiler.rustSections
        ∧ (¬C.Built s → dumps r.calls = rust)
        ∧ (C.Built s → r.state.session = (C.modulesRun W fuel s).state
          ∧ ∃ vir : List (JsString × Str), vir.map Prod.fst = Compiler.virSections
            ∧ dumps r.calls = rust ++ (vir ++ r.state.written)) := by
  intro r c
  obtain ⟨hnodup, htabs⟩ := verifySections_tabs
  have hsub := sublist_verify C W fuel s
  obtain ⟨sections, hfront, hall, hnames, hviews⟩ :=
    views_of_trace C .verify (hnodup.sublist hsub) hcalls threw
  have hcache : (c.sectionCache.map Prod.fst).Sublist verifySections := by
    rw [show c.sectionCache.map Prod.fst = sections.map Prod.fst from hnames]
    exact (hfront.map Prod.fst).sublist.trans hsub
  exact ⟨⟨sections, hfront, hall, hnames, hviews⟩, hnodup.sublist hcache,
    fun tab htab => htabs tab (hcache.subset htab), (dumps_verify C W fuel s).2⟩

/-- A crate with nothing in it, and one module. -/
def emptyCrate : Compiler Unit (Except VirErr (List Command)) where
  perfNow n := n
  emitted _ _ := []
  parse s := (((), []), s)
  astPre _ := "verus! { }\n".toList
  resolverForLowering s := (((), []), s)
  ast _ := "mod m { }\n".toList
  hirItems _ := ["mod m { }".toList]
  hirTypedItems s := ((["mod m { }".toList], []), s)
  deserializes := true
  constructVirCrate s := ((.ok true, []), s)
  globalCtx s := (.ok (), s)
  checkTraits s := (.ok (), s)
  simplifyKrate s := (.ok (), s)
  rawWalk _ := []
  simpleWalk _ := []
  modules _ := [⟨none, "m".toList⟩]
  prune _ s := ([], s)
  ctxNew _ s := (.ok (), s)
  astToSst _ s := ((.ok ⟨[]⟩, []), s)
  poly krateSst s := (krateSst, s)
  sstWalk _ := []

/-- Its VIR is built: after the run the page has the Rust trees, VIR and the transcript. -/
theorem verify_views_empty :
    let r := emptyCrate.verify echoWorld ⟨1, 1, 1⟩ ⟨freshSession, {}, false, 0⟩
    let c := finishRun .verify (r.calls.flatMap emptyCrate.callbacks) none {}
    c.sectionCache.map Prod.fst
      = Compiler.rustSections ++ (Compiler.virSections
        ++ ["SMT_QUERY", "SMT_RESPONSE", "SMT_TRANSCRIPT"].map js) := by
  intro r c
  have hbuilt : emptyCrate.Built ⟨freshSession, {}, false, 0⟩ := rfl
  have hwritten : r.state.written.map Prod.fst
      = ["SMT_QUERY", "SMT_RESPONSE", "SMT_TRANSCRIPT"].map js := by decide +kernel
  obtain ⟨⟨sections, -, hall, hnames, -⟩, -, -, rust, hrust, -, hdumps⟩ :=
    verify_views emptyCrate echoWorld ⟨1, 1, 1⟩ ⟨freshSession, {}, false, 0⟩
      (r.calls.flatMap emptyCrate.callbacks) none List.prefix_rfl
  obtain ⟨-, vir, hvir, hdumps⟩ := hdumps hbuilt
  rw [hall rfl, hdumps, List.map_append, List.map_append, hrust, hvir, hwritten] at hnames
  exact hnames

end VerusExplorer
