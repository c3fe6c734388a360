import VerusExplorer.Page.Steps

/-!
# The selected tab over runs

The tab on show is one variable, which the user sets with a click and every run sets at its end: to
itself if its section has been produced, to a fallback otherwise (`runWith`, `public/app.js`).  It
is there so that the user does not lose the selection with every edit.

* `Visit` — the page, and the tab the user selected last (`App.selection`); the page has no such
  record.
* `App.Turns`, `turns_step` — how an event can change the tab on show.
* **`selected_kept_iff`** — after each run that produces it the selected tab is on show, now and
  later, exactly when every run has produced it.  One that does not makes the page forget it.
-/

namespace VerusExplorer

open Utf16

/-! ## Selections and runs -/

namespace App

/-- The tab that an event selects for the user: by a click on a tab or a subtab, or by a hash that
names one. -/
def selection (site : Site) (s : App) : Event → Option JsString
  | .clickTab i =>
      (s.tabs.tabButtons[i]?).bind fun b =>
        if b.disabled then none else s.tabs.chosen s.runs.caches.sectionCache b.group
  | .clickSubtab i =>
      (s.tabs.subtabButtons[i]?).bind fun b => if b.disabled then none else some b.variant
  | .hashchange =>
      if s.url.hashchanges = 0 then none
      else if s.url.hash = s.url.lastWrittenHash then none
      else if awaitsDecode (s.url.hash.drop 1) then none
      else (parseHash site.codec site.execMode (s.url.hash.drop 1)).bind ParsedHash.tab
  | .decoded i =>
      (s.parses[i]?).bind fun hash =>
        (parseHash site.codec site.execMode hash).bind ParsedHash.tab
  | _ => none

/-- The section has been produced by the run that is on show. -/
def produced (s : App) (tab : JsString) : Bool := s.runs.caches.sectionCache.has tab

end App

/-- The page and the tab the user selected last. -/
structure Visit where
  app : App
  selected : Option JsString

namespace Visit

def step (site : Site) (v : Visit) (e : Event) : Visit where
  app := v.app.step site e
  selected := (v.app.selection site e).or v.selected

/-- The page is opened; the address may select a tab. -/
def boot (site : Site) (storage : JsString → Option Doc) (hash : JsString) (mode : ActionMode)
    (auto : Bool) : Visit where
  app := App.boot site storage hash mode auto
  selected := (App.boot site storage hash mode auto).tabs.currentTab

def after (site : Site) (v : Visit) (events : List Event) : Visit :=
  Machine.run (step site) v events

/-- A run comes to its end without the section selected last. -/
def LeavesOut (site : Site) (v : Visit) (e : Event) : Prop :=
  v.app.Finishes e ∧ ∃ tab ∈ v.selected, (v.app.step site e).produced tab = false

/-- If a run that comes to its end has produced the section selected last, it is on show. -/
def Keeps (site : Site) (v : Visit) (e : Event) : Prop :=
  v.app.Finishes e → ∀ tab ∈ v.selected, (v.app.step site e).produced tab = true →
    (v.app.step site e).tabs.currentTab = some tab

/-- What the user selected is on show. -/
def Shows (v : Visit) : Prop := ∀ tab ∈ v.selected, v.app.tabs.currentTab = some tab

end Visit

/-! ## The choice at the end of a run -/

section Settle

variable (execMode : Bool) (cache : OrderedMap JsString JsString) (preferred : JsString)

/-- The tab chosen where the one on show has not been produced. -/
def fallback : Option JsString :=
  if cache.has preferred then some preferred else (sectionOrder execMode).find? cache.has

lemma settle_currentTab (t : Tabs) :
    (t.settle execMode cache preferred).currentTab
      = match t.currentTab with
        | some tab => if cache.has tab then some tab else fallback execMode cache preferred
        | none => fallback execMode cache preferred := by
  have hselect : ∀ current : Option JsString,
      (match current with
        | some tab => ({ t with currentTab := current } : Tabs).select (groupOf execMode tab) tab
        | none => { t with currentTab := current }).currentTab = current := by
    intro current
    cases current <;> rfl
  exact hselect _

variable {execMode cache preferred}

/-- The tab on show stays and the preferred one is fallen back to, if they have been produced. -/
lemma settle_of_has {t : Tabs} (h : cache.has (t.currentTab.getD preferred) = true) :
    (t.settle execMode cache preferred).currentTab = some (t.currentTab.getD preferred) := by
  rw [settle_currentTab]
  cases hcur : t.currentTab with
  | none =>
      rw [hcur] at h
      exact if_pos h
  | some tab =>
      rw [hcur] at h
      exact if_pos h

/-- The fallback has been produced. -/
lemma has_of_fallback {tab : JsString} (h : fallback execMode cache preferred = some tab) :
    cache.has tab = true := by
  rw [fallback] at h
  split_ifs at h with hpreferred
  · rw [← Option.some_inj.mp h]
    exact hpreferred
  · exact List.find?_some h

end Settle

/-! ## What an event does to the tab on show -/

/-- The tab on show stays, is selected by the user, or is settled by a run that ends. -/
inductive App.Turns (site : Site) (s t : App) (e : Event) : Prop
  | stay (hsel : s.selection site e = none) (hrun : ¬s.Finishes e)
      (htab : t.tabs.currentTab = s.tabs.currentTab) : Turns site s t e
  | select (tab : JsString) (hsel : s.selection site e = some tab) (hrun : ¬s.Finishes e)
      (htab : t.tabs.currentTab = some tab) : Turns site s t e
  | finish (i : ℕ) (r : Suspended) (hsel : s.selection site e = none) (hrun : s.Finishes e)
      (hi : ∃ calls threw, e = .resume i calls threw) (hr : s.runs.suspended[i]? = some r)
      (htab : t.tabs.currentTab = (s.tabs.settle site.execMode t.runs.caches.sectionCache
        (preferredTab r.mode)).currentTab)
      (hdisabled : t.runs.disabled = false) : Turns site s t e

section Ends

variable (site : Site) {s t : App}

lemma not_finishes {e : Event} (h : ∀ i calls threw, e ≠ .resume i calls threw) :
    ¬s.Finishes e := by
  rintro ⟨i, calls, threw, r, rfl, -⟩
  exact h i calls threw rfl

lemma currentTab_runAction : s.runAction.tabs = s.tabs := by
  rw [App.runAction, App.runWith]
  split_ifs
  · rfl
  · rfl

lemma currentTab_loadSource (file : JsString) : (s.loadSource file).tabs = s.tabs := by
  rw [App.loadSource]
  split_ifs
  · rfl
  · rfl

/-- A hash that is opened selects its tab, if it has one. -/
lemma currentTab_hashParsed (parsed : Option ParsedHash) :
    (s.hashParsed parsed).tabs.currentTab
      = (parsed.bind ParsedHash.tab).or s.tabs.currentTab := by
  have htake : (s.takeTab parsed).tabs.currentTab
      = (parsed.bind ParsedHash.tab).or s.tabs.currentTab := by
    rw [App.takeTab]
    cases parsed.bind ParsedHash.tab <;> rfl
  rw [← htake]
  rcases parsed with _ | ⟨_ | file, _ | src, tab⟩
  · exact congrArg Tabs.currentTab (currentTab_loadSource _)
  · exact congrArg Tabs.currentTab (currentTab_loadSource _)
  · exact congrArg Tabs.currentTab currentTab_runAction
  · exact congrArg Tabs.currentTab (currentTab_loadSource _)
  · exact congrArg Tabs.currentTab (currentTab_loadSource _)

/-- An event that is no resumption selects a tab or leaves it. -/
lemma turns_of_or {e : Event} (h : ∀ i calls threw, e ≠ .resume i calls threw)
    (htab : t.tabs.currentTab = (s.selection site e).or s.tabs.currentTab) :
    s.Turns site t e := by
  cases hsel : s.selection site e with
  | none =>
      rw [hsel] at htab
      exact .stay hsel (not_finishes h) htab
  | some tab =>
      rw [hsel] at htab
      exact .select tab hsel (not_finishes h) htab

/-- A stale run leaves the tab; the last one settles it. -/
lemma turns_resume (i : ℕ) (calls : List Callback) (threw : Option JsString) :
    s.Turns site (s.resume site i calls threw) (.resume i calls threw) := by
  have hruns : ∀ r, s.runs.suspended[i]? = some r → r.myRun ≠ s.runs.runId →
      ¬s.Finishes (.resume i calls threw) := by
    rintro r hr hstale ⟨j, _, _, r', heq, hr', hlast⟩
    cases heq
    exact hstale (Option.some_inj.mp (hr.symm.trans hr') ▸ hlast)
  rw [App.resume]
  cases hr : s.runs.suspended[i]? with
  | none =>
      refine .stay rfl ?_ rfl
      rintro ⟨j, _, _, r', heq, hr', -⟩
      cases heq
      exact absurd (hr.symm.trans hr') (by simp)
  | some r =>
      dsimp only
      split_ifs with hstale
      · exact .stay rfl (hruns r hr hstale) rfl
      · exact .finish i r rfl ⟨i, calls, threw, r, rfl, hr, not_not.mp hstale⟩ ⟨calls, threw, rfl⟩
          hr rfl rfl

lemma turns_clickTab (i : ℕ) : s.Turns site (s.clickTab site i) (.clickTab i) := by
  refine turns_of_or site (by simp) ?_
  rw [App.clickTab, App.selection]
  cases s.tabs.tabButtons[i]? with
  | none => rfl
  | some b =>
      simp only [Option.bind_some]
      split_ifs
      · rfl
      · cases s.tabs.chosen s.runs.caches.sectionCache b.group <;> rfl

lemma turns_clickSubtab (i : ℕ) : s.Turns site (s.clickSubtab site i) (.clickSubtab i) := by
  refine turns_of_or site (by simp) ?_
  rw [App.clickSubtab, App.selection]
  cases s.tabs.subtabButtons[i]? with
  | none => rfl
  | some b =>
      simp only [Option.bind_some]
      split_ifs
      · rfl
      · rfl

lemma turns_hashchange : s.Turns site (s.hashchange site) .hashchange := by
  refine turns_of_or site (by simp) ?_
  rw [App.hashchange, App.selection]
  dsimp only
  split_ifs
  · rfl
  · rfl
  · rfl
  · rw [currentTab_hashParsed]

lemma turns_decoded (i : ℕ) : s.Turns site (s.decoded site i) (.decoded i) := by
  refine turns_of_or site (by simp) ?_
  rw [App.decoded, App.selection]
  cases s.parses[i]? with
  | none => rfl
  | some hash =>
      simp only [Option.bind_some]
      rw [currentTab_hashParsed]

/-- A handler that leaves the tabs alone. -/
lemma turns_stay {e : Event} (h : ∀ i calls threw, e ≠ .resume i calls threw)
    (hsel : s.selection site e = none) (htabs : t.tabs = s.tabs) : s.Turns site t e :=
  .stay hsel (not_finishes h) (congrArg Tabs.currentTab htabs)

end Ends

/-- **Everything that can happen to the tab on show.** -/
theorem turns_step (site : Site) (s : App) (e : Event) : s.Turns site (s.step site e) e := by
  cases e with
  | edit doc userEvent => exact turns_stay site (by simp) rfl rfl
  | toggleAuto =>
      refine turns_stay site (by simp) rfl ?_
      show s.toggleAuto.tabs = _
      rw [App.toggleAuto]
      split_ifs
      · exact currentTab_runAction
      · rfl
  | timer =>
      refine turns_stay site (by simp) rfl ?_
      show s.fireTimer.tabs = _
      rw [App.fireTimer]
      split_ifs
      · exact currentTab_runAction
      · rfl
  | clickRun =>
      refine turns_stay site (by simp) rfl ?_
      show s.clickRun.tabs = _
      rw [App.clickRun]
      split_ifs
      · rfl
      · exact currentTab_runAction
  | switchMode mode => exact turns_stay site (by simp) rfl rfl
  | wasmReady => exact turns_stay site (by simp) rfl rfl
  | start =>
      refine turns_stay site (by simp) rfl ?_
      show s.start.tabs = _
      rw [App.start]
      split_ifs
      · exact currentTab_runAction
      · rfl
  | resume i calls threw => exact turns_resume site i calls threw
  | selectSource file => exact turns_stay site (by simp) rfl (currentTab_loadSource file)
  | navSource forward =>
      refine turns_stay site (by simp) rfl ?_
      show (s.navSource forward).tabs = _
      rw [App.navSource]
      split
      · exact currentTab_loadSource _
      · rfl
  | fetched i =>
      refine turns_stay site (by simp) rfl ?_
      show (s.fetched site i).tabs = _
      rw [App.fetched]
      split
      · rfl
      · exact currentTab_runAction
  | fetchFailed i => exact turns_stay site (by simp) rfl rfl
  | clickReset =>
      refine turns_stay site (by simp) rfl ?_
      show s.clickReset.tabs = _
      rw [App.clickReset]
      split_ifs
      · rfl
      · split
        · exact currentTab_runAction
        · rfl
  | clickTab i => exact turns_clickTab site i
  | clickSubtab i => exact turns_clickSubtab site i
  | copyLink => exact turns_stay site (by simp) rfl rfl
  | encoded i =>
      refine turns_stay site (by simp) rfl ?_
      show (s.encoded site i).tabs = _
      rw [App.encoded]
      split
      · rfl
      · rfl
  | navigate hash =>
      refine turns_stay site (by simp) rfl ?_
      show (s.navigate hash).tabs = _
      rw [App.navigate]
      split_ifs
      · rfl
      · rfl
  | hashchange => exact turns_hashchange site
  | decoded i => exact turns_decoded site i

/-! ## Runs that produce the section -/

section Steps

variable {site : Site} {v : Visit} {e : Event}

/-- A run that produces the section on show keeps it there. -/
lemma currentTab_of_produced {s t : App} {preferred tab : JsString}
    (htab : t.tabs.currentTab
      = (s.tabs.settle site.execMode t.runs.caches.sectionCache preferred).currentTab)
    (hshown : s.tabs.currentTab = some tab) (hproduced : t.produced tab = true) :
    t.tabs.currentTab = some tab := by
  rw [htab, settle_currentTab, hshown]
  exact if_pos hproduced

/-- A run that does not produce the section on show puts another one there, or none. -/
lemma currentTab_of_not_produced {s t : App} {preferred tab : JsString}
    (htab : t.tabs.currentTab
      = (s.tabs.settle site.execMode t.runs.caches.sectionCache preferred).currentTab)
    (hshown : s.tabs.currentTab = some tab) (hproduced : t.produced tab = false) :
    t.tabs.currentTab ≠ some tab := by
  have hnot : ¬t.runs.caches.sectionCache.has tab = true := by
    rw [App.produced] at hproduced
    simp [hproduced]
  rw [htab, settle_currentTab, hshown]
  dsimp only
  rw [if_neg hnot]
  exact fun heq => hnot (has_of_fallback heq)

/-- The selected tab stays on show as long as no run leaves it out. -/
lemma shows_step (h : v.Shows) (hleaves : ¬v.LeavesOut site e) : (v.step site e).Shows := by
  intro tab htab
  cases turns_step site v.app e with
  | stay hsel hrun hstay =>
      rw [Visit.step, hsel, Option.none_or] at htab
      exact hstay.trans (h tab htab)
  | select new hsel hrun hnew =>
      rw [Visit.step, hsel, Option.some_or] at htab
      rw [← Option.some_inj.mp htab]
      exact hnew
  | finish i r hsel hrun _ _ hsettle _ =>
      rw [Visit.step, hsel, Option.none_or] at htab
      have hproduced : (v.app.step site e).produced tab = true := by
        by_contra hnot
        exact hleaves ⟨hrun, tab, htab, by simpa using hnot⟩
      exact currentTab_of_produced hsettle (h tab htab) hproduced

lemma keeps_of_shows (h : v.Shows) : v.Keeps site e := by
  intro hrun tab htab hproduced
  cases turns_step site v.app e with
  | stay _ hnot _ => exact absurd hrun hnot
  | select _ _ hnot _ => exact absurd hrun hnot
  | finish i r hsel _ _ _ hsettle _ =>
      exact currentTab_of_produced hsettle (h tab htab) hproduced

/-- After a run that leaves the selected tab out, another one is on show. -/
lemma exists_lost (h : v.Shows) (hleaves : v.LeavesOut site e) :
    ∃ tab, (v.step site e).selected = some tab
      ∧ (v.step site e).app.tabs.currentTab ≠ some tab
      ∧ (v.step site e).app.runs.disabled = false := by
  obtain ⟨hrun, tab, htab, hproduced⟩ := hleaves
  cases turns_step site v.app e with
  | stay _ hnot _ => exact absurd hrun hnot
  | select _ _ hnot _ => exact absurd hrun hnot
  | finish i r hsel _ _ _ hsettle hdisabled =>
      refine ⟨tab, ?_, currentTab_of_not_produced hsettle (h tab htab) hproduced, hdisabled⟩
      rw [Visit.step, hsel, Option.none_or]
      exact htab

end Steps

/-! ## A run that brings the section back -/

section Again

lemma finalizeBannerSections_has (c : RunCaches) (tab : JsString) :
    (finalizeBannerSections c).sectionCache.has tab = c.sectionCache.has tab := by
  have hone : ∀ (c : RunCaches) (name : JsString),
      (finalizeBannerSection c name).sectionCache.has tab = c.sectionCache.has tab := by
    intro c name
    rw [finalizeBannerSection]
    cases hraw : c.sectionCache.get? name with
    | none => rfl
    | some raw =>
        have hset : ∀ body,
            (OrderedMap.set name body c.sectionCache).has tab = c.sectionCache.has tab := by
          intro body
          rw [OrderedMap.has_set]
          by_cases heq : tab = name
          · rw [heq, OrderedMap.has, hraw]
            simp
          · simp [heq]
        dsimp only
        split_ifs <;> first | rfl | exact hset _
  rw [finalizeBannerSections]
  induction bannerFoldTabs generalizing c with
  | nil => rfl
  | cons name names ih => rw [List.foldl_cons, ih, hone]

/-- The clean-up of a run adds no section and takes none away. -/
lemma finishRun_has (mode : ActionMode) (calls : List Callback) (c : RunCaches) (tab : JsString) :
    (finishRun mode calls none c).sectionCache.has tab
      = (calls.foldl Callback.run c).sectionCache.has tab := by
  have hfinal : ∀ c : RunCaches, (if mode = .verify then finalizeBannerSections c
      else c).sectionCache.has tab = c.sectionCache.has tab := by
    intro c
    split_ifs
    · exact finalizeBannerSections_has c tab
    · rfl
  have hdiags : ∀ c : RunCaches,
      (if c.diags.isEmpty then c else consolidateDiags c).sectionCache = c.sectionCache := by
    intro c
    split_ifs
    · rfl
    · rfl
  have hrun := hfinal (calls.foldl Callback.run c)
  rw [← hdiags] at hrun
  exact hrun

/-- The calls of a run that produces two sections, both empty. -/
def dumpCalls (a b : JsString) : List Callback := [.dump a ⟨[], []⟩, .dump b ⟨[], []⟩]

lemma finishRun_dumpCalls (mode : ActionMode) (a b : JsString) :
    (finishRun mode (dumpCalls a b) none {}).sectionCache.has a = true
      ∧ (finishRun mode (dumpCalls a b) none {}).sectionCache.has b = true := by
  rw [finishRun_has, finishRun_has]
  simp [dumpCalls, Callback.run, RunCaches.dump_sectionCache, OrderedMap.has_set]

variable (site : Site)

/-- The end of the last run. -/
lemma resume_last {u : App} {i : ℕ} {r : Suspended} (hr : u.runs.suspended[i]? = some r)
    (hlast : r.myRun = u.runs.runId) (calls : List Callback) :
    let t := u.step site (.resume i calls none)
    t.runs.caches = finishRun r.mode calls none u.runs.caches
      ∧ t.tabs.currentTab = (u.tabs.settle site.execMode t.runs.caches.sectionCache
        (preferredTab r.mode)).currentTab := by
  intro t
  have ht : t = u.resume site i calls none := rfl
  rw [App.resume, hr] at ht
  dsimp only at ht
  rw [if_neg (not_not.mpr hlast)] at ht
  rw [ht]
  exact ⟨rfl, rfl⟩

/-- The user asks for a run in a mode. -/
def askRun (mode : ActionMode) : List Event := [.wasmReady, .switchMode mode, .clickRun]

/-- With the button enabled the run starts. -/
lemma after_askRun {s : App} (h : s.runs.disabled = false) (mode : ActionMode) :
    s.after site (askRun mode)
      = { s with
          mode := mode
          timer := false
          runs := Runs.start { s.runs with verus := true } mode } := by
  have hclick : ∀ t : App, t.runs.disabled = false → t.runs.verus = true →
      t.clickRun = { t with timer := false, runs := t.runs.start t.mode } := by
    intro t hdisabled hverus
    rw [App.clickRun, if_neg (by simp [hdisabled]), App.runAction, App.runWith,
      if_neg (by simp [hverus])]
  exact hclick { s with mode := mode, runs := { s.runs with verus := true } } h rfl

/-- A run that is only asked for leaves nothing out. -/
lemma along_askRun {v : Visit} (mode : ActionMode) :
    Machine.Along (Visit.step site) (fun v e => ¬v.LeavesOut site e) v (askRun mode) := by
  intro fs e hfs hleaves
  have hmem : e ∈ askRun mode := hfs.subset (List.mem_append_right _ List.mem_cons_self)
  refine not_finishes (fun i calls threw heq => ?_) hleaves.1
  subst heq
  simp [askRun] at hmem

/-- The mode in which a tab is not the preferred one. -/
lemma exists_preferredTab_ne (tab : JsString) : ∃ mode, preferredTab mode ≠ tab := by
  by_cases h : preferredTab .verify = tab
  · refine ⟨.execute, fun heq => ?_⟩
    have hsame : preferredTab .verify = preferredTab .execute := h.trans heq.symm
    exact absurd hsame (by decide)
  · exact ⟨.verify, h⟩

/-- Once another tab is on show than the one selected, a run can produce the latter and not show
it. -/
lemma exists_not_keeps {v : Visit} {tab : JsString} (hsel : v.selected = some tab)
    (hlost : v.app.tabs.currentTab ≠ some tab) (henabled : v.app.runs.disabled = false) :
    ∃ rest, Machine.Along (Visit.step site) (fun v e => ¬v.LeavesOut site e) v rest
      ∧ ¬Machine.Along (Visit.step site) (Visit.Keeps site) v rest := by
  obtain ⟨mode, hmode⟩ := exists_preferredTab_ne tab
  -- the other section is the one on show, or the one that the next run would fall back to
  let other : JsString := v.app.tabs.currentTab.getD (preferredTab mode)
  let n : ℕ := v.app.runs.suspended.length
  let last : Event := .resume n (dumpCalls tab other) none
  have hasked := after_askRun site henabled mode
  have hr : (v.app.after site (askRun mode)).runs.suspended[n]?
      = some ⟨v.app.runs.runId + 1, mode⟩ := by
    rw [hasked]
    exact List.getElem?_concat_length
  have hid : v.app.runs.runId + 1 = (v.app.after site (askRun mode)).runs.runId := by
    rw [hasked]
    rfl
  obtain ⟨hcaches, hcurrent⟩ := resume_last site hr hid (dumpCalls tab other)
  have hfresh : (v.app.after site (askRun mode)).runs.caches = {} := by
    rw [hasked]
    rfl
  have htabs : (v.app.after site (askRun mode)).tabs = v.app.tabs := by
    rw [hasked]
  obtain ⟨hproduced, hother⟩ := finishRun_dumpCalls mode tab other
  rw [hfresh] at hcaches
  have hfinishes : (v.app.after site (askRun mode)).Finishes last :=
    ⟨n, dumpCalls tab other, none, _, rfl, hr, hid⟩
  have hshown : ((v.app.after site (askRun mode)).step site last).produced tab = true := by
    rw [App.produced, hcaches]
    exact hproduced
  refine ⟨askRun mode ++ [last], ?_, ?_⟩
  · refine Machine.along_append.mpr ⟨along_askRun site mode, ?_⟩
    refine Machine.along_cons.mpr ⟨?_, Machine.along_nil _⟩
    rintro ⟨-, other, hother, hnot⟩
    rw [← Option.some_inj.mp (hsel.symm.trans hother)] at hnot
    exact absurd (hnot.symm.trans hshown) (by simp)
  · intro hall
    have hkeeps : ((v.app.after site (askRun mode)).step site last).tabs.currentTab = some tab :=
      (Machine.along_cons.mp (Machine.along_append.mp hall).2).1 hfinishes tab hsel hshown
    rw [← htabs] at hlost
    have hsettled : (v.app.after site (askRun mode)).tabs.currentTab.getD (preferredTab mode)
        = tab := by
      rw [hcurrent, settle_of_has (by rw [htabs, hcaches]; exact hother)] at hkeeps
      exact Option.some_inj.mp hkeeps
    cases hcur : (v.app.after site (askRun mode)).tabs.currentTab with
    | none =>
        rw [hcur] at hsettled
        exact hmode hsettled
    | some shown =>
        rw [hcur] at hsettled hlost
        exact hlost (congrArg some hsettled)

end Again

/-! ## Whole runs -/

/-- **The selected tab survives exactly the runs that produce it.**  In a history of the page every
run that came to its end produced the section the user had selected last, if and only if from no
moment of the history on, with all further runs producing it, a run that has produced that section
ends with another tab on show. -/
theorem selected_kept_iff (site : Site) (storage : JsString → Option Doc) (hash : JsString)
    (mode : ActionMode) (auto : Bool) (events : List Event) :
    let v := Visit.boot site storage hash mode auto
    let Producing := Machine.Along (Visit.step site) fun v e => ¬v.LeavesOut site e
    (∀ fs, fs <+: events → ∀ rest, Producing (v.after site fs) rest →
        ∀ gs e, gs ++ [e] <+: fs ++ rest → (v.after site gs).Keeps site e)
      ↔ Producing v events := by
  intro v Producing
  have hboot : v.Shows := fun tab htab => htab
  refine Machine.safe_iff (P := fun v e => Visit.Keeps site v e)
    (fun v e h hleaves => shows_step h hleaves) (fun v e h => keeps_of_shows h) ?_ hboot events
  intro w e h hbreach
  obtain ⟨tab, hsel, hlost, henabled⟩ := exists_lost h (not_not.mp hbreach)
  exact exists_not_keeps site hsel hlost henabled

/-- The sections of a run that gets to the end. -/
def fullCalls : List Callback :=
  [.dump (js "AST") ⟨[], []⟩, .dump (js "VIR_SIMPLE") ⟨[], []⟩, .dump (js "SMT_QUERY") ⟨[], []⟩]

/-- The user looks at `VIR_SIMPLE` while the source compiles, breaks it with an edit so that only
`AST` is produced, and mends it with another one: the section is there again, but `AST` stays. -/
theorem selected_not_kept :
    let v := (Visit.boot smallSite (fun _ => none) [] .verify true).after smallSite
      [.wasmReady, .start, .resume 0 fullCalls none, .clickTab 2,
        .edit (Doc.ofText (js "fn f( {}")) .input, .timer,
        .resume 0 [.dump (js "AST") ⟨[], []⟩] none, .edit (Doc.ofText (js "fn f() {}")) .input,
        .timer]
    let last := Event.resume 0 fullCalls none
    v.selected = some (js "VIR_SIMPLE") ∧ v.app.Finishes last
      ∧ (v.app.step smallSite last).produced (js "VIR_SIMPLE") = true
      ∧ (v.app.step smallSite last).tabs.currentTab = some (js "AST") := by
  refine ⟨by decide, ⟨0, fullCalls, none, ⟨3, .verify⟩, rfl, ?_, ?_⟩, by decide, by decide⟩
  · decide
  · decide

end VerusExplorer
