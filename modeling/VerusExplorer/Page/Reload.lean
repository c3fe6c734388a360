import VerusExplorer.Page.Rest

/-!
# A link shows what it was copied from

The address of a page at rest carries the document and the tab (`saveHashNow`, `public/app.js`).
The page that is opened with it starts from nothing else (`initialDoc`), and runs.

* `ran` — what a run leaves in the caches, for a wasm module that always does the same.
* `App.Shown` — what is on show is what the last run made: panel, tabs and buttons.
* **`link_reproduces`** — the page that is opened with the address shows the same.
-/

namespace VerusExplorer

open Utf16

/-- What the wasm module does when it is called: its calls of the page, and the error if it
throws. -/
abbrev Wasm := ActionMode → Doc → List Callback × Option JsString

/-- The caches after a run. -/
def ran (wasm : Wasm) (mode : ActionMode) (doc : Doc) : RunCaches :=
  finishRun mode (wasm mode doc).1 (wasm mode doc).2 {}

/-- The last run that resumes gets from the module what it always gets. -/
def App.Follows (wasm : Wasm) (s : App) (e : Event) : Prop :=
  ∀ i calls threw x, e = .resume i calls threw → s.runs.suspended[i]? = some x →
    x.myRun = s.runs.runId → (calls, threw) = wasm x.mode s.editor.doc

/-- The tabs as they are after a run, or after a click on one of their buttons: all of it has been
rendered from the cache, and the tab on show is one that a run would keep. -/
structure Tabs.Rendered (execMode : Bool) (cache : OrderedMap JsString JsString)
    (preferred : JsString) (t : Tabs) : Prop where
  tabButtons : t.tabButtons = renderTabs execMode cache
  subtabButtons : t.subtabButtons = renderSubtabs execMode cache t.currentTab
  settled : (t.settle execMode cache preferred).currentTab = t.currentTab

/-- When the last run has been made, everything on show is what it made. -/
def App.Shown (site : Site) (wasm : Wasm) (s : App) : Prop :=
  s.runs.runId ≠ 0 → (∀ x ∈ s.runs.suspended, x.myRun ≠ s.runs.runId) →
    ∃ call, s.runs.executed.getLast? = some call ∧ s.runs.caches = ran wasm call.mode call.src
      ∧ s.runs.panel = renderMeta call.src.lines s.runs.caches
      ∧ s.tabs.Rendered site.execMode s.runs.caches.sectionCache (preferredTab call.mode)

/-! ## The tabs -/

section Tabs

variable {execMode : Bool} {cache : OrderedMap JsString JsString} {preferred : JsString}

/-- The choice depends on the tab on show only. -/
lemma settle_congr {t t' : Tabs} (h : t.currentTab = t'.currentTab) :
    (t.settle execMode cache preferred).currentTab
      = (t'.settle execMode cache preferred).currentTab := by
  rw [settle_currentTab, settle_currentTab, h]

/-- The choice of the tab at the end of a run, if another run like it followed. -/
lemma settle_settle (t : Tabs) :
    ((t.settle execMode cache preferred).settle execMode cache preferred).currentTab
      = (t.settle execMode cache preferred).currentTab := by
  have hfallback : ∀ tab, fallback execMode cache preferred = some tab → cache.has tab = true :=
    fun tab h => has_of_fallback h
  rw [settle_currentTab execMode cache preferred (t.settle execMode cache preferred),
    settle_currentTab]
  cases t.currentTab with
  | none =>
      dsimp only
      cases hf : fallback execMode cache preferred with
      | none => rfl
      | some tab => exact if_pos (hfallback tab hf)
  | some tab =>
      dsimp only
      split_ifs with hhas
      · exact if_pos hhas
      · cases hf : fallback execMode cache preferred with
        | none => rfl
        | some tab => exact if_pos (hfallback tab hf)

lemma rendered_settle (t : Tabs) :
    ((t.settle execMode cache preferred).rerender execMode cache).Rendered execMode cache
      preferred where
  tabButtons := rfl
  subtabButtons := rfl
  settled := by
    have hsame : ((t.settle execMode cache preferred).rerender execMode cache).currentTab
        = (t.settle execMode cache preferred).currentTab := rfl
    rw [settle_congr hsame, settle_settle, hsame]

/-- A subtab button that is enabled is one of a section that has been produced. -/
lemma has_of_renderSubtabs {currentTab : Option JsString} {b : SubtabButton}
    (hb : b ∈ renderSubtabs execMode cache currentTab) (henabled : b.disabled = false) :
    cache.has b.variant = true := by
  rw [renderSubtabs] at hb
  split at hb
  · exact absurd hb List.not_mem_nil
  · split at hb
    · exact absurd hb List.not_mem_nil
    · split_ifs at hb
      · obtain ⟨v, -, rfl⟩ := List.mem_map.mp hb
        simpa using henabled
      · exact absurd hb List.not_mem_nil

/-- A click leads to a section that has been produced. -/
lemma Tabs.Rendered.step {t t' : Tabs} (h : t.Rendered execMode cache preferred)
    (hstep : t.Step execMode cache t') : t'.Rendered execMode cache preferred := by
  cases hstep with
  | stay => exact h
  | select g tab htab =>
      have hhas : cache.has tab = true := by
        rcases htab with hhas | ⟨b, hb, henabled, rfl⟩
        · exact hhas
        · rw [h.subtabButtons] at hb
          exact has_of_renderSubtabs hb henabled
      exact ⟨rfl, rfl, settle_of_has (t := (t.select g tab).rerender execMode cache) hhas⟩

/-- The tab on show has been produced. -/
lemma Tabs.Rendered.has {t : Tabs} (h : t.Rendered execMode cache preferred) :
    ∀ tab ∈ t.currentTab, cache.has tab = true := by
  intro tab htab
  have hsettled := h.settled
  rw [settle_currentTab, Option.mem_def.mp htab] at hsettled
  dsimp only at hsettled
  split_ifs at hsettled with hhas
  · exact hhas
  · exact has_of_fallback hsettled

end Tabs

/-! ## What has been produced -/

/-- A call adds the section it dumps and no other. -/
lemma Callback.run_has (c : RunCaches) (k : Callback) (tab : JsString) :
    (k.run c).sectionCache.has tab = true →
      c.sectionCache.has tab = true ∨ ∃ blocks, k = .dump tab blocks := by
  cases k with
  | dump name blocks =>
      intro h
      rw [Callback.run, RunCaches.dump_sectionCache, OrderedMap.has_set] at h
      by_cases heq : tab = name
      · exact Or.inr ⟨blocks, by rw [heq]⟩
      · exact Or.inl (by simpa [heq] using h)
  | _ => exact Or.inl

lemma foldl_run_has (tab : JsString) :
    ∀ (calls : List Callback) (c : RunCaches),
      (calls.foldl Callback.run c).sectionCache.has tab = true →
        c.sectionCache.has tab = true ∨ ∃ blocks, Callback.dump tab blocks ∈ calls
  | [], _, h => Or.inl h
  | k :: calls, c, h => by
      rcases foldl_run_has tab calls (k.run c) h with h | ⟨blocks, hmem⟩
      · rcases k.run_has c tab h with h | ⟨blocks, rfl⟩
        · exact Or.inl h
        · exact Or.inr ⟨blocks, List.mem_cons_self⟩
      · exact Or.inr ⟨blocks, List.mem_cons_of_mem k hmem⟩

/-- The clean-up after a call that threw adds no section either. -/
lemma finishRun_has_of_threw (mode : ActionMode) (calls : List Callback) (threw : Option JsString)
    (c : RunCaches) (tab : JsString) :
    (finishRun mode calls threw c).sectionCache.has tab
      = (calls.foldl Callback.run c).sectionCache.has tab := by
  have hverify : ∀ (m : JsString) (c : RunCaches),
      (runVerifyOnError m c).sectionCache = c.sectionCache := by
    intro m c
    rw [runVerifyOnError]
    split_ifs
    · rfl
    · rfl
  -- with nothing thrown this is the lemma about runs that return
  have hnone := fun c => finishRun_has mode [] c tab
  simp only [List.foldl_nil] at hnone
  cases threw with
  | none => exact finishRun_has mode calls c tab
  | some message =>
      cases mode with
      | verify =>
          have hcaches := hnone (runVerifyOnError message (calls.foldl Callback.run c))
          rw [hverify] at hcaches
          exact hcaches
      | execute => exact hnone (runProgramOnError message (calls.foldl Callback.run c))

/-- The sections a run leaves are those the module has dumped. -/
lemma dump_of_ran {wasm : Wasm} {mode : ActionMode} {doc : Doc} {tab : JsString}
    (h : (ran wasm mode doc).sectionCache.has tab = true) :
    ∃ blocks, Callback.dump tab blocks ∈ (wasm mode doc).1 := by
  rw [ran, finishRun_has_of_threw] at h
  rcases foldl_run_has tab _ _ h with h | hdumped
  · exact absurd h (by simp [OrderedMap.has, OrderedMap.get?])
  · exact hdumped

/-! ## The page -/

section Steps

variable {site : Site} {wasm : Wasm} {s : App}

/-- The end of the last run shows what it has made; until the next one, clicks only lead to other
sections of it. -/
lemma shown_step (hisolated : s.runs.Isolated) (hqueue : s.url.hashchanges = 0)
    (hparses : s.parses = []) {e : Event} (hfollows : s.Follows wasm e) (h : s.Shown site wasm) :
    (s.step site e).Shown site wasm := by
  by_cases hfinishes : s.Finishes e
  · obtain ⟨i, calls, threw, x, rfl, hx, hlast⟩ := hfinishes
    obtain ⟨hruns, htabs, -, -⟩ := resume_of_last site s hx hlast calls threw
    have hfresh : s.runs.caches = {} := hisolated.fresh ⟨x, List.mem_of_getElem? hx, hlast⟩
    have hsame : (calls, threw) = wasm x.mode s.editor.doc :=
      hfollows i calls threw x rfl hx hlast
    have hcaches : (s.step site (.resume i calls threw)).runs.caches
        = ran wasm x.mode s.editor.doc := by
      rw [hruns, ran, ← hsame, ← hfresh]
      rfl
    intro _ _
    refine ⟨⟨s.runs.runId, x.mode, s.editor.doc, s.runs.caches, calls, threw⟩, ?_, hcaches, ?_, ?_⟩
    · rw [hruns]
      exact List.getLast?_concat
    · rw [hruns]
      rfl
    · rw [htabs]
      exact rendered_settle s.tabs
  · have hidles := idles_step site e hfinishes
    have hruns := (acts_step site s e).runs
    have htabs := hidles.tabs hqueue hparses
    have hexecuted := hidles.executed
    generalize s.step site e = t at hruns htabs hexecuted ⊢
    have hkeep : t.runs.runId = s.runs.runId → t.runs.caches = s.runs.caches →
        t.runs.panel = s.runs.panel → (s.runs.Waiting → t.runs.Waiting) → t.Shown site wasm := by
      intro hid hcaches hpanel hwaiting hstarted hnone
      obtain ⟨call, hcall, hran, hshown, hrendered⟩ := h (hid ▸ hstarted) fun x hx hlast => by
        obtain ⟨y, hy, hlast'⟩ := hwaiting ⟨x, hx, hlast⟩
        exact hnone y hy hlast'
      refine ⟨call, hexecuted ▸ hcall, hcaches ▸ hran, ?_, ?_⟩
      · rw [hpanel, hcaches]
        exact hshown
      · rw [hcaches]
        exact hrendered.step htabs
    generalize ht : t.runs = r at hruns
    cases hruns with
    | stay => exact hkeep (by rw [ht]) (by rw [ht]) (by rw [ht]) fun hw => ht ▸ hw
    | ready => exact hkeep (by rw [ht]) (by rw [ht]) (by rw [ht]) fun hw => ht ▸ hw
    | start mode =>
        intro _ hnone
        rw [ht] at hnone
        exact absurd rfl
          (hnone ⟨s.runs.runId + 1, mode⟩ (List.mem_append_right _ List.mem_cons_self))
    | stale i hx hstale =>
        exact hkeep (by rw [ht]) (by rw [ht]) (by rw [ht]) fun hw =>
          ht ▸ waiting_stale hx hstale hw
    | execute i hx hlast calls threw =>
        rw [ht] at hexecuted
        exact absurd hexecuted (by simp [Runs.execute])

end Steps

variable (site : Site)

lemma shown_after_following {wasm : Wasm} (storage : JsString → Option Doc) (hash : JsString)
    (mode : ActionMode) (auto : Bool) (events : List Event)
    (hstay : ∀ h, Event.navigate h ∉ events)
    (hfollows : Machine.Along (App.step site) (App.Follows wasm)
      (App.boot site storage hash mode auto) events) :
    ((App.boot site storage hash mode auto).after site events).Shown site wasm := by
  induction events using List.reverseRecOn with
  | nil => exact fun hid => absurd rfl hid
  | append_singleton events e ih =>
      have hstay' : ∀ h, Event.navigate h ∉ events :=
        fun h hmem => hstay h (List.mem_append_left _ hmem)
      obtain ⟨hbefore, hlast⟩ := Machine.along_append.mp hfollows
      have hlinked := linked_after site (linked_boot site storage hash mode auto) events hstay'
      have hisolated := isolated_after site (isolated_boot site storage hash mode auto) events
      rw [App.after, Machine.run_concat]
      exact shown_step hisolated hlinked.noEvents hlinked.noParses (Machine.along_cons.mp hlast).1
        (ih hstay' hbefore)

/-! ## Opening the link -/

/-- The text of a document is the document again. -/
lemma ofText_text (doc : Doc) : Doc.ofText doc.text = doc := by
  obtain ⟨text, hcr⟩ := doc
  have hsame : normalizeBreaks false text = text := normalizeBreaks_of_notMem hcr (by simp)
  simp only [Doc.ofText, hsame]

/-- The page that is opened with a link, and its first run. -/
lemma after_firstRun (storage : JsString → Option Doc) (mode : ActionMode) (auto : Bool)
    {doc : Doc} {tab : Option JsString} {hash : JsString}
    (hparse : parseHash site.codec site.execMode (hash.drop 1) = some ⟨none, some doc.text, tab⟩)
    (calls : List Callback) (threw : Option JsString) :
    let t := (App.boot site storage hash mode auto).after site
      [.wasmReady, .start, .resume 0 calls threw]
    t.editor.doc = doc ∧ t.runs.caches = finishRun mode calls threw {}
      ∧ t.runs.panel = renderMeta doc.lines (finishRun mode calls threw {})
      ∧ ∃ u : Tabs, u.currentTab = tab
        ∧ t.tabs = (u.settle site.execMode t.runs.caches.sectionCache
          (preferredTab mode)).rerender site.execMode t.runs.caches.sectionCache
        ∧ t.url.hash = (Url.writeTab ⟨hash, hash, 0, [], 0, none⟩ t.tabs.currentTab).hash := by
  intro t
  let u := (App.boot site storage hash mode auto).after site [.wasmReady, .start]
  have hdoc : u.editor.doc = doc := by
    show (initialEditor site storage (parseHash site.codec site.execMode (hash.drop 1))).doc = doc
    rw [hparse]
    exact ofText_text doc
  have htab : u.tabs.currentTab = tab := by
    show (parseHash site.codec site.execMode (hash.drop 1)).bind ParsedHash.tab = tab
    rw [hparse]
    rfl
  obtain ⟨hruns, htabs, heditor, hurl⟩ :=
    resume_of_last site u (i := 0) (x := ⟨1, mode⟩) rfl rfl calls threw
  have ht : t = u.step site (.resume 0 calls threw) := rfl
  rw [← ht] at hruns htabs heditor hurl
  refine ⟨(congrArg Editor.doc heditor).trans hdoc, ?_, ?_, u.tabs, htab, htabs, ?_⟩
  · rw [hruns]
    rfl
  · rw [hruns, hdoc]
    rfl
  · rw [hurl]
    rfl

/-- **A link shows what it was copied from.**  A module that always does the same on the same source
dumps sections the page has tabs for.  While nobody has navigated and with auto-verify, the address
of a page at rest opens on the same document and the same tab; and after the first run in the mode
of the last one the same panel, the same sections and the same buttons are shown, under the same
address. -/
theorem link_reproduces (wasm : Wasm) (hempty : site.codec.gunzip [] = none)
    (hnames : ∀ mode doc tab blocks, Callback.dump tab blocks ∈ (wasm mode doc).1 →
      tab ∈ sectionOrder site.execMode)
    (storage : JsString → Option Doc) (hash : JsString) (mode : ActionMode) (auto : Bool)
    (events : List Event) (hstay : ∀ h, Event.navigate h ∉ events)
    (hfollows : Machine.Along (App.step site) (App.Follows wasm)
      (App.boot site storage hash mode auto) events) :
    let s := (App.boot site storage hash mode auto).after site events
    site.codec.gunzip (site.codec.gzip s.editor.doc.text) = some s.editor.doc.text →
    Machine.AtRest App.Due s → s.auto = true →
      ∃ call, s.runs.executed.getLast? = some call ∧ ∀ storage' auto',
        let (calls, threw) := wasm call.mode s.editor.doc
        let t := (App.boot site storage' s.url.hash call.mode auto').after site
          [.wasmReady, .start, .resume 0 calls threw]
        t.editor.doc = s.editor.doc ∧ t.runs.caches = s.runs.caches ∧ t.runs.panel = s.runs.panel
          ∧ t.tabs.currentTab = s.tabs.currentTab ∧ t.tabs.tabButtons = s.tabs.tabButtons
          ∧ t.tabs.subtabButtons = s.tabs.subtabButtons ∧ t.url.hash = s.url.hash := by
  intro s hgzip hrest hauto
  have hquiet := App.Quiet.of_atRest hrest
  obtain ⟨hid, -⟩ := done_of_quiet site storage hash mode auto events hquiet
  have hawake : s.Awake :=
    awake_after site ⟨fun hid => absurd rfl hid, fun hid => absurd rfl hid⟩ events
  obtain ⟨call, hcall, hran, hpanel, hrendered⟩ :=
    shown_after_following site storage hash mode auto events hstay hfollows hid fun x hx => by
      rw [hquiet.suspended] at hx
      exact absurd hx List.not_mem_nil
  have hsrc : call.src = s.editor.doc := by
    rcases hawake.current hid hauto with hdue | ⟨x, hx, -⟩ | ⟨last, hlast, hread⟩
    · exact absurd (hquiet.timer.symm.trans hdue) (by simp)
    · exact absurd (hquiet.suspended ▸ hx) List.not_mem_nil
    · rw [Option.some_inj.mp (hcall.symm.trans hlast)]
      exact hread
  have htab : ∀ tab ∈ s.tabs.currentTab, tab ∈ sectionOrder site.execMode := by
    intro tab htab
    have hhas := hrendered.has tab htab
    rw [hran] at hhas
    obtain ⟨blocks, hblocks⟩ := dump_of_ran hhas
    exact hnames _ _ tab blocks hblocks
  have hlink : s.url.hash = buildHash site.codec s.editor.doc.text s.tabs.currentTab :=
    hash_of_quiet site storage hash mode auto events hstay hquiet hauto
  have hparse : parseHash site.codec site.execMode (s.url.hash.drop 1)
      = some ⟨none, some s.editor.doc.text, s.tabs.currentTab⟩ := by
    rw [hlink]
    exact (parseHash_buildHash site.codec site.execMode hempty hgzip htab).1
  refine ⟨call, hcall, fun storage' auto' => ?_⟩
  obtain ⟨hdoc, hcaches, hpanel', u, hu, htabs, hhash⟩ :=
    after_firstRun site storage' call.mode auto' hparse
      (wasm call.mode s.editor.doc).1 (wasm call.mode s.editor.doc).2
  have hsame : finishRun call.mode (wasm call.mode s.editor.doc).1
      (wasm call.mode s.editor.doc).2 {} = s.runs.caches := by
    rw [hran, ran, hsrc]
  rw [hsame] at hcaches hpanel'
  rw [hcaches] at htabs
  have hcurrent : (u.settle site.execMode s.runs.caches.sectionCache
      (preferredTab call.mode)).currentTab = s.tabs.currentTab := by
    rw [settle_congr hu]
    exact hrendered.settled
  refine ⟨hdoc, hcaches, ?_, ?_, ?_, ?_, ?_⟩
  · rw [hpanel', hpanel, hsrc]
  · rw [htabs]
    exact hcurrent
  · rw [htabs, hrendered.tabButtons]
    rfl
  · rw [htabs, hrendered.subtabButtons, ← hcurrent]
    rfl
  · rw [hhash, htabs]
    show (Url.writeTab _ (u.settle _ _ _).currentTab).hash = _
    rw [hcurrent, Url.writeTab]
    simp only [hlink, writeTabToUrl_buildHash]
    rfl

/-- A module that finds this in every source.  Without the execute mode all runs are
verifications. -/
def smallWasm : Wasm := fun _ _ => (smallCalls, none)

/-- The first example is verified and the user selects `VIR_SIMPLE`; the page that is opened with
its address shows that section again, under the same headline. -/
theorem link_reproduces_first :
    let s := (App.boot smallSite (fun _ => none) [] .verify true).after smallSite
      [.wasmReady, .start, .resume 0 smallCalls none, .encoded 0, .clickTab 2]
    ∃ call, s.runs.executed.getLast? = some call ∧ ∀ storage' auto',
      let t := (App.boot smallSite storage' s.url.hash call.mode auto').after smallSite
        [.wasmReady, .start, .resume 0 smallCalls none]
      t.editor.doc = s.editor.doc ∧ t.runs.caches = s.runs.caches
        ∧ t.tabs.currentTab = some (js "VIR_SIMPLE") ∧ t.tabs.tabButtons = s.tabs.tabButtons
        ∧ t.runs.caches.sectionCache.get? (js "VIR_SIMPLE") = some (js ";; function\n(f)")
        ∧ t.runs.panel.verdict.map VerdictBlock.parts
          = some [⟨.ok, js "✓ verified · 1 query"⟩]
        ∧ t.url.hash = s.url.hash := by
  intro s
  have hnames : ∀ mode doc tab blocks, Callback.dump tab blocks ∈ (smallWasm mode doc).1 →
      tab ∈ sectionOrder smallSite.execMode := by
    intro mode doc tab blocks h
    simp only [smallWasm, smallCalls, List.mem_cons, Callback.dump.injEq, reduceCtorEq,
      List.not_mem_nil, or_false] at h
    rcases h with ⟨rfl, -⟩ | ⟨rfl, -⟩ | ⟨rfl, -⟩ <;> decide
  have hfollows : Machine.Along (App.step smallSite) (App.Follows smallWasm)
      (App.boot smallSite (fun _ => none) [] .verify true)
      [.wasmReady, .start, .resume 0 smallCalls none, .encoded 0, .clickTab 2] := by
    intro fs e hfs i calls threw x he _ _
    have hmem : e ∈ _ := hfs.subset (List.mem_append_right _ List.mem_cons_self)
    subst he
    obtain ⟨-, rfl, rfl⟩ : i = 0 ∧ calls = smallCalls ∧ threw = none := by simpa using hmem
    rfl
  have hquiet : s.Quiet := by constructor <;> decide +kernel
  have htab : s.tabs.currentTab = some (js "VIR_SIMPLE") := by decide +kernel
  have hsection : s.runs.caches.sectionCache.get? (js "VIR_SIMPLE")
      = some (js ";; function\n(f)") := by decide +kernel
  have hparts : s.runs.panel.verdict.map VerdictBlock.parts
      = some [⟨.ok, js "✓ verified · 1 query"⟩] := by decide +kernel
  obtain ⟨call, hcall, hsame⟩ :=
    link_reproduces smallSite smallWasm rfl hnames (fun _ => none) [] .verify true
      [.wasmReady, .start, .resume 0 smallCalls none, .encoded 0, .clickTab 2] (by simp) hfollows
      (by decide +kernel) (App.Quiet.atRest hquiet) (by decide +kernel)
  refine ⟨call, hcall, fun storage' auto' => ?_⟩
  intro t
  obtain ⟨hdoc, hcaches, hpanel, htab', hbuttons, -, hhash⟩ := hsame storage' auto'
  change t.runs.caches = s.runs.caches at hcaches
  change t.runs.panel = s.runs.panel at hpanel
  refine ⟨hdoc, hcaches, htab'.trans htab, hbuttons, ?_, ?_, hhash⟩
  · rw [hcaches]
    exact hsection
  · rw [hpanel]
    exact hparts

end VerusExplorer
