import VerusExplorer.Page.App

/-!
# What an event can do

The handlers of the page (`public/app.js`) share a few ends: most change the document or nothing
and then start a run, a few only load an example.

* `Editor.Step`, `Runs.Step` — all that can happen to the editor and to the runs; `App.Acts` — both
  at once.
* `App.Moves` — the same with auto-verify: its box, its timer, and the runs it starts.
* **`moves_step`** — every event does no more than that.  What holds over whole runs of the page is
  derived from this and from `acts_step`, its consequence, without looking at the handlers again.
-/

namespace VerusExplorer

open Utf16

/-- The editor after an event. -/
inductive Editor.Step (shipped : JsString → Doc) (ed : Editor) : Editor → Prop
  | stay : Step shipped ed ed
  | edit (doc : Doc) (userEvent : UserEvent) : Step shipped ed (ed.changeDoc doc (some userEvent))
  | load (file : JsString) : Step shipped ed (ed.loadSource file (shipped file))
  | reset {file : JsString} {pristine : Doc} (hloaded : ed.loadedSource = some file)
      (hpristine : ed.pristineSource = some pristine) :
      Step shipped ed (ed.resetSource file pristine)
  | opened (src : Doc) : Step shipped ed (ed.openSource src)

/-- The runs after an event, with `doc` in the editor before it. -/
inductive Runs.Step (doc : Doc) (r : Runs) : Runs → Prop
  | stay : Step doc r r
  | ready : Step doc r { r with verus := true }
  | start (mode : ActionMode) : Step doc r (r.start mode)
  | stale (i : ℕ) {x : Suspended} (hx : r.suspended[i]? = some x) (hstale : x.myRun ≠ r.runId) :
      Step doc r { r with suspended := r.suspended.eraseIdx i }
  | execute (i : ℕ) {x : Suspended} (hx : r.suspended[i]? = some x) (hlast : x.myRun = r.runId)
      (calls : List Callback) (threw : Option JsString) :
      Step doc r
        (Runs.execute { r with suspended := r.suspended.eraseIdx i } x.mode doc calls threw)

/-- What an event does to the editor and to the runs. -/
structure App.Acts (site : Site) (s t : App) : Prop where
  editor : s.editor.Step site.shipped t.editor
  runs : s.runs.Step s.editor.doc t.runs

/-- The editor, the box of auto-verify and its timer are left alone. -/
structure App.Rests (s t : App) : Prop where
  editor : t.editor = s.editor
  auto : t.auto = s.auto
  timer : t.timer = s.timer

/-- What an event does to the editor, the runs and auto-verify.  A run that is asked for before the
module is there (`deaf`) is not started; one that is started disarms the timer. -/
inductive App.Moves (site : Site) (s t : App) (e : Event) : Prop
  | stay (hrest : s.Rests t) (hruns : t.runs = s.runs) : Moves site s t e
  | ready (hrest : s.Rests t) (hruns : t.runs = { s.runs with verus := true }) : Moves site s t e
  | edit (doc : Doc) (userEvent : UserEvent) (ht : t = s.edit doc userEvent) : Moves site s t e
  | uncheck (he : e = .toggleAuto) (hauto : s.auto = true) (ht : t = { s with auto := false }) :
      Moves site s t e
  | deaf (heditor : s.editor.Step site.shipped t.editor) (hverus : s.runs.verus = false)
      (hruns : t.runs = s.runs) (hauto : s.auto = true → t.auto = true)
      (htimer : t.timer = true → s.timer = true ∨ t.auto = true) : Moves site s t e
  | start (mode : ActionMode) (heditor : s.editor.Step site.shipped t.editor)
      (hverus : s.runs.verus = true) (hruns : t.runs = s.runs.start mode)
      (htimer : t.timer = false) : Moves site s t e
  | stale (hrest : s.Rests t) (i : ℕ) {x : Suspended} (hx : s.runs.suspended[i]? = some x)
      (hstale : x.myRun ≠ s.runs.runId)
      (hruns : t.runs = { s.runs with suspended := s.runs.suspended.eraseIdx i }) :
      Moves site s t e
  | execute (hrest : s.Rests t) (i : ℕ) {x : Suspended} (hx : s.runs.suspended[i]? = some x)
      (hlast : x.myRun = s.runs.runId) (calls : List Callback) (threw : Option JsString)
      (he : e = .resume i calls threw)
      (hruns : t.runs = Runs.execute { s.runs with suspended := s.runs.suspended.eraseIdx i }
        x.mode s.editor.doc calls threw) : Moves site s t e

/-- A run comes to its end: the last one started resumes. -/
def App.Finishes (s : App) (e : Event) : Prop :=
  ∃ i calls threw r, e = .resume i calls threw ∧ s.runs.suspended[i]? = some r
    ∧ r.myRun = s.runs.runId

/-! ## The ends of the handlers -/

section Ends

variable {site : Site} {s t : App} {e : Event}

lemma rests_refl (s : App) : s.Rests s := ⟨rfl, rfl, rfl⟩

lemma App.Rests.timerAfter (h : s.Rests t) (changed : Bool) :
    t.timerAfter changed = s.timerAfter changed := by
  rw [App.timerAfter, App.timerAfter, h.auto, h.timer]

lemma moves_refl : s.Moves site s e := .stay (rests_refl s) rfl

/-- A change of the document, or none, and then a run. -/
lemma moves_runAction (heditor : s.editor.Step site.shipped t.editor) (hruns : t.runs = s.runs)
    (hauto : s.auto = true → t.auto = true)
    (htimer : t.timer = true → s.timer = true ∨ t.auto = true) : s.Moves site t.runAction e := by
  rw [App.runAction, App.runWith]
  split_ifs with hverus
  · rw [hruns] at hverus
    exact .deaf heditor (by simpa using hverus) hruns hauto htimer
  · rw [hruns] at hverus
    exact .start t.mode heditor (by simpa using hverus) (congrArg (Runs.start · t.mode) hruns) rfl

/-- A change of the document arms the timer if the box is checked. -/
lemma moves_changed {changed : Bool} (heditor : s.editor.Step site.shipped t.editor)
    (hruns : t.runs = s.runs) (hauto : t.auto = s.auto) (htimer : t.timer = s.timerAfter changed) :
    s.Moves site t.runAction e := by
  refine moves_runAction heditor hruns (fun hon => hauto.trans hon) fun harmed => ?_
  rw [htimer, App.timerAfter] at harmed
  split_ifs at harmed
  · exact Or.inr (hauto.trans harmed)
  · exact Or.inl harmed

lemma moves_loadSource (hrest : s.Rests t) (hruns : t.runs = s.runs) (file : JsString) :
    s.Moves site (t.loadSource file) e := by
  rw [App.loadSource]
  split_ifs
  · exact .stay ⟨hrest.editor, hrest.auto, hrest.timer⟩ hruns
  · exact .stay hrest hruns

lemma rests_takeTab (s : App) (parsed : Option ParsedHash) :
    s.Rests (s.takeTab parsed) ∧ (s.takeTab parsed).runs = s.runs := by
  rw [App.takeTab]
  split
  · exact ⟨⟨rfl, rfl, rfl⟩, rfl⟩
  · exact ⟨rests_refl s, rfl⟩

/-- The end of the `hashchange` listener: an example is fetched, or a document opened and run. -/
lemma moves_hashParsed (hrest : s.Rests t) (hruns : t.runs = s.runs)
    (parsed : Option ParsedHash) : s.Moves site (t.hashParsed parsed) e := by
  obtain ⟨htab, htab'⟩ := rests_takeTab t parsed
  have hrest' : s.Rests (t.takeTab parsed) :=
    ⟨htab.editor.trans hrest.editor, htab.auto.trans hrest.auto, htab.timer.trans hrest.timer⟩
  have hruns' := htab'.trans hruns
  rcases parsed with _ | ⟨_ | file, _ | src, tab⟩
  · exact moves_loadSource hrest' hruns' _
  · exact moves_loadSource hrest' hruns' _
  · refine moves_changed ?_ hruns' hrest'.auto (hrest'.timerAfter _)
    show s.editor.Step site.shipped ((t.takeTab _).editor.openSource (Doc.ofText src))
    rw [hrest'.editor]
    exact .opened _
  · exact moves_loadSource hrest' hruns' file
  · exact moves_loadSource hrest' hruns' file

end Ends

/-! ## Every event -/

section Handlers

variable (site : Site) (s : App)

/-- Checking the box asks for a run; unchecking it leaves the timer alone. -/
lemma moves_toggleAuto : s.Moves site s.toggleAuto .toggleAuto := by
  rw [App.toggleAuto]
  split_ifs with hon
  · exact moves_runAction .stay rfl (fun _ => hon) fun _ => Or.inr hon
  · have hauto : s.auto = true := by simpa using hon
    refine .uncheck rfl hauto ?_
    rw [hauto]
    rfl

lemma moves_fireTimer : s.Moves site s.fireTimer .timer := by
  rw [App.fireTimer]
  split_ifs
  · exact moves_runAction .stay rfl id fun harmed => absurd harmed (by simp)
  · exact moves_refl

lemma moves_clickRun : s.Moves site s.clickRun .clickRun := by
  rw [App.clickRun]
  split_ifs
  · exact moves_refl
  · exact moves_runAction .stay rfl id Or.inl

/-- The first run of the page: the button it enables is disabled again. -/
lemma moves_start : s.Moves site s.start .start := by
  rw [App.start]
  split_ifs with h
  · have hverus : s.runs.verus = true := by simp_all
    rw [App.runAction, App.runWith, if_neg (by simp [hverus])]
    exact .start s.mode .stay hverus rfl rfl
  · exact moves_refl

/-- The resumption of a run: it is stale, or it calls the wasm module. -/
lemma moves_resume (i : ℕ) (calls : List Callback) (threw : Option JsString) :
    s.Moves site (s.resume site i calls threw) (.resume i calls threw) := by
  rw [App.resume]
  cases hx : s.runs.suspended[i]? with
  | none => exact moves_refl
  | some x =>
      simp only
      split_ifs with hstale
      · exact .stale ⟨rfl, rfl, rfl⟩ i hx hstale rfl
      · exact .execute ⟨rfl, rfl, rfl⟩ i hx (not_not.mp hstale) calls threw rfl rfl

/-- The end of the last run. -/
lemma resume_of_last {i : ℕ} {x : Suspended} (hx : s.runs.suspended[i]? = some x)
    (hlast : x.myRun = s.runs.runId) (calls : List Callback) (threw : Option JsString) :
    let t := s.step site (.resume i calls threw)
    t.runs = Runs.execute { s.runs with suspended := s.runs.suspended.eraseIdx i } x.mode
        s.editor.doc calls threw
      ∧ t.tabs = (s.tabs.settle site.execMode t.runs.caches.sectionCache
        (preferredTab x.mode)).rerender site.execMode t.runs.caches.sectionCache
      ∧ t.editor = s.editor
      ∧ t.url = (s.url.writeTab t.tabs.currentTab).saveHashNow s.editor.doc false := by
  intro t
  have ht : t = s.resume site i calls threw := rfl
  rw [App.resume, hx] at ht
  dsimp only at ht
  rw [if_neg (not_not.mpr hlast)] at ht
  rw [ht]
  exact ⟨rfl, rfl, rfl, rfl⟩

lemma moves_navSource (forward : Bool) :
    s.Moves site (s.navSource forward) (.navSource forward) := by
  rw [App.navSource]
  split
  · exact moves_loadSource (rests_refl s) rfl _
  · exact moves_refl

lemma moves_fetched (i : ℕ) : s.Moves site (s.fetched site i) (.fetched i) := by
  rw [App.fetched]
  split
  · exact moves_refl
  · exact moves_changed (.load _) rfl rfl rfl

lemma moves_clickReset : s.Moves site s.clickReset .clickReset := by
  rw [App.clickReset]
  split_ifs
  · exact moves_refl
  · split
    · next file pristine hloaded hpristine =>
        exact moves_changed (.reset hloaded hpristine) rfl rfl rfl
    · exact moves_refl

lemma moves_clickTab (i : ℕ) : s.Moves site (s.clickTab site i) (.clickTab i) := by
  rw [App.clickTab]
  split
  · exact moves_refl
  · split_ifs
    · exact moves_refl
    · split
      · exact moves_refl
      · exact .stay ⟨rfl, rfl, rfl⟩ rfl

lemma moves_clickSubtab (i : ℕ) : s.Moves site (s.clickSubtab site i) (.clickSubtab i) := by
  rw [App.clickSubtab]
  split
  · exact moves_refl
  · split_ifs
    · exact moves_refl
    · exact .stay ⟨rfl, rfl, rfl⟩ rfl

lemma moves_encoded (i : ℕ) : s.Moves site (s.encoded site i) (.encoded i) := by
  rw [App.encoded]
  split
  · exact moves_refl
  · exact .stay ⟨rfl, rfl, rfl⟩ rfl

lemma moves_navigate (hash : JsString) : s.Moves site (s.navigate hash) (.navigate hash) := by
  rw [App.navigate]
  split_ifs
  · exact moves_refl
  · exact .stay ⟨rfl, rfl, rfl⟩ rfl

lemma moves_hashchange : s.Moves site (s.hashchange site) .hashchange := by
  rw [App.hashchange]
  dsimp only
  split_ifs
  · exact moves_refl
  · exact .stay ⟨rfl, rfl, rfl⟩ rfl
  · exact .stay ⟨rfl, rfl, rfl⟩ rfl
  · refine moves_hashParsed ?_ ?_ _
    · exact ⟨rfl, rfl, rfl⟩
    · rfl

lemma moves_decoded (i : ℕ) : s.Moves site (s.decoded site i) (.decoded i) := by
  rw [App.decoded]
  split
  · exact moves_refl
  · refine moves_hashParsed ?_ ?_ _
    · exact ⟨rfl, rfl, rfl⟩
    · rfl

/-- **Everything that can happen** to the editor, the runs and auto-verify. -/
theorem moves_step (e : Event) : s.Moves site (s.step site e) e := by
  cases e with
  | edit doc userEvent => exact .edit doc userEvent rfl
  | toggleAuto => exact moves_toggleAuto site s
  | timer => exact moves_fireTimer site s
  | clickRun => exact moves_clickRun site s
  | switchMode mode => exact .stay ⟨rfl, rfl, rfl⟩ rfl
  | wasmReady => exact .ready ⟨rfl, rfl, rfl⟩ rfl
  | start => exact moves_start site s
  | resume i calls threw => exact moves_resume site s i calls threw
  | selectSource file => exact moves_loadSource (rests_refl s) rfl file
  | navSource forward => exact moves_navSource site s forward
  | fetched i => exact moves_fetched site s i
  | fetchFailed i => exact .stay ⟨rfl, rfl, rfl⟩ rfl
  | clickReset => exact moves_clickReset site s
  | clickTab i => exact moves_clickTab site s i
  | clickSubtab i => exact moves_clickSubtab site s i
  | copyLink => exact .stay ⟨rfl, rfl, rfl⟩ rfl
  | encoded i => exact moves_encoded site s i
  | navigate hash => exact moves_navigate site s hash
  | hashchange => exact moves_hashchange site s
  | decoded i => exact moves_decoded site s i

/-- What happens to the editor and to the runs. -/
theorem acts_step (e : Event) : s.Acts site (s.step site e) := by
  have hmoves := moves_step site s e
  generalize s.step site e = t at hmoves ⊢
  cases hmoves with
  | stay hrest hruns => exact ⟨hrest.editor ▸ .stay, hruns ▸ .stay⟩
  | ready hrest hruns => exact ⟨hrest.editor ▸ .stay, hruns ▸ .ready⟩
  | edit doc userEvent ht =>
      subst ht
      exact ⟨.edit doc userEvent, .stay⟩
  | uncheck he hauto ht =>
      subst ht
      exact ⟨.stay, .stay⟩
  | deaf heditor hverus hruns hauto htimer => exact ⟨heditor, hruns ▸ .stay⟩
  | start mode heditor hverus hruns htimer => exact ⟨heditor, hruns ▸ .start mode⟩
  | stale hrest i hx hstale hruns => exact ⟨hrest.editor ▸ .stay, hruns ▸ .stale i hx hstale⟩
  | execute hrest i hx hlast calls threw he hruns =>
      exact ⟨hrest.editor ▸ .stay, hruns ▸ .execute i hx hlast calls threw⟩

end Handlers

end VerusExplorer
