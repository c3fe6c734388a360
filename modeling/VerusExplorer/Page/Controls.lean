import VerusExplorer.Page.Steps

/-!
# The example controls

A dropdown names the example that is loaded; two buttons go to its neighbours and one resets it
(`public/app.js`).  They are refreshed with every change of the document and after every load, and
the browser changes the dropdown by itself when the user selects in it.

* `SourceUI`, `updateSourceUI` — what is shown; `Page` is the page with it.
* `App.change` — what an event does to the editor, as a function of the event; `change_step` says
  that it does this.
* `sourceUI_change`, `sourceUI_none` — the controls after an event.
-/

namespace VerusExplorer

open Utf16

/-! ## Changes of the editor -/

inductive Editor.Change where
  | none
  | edit (doc : Doc) (userEvent : UserEvent)
  | load (file : JsString)
  | reset
  | opened (src : Doc)
  deriving DecidableEq

def Editor.apply (shipped : JsString → Doc) (ed : Editor) : Change → Editor
  | .none => ed
  | .edit doc userEvent => ed.changeDoc doc (some userEvent)
  | .load file => ed.loadSource file (shipped file)
  | .reset =>
      match ed.loadedSource, ed.pristineSource with
      | some file, some pristine => ed.resetSource file pristine
      | _, _ => ed
  | .opened src => ed.openSource src

/-- The document of a hash is opened; an example has to be fetched first. -/
def parsedChange : Option ParsedHash → Editor.Change
  | some ⟨none, some src, _⟩ => .opened (Doc.ofText src)
  | _ => .none

/-- The `hashchange` listener gets past its guard. -/
def App.hears (s : App) : Bool :=
  s.url.hashchanges != 0 && s.url.hash != s.url.lastWrittenHash

def App.change (site : Site) (s : App) : Event → Editor.Change
  | .edit doc userEvent => .edit doc userEvent
  | .fetched i =>
      match s.loads[i]? with
      | some file => .load file
      | none => .none
  | .clickReset => if s.editor.resetHidden then .none else .reset
  | .hashchange =>
      if s.hears && !App.awaitsDecode (s.url.hash.drop 1) then
        parsedChange (parseHash site.codec site.execMode (s.url.hash.drop 1))
      else .none
  | .decoded i =>
      match s.parses[i]? with
      | some hash => parsedChange (parseHash site.codec site.execMode hash)
      | none => .none
  | _ => .none

/-! ### The other handlers -/

/-- No document is loaded, opened or changed. -/
def Event.quiet : Event → Bool
  | .toggleAuto | .timer | .clickRun | .switchMode _ | .wasmReady | .start | .resume .. => true
  | .clickTab _ | .clickSubtab _ | .copyLink | .encoded _ | .navigate _ => true
  | _ => false

/-- The editor and the documents under way. -/
structure App.SameDocs (s t : App) : Prop where
  editor : t.editor = s.editor
  loads : t.loads = s.loads
  parses : t.parses = s.parses

section Quiet

variable (site : Site) (s : App)

lemma sameDocs_runAction {s t : App} (h : s.SameDocs t) : s.SameDocs t.runAction := by
  rw [App.runAction, App.runWith]
  split_ifs
  · exact h
  · exact ⟨h.editor, h.loads, h.parses⟩

lemma sameDocs_resume (i : ℕ) (calls : List Callback) (threw : Option JsString) :
    s.SameDocs (s.resume site i calls threw) := by
  rw [App.resume]
  split
  · exact ⟨rfl, rfl, rfl⟩
  · dsimp only
    split_ifs
    · exact ⟨rfl, rfl, rfl⟩
    · exact ⟨rfl, rfl, rfl⟩

lemma sameDocs_clickTab (i : ℕ) : s.SameDocs (s.clickTab site i) := by
  rw [App.clickTab]
  split
  · exact ⟨rfl, rfl, rfl⟩
  · split_ifs
    · exact ⟨rfl, rfl, rfl⟩
    · split
      · exact ⟨rfl, rfl, rfl⟩
      · exact ⟨rfl, rfl, rfl⟩

lemma sameDocs_clickSubtab (i : ℕ) : s.SameDocs (s.clickSubtab site i) := by
  rw [App.clickSubtab]
  split
  · exact ⟨rfl, rfl, rfl⟩
  · split_ifs
    · exact ⟨rfl, rfl, rfl⟩
    · exact ⟨rfl, rfl, rfl⟩

lemma sameDocs_encoded (i : ℕ) : s.SameDocs (s.encoded site i) := by
  rw [App.encoded]
  split
  · exact ⟨rfl, rfl, rfl⟩
  · exact ⟨rfl, rfl, rfl⟩

lemma sameDocs_quiet {e : Event} (h : e.quiet = true) : s.SameDocs (s.step site e) := by
  cases e with
  | toggleAuto =>
      show s.SameDocs s.toggleAuto
      rw [App.toggleAuto]
      split_ifs
      · exact sameDocs_runAction ⟨rfl, rfl, rfl⟩
      · exact ⟨rfl, rfl, rfl⟩
  | timer =>
      show s.SameDocs s.fireTimer
      rw [App.fireTimer]
      split_ifs
      · exact sameDocs_runAction ⟨rfl, rfl, rfl⟩
      · exact ⟨rfl, rfl, rfl⟩
  | clickRun =>
      show s.SameDocs s.clickRun
      rw [App.clickRun]
      split_ifs
      · exact ⟨rfl, rfl, rfl⟩
      · exact sameDocs_runAction ⟨rfl, rfl, rfl⟩
  | start =>
      show s.SameDocs s.start
      rw [App.start]
      split_ifs
      · exact sameDocs_runAction ⟨rfl, rfl, rfl⟩
      · exact ⟨rfl, rfl, rfl⟩
  | resume i calls threw => exact sameDocs_resume site s i calls threw
  | clickTab i => exact sameDocs_clickTab site s i
  | clickSubtab i => exact sameDocs_clickSubtab site s i
  | encoded i => exact sameDocs_encoded site s i
  | navigate hash =>
      show s.SameDocs (s.navigate hash)
      rw [App.navigate]
      split_ifs
      · exact ⟨rfl, rfl, rfl⟩
      · exact ⟨rfl, rfl, rfl⟩
  | switchMode mode => exact ⟨rfl, rfl, rfl⟩
  | wasmReady => exact ⟨rfl, rfl, rfl⟩
  | copyLink => exact ⟨rfl, rfl, rfl⟩
  | _ => exact absurd h (by simp [Event.quiet])

lemma change_quiet {e : Event} (h : e.quiet = true) : s.change site e = .none := by
  cases e with
  | edit doc userEvent => exact absurd h (by simp [Event.quiet])
  | fetched i => exact absurd h (by simp [Event.quiet])
  | clickReset => exact absurd h (by simp [Event.quiet])
  | hashchange => exact absurd h (by simp [Event.quiet])
  | decoded i => exact absurd h (by simp [Event.quiet])
  | _ => rfl

end Quiet

/-! ### What the others do to the editor -/

section Changes

variable (s : App)

lemma editor_loadSource (file : JsString) : (s.loadSource file).editor = s.editor := by
  rw [App.loadSource]
  split_ifs
  · rfl
  · rfl

lemma editor_navSource (forward : Bool) : (s.navSource forward).editor = s.editor := by
  rw [App.navSource]
  split
  · exact editor_loadSource s _
  · rfl

lemma editor_hashParsed (shipped : JsString → Doc) (parsed : Option ParsedHash) :
    (s.hashParsed parsed).editor = s.editor.apply shipped (parsedChange parsed) := by
  have htab := (rests_takeTab s parsed).1.editor
  rcases parsed with _ | ⟨_ | file, _ | src, tab⟩
  · exact (editor_loadSource _ _).trans htab
  · exact (editor_loadSource _ _).trans htab
  · refine (sameDocs_runAction ⟨rfl, rfl, rfl⟩).editor.trans ?_
    show (s.takeTab _).editor.openSource (Doc.ofText src) = _
    rw [htab]
    rfl
  · exact (editor_loadSource _ _).trans htab
  · exact (editor_loadSource _ _).trans htab

variable (site : Site)

lemma editor_fetched (i : ℕ) :
    (s.fetched site i).editor = s.editor.apply site.shipped (s.change site (.fetched i)) := by
  rw [App.fetched, App.change]
  cases s.loads[i]? with
  | none => rfl
  | some file => exact (sameDocs_runAction ⟨rfl, rfl, rfl⟩).editor

lemma editor_clickReset :
    s.clickReset.editor = s.editor.apply site.shipped (s.change site .clickReset) := by
  rw [App.clickReset, App.change]
  split_ifs
  · rfl
  · rw [Editor.apply]
    cases s.editor.loadedSource with
    | none => rfl
    | some file =>
        cases s.editor.pristineSource with
        | none => rfl
        | some pristine => exact (sameDocs_runAction ⟨rfl, rfl, rfl⟩).editor

lemma editor_hashchange :
    (s.hashchange site).editor = s.editor.apply site.shipped (s.change site .hashchange) := by
  rw [App.hashchange, App.change, App.hears]
  dsimp only
  by_cases hqueue : s.url.hashchanges = 0
  · rw [if_pos hqueue, if_neg (by simp [hqueue])]
    rfl
  by_cases hown : s.url.hash = s.url.lastWrittenHash
  · rw [if_neg hqueue, if_pos hown, if_neg (by simp [hown])]
    rfl
  cases hwaits : App.awaitsDecode (s.url.hash.drop 1) with
  | true =>
      rw [if_neg hqueue, if_neg hown, if_pos rfl, if_neg (by simp)]
      rfl
  | false =>
      rw [if_neg hqueue, if_neg hown, if_neg (by simp), if_pos (by simp [hqueue, hown])]
      exact editor_hashParsed _ site.shipped _

lemma editor_decoded (i : ℕ) :
    (s.decoded site i).editor = s.editor.apply site.shipped (s.change site (.decoded i)) := by
  rw [App.decoded, App.change]
  cases s.parses[i]? with
  | none => rfl
  | some hash => exact editor_hashParsed _ site.shipped _

/-- **What an event does to the editor.** -/
theorem change_step (e : Event) :
    (s.step site e).editor = s.editor.apply site.shipped (s.change site e) := by
  cases hquiet : e.quiet with
  | true =>
      rw [change_quiet site s hquiet]
      exact (sameDocs_quiet site s hquiet).editor
  | false =>
      cases e with
      | edit doc userEvent => rfl
      | selectSource file => exact editor_loadSource s file
      | navSource forward => exact editor_navSource s forward
      | fetched i => exact editor_fetched s site i
      | fetchFailed i => rfl
      | clickReset => exact editor_clickReset s site
      | hashchange => exact editor_hashchange s site
      | decoded i => exact editor_decoded s site i
      | _ => exact absurd hquiet (by simp [Event.quiet])

end Changes

/-! ## The controls -/

/-- The dropdown and the three buttons. -/
structure SourceUI where
  value : JsString
  resetHidden : Bool
  prevDisabled : Bool
  nextDisabled : Bool
  deriving DecidableEq, Repr

def updateSourceUI (ed : Editor) : SourceUI :=
  let idx := ed.loadedSource.bind fun file => examples.idxOf? file
  { value := ed.loadedSource.getD []
    resetHidden := ed.resetHidden
    prevDisabled := idx == some 0
    nextDisabled := idx == some (examples.length - 1) }

/-- The browser shows what the user selects. -/
def SourceUI.select (ui : SourceUI) : Event → SourceUI
  | .selectSource file => if examples.contains file then { ui with value := file } else ui
  | _ => ui

/-- The page with its example controls. -/
structure Page where
  app : App
  sourceUI : SourceUI

namespace Page

/-- What changes the document refreshes the controls. -/
def step (site : Site) (p : Page) (e : Event) : Page where
  app := p.app.step site e
  sourceUI :=
    if p.app.change site e = .none then p.sourceUI.select e
    else updateSourceUI (p.app.step site e).editor

def boot (site : Site) (storage : JsString → Option Doc) (hash : JsString) (mode : ActionMode)
    (auto : Bool) : Page :=
  let app := App.boot site storage hash mode auto
  ⟨app, updateSourceUI app.editor⟩

def after (site : Site) (p : Page) (events : List Event) : Page :=
  Machine.run (Page.step site) p events

section Steps

variable (site : Site) (p : Page) (e : Event)

/-- The controls do not act back: without them the page is the one that `App` describes. -/
theorem app_after (events : List Event) : (p.after site events).app = p.app.after site events :=
  (List.foldl_hom Page.app fun _ _ => rfl).symm

lemma sourceUI_change (h : p.app.change site e ≠ .none) :
    (p.step site e).sourceUI = updateSourceUI (p.step site e).app.editor := if_neg h

lemma sourceUI_none (h : p.app.change site e = .none) :
    (p.step site e).sourceUI = p.sourceUI.select e := if_pos h

lemma resetHidden_select (ui : SourceUI) : (ui.select e).resetHidden = ui.resetHidden := by
  cases e with
  | selectSource file =>
      rw [SourceUI.select]
      split_ifs
      · rfl
      · rfl
  | _ => rfl

/-- The reset button is visible exactly when it is meant to be. -/
lemma resetHidden_step (h : p.sourceUI.resetHidden = p.app.editor.resetHidden) :
    (p.step site e).sourceUI.resetHidden = (p.step site e).app.editor.resetHidden := by
  by_cases hchange : p.app.change site e = .none
  · have heditor : (p.step site e).app.editor = p.app.editor := by
      rw [show (p.step site e).app = p.app.step site e from rfl, change_step, hchange]
      rfl
    rw [heditor, ← h, sourceUI_none site p e hchange, resetHidden_select]
  · rw [sourceUI_change site p e hchange]
    rfl

end Steps

end Page

end VerusExplorer
