import VerusExplorer.Page.Steps

/-!
# Work in progress is kept

The editor's document is mirrored in the `localStorage` entry of the example it belongs to
(`public/app.js`).  The document, the example and the entries are changed by listeners and by
handlers that have waited for a fetch or a decoding.

* `Editor.Step.filed`, `Editor.Step.frames`, `Editor.Step.arrives` — what one event keeps, leaves
  alone, and shows when it loads an example.
* **`sources_kept`** — the document always is the one filed under the example that is loaded, no
  event touches the entry of another example, and coming back to an example restores the text it
  was left with.
-/

namespace VerusExplorer

open Utf16

/-! ## Filing -/

section Filing

variable {shipped : JsString → Doc} {ed ed' : Editor}

lemma Editor.Step.filed (hstep : ed.Step shipped ed') (h : ed.Filed shipped) :
    ed'.Filed shipped := by
  cases hstep with
  | stay => exact h
  | edit doc userEvent => exact Editor.filed_changeDoc h doc _
  | load file => exact Editor.filed_loadSource ed file
  | @reset file pristine hloaded hpristine =>
      have heq : pristine = shipped file :=
        Option.some_inj.mp (hpristine.symm.trans (h file hloaded).1)
      subst heq
      exact Editor.filed_resetSource hloaded hpristine
  | opened src => exact Editor.filed_openSource ed src

lemma Editor.Step.frames (hstep : ed.Step shipped ed') : Editor.Frames ed ed' := by
  cases hstep with
  | stay => exact fun _ _ => rfl
  | edit doc userEvent => exact Editor.frames_changeDoc ed doc _
  | load file => exact Editor.frames_loadSource ed file _
  | reset hloaded hpristine => exact Editor.frames_resetSource hloaded _
  | opened src => exact Editor.frames_openSource ed src

/-- An example that was not loaded before is loaded from its entry. -/
lemma Editor.Step.arrives (hstep : ed.Step shipped ed') {file : JsString}
    (hbefore : ed.loadedSource ≠ some file) (hafter : ed'.loadedSource = some file) :
    ed'.doc = (ed.storage file).getD (shipped file) := by
  cases hstep with
  | stay => exact absurd hafter hbefore
  | edit doc userEvent =>
      exact absurd ((ed.changeDoc_eq doc _).2.1.symm.trans hafter) hbefore
  | load loaded =>
      have hloaded : (ed.loadSource loaded (shipped loaded)).loadedSource = some loaded :=
        (Editor.setEditorText_loadedSource _ _).1
      have heq : loaded = file := Option.some_inj.mp (hloaded.symm.trans hafter)
      subst heq
      exact Editor.loadSource_doc ed loaded _
  | @reset loaded pristine hloaded hpristine =>
      have hkeep : (ed.resetSource loaded pristine).loadedSource = ed.loadedSource :=
        (Editor.setEditorText_loadedSource _ _).1
      exact absurd (hkeep.symm.trans hafter) hbefore
  | opened src =>
      have hnone : (ed.openSource src).loadedSource = none :=
        (Editor.setEditorText_loadedSource _ _).1
      exact absurd (hnone.symm.trans hafter) (by simp)

end Filing

/-! ## Runs of the page -/

variable (site : Site)

lemma filed_initialEditor (storage : JsString → Option Doc) (parsed : Option ParsedHash) :
    (initialEditor site storage parsed).Filed site.shipped := by
  have hexample : ∀ file, (initialExample site storage file).Filed site.shipped := by
    intro file loaded hloaded
    cases hloaded
    exact ⟨rfl, rfl⟩
  rcases parsed with _ | ⟨_ | file, _ | src, tab⟩
  · exact hexample _
  · exact hexample _
  · intro file hfile
    exact absurd hfile (by simp [initialEditor])
  · exact hexample file
  · exact hexample file

lemma filed_boot (storage : JsString → Option Doc) (hash : JsString) (mode : ActionMode)
    (auto : Bool) : (App.boot site storage hash mode auto).editor.Filed site.shipped :=
  filed_initialEditor site storage _

lemma filed_after {s : App} (h : s.editor.Filed site.shipped) (events : List Event) :
    (s.after site events).editor.Filed site.shipped :=
  Machine.run_invariant (fun s e h => (acts_step site s e).editor.filed h) events h

/-- While another example or none is loaded, an entry stays what it is. -/
lemma storage_after {s : App} {file : JsString} {events : List Event}
    (haway : ∀ fs, fs ≠ [] → fs <+: events → (s.after site fs).editor.loadedSource ≠ some file) :
    (s.after site events).editor.storage file = s.editor.storage file := by
  have hstep : ∀ (t : App) (e : Event), (t.step site e).editor.loadedSource ≠ some file →
      t.editor.storage file = s.editor.storage file →
      (t.step site e).editor.storage file = s.editor.storage file :=
    fun t e hnot heq => ((acts_step site t e).editor.frames file hnot).trans heq
  have hkeep := Machine.run_keeps
    (P := fun t : App => t.editor.storage file = s.editor.storage file)
    (Q := fun t : App => t.editor.loadedSource ≠ some file) hstep events (s := s) haway rfl
  exact hkeep

/-- **Work in progress is kept.**  In every state the page gets to, the document is what the entry
of the loaded example holds, or what is shipped where there is none; an event changes the entry of
no example but the one loaded afterwards; and an example that is left and loaded again comes back
with the text it was left with. -/
theorem sources_kept (storage : JsString → Option Doc) (hash : JsString) (mode : ActionMode)
    (auto : Bool) (events : List Event) :
    let s := (App.boot site storage hash mode auto).after site events
    (∀ file, s.editor.loadedSource = some file →
        s.editor.pristineSource = some (site.shipped file)
        ∧ s.editor.doc = (s.editor.storage file).getD (site.shipped file))
      ∧ (∀ e file, (s.step site e).editor.storage file ≠ s.editor.storage file →
        (s.step site e).editor.loadedSource = some file)
      ∧ ∀ file, s.editor.loadedSource = some file → ∀ away e, away ≠ [] →
        (∀ fs, fs ≠ [] → fs <+: away → (s.after site fs).editor.loadedSource ≠ some file) →
        ((s.after site away).step site e).editor.loadedSource = some file →
        ((s.after site away).step site e).editor.doc = s.editor.doc := by
  intro s
  have h : s.editor.Filed site.shipped :=
    filed_after site (filed_boot site storage hash mode auto) events
  refine ⟨h, fun e file hchanged => ?_, fun file hfile away e hne haway hback => ?_⟩
  · by_contra hnot
    exact hchanged ((acts_step site s e).editor.frames file hnot)
  · have hleft := haway away hne List.prefix_rfl
    rw [(acts_step site _ e).editor.arrives hleft hback, storage_after site haway]
    exact (h file hfile).2.symm

end VerusExplorer
