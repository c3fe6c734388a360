import VerusExplorer.Page.Controls
import VerusExplorer.Page.Sources

/-!
# The dirty flag and the stored drafts

Whether the document of an example has been edited is kept in a flag, so that no texts need to be
compared, and the text in an entry of `localStorage` (`public/app.js`).  The update listener sets
the one for typing and deleting only, and writes the other whatever has replaced the text.

* `Editor.Clean` — a document that is not dirty is what is shipped; `clean_apply` says when a change
  keeps this.
* **`resettable_run`** — when the reset button is there all along a run.
* `Drafts` — the page with the examples that the user has edited since their last reset.
* **`drafts_edited`** — when all entries are edited examples all along a run.
-/

namespace VerusExplorer

open Utf16

/-! ## The dirty flag -/

/-- A document of an example that is not dirty is what is shipped. -/
def Editor.Clean (ed : Editor) : Prop :=
  ed.loadedSource ≠ none → ed.dirty = false → ed.pristineSource = some ed.doc

/-- The change is no transaction other than typing and deleting that takes the document of a clean
example away from what is shipped. -/
def Editor.Change.Marked (ed : Editor) : Editor.Change → Prop
  | .edit doc userEvent =>
      ed.loadedSource ≠ Option.none → ed.dirty = false → userEvent ≠ .input → userEvent ≠ .delete →
        ed.pristineSource = some doc
  | _ => True

section Clean

variable {shipped : JsString → Doc} {ed : Editor}

lemma dirty_changeDoc (doc : Doc) (userEvent : UserEvent) :
    (ed.changeDoc doc (some userEvent)).dirty
      = (ed.dirty || userEvent == .input || userEvent == .delete) := by
  have htouch : (Editor.touch { ed with doc := doc } (some userEvent)).dirty
      = (ed.dirty || userEvent == .input || userEvent == .delete) := by
    rw [Editor.touch]
    cases hdirty : ed.dirty with
    | true => rfl
    | false => cases userEvent <;> rfl
  rw [← htouch, Editor.changeDoc]
  cases (Editor.touch { ed with doc := doc } (some userEvent)).loadedSource with
  | none => rfl
  | some file => rfl

/-- A load compares the entry with what is shipped. -/
lemma clean_loadSource (file : JsString) : (ed.loadSource file (shipped file)).Clean := by
  intro _ hdirty
  have hpristine : (ed.loadSource file (shipped file)).pristineSource = some (shipped file) :=
    (Editor.setEditorText_loadedSource _ _).2
  rw [hpristine, Editor.loadSource_doc]
  have hstored : (ed.storage file).any (· != shipped file) = false := hdirty
  cases hentry : ed.storage file with
  | none => rfl
  | some entry =>
      rw [hentry, Option.any_some, bne_eq_false_iff_eq] at hstored
      rw [hstored]
      rfl

/-- A change keeps the flag right exactly if it is marked. -/
lemma clean_apply (h : ed.Clean) (c : Editor.Change) :
    (ed.apply shipped c).Clean ↔ c.Marked ed := by
  cases c with
  | none => exact iff_of_true h trivial
  | load file => exact iff_of_true (clean_loadSource file) trivial
  | reset =>
      refine iff_of_true ?_ trivial
      rw [Editor.apply]
      split
      · next file pristine hloaded hpristine =>
          intro _ _
          have hkeep : (ed.resetSource file pristine).pristineSource = ed.pristineSource :=
            (Editor.setEditorText_loadedSource _ _).2
          have hdoc : (ed.resetSource file pristine).doc = pristine := Editor.setEditorText_doc _ _
          rw [hkeep, hdoc, hpristine]
      · exact h
  | opened src =>
      refine iff_of_true (fun hloaded => ?_) trivial
      exact absurd (Editor.setEditorText_loadedSource _ _).1 hloaded
  | edit doc userEvent =>
      obtain ⟨hdoc, hloaded, hpristine⟩ := ed.changeDoc_eq doc (some userEvent)
      have hclean : (ed.apply shipped (.edit doc userEvent)).Clean
          ↔ (ed.loadedSource ≠ none →
            (ed.dirty || userEvent == .input || userEvent == .delete) = false →
            ed.pristineSource = some doc) := by
        rw [Editor.Clean, Editor.apply, hdoc, hloaded, hpristine, dirty_changeDoc]
      rw [hclean]
      simp only [Bool.or_eq_false_iff, beq_eq_false_iff_ne, and_imp]
      rfl

end Clean

/-- An example that is not what is shipped is dirty, and can be reset. -/
def Page.Resettable (p : Page) : Prop :=
  p.app.editor.loadedSource ≠ none → p.app.editor.pristineSource ≠ some p.app.editor.doc →
    p.app.editor.dirty = true ∧ p.sourceUI.resetHidden = false

lemma resettable_iff {p : Page} (h : p.sourceUI.resetHidden = p.app.editor.resetHidden) :
    p.Resettable ↔ p.app.editor.Clean := by
  constructor
  · intro hreset hloaded hdirty
    by_contra hne
    exact absurd ((hreset hloaded hne).1.symm.trans hdirty) (by simp)
  · intro hclean hloaded hne
    have hdirty : p.app.editor.dirty = true := by
      by_contra hnot
      exact hne (hclean hloaded (by simpa using hnot))
    refine ⟨hdirty, ?_⟩
    rw [h, Editor.resetHidden, hdirty]
    simpa [Option.isSome_iff_ne_none] using hloaded

section Reset

variable (site : Site)

lemma clean_boot (storage : JsString → Option Doc) (hash : JsString) (mode : ActionMode)
    (auto : Bool) : (App.boot site storage hash mode auto).editor.Clean := by
  have hexample : ∀ file, (initialExample site storage file).Clean := by
    intro file _ hdirty
    have hstored : (storage file).any (· != site.shipped file) = false := hdirty
    show some (site.shipped file) = some ((storage file).getD (site.shipped file))
    cases hentry : storage file with
    | none => rfl
    | some entry =>
        rw [hentry, Option.any_some, bne_eq_false_iff_eq] at hstored
        rw [hstored]
        rfl
  show (initialEditor site storage _).Clean
  rcases parseHash site.codec site.execMode (hash.drop 1) with _ | ⟨_ | file, _ | src, tab⟩
  · exact hexample _
  · exact hexample _
  · exact fun hloaded => absurd rfl hloaded
  · exact hexample file
  · exact hexample file

/-- **When an edited example can be reset.**  Whatever happens to the page: all along the run an
example whose document is not what is shipped is dirty, with its reset button visible, if and only
if no transaction of the user other than typing and deleting takes the document of a clean example
away from what is shipped. -/
theorem resettable_run (storage : JsString → Option Doc) (hash : JsString) (mode : ActionMode)
    (auto : Bool) (events : List Event) :
    let start := Page.boot site storage hash mode auto
    (∀ fs, fs <+: events → (start.after site fs).Resettable)
      ↔ ∀ fs e, fs ++ [e] <+: events →
        ((start.after site fs).app.change site e).Marked (start.after site fs).app.editor := by
  intro start
  have hclean : start.app.editor.Clean := clean_boot site storage hash mode auto
  have hagrees : start.sourceUI.resetHidden = start.app.editor.resetHidden := rfl
  refine Machine.run_iff (I := fun p : Page => p.sourceUI.resetHidden = p.app.editor.resetHidden)
    (P := Page.Resettable) (C := fun p e => (p.app.change site e).Marked p.app.editor)
    (fun p e _ h => Page.resetHidden_step site p e h) (fun p e _ h hreset => ?_) hagrees
    ((resettable_iff hagrees).mpr hclean)
  rw [resettable_iff h] at hreset
  rw [resettable_iff (Page.resetHidden_step site p e h)]
  have heditor : (p.step site e).app.editor = _ := change_step p.app site e
  rw [heditor]
  exact clean_apply hreset _

/-- A line is moved in an example that has just been loaded: there is no way to reset it. -/
theorem resettable_run_moved :
    let p := (Page.boot smallSite (fun _ => none) [] .verify true).after smallSite
      [.edit (Doc.ofText (js "\nfn f() {}")) .move]
    p.app.editor.loadedSource ≠ none ∧ p.app.editor.pristineSource ≠ some p.app.editor.doc
      ∧ p.app.editor.dirty = false ∧ p.sourceUI.resetHidden = true := by
  exact ⟨by decide, by decide, rfl, rfl⟩

end Reset

/-! ## The entries -/

/-- The examples that the user has edited since their last reset, after a change. -/
def Editor.mark (ed : Editor) (edited : JsString → Bool) : Change → JsString → Bool
  | .edit _ _ =>
      match ed.loadedSource with
      | some file => Function.update edited file true
      | none => edited
  | .reset =>
      match ed.loadedSource with
      | some file => Function.update edited file false
      | none => edited
  | _ => edited

/-- The page, and what the user has edited. -/
structure Drafts where
  app : App
  edited : JsString → Bool

namespace Drafts

def step (site : Site) (d : Drafts) (e : Event) : Drafts where
  app := d.app.step site e
  edited := d.app.editor.mark d.edited (d.app.change site e)

def after (site : Site) (d : Drafts) (events : List Event) : Drafts :=
  Machine.run (Drafts.step site) d events

/-- Keeping the books changes nothing about the page. -/
theorem app_after (site : Site) (d : Drafts) (events : List Event) :
    (d.after site events).app = d.app.after site events :=
  (List.foldl_hom Drafts.app fun _ _ => rfl).symm

/-- Every entry is the one of an example that has been edited. -/
def Edited (d : Drafts) : Prop := ∀ file, d.app.editor.storage file ≠ none → d.edited file = true

end Drafts

/-- The change writes no entry by itself: what a load replaces is the text of an example that has
been edited, and a reset replaces nothing. -/
def Editor.Change.Quiet (shipped : JsString → Doc) (edited : JsString → Bool) (ed : Editor) :
    Editor.Change → Prop
  | .load file =>
      ed.replaces ((ed.storage file).getD (shipped file)) = true → edited file = true
  | .reset => ∀ pristine ∈ ed.pristineSource, ed.replaces pristine = false
  | _ => True

section Entries

variable {shipped : JsString → Doc} {ed : Editor} {edited : JsString → Bool}

/-- The entries after a replacement of the text. -/
lemma storage_setEditorText (ed : Editor) (src : Doc) (file : JsString) :
    (ed.setEditorText src).storage file
      = if ed.replaces src = true ∧ ed.loadedSource = some file then some src
        else ed.storage file := by
  rw [Editor.setEditorText]
  by_cases hreplaces : ed.replaces src = true
  · rw [if_pos hreplaces, Editor.changeDoc_storage]
    simp only [hreplaces, true_and]
  · rw [if_neg hreplaces, if_neg fun h => hreplaces h.1]

lemma edited_load (h : ∀ file, ed.storage file ≠ none → edited file = true) (file : JsString) :
    (∀ other, (ed.loadSource file (shipped file)).storage other ≠ none → edited other = true)
      ↔ (Editor.Change.load file).Quiet shipped edited ed := by
  have hstorage : ∀ other, (ed.loadSource file (shipped file)).storage other
      = if ed.replaces ((ed.storage file).getD (shipped file)) = true ∧ some file = some other then
          some ((ed.storage file).getD (shipped file))
        else ed.storage other :=
    fun other => storage_setEditorText
      { ed with pristineSource := some (shipped file), loadedSource := some file } _ other
  constructor
  · intro hall hreplaces
    refine hall file ?_
    rw [hstorage, if_pos ⟨hreplaces, rfl⟩]
    exact Option.some_ne_none _
  · intro hquiet other hentry
    rw [hstorage] at hentry
    split_ifs at hentry with hnew
    · obtain ⟨hreplaces, hfile⟩ := hnew
      obtain rfl := Option.some_inj.mp hfile
      exact hquiet hreplaces
    · exact h other hentry

/-- A reset removes the entry, and the listener writes it again. -/
lemma edited_reset (h : ∀ file, ed.storage file ≠ none → edited file = true) {file : JsString}
    (hloaded : ed.loadedSource = some file) (pristine : Doc) :
    (∀ other, (ed.resetSource file pristine).storage other ≠ none →
        Function.update edited file false other = true)
      ↔ ed.replaces pristine = false := by
  have hstorage : ∀ other, (ed.resetSource file pristine).storage other
      = if ed.replaces pristine = true ∧ ed.loadedSource = some other then some pristine
        else (ed.store file none).storage other :=
    storage_setEditorText (ed.store file none) pristine
  constructor
  · intro hall
    by_contra hreplaces
    have hfile := hall file (by
      rw [hstorage, if_pos ⟨by simpa using hreplaces, hloaded⟩]
      exact Option.some_ne_none _)
    rw [Function.update_self] at hfile
    exact absurd hfile (by simp)
  · intro hreplaces other hentry
    rw [hstorage, if_neg (by simp [hreplaces])] at hentry
    by_cases heq : other = file
    · subst heq
      exact absurd (Editor.store_self ed other none) hentry
    · rw [Function.update_of_ne heq]
      rw [ed.store_of_ne heq] at hentry
      exact h other hentry

lemma edited_edit (h : ∀ file, ed.storage file ≠ none → edited file = true) (doc : Doc)
    (userEvent : UserEvent) (file : JsString)
    (hentry : (ed.changeDoc doc (some userEvent)).storage file ≠ none) :
    ed.mark edited (.edit doc userEvent) file = true := by
  rw [Editor.changeDoc_storage] at hentry
  rw [Editor.mark]
  cases hloaded : ed.loadedSource with
  | none =>
      rw [hloaded, if_neg (by simp)] at hentry
      exact h file hentry
  | some loaded =>
      by_cases heq : file = loaded
      · subst heq
        exact Function.update_self ..
      · rw [hloaded, if_neg fun hsame => heq (Option.some_inj.mp hsame).symm] at hentry
        exact (Function.update_of_ne heq ..).trans (h file hentry)

/-- A change leaves only entries of edited examples exactly if it writes none by itself. -/
lemma edited_apply (hfiled : ed.Filed shipped)
    (h : ∀ file, ed.storage file ≠ none → edited file = true) (c : Editor.Change)
    (hreset : c = .reset → ed.loadedSource ≠ none) :
    (∀ file, (ed.apply shipped c).storage file ≠ none → ed.mark edited c file = true)
      ↔ c.Quiet shipped edited ed := by
  cases c with
  | none => exact iff_of_true h trivial
  | edit doc userEvent => exact iff_of_true (edited_edit h doc userEvent) trivial
  | load file => exact edited_load h file
  | reset =>
      obtain ⟨file, hloaded⟩ := Option.ne_none_iff_exists'.mp (hreset rfl)
      have hpristine := (hfiled file hloaded).1
      have hquiet : (Editor.Change.reset).Quiet shipped edited ed
          ↔ ed.replaces (shipped file) = false := by
        rw [Editor.Change.Quiet, hpristine]
        simp
      rw [hquiet, Editor.apply, Editor.mark, hloaded, hpristine]
      exact edited_reset h hloaded (shipped file)
  | opened src =>
      refine iff_of_true (fun file hentry => h file ?_) trivial
      have hstorage := storage_setEditorText
        { ed with loadedSource := none, pristineSource := none } src file
      rw [if_neg fun hnew => absurd hnew.2 (by simp)] at hstorage
      have hsame : (ed.apply shipped (.opened src)).storage file = ed.storage file := hstorage
      rwa [hsame] at hentry

variable (site : Site)

lemma loaded_of_reset {s : App} {e : Event} (h : s.change site e = .reset) :
    s.editor.loadedSource ≠ none := by
  have hparsed : ∀ parsed, parsedChange parsed ≠ .reset := by
    rintro (_ | ⟨_ | file, _ | src, tab⟩) heq
    all_goals exact absurd heq (by simp [parsedChange])
  cases e with
  | clickReset =>
      rw [App.change] at h
      split_ifs at h with hhidden
      intro hnone
      exact hhidden (by rw [Editor.resetHidden, hnone]; rfl)
  | fetched i =>
      rw [App.change] at h
      split at h
      · exact absurd h (by simp)
      · exact absurd h (by simp)
  | hashchange =>
      rw [App.change] at h
      split_ifs at h
      exact absurd h (hparsed _)
  | decoded i =>
      rw [App.change] at h
      split at h
      · exact absurd h (hparsed _)
      · exact absurd h (by simp)
  | _ => exact absurd h (by simp [App.change])

/-- **When entries stem from edits.**  Whatever happens to a page that starts without entries: all
along the run every entry is that of an example the user has edited since its last reset, if and
only if each load that replaces the text of the editor is of such an example, and no reset replaces
it. -/
theorem drafts_edited (hash : JsString) (mode : ActionMode) (auto : Bool) (events : List Event) :
    let start : Drafts := ⟨App.boot site (fun _ => none) hash mode auto, fun _ => false⟩
    (∀ fs, fs <+: events → (start.after site fs).Edited)
      ↔ ∀ fs e, fs ++ [e] <+: events →
        let d := start.after site fs
        (d.app.change site e).Quiet site.shipped d.edited d.app.editor := by
  intro start
  have hfiled : start.app.editor.Filed site.shipped :=
    filed_boot site (fun _ => none) hash mode auto
  have hempty : start.Edited := by
    intro file hentry
    have hnone : (initialEditor site (fun _ => none)
        (parseHash site.codec site.execMode (hash.drop 1))).storage file = none := by
      rcases parseHash site.codec site.execMode (hash.drop 1) with _ | ⟨_ | file, _ | src, tab⟩
      all_goals rfl
    exact absurd hnone hentry
  refine Machine.run_iff (I := fun d : Drafts => d.app.editor.Filed site.shipped)
    (P := Drafts.Edited)
    (C := fun d e => (d.app.change site e).Quiet site.shipped d.edited d.app.editor)
    (fun d e _ h => (acts_step site d.app e).editor.filed h) (fun d e _ h hedited => ?_) hfiled
    hempty
  have heditor : (d.step site e).app.editor = _ := change_step d.app site e
  rw [Drafts.Edited, heditor]
  exact edited_apply h hedited _ (loaded_of_reset site)

/-- An example is loaded, and nothing else: it gets an entry. -/
theorem drafts_edited_loaded :
    let start : Drafts := ⟨App.boot smallSite (fun _ => none) [] .verify true, fun _ => false⟩
    let d := start.after smallSite [.selectSource (js "loop.rs"), .fetched 0]
    d.app.editor.storage (js "loop.rs") ≠ none ∧ d.edited (js "loop.rs") = false := by
  exact ⟨by decide, rfl⟩

/-- A reset leaves an entry behind as well. -/
example :
    let start : Drafts := ⟨App.boot smallSite (fun _ => none) [] .verify true, fun _ => false⟩
    let d := start.after smallSite [.edit (Doc.ofText (js "fn g() {}")) .input, .clickReset]
    d.app.editor.storage (js "arith.rs") ≠ none ∧ d.edited (js "arith.rs") = false := by
  exact ⟨by decide, rfl⟩

end Entries

end VerusExplorer
