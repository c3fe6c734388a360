import VerusExplorer.Lib.Utf16
import Mathlib.Logic.Function.Basic

/-!
# The source editor

The document, the example it comes from and the copy of it in `localStorage` (`public/app.js`).

* `Doc` is a text as the editor holds it: all line breaks are line feeds.
* `Editor.changeDoc` is the update listener, `Editor.setEditorText` a change by the program, and
  `Editor.loadSource`, `Editor.resetSource`, `Editor.openSource` the parts of the handlers that
  concern the document.
* `Editor.Filed` — the document is filed under the example that is loaded.  Each of these
  operations keeps it, and leaves the entries of all other examples alone.
-/

namespace VerusExplorer

open Utf16

/-! ## Documents -/

/-- A text in the editor. -/
structure Doc where
  text : JsString
  noCr : (13 : UInt16) ∉ text
  deriving DecidableEq

/-- Every kind of line break becomes a line feed: `\r\n`, `\r`, `\n`.  `afterCr` is whether the
unit before was a carriage return. -/
def normalizeBreaks (afterCr : Bool) : JsString → JsString
  | [] => []
  | u :: s =>
      if u = 13 then 10 :: normalizeBreaks true s
      else if u = 10 ∧ afterCr then normalizeBreaks false s
      else u :: normalizeBreaks false s

lemma cr_notMem_normalizeBreaks :
    ∀ (s : JsString) (afterCr : Bool), (13 : UInt16) ∉ normalizeBreaks afterCr s
  | [], _ => List.not_mem_nil
  | u :: s, afterCr => by
      have ih := cr_notMem_normalizeBreaks s
      rw [normalizeBreaks]
      split_ifs with hcr hlf
      · exact List.not_mem_cons_of_ne_of_not_mem (by decide) (ih true)
      · exact ih false
      · exact List.not_mem_cons_of_ne_of_not_mem (Ne.symm hcr) (ih false)

lemma normalizeBreaks_of_notMem :
    ∀ {s : JsString} {afterCr : Bool}, (13 : UInt16) ∉ s → (afterCr = true → s.head? ≠ some 10) →
      normalizeBreaks afterCr s = s
  | [], _, _, _ => rfl
  | u :: s, afterCr, hcr, hhead => by
      have hne : u ≠ 13 := fun h => hcr (h ▸ List.mem_cons_self)
      have hlf : ¬(u = 10 ∧ afterCr = true) := by
        rintro ⟨rfl, hafter⟩
        exact hhead hafter rfl
      rw [normalizeBreaks, if_neg hne, if_neg hlf,
        normalizeBreaks_of_notMem (fun h => hcr (List.mem_cons_of_mem u h)) (by simp)]

/-- The document a text becomes when it is inserted. -/
def Doc.ofText (s : JsString) : Doc := ⟨normalizeBreaks false s, cr_notMem_normalizeBreaks s false⟩

/-- The number of lines of a document. -/
def Doc.lines (d : Doc) : ℕ := d.text.count 10 + 1

/-! ## The editor -/

/-- The family of a user's transaction. -/
inductive UserEvent where
  | input
  | delete
  | move
  | undo
  | redo
  deriving DecidableEq, Repr

structure Editor where
  doc : Doc
  loadedSource : Option JsString
  pristineSource : Option Doc
  dirty : Bool
  /-- The entries `ve-source:` of `localStorage`. -/
  storage : JsString → Option Doc

namespace Editor

/-- `localStorage.setItem` and `removeItem`. -/
def store (ed : Editor) (file : JsString) (entry : Option Doc) : Editor :=
  { ed with storage := Function.update ed.storage file entry }

/-- Typing and deleting make the document dirty. -/
def touch (ed : Editor) (userEvent : Option UserEvent) : Editor :=
  if !ed.dirty && (userEvent == some .input || userEvent == some .delete) then
    { ed with dirty := true }
  else ed

/-- The update listener, after the document has been replaced. -/
def changeDoc (ed : Editor) (doc : Doc) (userEvent : Option UserEvent) : Editor :=
  let ed := touch { ed with doc := doc } userEvent
  match ed.loadedSource with
  | some file => ed.store file (some doc)
  | none => ed

/-- Replacing nothing by nothing is no change. -/
def replaces (ed : Editor) (src : Doc) : Bool := !(ed.doc.text.isEmpty && src.text.isEmpty)

def setEditorText (ed : Editor) (src : Doc) : Editor :=
  if ed.replaces src then ed.changeDoc src none else ed

/-- `loadSource` after the fetch, which returned `shipped`. -/
def loadSource (ed : Editor) (file : JsString) (shipped : Doc) : Editor :=
  let stored := ed.storage file
  let ed := { ed with pristineSource := some shipped, loadedSource := some file }
  let ed := ed.setEditorText (stored.getD shipped)
  { ed with dirty := stored.any (· != shipped) }

/-- `resetSource` of an example. -/
def resetSource (ed : Editor) (file : JsString) (pristine : Doc) : Editor :=
  let ed := ed.store file none
  let ed := ed.setEditorText pristine
  { ed with dirty := false }

/-- The document of a hash. -/
def openSource (ed : Editor) (src : Doc) : Editor :=
  let ed := { ed with loadedSource := none, pristineSource := none }
  ed.setEditorText src

/-- `resetBtn.hidden`. -/
def resetHidden (ed : Editor) : Bool := ed.loadedSource.isNone || !ed.dirty

/-! ## Filing -/

/-- The document is filed under the example that is loaded: what is shipped is known, and the
document is the entry of the example or, without one, what is shipped. -/
def Filed (shipped : JsString → Doc) (ed : Editor) : Prop :=
  ∀ file ∈ ed.loadedSource,
    ed.pristineSource = some (shipped file) ∧ ed.doc = (ed.storage file).getD (shipped file)

/-- Every entry that differs is the one of the example loaded afterwards. -/
def Frames (ed ed' : Editor) : Prop :=
  ∀ file, ed'.loadedSource ≠ some file → ed'.storage file = ed.storage file

section Ops

variable (ed : Editor)

@[simp]
lemma store_self (file : JsString) (entry : Option Doc) :
    (ed.store file entry).storage file = entry := Function.update_self ..

lemma store_of_ne {file other : JsString} (h : other ≠ file) (entry : Option Doc) :
    (ed.store file entry).storage other = ed.storage other := Function.update_of_ne h ..

lemma touch_eq (userEvent : Option UserEvent) :
    ed.touch userEvent = { ed with dirty := (ed.touch userEvent).dirty } := by
  rw [touch]
  split_ifs <;> rfl

/-- The fields the listener leaves alone. -/
lemma changeDoc_eq (doc : Doc) (userEvent : Option UserEvent) :
    (ed.changeDoc doc userEvent).doc = doc
      ∧ (ed.changeDoc doc userEvent).loadedSource = ed.loadedSource
      ∧ (ed.changeDoc doc userEvent).pristineSource = ed.pristineSource := by
  rw [changeDoc, touch_eq]
  cases ed.loadedSource with
  | none => exact ⟨rfl, rfl, rfl⟩
  | some file => exact ⟨rfl, rfl, rfl⟩

/-- The listener copies the document to the entry of the example that is loaded. -/
lemma changeDoc_storage (doc : Doc) (userEvent : Option UserEvent) (file : JsString) :
    (ed.changeDoc doc userEvent).storage file
      = if ed.loadedSource = some file then some doc else ed.storage file := by
  rw [changeDoc, touch_eq]
  cases ed.loadedSource with
  | none => rfl
  | some loaded =>
      by_cases heq : file = loaded
      · subst heq
        rw [if_pos rfl]
        exact store_self _ _ _
      · have hne : ¬some loaded = some file := fun h => heq (Option.some_inj.mp h).symm
        rw [if_neg hne]
        exact store_of_ne _ heq _

lemma setEditorText_loadedSource (src : Doc) :
    (ed.setEditorText src).loadedSource = ed.loadedSource
      ∧ (ed.setEditorText src).pristineSource = ed.pristineSource := by
  rw [setEditorText]
  split_ifs
  · exact (ed.changeDoc_eq src none).2
  · exact ⟨rfl, rfl⟩

/-- The document is the new one even if that is no change. -/
lemma setEditorText_doc (src : Doc) : (ed.setEditorText src).doc = src := by
  rw [setEditorText]
  split_ifs with h
  · exact (ed.changeDoc_eq src none).1
  · simp only [replaces, Bool.not_eq_true, Bool.not_eq_false', Bool.and_eq_true,
      List.isEmpty_iff] at h
    obtain ⟨text, hcr⟩ := src
    cases hd : ed.doc with
    | mk text' hcr' =>
        rw [hd] at h
        obtain ⟨rfl, rfl⟩ := h
        rfl

/-- The entry of the example that is loaded is the new text; or there was no change and it is what
it was. -/
lemma setEditorText_storage (src : Doc) (file : JsString) :
    (ed.setEditorText src).storage file = ed.storage file
      ∨ ed.loadedSource = some file ∧ (ed.setEditorText src).storage file = some src := by
  rw [setEditorText]
  split_ifs
  · rw [changeDoc_storage]
    split_ifs with hfile
    · exact Or.inr ⟨hfile, rfl⟩
    · exact Or.inl rfl
  · exact Or.inl rfl

/-- A document that is what its example's entry holds, or what is shipped, is filed. -/
lemma filed_setEditorText (shipped : JsString → Doc) (src : Doc)
    (h : ∀ file ∈ ed.loadedSource,
      ed.pristineSource = some (shipped file) ∧ src = (ed.storage file).getD (shipped file)) :
    (ed.setEditorText src).Filed shipped := by
  obtain ⟨hloaded, hpristine⟩ := ed.setEditorText_loadedSource src
  intro file hfile
  rw [hloaded] at hfile
  refine ⟨hpristine.trans (h file hfile).1, ?_⟩
  rw [setEditorText_doc]
  rcases ed.setEditorText_storage src file with hsame | ⟨-, hnew⟩
  · rw [hsame]
    exact (h file hfile).2
  · rw [hnew]
    rfl

lemma frames_setEditorText (src : Doc) : Frames ed (ed.setEditorText src) := by
  intro file hfile
  rw [(ed.setEditorText_loadedSource src).1] at hfile
  exact (ed.setEditorText_storage src file).resolve_right fun h => hfile h.1

end Ops

/-! ### The operations -/

variable {shipped : JsString → Doc} {ed : Editor}

/-- An edit is filed under the example that is loaded. -/
lemma filed_changeDoc (h : ed.Filed shipped) (doc : Doc) (userEvent : Option UserEvent) :
    (ed.changeDoc doc userEvent).Filed shipped := by
  obtain ⟨hdoc, hloaded, hpristine⟩ := ed.changeDoc_eq doc userEvent
  intro file hfile
  rw [hloaded] at hfile
  refine ⟨hpristine.trans (h file hfile).1, ?_⟩
  rw [hdoc, changeDoc_storage, if_pos (Option.mem_def.mp hfile)]
  rfl

lemma frames_changeDoc (ed : Editor) (doc : Doc) (userEvent : Option UserEvent) :
    Frames ed (ed.changeDoc doc userEvent) := by
  intro file hfile
  rw [(ed.changeDoc_eq doc userEvent).2.1] at hfile
  rw [changeDoc_storage, if_neg hfile]

/-- A load shows the entry of the example, whatever was in the editor. -/
lemma filed_loadSource (ed : Editor) (file : JsString) :
    (ed.loadSource file (shipped file)).Filed shipped := by
  have hfiled := filed_setEditorText
    { ed with pristineSource := some (shipped file), loadedSource := some file } shipped
    ((ed.storage file).getD (shipped file)) fun loaded hloaded => by
      cases hloaded
      exact ⟨rfl, rfl⟩
  exact hfiled

lemma loadSource_doc (ed : Editor) (file : JsString) (text : Doc) :
    (ed.loadSource file text).doc = (ed.storage file).getD text :=
  setEditorText_doc _ _

lemma frames_loadSource (ed : Editor) (file : JsString) (text : Doc) :
    Frames ed (ed.loadSource file text) :=
  frames_setEditorText { ed with pristineSource := some text, loadedSource := some file } _

/-- A reset shows what is shipped. -/
lemma filed_resetSource {file : JsString} (hloaded : ed.loadedSource = some file)
    (hpristine : ed.pristineSource = some (shipped file)) :
    (ed.resetSource file (shipped file)).Filed shipped := by
  have hfiled := filed_setEditorText (ed.store file none) shipped (shipped file)
    fun loaded hfile => by
      have heq : file = loaded := Option.some_inj.mp (hloaded.symm.trans hfile)
      subst heq
      exact ⟨hpristine, by rw [store_self]; rfl⟩
  exact hfiled

lemma frames_resetSource {file : JsString} (hloaded : ed.loadedSource = some file) (text : Doc) :
    Frames ed (ed.resetSource file text) := by
  intro other hother
  have hkeep : ((ed.store file none).setEditorText text).loadedSource = ed.loadedSource :=
    (setEditorText_loadedSource _ text).1
  have hne : other ≠ file := by
    rintro rfl
    exact hother (hkeep.trans hloaded)
  exact (frames_setEditorText (ed.store file none) text other hother).trans
    (ed.store_of_ne hne none)

/-- Without an example there is nothing to file. -/
lemma filed_openSource (ed : Editor) (src : Doc) : (ed.openSource src).Filed shipped := by
  intro file hfile
  have hnone : (ed.openSource src).loadedSource = none := (setEditorText_loadedSource _ src).1
  rw [hnone] at hfile
  exact absurd hfile (by simp)

lemma frames_openSource (ed : Editor) (src : Doc) : Frames ed (ed.openSource src) :=
  frames_setEditorText { ed with loadedSource := none, pristineSource := none } src

end Editor

end VerusExplorer
