import VerusExplorer.Lib.Latest
import VerusExplorer.Page.Controls

/-!
# Documents that are requested

The dropdown, its two neighbours and a hash request documents (`public/app.js`).  An example is
fetched and a payload decoded before its document gets into the editor, and neither `loadSource` nor
the `hashchange` listener asks afterwards whether another document has been requested since.

* `Target` — a document that is requested; `App.requested`, `App.settled`, `App.pending` — those
  that an event requests, those it puts into the editor, and those under way.
* `pending_step` — none gets lost and none is doubled.
* **`requests_lastSettled`** — which document is in the editor when nothing is under way any more.
-/

namespace VerusExplorer

open Utf16
open scoped List

/-! ## Requests -/

/-- A document that is requested: an example, or the source in a hash. -/
inductive Target where
  | file (file : JsString)
  | source (doc : Doc)
  deriving DecidableEq

def parsedTarget : Option ParsedHash → Target
  | some ⟨some file, _, _⟩ => .file file
  | some ⟨none, some src, _⟩ => .source (Doc.ofText src)
  | _ => .file (examples.headD [])

/-- The document of a hash, without its `#`. -/
def Site.target (site : Site) (hash : JsString) : Target :=
  parsedTarget (parseHash site.codec site.execMode hash)

/-- What `loadSource` asks for. -/
def fileTarget (file : JsString) : List Target :=
  if examples.contains file then [.file file] else []

namespace App

def requested (site : Site) (s : App) : Event → List Target
  | .selectSource file => fileTarget file
  | .navSource forward => (navTarget s.editor.loadedSource forward).toList.flatMap fileTarget
  | .hashchange => if s.hears then [site.target (s.url.hash.drop 1)] else []
  | _ => []

def pending (site : Site) (s : App) : List Target :=
  s.loads.map .file ++ s.parses.map site.target

end App

/-- The document that a change puts into the editor. -/
def Editor.Change.target : Editor.Change → List Target
  | .load file => [.file file]
  | .opened src => [.source src]
  | _ => []

def App.settled (site : Site) (s : App) (e : Event) : List Target := (s.change site e).target

/-- Documents are requested and arrive; none is edited, reset or fails to be fetched. -/
def Event.reads : Event → Bool
  | .edit .. | .clickReset | .fetchFailed _ => false
  | _ => true

/-! ### No request is lost -/

section Pending

variable (site : Site) (s : App)

lemma App.SameDocs.pending {s t : App} (h : s.SameDocs t) : t.pending site = s.pending site := by
  rw [App.pending, App.pending, h.loads, h.parses]

lemma pending_runAction : s.runAction.pending site = s.pending site :=
  App.SameDocs.pending site (sameDocs_runAction ⟨rfl, rfl, rfl⟩)

lemma pending_loadSource (file : JsString) :
    (s.loadSource file).pending site ~ s.pending site ++ fileTarget file := by
  rw [App.loadSource, fileTarget]
  split_ifs
  · show (s.loads ++ [file]).map Target.file ++ s.parses.map site.target ~ _
    rw [List.map_append, App.pending]
    simp only [List.append_assoc, List.map_cons, List.map_nil]
    exact List.perm_append_comm.append_left _
  · rw [List.append_nil]

/-- The file of a hash is one of the examples. -/
lemma parseHash_sourceFile {codec : Codec} {execMode : Bool} {hash file : JsString}
    {src tab : Option JsString} (h : parseHash codec execMode hash = some ⟨some file, src, tab⟩) :
    examples.contains file = true := by
  rw [parseHash] at h
  split_ifs at h
  obtain ⟨p, hp, heq⟩ := Option.map_eq_some_iff.mp h
  have hfile : p.sourceFile = some file := congrArg ParsedHash.sourceFile heq
  rw [parseHead] at hp
  dsimp only at hp
  split_ifs at hp with hsource hmem
  · obtain rfl := Option.some_inj.mp hp
    obtain rfl := Option.some_inj.mp hfile
    exact List.contains_iff_mem.mpr hmem
  · obtain ⟨src', -, rfl⟩ := Option.map_eq_some_iff.mp hp
    exact absurd hfile (by simp)
  · obtain ⟨src', -, rfl⟩ := Option.map_eq_some_iff.mp hp
    exact absurd hfile (by simp)

lemma sameDocs_takeTab (parsed : Option ParsedHash) : s.SameDocs (s.takeTab parsed) := by
  rw [App.takeTab]
  split
  · exact ⟨rfl, rfl, rfl⟩
  · exact ⟨rfl, rfl, rfl⟩

/-- The document of a hash is requested or put into the editor. -/
lemma pending_hashParsed {parsed : Option ParsedHash}
    (hparsed : ∀ file src tab, parsed = some ⟨some file, src, tab⟩ →
      examples.contains file = true) :
    (s.hashParsed parsed).pending site ++ (parsedChange parsed).target
      ~ s.pending site ++ [parsedTarget parsed] := by
  have htab := (sameDocs_takeTab s parsed).pending site
  have hload : ∀ file : JsString, examples.contains file = true →
      ((s.takeTab parsed).loadSource file).pending site ++ [] ~ s.pending site ++ [.file file] := by
    intro file hfile
    have hperm := pending_loadSource site (s.takeTab parsed) file
    rw [htab, fileTarget, if_pos hfile] at hperm
    rwa [List.append_nil]
  rcases parsed with _ | ⟨_ | file, _ | src, tab⟩
  · exact hload (examples.headD []) (by decide)
  · exact hload (examples.headD []) (by decide)
  · refine List.Perm.of_eq (congrArg (· ++ [Target.source (Doc.ofText src)]) ?_)
    exact (pending_runAction site _).trans htab
  · exact hload file (hparsed _ _ _ rfl)
  · exact hload file (hparsed _ _ _ rfl)

lemma pending_hash (hash : JsString) :
    (s.hashParsed (parseHash site.codec site.execMode hash)).pending site
        ++ (parsedChange (parseHash site.codec site.execMode hash)).target
      ~ s.pending site ++ [site.target hash] :=
  pending_hashParsed site s fun _ _ _ h => parseHash_sourceFile h

lemma pending_fetched (i : ℕ) :
    (s.fetched site i).pending site ++ s.settled site (.fetched i) ~ s.pending site := by
  rw [App.settled, App.change, App.fetched]
  cases hi : s.loads[i]? with
  | none => exact List.Perm.of_eq (List.append_nil _)
  | some file =>
      have hloads := (Latest.perm_eraseIdx hi).map Target.file
      refine (List.Perm.of_eq
        (congrArg (· ++ [Target.file file]) (pending_runAction site _))).trans ?_
      exact List.perm_append_comm.trans (hloads.append_right (s.parses.map site.target))

lemma pending_hashchange :
    (s.hashchange site).pending site ++ s.settled site .hashchange
      ~ s.pending site ++ s.requested site .hashchange := by
  rw [App.settled, App.change, App.requested, App.hashchange, App.hears]
  dsimp only
  by_cases hqueue : s.url.hashchanges = 0
  · rw [if_pos hqueue, if_neg (by simp [hqueue]), if_neg (by simp [hqueue])]
    exact List.Perm.refl _
  by_cases hown : s.url.hash = s.url.lastWrittenHash
  · rw [if_neg hqueue, if_pos hown, if_neg (by simp [hown]), if_neg (by simp [hown])]
    exact List.Perm.refl _
  have hhears : (s.url.hashchanges != 0 && s.url.hash != s.url.lastWrittenHash) = true := by
    simp [hqueue, hown]
  rw [if_neg hqueue, if_neg hown, hhears, if_pos rfl]
  cases App.awaitsDecode (s.url.hash.drop 1) with
  | true =>
      rw [if_pos rfl, if_neg (by simp)]
      refine List.Perm.of_eq ?_
      show s.loads.map Target.file ++ (s.parses ++ [s.url.hash.drop 1]).map site.target ++ [] = _
      rw [List.append_nil, List.map_append, ← List.append_assoc]
      rfl
  | false =>
      rw [if_neg (by simp), if_pos (show (true && !false) = true from rfl)]
      exact pending_hash site
        { s with url := { s.url with hashchanges := s.url.hashchanges - 1 } } _

lemma pending_decoded (i : ℕ) :
    (s.decoded site i).pending site ++ s.settled site (.decoded i) ~ s.pending site := by
  rw [App.settled, App.change, App.decoded]
  cases hi : s.parses[i]? with
  | none => exact List.Perm.of_eq (List.append_nil _)
  | some hash =>
      refine (pending_hash site { s with parses := s.parses.eraseIdx i } hash).trans ?_
      have hparses := (Latest.perm_eraseIdx hi).map site.target
      refine List.Perm.trans (List.Perm.of_eq (List.append_assoc _ _ _)) ?_
      exact (List.perm_append_comm.trans hparses).append_left _

/-- **No request is lost and none is doubled.** -/
theorem pending_step {e : Event} (h : e.reads = true) :
    (s.step site e).pending site ++ s.settled site e ~ s.pending site ++ s.requested site e := by
  cases hquiet : e.quiet with
  | true =>
      have hrequested : s.requested site e = [] := by
        cases e with
        | selectSource file => exact absurd hquiet (by simp [Event.quiet])
        | navSource forward => exact absurd hquiet (by simp [Event.quiet])
        | hashchange => exact absurd hquiet (by simp [Event.quiet])
        | _ => rfl
      rw [App.settled, change_quiet site s hquiet, hrequested,
        (sameDocs_quiet site s hquiet).pending site]
      exact List.Perm.refl _
  | false =>
      cases e with
      | selectSource file =>
          refine List.Perm.trans (List.Perm.of_eq (List.append_nil _)) ?_
          exact pending_loadSource site s file
      | navSource forward =>
          refine List.Perm.trans (List.Perm.of_eq (List.append_nil _)) ?_
          show (s.navSource forward).pending site ~ _
          rw [App.navSource, App.requested]
          cases App.navTarget s.editor.loadedSource forward with
          | none => exact List.Perm.of_eq (List.append_nil _).symm
          | some file =>
              refine (pending_loadSource site s file).trans (List.Perm.of_eq ?_)
              simp
      | fetched i =>
          exact (pending_fetched site s i).trans (List.Perm.of_eq (List.append_nil _).symm)
      | hashchange => exact pending_hashchange site s
      | decoded i =>
          exact (pending_decoded site s i).trans (List.Perm.of_eq (List.append_nil _).symm)
      | edit doc userEvent => exact absurd h (by simp [Event.reads])
      | clickReset => exact absurd h (by simp [Event.reads])
      | fetchFailed i => exact absurd h (by simp [Event.reads])
      | _ => exact absurd hquiet (by simp [Event.quiet])

end Pending

/-! ### The document in the editor -/

section Editor

variable (shipped : JsString → Doc) (ed : Editor)

/-- The document of an example: its entry, or what is shipped. -/
def Editor.document (file : JsString) : Doc := (ed.storage file).getD (shipped file)

/-- A load writes the document of its example where it is. -/
lemma document_loadSource (file : JsString) :
    (ed.loadSource file (shipped file)).document shipped = ed.document shipped := by
  funext other
  have hstorage := Editor.setEditorText_storage
    { ed with pristineSource := some (shipped file), loadedSource := some file }
    ((ed.storage file).getD (shipped file)) other
  rcases hstorage with hsame | ⟨hfile, hnew⟩
  · exact congrArg (Option.getD · (shipped other)) hsame
  · obtain rfl : file = other := Option.some_inj.mp hfile
    have hentry : (ed.loadSource file (shipped file)).storage file
        = some ((ed.storage file).getD (shipped file)) := hnew
    rw [Editor.document, hentry]
    rfl

lemma document_openSource (src : Doc) :
    (ed.openSource src).document shipped = ed.document shipped := by
  funext other
  have hstorage := Editor.setEditorText_storage
    { ed with loadedSource := none, pristineSource := none } src other
  rcases hstorage with hsame | ⟨hfile, -⟩
  · exact congrArg (Option.getD · (shipped other)) hsame
  · exact absurd hfile (by simp)

/-- The changes that documents make which arrive. -/
lemma change_reads (site : Site) (s : App) {e : Event} (h : e.reads = true) :
    s.change site e = .none ∨ (∃ file, s.change site e = .load file)
      ∨ ∃ src, s.change site e = .opened src := by
  have hparsed : ∀ parsed, parsedChange parsed = .none ∨ (∃ file, parsedChange parsed = .load file)
      ∨ ∃ src, parsedChange parsed = .opened src := by
    rintro (_ | ⟨_ | file, _ | src, tab⟩)
    · exact Or.inl rfl
    · exact Or.inl rfl
    · exact Or.inr (Or.inr ⟨_, rfl⟩)
    · exact Or.inl rfl
    · exact Or.inl rfl
  cases e with
  | edit doc userEvent => exact absurd h (by simp [Event.reads])
  | clickReset => exact absurd h (by simp [Event.reads])
  | fetched i =>
      rw [App.change]
      cases s.loads[i]? with
      | none => exact Or.inl rfl
      | some file => exact Or.inr (Or.inl ⟨file, rfl⟩)
  | hashchange =>
      rw [App.change]
      split_ifs
      · exact hparsed _
      · exact Or.inl rfl
  | decoded i =>
      rw [App.change]
      cases s.parses[i]? with
      | none => exact Or.inl rfl
      | some hash => exact hparsed _
  | _ => exact Or.inl rfl

end Editor

/-! ## The last document -/

/-- The text of a document. -/
def Target.doc (document : JsString → Doc) : Target → Doc
  | .file f => document f
  | .source d => d

/-- The example it is, if it is one. -/
def Target.name : Target → Option JsString
  | .file f => some f
  | .source _ => none

/-- The page shows a document that was requested, and names it. -/
structure Page.Shows (document : JsString → Doc) (p : Page) (target : Target) : Prop where
  doc : p.app.editor.doc = target.doc document
  loadedSource : p.app.editor.loadedSource = target.name
  value : p.sourceUI.value = target.name.getD []

/-- The document is in the editor, and the controls are those of the editor unless another is under
way. -/
structure Page.Arrived (site : Site) (document : JsString → Doc) (p : Page) (target : Target) :
    Prop where
  doc : p.app.editor.doc = target.doc document
  loadedSource : p.app.editor.loadedSource = target.name
  sourceUI : p.app.pending site = [] → p.sourceUI = updateSourceUI p.app.editor

section Last

variable {site : Site} {document : JsString → Doc} {p : Page}

lemma Page.Arrived.shows {target : Target} (h : p.Arrived site document target)
    (hidle : p.app.pending site = []) : p.Shows document target := by
  refine ⟨h.doc, h.loadedSource, ?_⟩
  rw [h.sourceUI hidle, ← h.loadedSource]
  rfl

/-- A page shows one document only. -/
lemma Page.Shows.unique {target other : Target} (h : p.Shows document target)
    (h' : p.Shows document other) : target = other := by
  have hname := h.loadedSource.symm.trans h'.loadedSource
  have hdoc := h.doc.symm.trans h'.doc
  cases target with
  | file file =>
      cases other with
      | file file' => exact congrArg Target.file (Option.some_inj.mp hname)
      | source doc => exact absurd hname (by simp [Target.name])
  | source doc =>
      cases other with
      | file file => exact absurd hname (by simp [Target.name])
      | source doc' => exact congrArg Target.source hdoc

/-- What an event puts into the editor is there, and the documents of the examples stay. -/
lemma arrived_settled {e : Event} (hreads : e.reads = true)
    (hdocument : p.app.editor.document site.shipped = document) :
    (p.step site e).app.editor.document site.shipped = document
      ∧ ∀ target, (p.app.settled site e).getLast? = some target →
        (p.step site e).Arrived site document target := by
  have heditor : (p.step site e).app.editor = _ := change_step p.app site e
  have hfresh : p.app.change site e ≠ .none →
      (p.step site e).sourceUI = updateSourceUI (p.step site e).app.editor :=
    Page.sourceUI_change site p e
  rw [App.settled]
  rcases change_reads site p.app hreads with hchange | ⟨file, hchange⟩ | ⟨src, hchange⟩
  · rw [hchange] at heditor
    rw [heditor, hchange]
    exact ⟨hdocument, fun target htarget => absurd htarget (by simp [Editor.Change.target])⟩
  · rw [hchange] at heditor
    have hui := hfresh (by simp [hchange])
    refine ⟨?_, fun target htarget => ?_⟩
    · rw [heditor, ← hdocument]
      exact document_loadSource site.shipped p.app.editor file
    · rw [hchange] at htarget
      obtain rfl : Target.file file = target := Option.some_inj.mp htarget
      refine ⟨?_, ?_, fun _ => hui⟩
      · rw [heditor, ← hdocument]
        exact Editor.loadSource_doc p.app.editor file (site.shipped file)
      · rw [heditor]
        exact (Editor.setEditorText_loadedSource _ _).1
  · rw [hchange] at heditor
    have hui := hfresh (by simp [hchange])
    refine ⟨?_, fun target htarget => ?_⟩
    · rw [heditor, ← hdocument]
      exact document_openSource site.shipped p.app.editor src
    · rw [hchange] at htarget
      obtain rfl : Target.source src = target := Option.some_inj.mp htarget
      refine ⟨?_, ?_, fun _ => hui⟩
      · rw [heditor]
        exact Editor.setEditorText_doc _ _
      · rw [heditor]
        exact (Editor.setEditorText_loadedSource _ _).1

/-- An event that puts no document into the editor leaves the last one there. -/
lemma arrived_kept {e : Event} (hreads : e.reads = true) (hnone : p.app.settled site e = [])
    {target : Target} (h : p.Arrived site document target) :
    (p.step site e).Arrived site document target := by
  have hchange : p.app.change site e = .none := by
    rcases change_reads site p.app hreads with hchange | ⟨file, hchange⟩ | ⟨src, hchange⟩
    · exact hchange
    · exact absurd hnone (by simp [App.settled, hchange, Editor.Change.target])
    · exact absurd hnone (by simp [App.settled, hchange, Editor.Change.target])
  have heditor : (p.step site e).app.editor = p.app.editor := by
    refine (change_step p.app site e).trans ?_
    rw [hchange]
    rfl
  refine ⟨heditor ▸ h.doc, heditor ▸ h.loadedSource, fun hidle => ?_⟩
  have hpending := pending_step site p.app hreads
  rw [hnone, List.append_nil, show (p.app.step site e).pending site = [] from hidle] at hpending
  obtain ⟨hbefore, hrequested⟩ := List.append_eq_nil_iff.mp hpending.symm.eq_nil
  rw [Page.sourceUI_none site p e hchange, heditor, ← h.sourceUI hbefore]
  cases e with
  | selectSource file =>
      rw [SourceUI.select]
      split_ifs with hfile
      · exact absurd hrequested (by rw [App.requested, fileTarget, if_pos hfile]; simp)
      · rfl
  | _ => rfl

end Last

/-! ## Whole runs -/

section Runs

variable (site : Site)

/-- The documents that the events of a run request. -/
def Page.requests (p : Page) (events : List Event) : List Target :=
  Machine.outputs (Page.step site) (fun p e => p.app.requested site e) p events

/-- The documents that the events of a run put into the editor. -/
def Page.settlements (p : Page) (events : List Event) : List Target :=
  Machine.outputs (Page.step site) (fun p e => p.app.settled site e) p events

/-- **Which document is in the editor.**  Documents are requested while none is under way, and
arrive in any order, until none is under way any more.  Then each has arrived, and the page shows
the one requested last, under its name, if and only if it is the one that arrived last. -/
theorem requests_lastSettled (p : Page) (hidle : p.app.pending site = []) (events : List Event)
    (hreads : ∀ e ∈ events, e.reads = true) :
    let t := p.after site events
    t.app.pending site = [] →
      p.settlements site events ~ p.requests site events
        ∧ ∀ target, (p.requests site events).getLast? = some target →
          (t.Shows (p.app.editor.document site.shipped) target
            ↔ (p.settlements site events).getLast? = some target) := by
  intro t hdone
  have hperm : p.settlements site events ~ p.requests site events := by
    have hall : t.app.pending site ++ p.settlements site events
        ~ p.app.pending site ++ p.requests site events :=
      Machine.outputs_perm (fun p => p.app.pending site) (fun p e => p.app.requested site e)
        (fun p e => p.app.settled site e) events p
        fun p e he => pending_step site p.app (hreads e he)
    rw [hdone, hidle] at hall
    exact hall
  have hlast : t.app.editor.document site.shipped = p.app.editor.document site.shipped
      ∧ ∀ target, (p.settlements site events).getLast? = some target →
        t.Arrived site (p.app.editor.document site.shipped) target :=
    Machine.getLast?_outputs
      (I := fun q : Page => q.app.editor.document site.shipped = p.app.editor.document site.shipped)
      (P := fun q : Page => q.Arrived site (p.app.editor.document site.shipped)) rfl
      (fun q e he hq => (arrived_settled (hreads e he) hq).1)
      (fun q e he hq => (arrived_settled (hreads e he) hq).2)
      fun q e he _ hnone target => arrived_kept (hreads e he) hnone
  have harrived : ∀ target, (p.settlements site events).getLast? = some target →
      t.Shows (p.app.editor.document site.shipped) target :=
    fun target htarget => (hlast.2 target htarget).shows hdone
  refine ⟨hperm, fun target htarget => ⟨fun hshows => ?_, harrived target⟩⟩
  cases hsettled : (p.settlements site events).getLast? with
  | none =>
      rw [List.getLast?_eq_none_iff] at hsettled
      rw [hsettled] at hperm
      rw [hperm.symm.eq_nil] at htarget
      exact absurd htarget (by simp)
  | some other => rw [(harrived other hsettled).unique hshows]

/-- One example, then another, fetched in that order. -/
theorem requests_lastSettled_inOrder :
    let p := Page.boot smallSite (fun _ => none) [] .verify true
    let t := p.after smallSite [.selectSource (js "loop.rs"), .selectSource (js "recursion.rs"),
      .fetched 0, .fetched 0]
    t.Shows (p.app.editor.document smallSite.shipped) (.file (js "recursion.rs")) := by
  exact ((requests_lastSettled smallSite (Page.boot smallSite (fun _ => none) [] .verify true) rfl
    [.selectSource (js "loop.rs"), .selectSource (js "recursion.rs"), .fetched 0, .fetched 0]
    (by simp [Event.reads]) rfl).2 (.file (js "recursion.rs")) rfl).mpr rfl

/-- The same, fetched in the other order: the example that was selected first is shown. -/
theorem requests_lastSettled_reordered :
    let p := Page.boot smallSite (fun _ => none) [] .verify true
    let events : List Event := [.selectSource (js "loop.rs"), .selectSource (js "recursion.rs"),
      .fetched 1, .fetched 0]
    let t := p.after smallSite events
    t.app.pending smallSite = []
      ∧ (p.requests smallSite events).getLast? = some (.file (js "recursion.rs"))
      ∧ t.app.editor.loadedSource = some (js "loop.rs") ∧ t.sourceUI.value = js "loop.rs" := by
  exact ⟨rfl, rfl, rfl, rfl⟩

end Runs

end VerusExplorer
