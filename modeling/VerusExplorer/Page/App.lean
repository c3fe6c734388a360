import VerusExplorer.Lib.Machine
import VerusExplorer.Page.Editor
import VerusExplorer.Page.Panel
import VerusExplorer.Page.Share

/-!
# The page

The state of the page and its event handlers (`public/app.js`).  A handler runs to its end or to an
`await` without interruption; what follows an `await` is an event of its own, which may come at any
later time and in any order with others of its kind.

* `App` — the editor, the runs, the tabs, the address, and what is under way: fetches of examples,
  decodings of hashes, encodings of saves and runs that have yielded.
* `Event`, `App.step` — everything that can happen; `App.boot` is how the page starts, `App.after`
  where some events take it.
-/

namespace VerusExplorer

open Utf16

/-- What the page is served with: its mode, the texts of the examples, and the browser's codec. -/
structure Site where
  execMode : Bool
  shipped : JsString → Doc
  codec : Codec

/-! ## Runs -/

/-- A run that has yielded for the browser to paint. -/
structure Suspended where
  myRun : ℕ
  mode : ActionMode
  deriving DecidableEq, Repr

/-- A call of the wasm module that has been made, with the caches it found, what it called back and
what it threw.  The page keeps no such record. -/
structure WasmCall where
  run : ℕ
  mode : ActionMode
  src : Doc
  before : RunCaches
  calls : List Callback
  threw : Option JsString

structure Runs where
  /-- The module has been loaded. -/
  verus : Bool
  runId : ℕ
  suspended : List Suspended
  /-- The action button. -/
  disabled : Bool
  busy : Bool
  caches : RunCaches
  panel : Panel
  executed : List WasmCall

namespace Runs

/-- `runWith` up to the yield. -/
def start (r : Runs) (mode : ActionMode) : Runs :=
  { r with
    runId := r.runId + 1
    disabled := true
    busy := true
    caches := {}
    suspended := r.suspended ++ [⟨r.runId + 1, mode⟩] }

/-- `runWith` from the wasm call to the panel. -/
def execute (r : Runs) (mode : ActionMode) (doc : Doc) (calls : List Callback)
    (threw : Option JsString) : Runs :=
  let caches := finishRun mode calls threw r.caches
  { r with
    disabled := false
    busy := false
    caches := caches
    panel := renderMeta doc.lines caches
    executed := r.executed ++ [⟨r.runId, mode, doc, r.caches, calls, threw⟩] }

end Runs

/-- `preferredTab` of the two modes. -/
def preferredTab : ActionMode → JsString
  | .verify => js "SMT_TRANSCRIPT"
  | .execute => js "MIR"

/-! ## Tabs -/

structure TabButton where
  group : TabGroup
  disabled : Bool
  deriving DecidableEq, Repr

structure SubtabButton where
  group : JsString
  variant : JsString
  disabled : Bool
  deriving DecidableEq, Repr

/-- The selected tab, and the buttons as they were last rendered. -/
structure Tabs where
  currentTab : Option JsString
  lastVariantInGroup : OrderedMap (Option JsString) JsString
  tabButtons : List TabButton
  subtabButtons : List SubtabButton
  deriving DecidableEq, Repr

def renderTabs (execMode : Bool) (cache : OrderedMap JsString JsString) : List TabButton :=
  (tabGroups execMode).map fun g => ⟨g, !g.variants.any cache.has⟩

def renderSubtabs (execMode : Bool) (cache : OrderedMap JsString JsString)
    (currentTab : Option JsString) : List SubtabButton :=
  match currentTab.bind (groupOf execMode) with
  | none => []
  | some currentGroup =>
      match (tabGroups execMode).find? fun g => g.id == currentGroup with
      | none => []
      | some g =>
          if g.variants.length > 1 then
            g.variants.map fun v => ⟨currentGroup, v, !cache.has v⟩
          else []

namespace Tabs

def rerender (t : Tabs) (execMode : Bool) (cache : OrderedMap JsString JsString) : Tabs :=
  { t with
    tabButtons := renderTabs execMode cache
    subtabButtons := renderSubtabs execMode cache t.currentTab }

/-- Select a tab of a group. -/
def select (t : Tabs) (g : Option JsString) (tab : JsString) : Tabs :=
  { t with
    currentTab := some tab
    lastVariantInGroup := t.lastVariantInGroup.set g tab }

/-- The tab a click on a group leads to. -/
def chosen (t : Tabs) (cache : OrderedMap JsString JsString) (g : TabGroup) : Option JsString :=
  match t.lastVariantInGroup.get? (some g.id) with
  | some v => if cache.has v then some v else g.variants.find? cache.has
  | none => g.variants.find? cache.has

/-- The choice of the tab at the end of a run. -/
def settle (t : Tabs) (execMode : Bool) (cache : OrderedMap JsString JsString)
    (preferred : JsString) : Tabs :=
  let pick := if cache.has preferred then some preferred
    else (sectionOrder execMode).find? cache.has
  let current :=
    match t.currentTab with
    | some tab => if cache.has tab then some tab else pick
    | none => pick
  let t := { t with currentTab := current }
  match current with
  | some tab => t.select (groupOf execMode tab) tab
  | none => t

end Tabs

/-! ## The address -/

/-- A `saveHashNow` whose encoding is under way; `copy` for one that `copyLink` waits for. -/
structure Save where
  myGen : ℕ
  src : Doc
  copy : Bool

structure Url where
  /-- `location.hash`. -/
  hash : JsString
  lastWrittenHash : JsString
  hashSaveGen : ℕ
  saves : List Save
  /-- The `hashchange` events that have not been delivered. -/
  hashchanges : ℕ
  clipboard : Option JsString

namespace Url

def writeHash (u : Url) (h : JsString) : Url := { u with lastWrittenHash := h, hash := h }

/-- `saveHashNow` up to the encoding. -/
def saveHashNow (u : Url) (src : Doc) (copy : Bool) : Url :=
  { u with
    hashSaveGen := u.hashSaveGen + 1
    saves := u.saves ++ [⟨u.hashSaveGen + 1, src, copy⟩] }

/-- The end of `saveHashNow` and, where it is waited for, of `copyLink`. -/
def encoded (u : Url) (codec : Codec) (save : Save) (currentTab : Option JsString) : Url :=
  let u :=
    if save.myGen ≠ u.hashSaveGen then u
    else u.writeHash (buildHash codec save.src.text currentTab)
  if save.copy then { u with clipboard := some u.hash } else u

def writeTab (u : Url) (currentTab : Option JsString) : Url :=
  match writeTabToUrl u.hash currentTab with
  | some h => u.writeHash h
  | none => u

end Url

/-! ## The page -/

structure App where
  editor : Editor
  runs : Runs
  tabs : Tabs
  url : Url
  /-- The radio buttons. -/
  mode : ActionMode
  /-- `autoVerifyCheckbox`. -/
  auto : Bool
  /-- `autoVerifyTimer` is armed. -/
  timer : Bool
  /-- The script has got past `await wasmReady`. -/
  started : Bool
  /-- The examples being fetched. -/
  loads : List JsString
  /-- The hashes being decoded. -/
  parses : List JsString

namespace App

/-! ### Handlers -/

def runWith (s : App) (mode : ActionMode) : App :=
  if !s.runs.verus then s else { s with timer := false, runs := s.runs.start mode }

def runAction (s : App) : App := s.runWith s.mode

def saveHashNow (s : App) (copy : Bool) : App :=
  { s with url := s.url.saveHashNow s.editor.doc copy }

def writeTabToUrl (s : App) : App := { s with url := s.url.writeTab s.tabs.currentTab }

def rerender (site : Site) (s : App) : App :=
  { s with tabs := s.tabs.rerender site.execMode s.runs.caches.sectionCache }

/-- The end of `runWith`, from the resumption on.  `calls` and `threw` are what the wasm module
does. -/
def resume (site : Site) (s : App) (i : ℕ) (calls : List Callback) (threw : Option JsString) :
    App :=
  match s.runs.suspended[i]? with
  | none => s
  | some r =>
      let s := { s with runs := { s.runs with suspended := s.runs.suspended.eraseIdx i } }
      if r.myRun ≠ s.runs.runId then s
      else
        let s := { s with runs := s.runs.execute r.mode s.editor.doc calls threw }
        let s :=
          { s with
            tabs := s.tabs.settle site.execMode s.runs.caches.sectionCache (preferredTab r.mode) }
        ((s.rerender site).writeTabToUrl).saveHashNow false

/-- `scheduleAutoVerify` as the update listener calls it, if there is a change. -/
def timerAfter (s : App) (changed : Bool) : Bool := if changed then s.auto else s.timer

def edit (s : App) (doc : Doc) (userEvent : UserEvent) : App :=
  { s with
    editor := s.editor.changeDoc doc (some userEvent)
    timer := s.timerAfter true }

def toggleAuto (s : App) : App :=
  let s := { s with auto := !s.auto }
  if s.auto then s.runAction else s

def fireTimer (s : App) : App := if s.timer then runAction { s with timer := false } else s

def clickRun (s : App) : App := if s.runs.disabled then s else s.runAction

/-- The script after `await wasmReady`. -/
def start (s : App) : App :=
  if s.runs.verus && !s.started then
    runAction { s with started := true, runs := { s.runs with disabled := false } }
  else s

/-- `loadSource` up to the fetch. -/
def loadSource (s : App) (file : JsString) : App :=
  if examples.contains file then { s with loads := s.loads ++ [file] } else s

/-- `loadSource` after the fetch. -/
def fetched (site : Site) (s : App) (i : ℕ) : App :=
  match s.loads[i]? with
  | none => s
  | some file =>
      let shipped := site.shipped file
      let src := (s.editor.storage file).getD shipped
      let s := { s with loads := s.loads.eraseIdx i }
      let s :=
        { s with
          editor := s.editor.loadSource file shipped
          timer := s.timerAfter (s.editor.replaces src) }
      (s.saveHashNow false).runAction

def fetchFailed (s : App) (i : ℕ) : App := { s with loads := s.loads.eraseIdx i }

/-- The example that `navSource` loads. -/
def navTarget (loadedSource : Option JsString) (forward : Bool) : Option JsString :=
  match loadedSource.bind fun file => examples.idxOf? file with
  | none => if forward then examples.head? else examples.getLast?
  | some idx =>
      let next := if forward then min (examples.length - 1) (idx + 1) else idx - 1
      if next ≠ idx then examples[next]? else none

def navSource (s : App) (forward : Bool) : App :=
  match navTarget s.editor.loadedSource forward with
  | some file => s.loadSource file
  | none => s

/-- A click on the reset button, where it is visible. -/
def clickReset (s : App) : App :=
  if s.editor.resetHidden then s
  else
    match s.editor.loadedSource, s.editor.pristineSource with
    | some file, some pristine =>
        let s :=
          { s with
            editor := s.editor.resetSource file pristine
            timer := s.timerAfter (s.editor.replaces pristine) }
        (s.saveHashNow false).runAction
    | _, _ => s

def clickTab (site : Site) (s : App) (i : ℕ) : App :=
  match s.tabs.tabButtons[i]? with
  | none => s
  | some b =>
      if b.disabled then s
      else
        match s.tabs.chosen s.runs.caches.sectionCache b.group with
        | none => s
        | some tab =>
            let s := { s with tabs := s.tabs.select (some b.group.id) tab }
            (s.rerender site).writeTabToUrl

def clickSubtab (site : Site) (s : App) (i : ℕ) : App :=
  match s.tabs.subtabButtons[i]? with
  | none => s
  | some b =>
      if b.disabled then s
      else
        let s := { s with tabs := s.tabs.select (some b.group) b.variant }
        (s.rerender site).writeTabToUrl

def encoded (site : Site) (s : App) (i : ℕ) : App :=
  match s.url.saves[i]? with
  | none => s
  | some save =>
      let u := { s.url with saves := s.url.saves.eraseIdx i }
      { s with url := u.encoded site.codec save s.tabs.currentTab }

/-- The user goes to another hash. -/
def navigate (s : App) (hash : JsString) : App :=
  if hash = s.url.hash then s
  else { s with url := { s.url with hash := hash, hashchanges := s.url.hashchanges + 1 } }

/-- The tab of a hash, if it has one, is selected. -/
def takeTab (s : App) (parsed : Option ParsedHash) : App :=
  match parsed.bind ParsedHash.tab with
  | some tab => { s with tabs := { s.tabs with currentTab := some tab } }
  | none => s

/-- The `hashchange` listener after `parseHash`. -/
def hashParsed (s : App) (parsed : Option ParsedHash) : App :=
  let s := s.takeTab parsed
  match parsed with
  | some ⟨some file, _, _⟩ => s.loadSource file
  | some ⟨none, some src, _⟩ =>
      let doc := Doc.ofText src
      let s :=
        { s with
          editor := s.editor.openSource doc
          timer := s.timerAfter (s.editor.replaces doc) }
      (s.saveHashNow false).runAction
  | _ => s.loadSource (examples.headD [])

/-- `parseHash` has to wait: there is a payload, and it is base64. -/
def awaitsDecode (hash : JsString) : Bool :=
  let head := (hash.splitOn amp).headD []
  !hash.isEmpty && !(js "source=").isPrefixOf head
    && (b64urlDecode (if (js "code=").isPrefixOf head then head.drop 5 else head)).isSome

/-- The `hashchange` listener. -/
def hashchange (site : Site) (s : App) : App :=
  if s.url.hashchanges = 0 then s
  else
    let s := { s with url := { s.url with hashchanges := s.url.hashchanges - 1 } }
    if s.url.hash = s.url.lastWrittenHash then s
    else
      let hash := s.url.hash.drop 1
      if awaitsDecode hash then { s with parses := s.parses ++ [hash] }
      else s.hashParsed (parseHash site.codec site.execMode hash)

def decoded (site : Site) (s : App) (i : ℕ) : App :=
  match s.parses[i]? with
  | none => s
  | some hash =>
      hashParsed { s with parses := s.parses.eraseIdx i }
        (parseHash site.codec site.execMode hash)

end App

/-! ### Events -/

/-- Something happens: to the page, or to what is under way (by its position). -/
inductive Event where
  | edit (doc : Doc) (userEvent : UserEvent)
  | toggleAuto
  | timer
  | clickRun
  | switchMode (mode : ActionMode)
  | wasmReady
  | start
  | resume (i : ℕ) (calls : List Callback) (threw : Option JsString)
  | selectSource (file : JsString)
  | navSource (forward : Bool)
  | fetched (i : ℕ)
  | fetchFailed (i : ℕ)
  | clickReset
  | clickTab (i : ℕ)
  | clickSubtab (i : ℕ)
  | copyLink
  | encoded (i : ℕ)
  | navigate (hash : JsString)
  | hashchange
  | decoded (i : ℕ)

def App.step (site : Site) (s : App) : Event → App
  | .edit doc userEvent => s.edit doc userEvent
  | .toggleAuto => s.toggleAuto
  | .timer => s.fireTimer
  | .clickRun => s.clickRun
  | .switchMode mode => { s with mode := mode }
  | .wasmReady => { s with runs := { s.runs with verus := true } }
  | .start => s.start
  | .resume i calls threw => s.resume site i calls threw
  | .selectSource file => s.loadSource file
  | .navSource forward => s.navSource forward
  | .fetched i => s.fetched site i
  | .fetchFailed i => s.fetchFailed i
  | .clickReset => s.clickReset
  | .clickTab i => s.clickTab site i
  | .clickSubtab i => s.clickSubtab site i
  | .copyLink => s.saveHashNow true
  | .encoded i => s.encoded site i
  | .navigate hash => s.navigate hash
  | .hashchange => s.hashchange site
  | .decoded i => s.decoded site i

/-! ### The start -/

/-- `initialDoc` of an example. -/
def initialExample (site : Site) (storage : JsString → Option Doc) (file : JsString) : Editor where
  doc := (storage file).getD (site.shipped file)
  loadedSource := some file
  pristineSource := some (site.shipped file)
  dirty := (storage file).any (· != site.shipped file)
  storage := storage

/-- `initialDoc`. -/
def initialEditor (site : Site) (storage : JsString → Option Doc) (parsed : Option ParsedHash) :
    Editor :=
  match parsed with
  | some ⟨some file, _, _⟩ => initialExample site storage file
  | some ⟨none, some src, _⟩ =>
      { doc := Doc.ofText src
        loadedSource := none
        pristineSource := none
        dirty := false
        storage := storage }
  | _ => initialExample site storage (examples.headD [])

/-- The page when its script waits for the wasm module. -/
def App.boot (site : Site) (storage : JsString → Option Doc) (hash : JsString) (mode : ActionMode)
    (auto : Bool) : App :=
  let parsed := parseHash site.codec site.execMode (hash.drop 1)
  let tabs : Tabs :=
    { currentTab := parsed.bind ParsedHash.tab
      lastVariantInGroup := []
      tabButtons := []
      subtabButtons := [] }
  { editor := initialEditor site storage parsed
    runs :=
      { verus := false
        runId := 0
        suspended := []
        disabled := true
        busy := false
        caches := {}
        panel := ⟨none, [], []⟩
        executed := [] }
    tabs := tabs.rerender site.execMode []
    url :=
      { hash := hash
        lastWrittenHash := hash
        hashSaveGen := 0
        saves := []
        hashchanges := 0
        clipboard := none }
    mode := mode
    auto := auto
    timer := false
    started := false
    loads := []
    parses := [] }

/-- The page after some events. -/
def App.after (site : Site) (s : App) (events : List Event) : App :=
  Machine.run (App.step site) s events

/-- A site whose examples are all the same short program. -/
def smallSite : Site where
  execMode := false
  shipped _ := Doc.ofText (js "fn f() {}")
  codec := storedCodec

/-- What a verification of a source with one function calls back. -/
def smallCalls : List Callback :=
  [.dump (js "AST") (emitSection "Fn f".toList),
    .dump (js "VIR_SIMPLE") (emitSection ";;> function\n(f)".toList),
    .dump (js "SMT_TRANSCRIPT") (emitSection ";;> query\n(check-sat)\n;;<".toList),
    .verdict (some ⟨js "crate::f", js "input.rs:1:1: 1:10 (#0)", js "body", js "unsat", true⟩)]

end VerusExplorer
