import VerusExplorer.Lib.Runs
import VerusExplorer.Dump.Emit
import Mathlib.Data.List.Sort
import Mathlib.Data.List.Lex
import Mathlib.Data.Char

/-!
# The walk encoder and the scanner

`WalkBuilder` (`util.rs`) collects the items of one walk over a krate, sorts them by crate, and
writes them as one marked text: a section per item, and around every run of consecutive items of
one external (crate, kind) an outer section.  Every module appends its walk to one body; the body
is emitted once and scanned by the browser.

* `WalkItem`, `WalkBuilder`, `finishItem`, `WalkBuilder.finish` follow the source.
* `walkLines` says the same by lines: `finish` is its `unlines` (`finish_eq`), and the crate/kind
  rotation is an instance of `Runs.wrapRuns`.
* `shownRuns`, `runLines`, `layout` state what a reader of the tab should see: the runs with their
  nonempty items, the lines of a run, and which of these lines each fold covers.
* **`finalizeBannerBody_walks`** — encoder and scanner agree: for any walks the scanner returns
  exactly the lines and the folds of the shown runs.
-/

namespace VerusExplorer

open Utf16 Lines Fold

/-! ## The source -/

structure WalkItem where
  kind : Str
  name : Str
  krate : Option Str
  span : Str
  text : Str
  deriving DecidableEq, Repr

structure WalkBuilder where
  items : List WalkItem := []
  deriving DecidableEq, Repr

def WalkBuilder.addItem (b : WalkBuilder) (kind name : Str) (krate : Option Str)
    (span text : Str) : WalkBuilder :=
  { items := b.items ++ [{ kind, name, krate, span, text }] }

/-- The order `finish` sorts by: the key `(krate.is_none(), krate)`, so external items by crate
name and then the local ones. -/
def sortLe (a b : WalkItem) : Bool :=
  match a.krate, b.krate with
  | some k, some k' => decide (k ≤ k')
  | some _, none => true
  | none, some _ => false
  | none, none => true

/-- The rotation of the wrapper when the loop of `finish` reaches an item of another (crate,
kind): the open one is closed, and one is opened for an external item. -/
def rotateExternal (body : Str) (externalRun newRun : Option (Str × Str)) : Str :=
  if externalRun ≠ newRun then
    let body := if externalRun.isSome then body ++ ";;<\n".toList else body
    match newRun with
    | some (k, kind) => body ++ ";;> ".toList ++ kind ++ " ".toList ++ k ++ "\n".toList
    | none => body
  else body

/-- The part of the loop body that writes the item itself. -/
def pushItem (body : Str) (item : WalkItem) : Str :=
  let marker := if item.krate.isSome then '>' else 'v'
  let body := body ++ ";;".toList ++ [marker] ++ " ".toList ++ item.kind ++ " ".toList ++ item.name
  let body := if item.span.isEmpty then body else body ++ " ".toList ++ item.span
  let body := body ++ "\n".toList ++ item.text
  let body := if body.getLast? = some '\n' then body else body ++ "\n".toList
  body ++ ";;<\n".toList

/-- The body of the loop of `finish`, on the pair of `body` and `external_run`. -/
def finishItem (acc : Str × Option (Str × Str)) (item : WalkItem) : Str × Option (Str × Str) :=
  let newRun := item.krate.map fun k => (k, item.kind)
  (pushItem (rotateExternal acc.1 acc.2 newRun) item, newRun)

/-- The sort of `finish`: stable, so the items of one crate stay in walk order. -/
def WalkBuilder.sorted (b : WalkBuilder) : List WalkItem :=
  b.items.insertionSort fun a c => sortLe a c = true

def WalkBuilder.finish (b : WalkBuilder) : Str :=
  let r := b.sorted.foldl finishItem ([], none)
  if r.2.isSome then r.1 ++ ";;<\n".toList else r.1

/-! ## What a reader should see -/

/-- The lines of an item's text. -/
def WalkItem.textLines (it : WalkItem) : List Str := splitLines '\n' it.text

/-- The label of an item's section. -/
def WalkItem.label (it : WalkItem) : Str :=
  it.kind ++ ' ' :: it.name ++ if it.span.isEmpty then [] else ' ' :: it.span

/-- The (crate, kind) group of an external item. -/
def WalkItem.run (it : WalkItem) : Option (Str × Str) := it.krate.map fun k => (k, it.kind)

/-- The label of the section around a (crate, kind) group. -/
def wrapLabel (k : Str × Str) : Str := k.2 ++ ' ' :: k.1

def itemLines (it : WalkItem) : List JsString :=
  bannerLine it.label :: it.textLines.map encode

/-- The lines of a run: the banner of its wrapper if it has one, then its items. -/
def runLines (g : List WalkItem) : List JsString :=
  (Runs.runKey WalkItem.run g).toList.map (fun k => bannerLine (wrapLabel k)) ++ g.flatMap itemLines

/-- The fold of each item of a list whose first banner is line `i`: from that banner to the last
line of the item's text, closed on first render for external items only. -/
def itemSpans : ℕ → List WalkItem → List Span
  | _, [] => []
  | i, it :: its =>
      ⟨i, i + it.textLines.length, it.krate.isSome⟩ :: itemSpans (i + 1 + it.textLines.length) its

/-- The folds of a run whose first line is line `i`: those of its items and, around them, that of
its wrapper. -/
def runSpans (i : ℕ) (g : List WalkItem) : List Span :=
  match Runs.runKey WalkItem.run g with
  | none => itemSpans i g
  | some _ => itemSpans (i + 1) g ++ [⟨i, i + (g.flatMap itemLines).length, true⟩]

/-- The folds of several runs. -/
def layout : ℕ → List (List WalkItem) → List Span
  | _, [] => []
  | i, g :: gs => runSpans i g ++ layout (i + (runLines g).length) gs

/-- The items of a run that have a text. -/
def shown (g : List WalkItem) : List WalkItem := g.filter fun it => !it.text.isEmpty

/-- The runs of one walk after another, each without the items that have no text. -/
def shownRuns (walks : List WalkBuilder) : List (List WalkItem) :=
  ((walks.flatMap fun b => Runs.runs WalkItem.run b.sorted).map shown).filter fun g => !g.isEmpty

/-- What the walks promise: one line for each part of a banner, and no marker in a text. -/
structure WalkItem.Printable (it : WalkItem) : Prop where
  kind : '\n' ∉ it.kind
  name : '\n' ∉ it.name
  krate : ∀ k ∈ it.krate, '\n' ∉ k
  span : '\n' ∉ it.span
  text : ∀ l ∈ it.textLines, isOpen (encode l) = false ∧ isClose (encode l) = false

/-! ## The encoder by lines -/

/-- The lines an item is written as. -/
def markedLines (it : WalkItem) : List Str :=
  markLine (if it.krate.isSome then '>' else 'v') it.label :: it.textLines ++ [closeLine]

def wrapOpen (k : Str × Str) : List Str := [markLine '>' (wrapLabel k)]

/-- The lines of a walk. -/
def walkLines (b : WalkBuilder) : List Str :=
  Runs.wrapRuns WalkItem.run wrapOpen [closeLine] markedLines b.sorted

/-- Ending a text that follows a newline: a newline is added exactly when one is missing. -/
lemma close_text (front text : Str) :
    (if (front ++ '\n' :: text).getLast? = some '\n' then front ++ '\n' :: text
      else front ++ '\n' :: text ++ ['\n'])
      = front ++ '\n' :: unlines '\n' (splitLines '\n' text) := by
  rw [unlines_splitLines]
  by_cases ht : text = []
  · simp [ht]
  · have hlast : (front ++ '\n' :: text).getLast? = text.getLast? := by
      rw [List.getLast?_append_of_ne_nil _ (by simp), List.getLast?_cons,
        List.getLast?_eq_some_getLast ht]
      simp
    rw [hlast]
    simp only [ht, or_false]
    split_ifs <;> simp

lemma rotateExternal_unlines (L : List Str) (cur new : Option (Str × Str)) :
    rotateExternal (unlines '\n' L) cur new
      = unlines '\n' (L ++ Runs.rotate wrapOpen [closeLine] cur new) := by
  by_cases hc : cur = new
  · simp [rotateExternal, hc]
  · rw [rotateExternal, if_pos hc, Runs.rotate, if_neg hc]
    cases new <;> cases cur <;>
      simp [Runs.closing, Runs.opening, closeLine, wrapOpen, markLine, wrapLabel]

lemma pushItem_unlines (L : List Str) (it : WalkItem) :
    pushItem (unlines '\n' L) it = unlines '\n' (L ++ markedLines it) := by
  have hlabel : (if it.span.isEmpty then
        unlines '\n' L ++ ";;".toList ++ [if it.krate.isSome then '>' else 'v'] ++ " ".toList
          ++ it.kind ++ " ".toList ++ it.name
      else
        unlines '\n' L ++ ";;".toList ++ [if it.krate.isSome then '>' else 'v'] ++ " ".toList
          ++ it.kind ++ " ".toList ++ it.name ++ " ".toList ++ it.span)
      = unlines '\n' L ++ markLine (if it.krate.isSome then '>' else 'v') it.label := by
    split_ifs <;> simp_all [markLine, WalkItem.label]
  have htext := close_text
    (unlines '\n' L ++ markLine (if it.krate.isSome then '>' else 'v') it.label) it.text
  rw [pushItem]
  simp only [hlabel]
  have hnl : "\n".toList = ['\n'] := rfl
  have hclose : ";;<\n".toList = closeLine ++ ['\n'] := rfl
  rw [List.append_assoc _ "\n".toList it.text, hnl, List.singleton_append, htext, hclose]
  simp [markedLines, WalkItem.textLines]

/-- One item: the run is rotated, then the item's lines are written. -/
lemma finishItem_unlines (L : List Str) (cur : Option (Str × Str)) (it : WalkItem) :
    finishItem (unlines '\n' L, cur) it
      = (unlines '\n' (L ++ Runs.rotate wrapOpen [closeLine] cur it.run ++ markedLines it),
        it.run) := by
  rw [finishItem, rotateExternal_unlines, pushItem_unlines]
  rfl

/-- The loop of `finish` writes what `Runs.rotations` emits. -/
lemma foldl_finishItem (items : List WalkItem) :
    ∀ (L : List Str) (cur : Option (Str × Str)),
      items.foldl finishItem (unlines '\n' L, cur)
        = (unlines '\n'
            (L ++ (Runs.rotations WalkItem.run wrapOpen [closeLine] markedLines cur items).1),
          (Runs.rotations WalkItem.run wrapOpen [closeLine] markedLines cur items).2) := by
  induction items with
  | nil =>
      intro L cur
      simp [Runs.rotations]
  | cons it items ih =>
      intro L cur
      rw [List.foldl_cons, finishItem_unlines, ih, Runs.rotations]
      simp only [List.append_assoc]

/-- `finish` writes the lines of the walk. -/
theorem finish_eq (b : WalkBuilder) : b.finish = unlines '\n' (walkLines b) := by
  have h := foldl_finishItem b.sorted [] none
  rw [unlines_nil, List.nil_append] at h
  rw [WalkBuilder.finish, h, walkLines, Runs.wrapRuns, unlines_append]
  simp only [Runs.closing]
  split_ifs
  · simp [closeLine]
  · simp

/-- The runs of one walk after another. -/
def walkRuns (walks : List WalkBuilder) : List (List WalkItem) :=
  walks.flatMap fun b => Runs.runs WalkItem.run b.sorted

/-- The lines of a run with its wrapper's markers. -/
def runMarked (g : List WalkItem) : List Str :=
  Runs.wrapRun WalkItem.run wrapOpen [closeLine] markedLines g

/-- The body the modules of a file add up to. -/
lemma flatMap_finish (walks : List WalkBuilder) :
    walks.flatMap WalkBuilder.finish = unlines '\n' ((walkRuns walks).flatMap runMarked) := by
  have hlines : ∀ b : WalkBuilder,
      walkLines b = (Runs.runs WalkItem.run b.sorted).flatMap runMarked :=
    fun b => Runs.wrapRuns_eq _ _ _ _ _
  induction walks with
  | nil => rfl
  | cons b walks ih =>
      rw [List.flatMap_cons, ih, finish_eq, hlines, ← unlines_append, walkRuns, walkRuns,
        List.flatMap_cons, List.flatMap_append]

/-- Every run ends with a closing marker. -/
lemma getLast?_runMarked {g : List WalkItem} (h : g ≠ []) :
    (runMarked g).getLast? = some closeLine := by
  obtain ⟨front, it, rfl⟩ := (List.eq_nil_or_concat g).resolve_left h
  rw [runMarked, Runs.wrapRun, Runs.closing]
  split_ifs
  · simp
  · have hitem : (markedLines it).getLast? = some closeLine := by
      rw [markedLines, List.getLast?_concat]
    simp [List.getLast?_append, hitem]

lemma getLast?_flatMap_runMarked {gs : List (List WalkItem)} (hne : ∀ g ∈ gs, g ≠ [])
    (h : gs ≠ []) : (gs.flatMap runMarked).getLast? = some closeLine := by
  obtain ⟨front, g, rfl⟩ := (List.eq_nil_or_concat gs).resolve_left h
  have hlast := getLast?_runMarked (hne g (by simp))
  simp [List.getLast?_append, hlast]

/-! ## The body as a forest -/

def itemForest (it : WalkItem) : Forest UInt16 :=
  .sect it.krate.isSome (bannerLine it.label) (.ofLines (it.textLines.map encode)) .nil

def runForest (g : List WalkItem) : Forest UInt16 :=
  match Runs.runKey WalkItem.run g with
  | none => .concat (g.map itemForest)
  | some k => .sect true (bannerLine (wrapLabel k)) (.concat (g.map itemForest)) .nil

lemma tokens_itemForest {it : WalkItem} (h : it.Printable) :
    (markedLines it).map (lineToken ∘ encode) = (itemForest it).tokens := by
  have htext : it.textLines.map (lineToken ∘ encode) = (it.textLines.map encode).map .line := by
    rw [List.map_map]
    refine List.map_congr_left ?_
    intro l hl
    obtain ⟨hopen, hclose⟩ := h.text l hl
    simp [lineToken, hopen, hclose]
  rw [markedLines, itemForest, Forest.tokens, Forest.tokens_ofLines, ← htext]
  simp [lineToken_markLine, lineToken_closeLine, Forest.tokens]

lemma tokens_runForest {g : List WalkItem} (h : ∀ it ∈ g, it.Printable) :
    (runMarked g).map (lineToken ∘ encode) = (runForest g).tokens := by
  have hitems : (g.flatMap markedLines).map (lineToken ∘ encode)
      = (Forest.concat (g.map itemForest)).tokens := by
    rw [Forest.tokens_concat, List.map_flatMap, List.flatMap_map]
    exact List.flatMap_congr fun it hit => tokens_itemForest (h it hit)
  rw [runMarked, Runs.wrapRun, runForest]
  cases hk : Runs.runKey WalkItem.run g with
  | none => simpa [Runs.opening, Runs.closing] using hitems
  | some k =>
      have hopen := lineToken_markLine true (wrapLabel k)
      simp only [Runs.opening, Runs.closing, Option.elim, Option.isSome_some, if_true, wrapOpen,
        List.map_append, hitems, Forest.tokens]
      simpa [lineToken_closeLine] using hopen

/-! ## What is left of it -/

lemma itemForest_prune (it : WalkItem) :
    (itemForest it).prune = if it.text.isEmpty then .nil else itemForest it := by
  rw [itemForest]
  cases ht : it.text.isEmpty with
  | true =>
      have hlines : it.textLines = [] := splitLines_eq_nil.mpr (List.isEmpty_iff.mp ht)
      rw [hlines]
      rfl
  | false =>
      have hlines : it.textLines ≠ [] := fun h => by
        simp [splitLines_eq_nil.mp h] at ht
      rw [Forest.prune_sect_of_ne_nil _ _ (by simp [Forest.ofLines_eq_nil, hlines])]
      simp [Forest.prune]

/-- Pruning the items of a run drops those without a text. -/
lemma concat_itemForest_prune (g : List WalkItem) :
    (Forest.concat (g.map itemForest)).prune = Forest.concat ((shown g).map itemForest) := by
  induction g with
  | nil => rfl
  | cons it g ih =>
      rw [List.map_cons, Forest.concat_cons, Forest.prune_append, ih, itemForest_prune, shown]
      cases ht : it.text.isEmpty <;> simp [ht, shown, Forest.append]

lemma concat_itemForest_eq_nil {g : List WalkItem} :
    Forest.concat (g.map itemForest) = .nil ↔ g = [] := by
  cases g <;> simp [itemForest, Forest.append]

lemma runKey_shown {g : List WalkItem} (h : ∀ it ∈ g, it.run = Runs.runKey WalkItem.run g)
    (hne : shown g ≠ []) : Runs.runKey WalkItem.run (shown g) = Runs.runKey WalkItem.run g :=
  Runs.runKey_eq hne fun it hit => h it (List.mem_of_mem_filter hit)

lemma runForest_prune {g : List WalkItem} (h : ∀ it ∈ g, it.run = Runs.runKey WalkItem.run g) :
    (runForest g).prune = if (shown g).isEmpty then .nil else runForest (shown g) := by
  by_cases hne : shown g = []
  · have hitems : (Forest.concat (g.map itemForest)).prune = .nil := by
      rw [concat_itemForest_prune, hne]
      rfl
    rw [runForest]
    cases Runs.runKey WalkItem.run g <;> simp [Forest.prune, hitems, hne]
  · have hitems : (Forest.concat (g.map itemForest)).prune ≠ .nil := by
      rwa [concat_itemForest_prune, Ne, concat_itemForest_eq_nil]
    rw [runForest, runForest, runKey_shown h hne]
    cases Runs.runKey WalkItem.run g with
    | none => simp [concat_itemForest_prune, hne]
    | some k =>
        rw [Forest.prune_sect_of_ne_nil _ _ hitems, concat_itemForest_prune]
        simp [Forest.prune, hne]

/-- Pruning a body leaves the shown runs. -/
lemma concat_runForest_prune {gs : List (List WalkItem)}
    (h : ∀ g ∈ gs, ∀ it ∈ g, it.run = Runs.runKey WalkItem.run g) :
    (Forest.concat (gs.map runForest)).prune
      = Forest.concat (((gs.map shown).filter fun g => !g.isEmpty).map runForest) := by
  induction gs with
  | nil => rfl
  | cons g gs ih =>
      have ih' := ih fun g' hg' => h g' (List.mem_cons_of_mem g hg')
      rw [List.map_cons, Forest.concat_cons, Forest.prune_append, ih',
        runForest_prune (h g (by simp)), List.map_cons, List.filter_cons]
      cases hs : (shown g).isEmpty <;> simp [Forest.append]

/-! ## Reading it off -/

lemma lines_concat_itemForest (g : List WalkItem) :
    (Forest.concat (g.map itemForest)).lines = g.flatMap itemLines := by
  rw [Forest.lines_concat, List.flatMap_map]
  refine List.flatMap_congr ?_
  intro it _
  simp [itemForest, Forest.lines, itemLines]

lemma spans_concat_itemForest :
    ∀ (g : List WalkItem) (i : ℕ), (Forest.concat (g.map itemForest)).spans i = itemSpans i g
  | [], i => rfl
  | it :: g, i => by
      have hlen : i + (itemForest it).lines.length = i + 1 + it.textLines.length := by
        simp only [itemForest, Forest.lines, Forest.lines_ofLines, List.append_nil,
          List.length_cons, List.length_map]
        omega
      rw [List.map_cons, Forest.concat_cons, Forest.spans_append, hlen,
        spans_concat_itemForest g, itemSpans]
      simp [itemForest, Forest.spans]

lemma lines_runForest (g : List WalkItem) : (runForest g).lines = runLines g := by
  rw [runForest, runLines]
  cases Runs.runKey WalkItem.run g <;> simp [Forest.lines, lines_concat_itemForest]

lemma spans_runForest (g : List WalkItem) (i : ℕ) : (runForest g).spans i = runSpans i g := by
  rw [runForest, runSpans]
  cases Runs.runKey WalkItem.run g <;>
    simp [Forest.spans, lines_concat_itemForest, spans_concat_itemForest]

lemma lines_concat_runForest (gs : List (List WalkItem)) :
    (Forest.concat (gs.map runForest)).lines = gs.flatMap runLines := by
  rw [Forest.lines_concat, List.flatMap_map]
  exact List.flatMap_congr fun g _ => lines_runForest g

lemma spans_concat_runForest :
    ∀ (gs : List (List WalkItem)) (i : ℕ), (Forest.concat (gs.map runForest)).spans i = layout i gs
  | [], i => rfl
  | g :: gs, i => by
      rw [List.map_cons, Forest.concat_cons, Forest.spans_append, lines_runForest, spans_runForest,
        spans_concat_runForest gs, layout]

/-- A body of runs starts with a banner, if with anything. -/
lemma dropBlank_concat_runForest {gs : List (List WalkItem)} (hne : ∀ g ∈ gs, g ≠ []) :
    (Forest.concat (gs.map runForest)).dropBlank = Forest.concat (gs.map runForest) := by
  cases gs with
  | nil => rfl
  | cons g gs =>
      obtain ⟨it, its, rfl⟩ := List.exists_cons_of_ne_nil (hne g (by simp))
      rw [List.map_cons, Forest.concat_cons, runForest]
      cases Runs.runKey WalkItem.run (it :: its) <;> rfl

/-! ## Encoder and scanner agree -/

lemma WalkItem.Printable.label {it : WalkItem} (h : it.Printable) : '\n' ∉ it.label := by
  simp only [WalkItem.label]
  split_ifs <;> simp [h.kind, h.name, h.span]

lemma nl_notMem_markedLines {it : WalkItem} (h : it.Printable) :
    ∀ l ∈ markedLines it, '\n' ∉ l := by
  intro l hl
  simp only [markedLines, List.cons_append, List.mem_cons, List.mem_append, List.not_mem_nil,
    or_false] at hl
  rcases hl with rfl | hl | rfl
  · simp only [markLine]
    split_ifs <;> simp [h.label]
  · exact not_mem_of_mem_splitLines hl
  · simp [closeLine]

lemma nl_notMem_runMarked {g : List WalkItem} (h : ∀ it ∈ g, it.Printable) :
    ∀ l ∈ runMarked g, '\n' ∉ l := by
  intro l hl
  simp only [runMarked, Runs.wrapRun, List.mem_append, List.mem_flatMap] at hl
  rcases hl with (hl | ⟨it, hit, hl⟩) | hl
  · -- the wrapper's label is made of the kind and the crate of the first item
    cases g with
    | nil => simp [Runs.runKey, Runs.opening] at hl
    | cons it its =>
        have hit := h it (by simp)
        cases hk : it.krate with
        | none => simp [Runs.runKey, Runs.opening, WalkItem.run, hk] at hl
        | some k =>
            simp only [Runs.runKey, List.head?_cons, Option.bind_some, WalkItem.run, hk,
              Option.map_some, Runs.opening, Option.elim, wrapOpen, List.mem_singleton] at hl
            subst hl
            simp [markLine, wrapLabel, hit.kind, hit.krate k hk]
  · exact nl_notMem_markedLines (h it hit) l hl
  · simp only [Runs.closing] at hl
    split_ifs at hl
    · rw [List.mem_singleton] at hl
      subst hl
      simp [closeLine]
    · simp at hl

/-- What the browser should show for some walks. -/
def shownBody (walks : List WalkBuilder) : Finalized where
  body := join nl ((shownRuns walks).flatMap runLines)
  foldable := (layout 0 (shownRuns walks)).map (rangeOf ((shownRuns walks).flatMap runLines))
  autoFolded := ((layout 0 (shownRuns walks)).filter (·.auto)).map
    (rangeOf ((shownRuns walks).flatMap runLines))

lemma mem_walkRuns {walks : List WalkBuilder} {g : List WalkItem} (hg : g ∈ walkRuns walks) :
    g ≠ [] ∧ (∀ it ∈ g, it.run = Runs.runKey WalkItem.run g)
      ∧ ∀ it ∈ g, ∃ b ∈ walks, it ∈ b.items := by
  obtain ⟨b, hb, hg⟩ := List.mem_flatMap.mp hg
  refine ⟨Runs.ne_nil_of_mem_runs hg, Runs.key_eq_of_mem_runs hg, fun it hit => ⟨b, hb, ?_⟩⟩
  have hmem : it ∈ (Runs.runs WalkItem.run b.sorted).flatten := List.mem_flatten_of_mem hg hit
  rw [Runs.flatten_runs, WalkBuilder.sorted, List.mem_insertionSort] at hmem
  exact hmem

/-- The scanner's view of an emitted body: the tokens of a forest of runs. -/
lemma tokens_emitted {walks : List WalkBuilder} (h : ∀ b ∈ walks, ∀ it ∈ b.items, it.Printable)
    (hne : walkRuns walks ≠ []) :
    ((dumpedSection (emitSection (walks.flatMap WalkBuilder.finish))).1.splitOn nl).map lineToken
      = (Forest.concat ((walkRuns walks).map runForest)).tokens := by
  have hprint : ∀ g ∈ walkRuns walks, ∀ it ∈ g, it.Printable := fun g hg it hit => by
    obtain ⟨b, hb, hmem⟩ := (mem_walkRuns hg).2.2 it hit
    exact h b hb it hmem
  have hlast := getLast?_flatMap_runMarked (fun g hg => (mem_walkRuns hg).1) hne
  have hlines : (walkRuns walks).flatMap runMarked ≠ [] := fun h0 => by simp [h0] at hlast
  have hnl : ∀ l ∈ (walkRuns walks).flatMap runMarked, '\n' ∉ l := fun l hl => by
    obtain ⟨g, hg, hl⟩ := List.mem_flatMap.mp hl
    exact nl_notMem_runMarked (hprint g hg) l hl
  rw [dumpedSection_emitSection, flatMap_finish, trimEnd_unlines hlast (by decide),
    splitOn_encode_join hnl hlines, List.map_map, List.map_flatMap, Forest.tokens_concat,
    List.flatMap_map]
  exact List.flatMap_congr fun g hg => tokens_runForest (hprint g hg)

lemma renderForest_shownRuns (walks : List WalkBuilder) :
    renderForest (Forest.concat ((walkRuns walks).map runForest)).prune.dropBlank
      = shownBody walks := by
  have hshown : shownRuns walks = ((walkRuns walks).map shown).filter fun g => !g.isEmpty := rfl
  have hne : ∀ g ∈ shownRuns walks, g ≠ [] := fun g hg => by
    simpa using (List.mem_filter.mp hg).2
  rw [concat_runForest_prune fun g hg => (mem_walkRuns hg).2.1, ← hshown,
    dropBlank_concat_runForest hne, renderForest, shownBody, lines_concat_runForest,
    spans_concat_runForest]

lemma mem_shownRuns {walks : List WalkBuilder} {g : List WalkItem} (hg : g ∈ shownRuns walks) :
    g ≠ [] ∧ ∀ it ∈ g, it.run = Runs.runKey WalkItem.run g := by
  obtain ⟨hmem, hne⟩ := List.mem_filter.mp hg
  have hne : g ≠ [] := by simpa using hne
  obtain ⟨g', hg', rfl⟩ := List.mem_map.mp hmem
  have hkey := (mem_walkRuns hg').2.1
  refine ⟨hne, fun it hit => ?_⟩
  rw [runKey_shown hkey hne]
  exact hkey it (List.mem_of_mem_filter hit)

/-- The shown items are the items with a text, sorted walk by walk. -/
lemma flatten_shownRuns (walks : List WalkBuilder) :
    (shownRuns walks).flatten
      = (walks.flatMap WalkBuilder.sorted).filter fun it => !it.text.isEmpty := by
  have hruns : (walkRuns walks).flatten = walks.flatMap WalkBuilder.sorted := by
    rw [walkRuns]
    induction walks with
    | nil => rfl
    | cons b walks ih => rw [List.flatMap_cons, List.flatten_append, ih, Runs.flatten_runs,
        List.flatMap_cons]
  have hshown : shownRuns walks = ((walkRuns walks).map shown).filter fun g => !g.isEmpty := rfl
  rw [hshown, List.flatten_filter_not_isEmpty, ← hruns, List.filter_flatten]
  rfl

lemma flatMap_sorted_perm (walks : List WalkBuilder) :
    (walks.flatMap WalkBuilder.sorted).Perm (walks.flatMap WalkBuilder.items) := by
  induction walks with
  | nil => exact .refl _
  | cons b walks ih =>
      rw [List.flatMap_cons, List.flatMap_cons]
      exact (List.perm_insertionSort _ b.items).append ih

/-- **Encoder and scanner agree.**  Emitting any walks and scanning the result gives the lines and
the folds of the shown runs.  The items in these runs are those with a text, each as often as it
was added, and a run is made of items of one (crate, kind) or of local items only. -/
theorem finalizeBannerBody_walks (walks : List WalkBuilder)
    (h : ∀ b ∈ walks, ∀ it ∈ b.items, it.Printable) :
    finalizeBannerBody (dumpedSection (emitSection (walks.flatMap WalkBuilder.finish))).1
        = shownBody walks
      ∧ (shownRuns walks).flatten.Perm
          ((walks.flatMap WalkBuilder.items).filter fun it => !it.text.isEmpty)
      ∧ ∀ g ∈ shownRuns walks, g ≠ [] ∧ ∀ it ∈ g, it.run = Runs.runKey WalkItem.run g := by
  refine ⟨?_, ?_, fun g => mem_shownRuns⟩
  · by_cases hne : walkRuns walks = []
    · -- nothing was walked: the emitted body is empty
      rw [← renderForest_shownRuns, flatMap_finish, hne]
      rfl
    · rw [finalizeBannerBody_forest (tokens_emitted h hne), renderForest_shownRuns]
  · rw [flatten_shownRuns]
    exact (flatMap_sorted_perm walks).filter _

/-- A walk over a local function, one of a library, and a library datatype whose text was
pruned away. -/
def mixedWalk : WalkBuilder :=
  WalkBuilder.addItem
    (WalkBuilder.addItem
      (WalkBuilder.addItem {} "function".toList "f".toList none "a.rs:1".toList "x\n\ny\n".toList)
      "datatype".toList "D".toList (some "vstd".toList) [] [])
    "function".toList "g".toList (some "vstd".toList) [] "z".toList

lemma mixedWalk_printable : ∀ b ∈ [mixedWalk], ∀ it ∈ b.items, it.Printable := by
  have hf : ∀ it ∈ mixedWalk.items, '\n' ∉ it.kind ∧ '\n' ∉ it.name
      ∧ (∀ k ∈ it.krate, '\n' ∉ k) ∧ '\n' ∉ it.span
      ∧ ∀ l ∈ it.textLines, isOpen (encode l) = false ∧ isClose (encode l) = false := by
    decide
  intro b hb it hit
  rw [List.mem_singleton] at hb
  subst hb
  obtain ⟨h1, h2, h3, h4, h5⟩ := hf it hit
  exact ⟨h1, h2, h3, h4, h5⟩

/-- The body of `mixedWalk`: the library's function in its wrapper, the local one after it, and
no trace of the datatype. -/
theorem finalizeBannerBody_mixedWalk :
    finalizeBannerBody (dumpedSection (emitSection ([mixedWalk].flatMap WalkBuilder.finish))).1
        = { body := js ";; function vstd\n;; function g\nz\n;; function f a.rs:1\nx\n\ny"
            foldable := [⟨30, 32⟩, ⟨16, 32⟩, ⟨53, 58⟩]
            autoFolded := [⟨30, 32⟩, ⟨16, 32⟩] } := by
  rw [(finalizeBannerBody_walks [mixedWalk] mixedWalk_printable).1]
  decide

end VerusExplorer
