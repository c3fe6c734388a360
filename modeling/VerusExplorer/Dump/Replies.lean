import VerusExplorer.Dump.Smt

/-!
# The Result tab

The view of the solver's replies is emitted and scanned like every other body (`finalizeBannerBody`,
`public/app.js`): sections whose commands had no reply come out empty and are folded away.

* `Transcript` is a transcript as a tree of sections; `Transcript.shownLines` and
  `Transcript.shownSpans` state what the tab should show of it.
* **`finalizeBannerBody_replies`** — projecting, emitting and scanning a transcript that
  serialises a tree gives exactly that.
-/

namespace VerusExplorer

open Utf16 Lines Select Fold

/-! ## Transcripts as trees -/

/-- A transcript as a tree, first child and next sibling: commands, the solver's replies, and
sections around them. -/
inductive Transcript where
  | nil
  | command (line : Str) (rest : Transcript)
  | response (label : Str) (body : List Str) (rest : Transcript)
  | sect (auto : Bool) (label : Str) (kids rest : Transcript)

namespace Transcript

def responseLabel (label : Str) : Str := "response ".toList ++ label

/-- The lines the transcript is written as. -/
def serialise : Transcript → List Str
  | nil => []
  | command line rest => line :: rest.serialise
  | response label body rest =>
      markLine '>' (responseLabel label) :: body ++ closeLine :: rest.serialise
  | sect auto label kids rest =>
      markLine (if auto then '>' else 'v') label :: kids.serialise ++ closeLine :: rest.serialise

/-- What tells the parts of a transcript apart: a command is no marker to `project_smt`, a line of
a reply is none to the scanner, and only replies are labelled as such. -/
def Clear : Transcript → Prop
  | nil => True
  | command line rest => isMarker line = false ∧ rest.Clear
  | response _ body rest =>
      (∀ l ∈ body, isOpen (encode l) = false ∧ isClose (encode l) = false) ∧ rest.Clear
  | sect _ label kids rest =>
      "response ".toList.isPrefixOf label = false ∧ kids.Clear ∧ rest.Clear

/-! ## What the Result tab should show -/

/-- Some response block, at any depth, has a line. -/
def answered : Transcript → Bool
  | nil => false
  | command _ rest => rest.answered
  | response _ body rest => !body.isEmpty || rest.answered
  | sect _ _ kids rest => kids.answered || rest.answered

/-- The banners of the sections with an answer below them, and the nonempty answers. -/
def shownLines : Transcript → List JsString
  | nil => []
  | command _ rest => rest.shownLines
  | response label body rest =>
      (if body.isEmpty then [] else bannerLine (responseLabel label) :: body.map encode)
        ++ rest.shownLines
  | sect _ label kids rest =>
      (if kids.answered then bannerLine label :: kids.shownLines else []) ++ rest.shownLines

/-- The folds of these sections and answers, the first line being line `i`: each from its banner
to its last line, children before their parent. -/
def shownSpans : ℕ → Transcript → List Span
  | _, nil => []
  | i, command _ rest => rest.shownSpans i
  | i, response _ body rest =>
      if body.isEmpty then rest.shownSpans i
      else ⟨i, i + body.length, true⟩ :: rest.shownSpans (i + 1 + body.length)
  | i, sect auto _ kids rest =>
      if kids.answered then
        kids.shownSpans (i + 1) ++ ⟨i, i + kids.shownLines.length, auto⟩ ::
          rest.shownSpans (i + 1 + kids.shownLines.length)
      else rest.shownSpans i

/-- What the browser should show for a transcript. -/
def shownReplies (f : Transcript) : Finalized where
  body := join nl f.shownLines
  foldable := (f.shownSpans 0).map (rangeOf f.shownLines)
  autoFolded := ((f.shownSpans 0).filter (·.auto)).map (rangeOf f.shownLines)

/-! ## The response view -/

/-- The lines left when the commands are gone. -/
def responseView : Transcript → List Str
  | nil => []
  | command _ rest => rest.responseView
  | response label body rest =>
      markLine '>' (responseLabel label) :: body ++ closeLine :: rest.responseView
  | sect auto label kids rest =>
      markLine (if auto then '>' else 'v') label :: kids.responseView
        ++ closeLine :: rest.responseView

/-- The tree the scanner sees in these lines. -/
def replies : Transcript → Forest UInt16
  | nil => .nil
  | command _ rest => rest.replies
  | response label body rest =>
      .sect true (bannerLine (responseLabel label)) (.ofLines (body.map encode)) rest.replies
  | sect auto label kids rest => .sect auto (bannerLine label) kids.replies rest.replies

/-- The part of it below which there is an answer. -/
def shownForest : Transcript → Forest UInt16
  | nil => .nil
  | command _ rest => rest.shownForest
  | response label body rest =>
      if body.isEmpty then rest.shownForest
      else .sect true (bannerLine (responseLabel label)) (.ofLines (body.map encode))
        rest.shownForest
  | sect auto label kids rest =>
      if kids.answered then .sect auto (bannerLine label) kids.shownForest rest.shownForest
      else rest.shownForest

end Transcript

section Replies

open Transcript

lemma opensResponse_section (auto : Bool) {label : Str}
    (h : "response ".toList.isPrefixOf label = false) :
    opensResponse (markLine (if auto then '>' else 'v') label) = false := by
  cases auto with
  | true => exact h
  | false => rfl

lemma isMarker_section (auto : Bool) (label : Str) :
    isMarker (markLine (if auto then '>' else 'v') label) = true := by
  cases auto <;> rfl

/-- What opens a response block is a marker to `project_smt` and to the scanner. -/
lemma of_opensResponse {l : Str} (h : opensResponse l = true) :
    isMarker l = true ∧ isOpen (encode l) = true := by
  obtain ⟨label, rfl⟩ := List.isPrefixOf_iff_prefix.mp h
  exact ⟨rfl, rfl⟩

/-- The lines of a reply stay in its block and are all kept. -/
lemma scan_body {body : List Str}
    (h : ∀ l ∈ body, isOpen (encode l) = false ∧ isClose (encode l) = false) :
    scan nextMode (keeps true) true body = body ∧ body.foldl nextMode true = true := by
  induction body with
  | nil => exact ⟨rfl, rfl⟩
  | cons l body ih =>
      obtain ⟨ih1, ih2⟩ := ih fun l' hl' => h l' (List.mem_cons_of_mem l hl')
      have hclose : l ≠ closeLine := by
        rintro rfl
        exact absurd (h closeLine (by simp)).2 (by decide)
      have hnext : nextMode true l = true := by simp [nextMode, hclose]
      have hkeep : keeps true true l = true := by simp [keeps]
      constructor
      · rw [scan, if_pos hkeep, hnext, ih1]
      · rw [List.foldl_cons, hnext, ih2]

/-- The projection of a serialised tree keeps what is no command, and ends outside every response
block. -/
lemma scan_serialise :
    ∀ f : Transcript, f.Clear →
      scan nextMode (keeps true) false f.serialise = f.responseView
        ∧ f.serialise.foldl nextMode false = false
  | .nil, _ => ⟨rfl, rfl⟩
  | .command line rest, h => by
      obtain ⟨hline, hrest⟩ := h
      obtain ⟨ih1, ih2⟩ := scan_serialise rest hrest
      have hopen : opensResponse line = false := by
        by_contra ho
        rw [Bool.not_eq_false] at ho
        rw [(of_opensResponse ho).1] at hline
        exact absurd hline (by simp)
      have hkeep : keeps true false line = false := by simp [keeps, hopen, hline]
      have hnext : nextMode false line = false := by simp [nextMode, hopen]
      constructor
      · rw [serialise, scan, hkeep, hnext]
        exact ih1
      · rw [serialise, List.foldl_cons, hnext, ih2]
  | .response label body rest, h => by
      obtain ⟨hbody, hrest⟩ := h
      obtain ⟨ih1, ih2⟩ := scan_serialise rest hrest
      obtain ⟨hb1, hb2⟩ := scan_body hbody
      have hkeep : keeps true false (markLine '>' (responseLabel label)) = true := rfl
      have hnext : nextMode false (markLine '>' (responseLabel label)) = true := rfl
      have hkeep' : keeps true true closeLine = true := rfl
      have hnext' : nextMode true closeLine = false := rfl
      constructor
      · rw [serialise, List.cons_append, scan, if_pos hkeep, hnext, scan_append, hb1, hb2, scan,
          if_pos hkeep', hnext', ih1, responseView, List.cons_append]
      · rw [serialise, List.cons_append, List.foldl_cons, hnext, List.foldl_append, hb2,
          List.foldl_cons, hnext', ih2]
  | .sect auto label kids rest, h => by
      obtain ⟨hlabel, hkids, hrest⟩ := h
      obtain ⟨ihk1, ihk2⟩ := scan_serialise kids hkids
      obtain ⟨ih1, ih2⟩ := scan_serialise rest hrest
      have hopen := opensResponse_section auto hlabel
      have hkeep : keeps true false (markLine (if auto then '>' else 'v') label) = true := by
        simp [keeps, hopen, isMarker_section]
      have hnext : nextMode false (markLine (if auto then '>' else 'v') label) = false := by
        simp [nextMode, hopen]
      have hkeep' : keeps true false closeLine = true := rfl
      have hnext' : nextMode false closeLine = false := rfl
      constructor
      · rw [serialise, List.cons_append, scan, if_pos hkeep, hnext, scan_append, ihk1, ihk2, scan,
          if_pos hkeep', hnext', ih1, responseView, List.cons_append]
      · rw [serialise, List.cons_append, List.foldl_cons, hnext, List.foldl_append, ihk2,
          List.foldl_cons, hnext', ih2]

lemma tokens_responseView :
    ∀ f : Transcript, f.Clear →
      f.responseView.map (lineToken ∘ encode) = f.replies.tokens
  | .nil, _ => rfl
  | .command _ rest, h => tokens_responseView rest h.2
  | .response label body rest, h => by
      have htoken : lineToken (encode (markLine '>' (responseLabel label)))
          = .opn true (bannerLine (responseLabel label)) := rfl
      have hbody : body.map (lineToken ∘ encode) = (body.map encode).map .line := by
        rw [List.map_map]
        refine List.map_congr_left ?_
        intro l hl
        obtain ⟨hopen, hclose⟩ := h.1 l hl
        simp [lineToken, hopen, hclose]
      rw [replies, Forest.tokens, Forest.tokens_ofLines, ← tokens_responseView rest h.2, ← hbody]
      simp [responseView, lineToken_closeLine, htoken]
  | .sect auto label kids rest, h => by
      rw [replies, Forest.tokens, ← tokens_responseView kids h.2.1,
        ← tokens_responseView rest h.2.2]
      simp [responseView, lineToken_closeLine, lineToken_markLine]

/-- The response view ends with a closing marker. -/
lemma getLast?_responseView :
    ∀ f : Transcript, f.responseView ≠ [] → f.responseView.getLast? = some closeLine
  | .nil, h => absurd rfl h
  | .command _ rest, h => getLast?_responseView rest h
  | .response _ _ rest, _ => by
      rw [responseView, List.getLast?_append_of_ne_nil _ (by simp), List.getLast?_cons]
      cases hr : rest.responseView with
      | nil => rfl
      | cons l ls => simp [← hr, getLast?_responseView rest (by simp [hr])]
  | .sect _ _ _ rest, _ => by
      rw [responseView, List.getLast?_append_of_ne_nil _ (by simp), List.getLast?_cons]
      cases hr : rest.responseView with
      | nil => rfl
      | cons l ls => simp [← hr, getLast?_responseView rest (by simp [hr])]

/-! ## Pruning it -/

lemma shownForest_eq_nil : ∀ f : Transcript, f.shownForest = .nil ↔ f.answered = false
  | .nil => by simp [shownForest, answered]
  | .command _ rest => shownForest_eq_nil rest
  | .response _ body rest => by
      have ih := shownForest_eq_nil rest
      rw [shownForest, answered]
      split_ifs with hb <;> simp [hb, ih]
  | .sect _ _ kids rest => by
      have ih := shownForest_eq_nil rest
      rw [shownForest, answered]
      split_ifs with hk <;> simp [hk, ih]

lemma prune_replies : ∀ f : Transcript, f.replies.prune = f.shownForest
  | .nil => rfl
  | .command _ rest => prune_replies rest
  | .response label body rest => by
      have ih := prune_replies rest
      rw [replies, shownForest]
      split_ifs with hb
      · have hkids : (Forest.ofLines (body.map encode)).prune = .nil := by
          rw [List.isEmpty_iff.mp hb]
          rfl
        rw [Forest.prune_sect_of_nil _ _ hkids, ih]
      · have hkids : (Forest.ofLines (body.map encode)).prune ≠ .nil := by
          rw [Forest.prune_ofLines, Ne, Forest.ofLines_eq_nil]
          simpa using hb
        rw [Forest.prune_sect_of_ne_nil _ _ hkids, Forest.prune_ofLines, ih]
  | .sect auto label kids rest => by
      have ihk := prune_replies kids
      have ih := prune_replies rest
      rw [replies, shownForest]
      split_ifs with hk
      · have hkids : kids.replies.prune ≠ .nil := by
          rw [ihk, Ne, shownForest_eq_nil, hk]
          simp
        rw [Forest.prune_sect_of_ne_nil _ _ hkids, ihk, ih]
      · have hkids : kids.replies.prune = .nil := by
          rw [ihk, shownForest_eq_nil]
          simpa using hk
        rw [Forest.prune_sect_of_nil _ _ hkids, ih]

lemma lines_shownForest : ∀ f : Transcript, f.shownForest.lines = f.shownLines
  | .nil => rfl
  | .command _ rest => lines_shownForest rest
  | .response _ body rest => by
      have ih := lines_shownForest rest
      rw [shownForest, shownLines]
      split_ifs <;> simp [Forest.lines, ih]
  | .sect _ _ kids rest => by
      have ihk := lines_shownForest kids
      have ih := lines_shownForest rest
      rw [shownForest, shownLines]
      split_ifs <;> simp [Forest.lines, ihk, ih]

lemma spans_shownForest : ∀ (f : Transcript) (i : ℕ), f.shownForest.spans i = f.shownSpans i
  | .nil, _ => rfl
  | .command _ rest, i => spans_shownForest rest i
  | .response _ body rest, i => by
      rw [shownForest, shownSpans]
      split_ifs
      · exact spans_shownForest rest i
      · simp [Forest.spans, spans_shownForest rest]
  | .sect _ _ kids rest, i => by
      rw [shownForest, shownSpans]
      split_ifs
      · simp [Forest.spans, spans_shownForest kids, spans_shownForest rest, lines_shownForest]
      · exact spans_shownForest rest i

/-- What is shown starts with a banner, if with anything. -/
lemma dropBlank_shownForest : ∀ f : Transcript, f.shownForest.dropBlank = f.shownForest
  | .nil => rfl
  | .command _ rest => dropBlank_shownForest rest
  | .response _ _ rest => by
      rw [shownForest]
      split_ifs
      · exact dropBlank_shownForest rest
      · rfl
  | .sect _ _ _ rest => by
      rw [shownForest]
      split_ifs
      · rfl
      · exact dropBlank_shownForest rest

lemma renderForest_replies (f : Transcript) :
    renderForest f.replies.prune.dropBlank = f.shownReplies := by
  rw [prune_replies, dropBlank_shownForest, renderForest, shownReplies, lines_shownForest,
    spans_shownForest]

/-! ## The Result tab -/

/-- **The Result tab shows exactly the solver's replies in their context.**  For a transcript that
serialises a tree, projecting, emitting and scanning leaves the nonempty replies, the banners of
the sections around them, and the folds of these. -/
theorem finalizeBannerBody_replies (f : Transcript) (h : f.Clear) (t : Str)
    (ht : lines t = f.serialise) :
    finalizeBannerBody (dumpedSection (emitSection (projectSmt t true))).1 = f.shownReplies := by
  have hview : project true (lines t) = f.responseView := by
    rw [ht]
    exact (scan_serialise f h).1
  have hnl : ∀ l ∈ f.responseView, '\n' ∉ l := by
    intro l hl
    rw [← hview, project_true_eq] at hl
    exact (mem_lines ((selectAt_sublist _ _).subset hl)).1
  rw [projectSmt_eq, hview]
  by_cases hne : f.responseView = []
  · -- no section and no reply: the emitted body is empty
    have htokens := tokens_responseView f h
    rw [← renderForest_replies, hne]
    rw [hne] at htokens
    have hnil : f.replies = .nil := by
      cases hf : f.replies with
      | nil => rfl
      | line l rest => simp [hf, Forest.tokens] at htokens
      | sect auto b kids rest => simp [hf, Forest.tokens] at htokens
    rw [hnil]
    rfl
  · have hsplit := splitOn_encode_join hnl hne
    have htrim := trimEnd_unlines (getLast?_responseView f hne) (by decide)
    rw [finalizeBannerBody_forest (f := f.replies), renderForest_replies]
    rw [dumpedSection_emitSection, htrim, hsplit, List.map_map, tokens_responseView f h]

/-- A module with an answered function and one whose query got no reply. -/
def answeredModule : Transcript :=
  .sect true "vstd".toList
    (.sect true "function g".toList
      (.command "(check-sat)".toList (.response "g".toList [] .nil)) .nil)
    (.sect false "function f".toList
      (.command "(check-sat)".toList (.response "f".toList ["unsat".toList] .nil)) .nil)

/-- The Result tab of `answeredModule`: the function with a reply, and the reply. -/
theorem finalizeBannerBody_replies_answered :
    finalizeBannerBody
        (dumpedSection
          (emitSection (projectSmt (unlines '\n' answeredModule.serialise) true))).1
      = { body := js ";; function f\n;; response f\nunsat"
          foldable := [⟨27, 33⟩, ⟨13, 33⟩]
          autoFolded := [⟨27, 33⟩] } := by
  rw [finalizeBannerBody_replies answeredModule (by simp [Clear, answeredModule]; decide) _
    (by decide)]
  decide

end Replies

end VerusExplorer
