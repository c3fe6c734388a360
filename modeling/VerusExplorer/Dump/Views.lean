import VerusExplorer.Dump.Markers
import VerusExplorer.Dump.Replies

/-!
# Sections of the two views

The views of `project_smt` (`verus.rs`) are folded by the scanner of the page as the transcript is
(`public/app.js`).

* `RowKind` — the four kinds of lines of a transcript whose markers are read alike outside the
  response blocks, and whose responses have none in their bodies.
* `net_query`, `net_response` — what the views have more or less of than the transcript.
* `balanced_views` — when they are balanced with it.
* **`markersAgree_iff`** — exactly when the two programs recognise the same markers in a transcript.
-/

namespace VerusExplorer

open Utf16 Lines Select

/-! ## Rows with their mode -/

/-- Something holds of each row, with the mode it is read in. -/
def AtRows (P : Bool → Str → Str → Prop) (mode : Bool) (L : List (Str × Str)) : Prop :=
  ∀ i raw line, L[i]? = some (raw, line) →
    P (((L.take i).map Prod.snd).foldl nextMode mode) raw line

lemma atRows_nil (P : Bool → Str → Str → Prop) (mode : Bool) : AtRows P mode [] := by
  intro i raw line h
  exact absurd h (by simp)

lemma atRows_cons {P : Bool → Str → Str → Prop} {mode : Bool} {raw line : Str}
    {L : List (Str × Str)} :
    AtRows P mode ((raw, line) :: L) ↔ P mode raw line ∧ AtRows P (nextMode mode line) L := by
  constructor
  · intro h
    exact ⟨h 0 raw line rfl, fun i raw' line' hi => h (i + 1) raw' line' hi⟩
  · rintro ⟨hfirst, hrest⟩ i raw' line' hi
    cases i with
    | zero =>
        obtain ⟨rfl, rfl⟩ := Prod.mk.inj (Option.some_inj.mp hi)
        exact hfirst
    | succ i => exact hrest i raw' line' hi

/-- The bracket of a line to the scanner. -/
abbrev lineBracket (l : Str) : BracketKind := bracket (encode l)

/-- The brackets of the transcript. -/
def rawBrackets (L : List (Str × Str)) : List BracketKind := L.map fun row => lineBracket row.1

/-- The brackets of a view. -/
def viewBrackets (k mode : Bool) (L : List (Str × Str)) : List BracketKind :=
  (scan nextMode (keeps k) mode (L.map Prod.snd)).map lineBracket

/-- What a row can be where the markers outside the response blocks are read alike and the bodies of
the responses have none. -/
inductive RowKind : Bool → Str → Str → Prop
  | outside {raw line : Str} (hopen : opensResponse line = false)
      (hsame : lineBracket raw = lineBracket line)
      (hmarker : isMarker line = false → lineBracket raw = .other) : RowKind false raw line
  | opens {raw line : Str} (hopen : opensResponse line = true) (hraw : lineBracket raw = .opn)
      (hline : lineBracket line = .opn) : RowKind false raw line
  | closes {raw : Str} (hraw : lineBracket raw = .cls ∨ lineBracket raw = .other) :
      RowKind true raw closeLine
  | body {raw line : Str} (hne : line ≠ closeLine) (hraw : lineBracket raw = .other)
      (hline : lineBracket line = .other ∨ lineBracket line = .opn) : RowKind true raw line

section Views

variable {raw line : Str} {L : List (Str × Str)}

lemma viewBrackets_cons (k mode : Bool) (raw line : Str) (L : List (Str × Str)) :
    viewBrackets k mode ((raw, line) :: L)
      = (if keeps k mode line then [lineBracket line] else [])
        ++ viewBrackets k (nextMode mode line) L := by
  rw [viewBrackets, List.map_cons, scan]
  split_ifs
  · rfl
  · rfl

/-- The query view keeps a line outside the blocks; the response view leaves it out if it is no
bracket. -/
lemma views_outside (hopen : opensResponse line = false)
    (hmarker : isMarker line = false → lineBracket line = .other) :
    nextMode false line = false
      ∧ viewBrackets false false ((raw, line) :: L) = lineBracket line :: viewBrackets false false L
      ∧ (viewBrackets true false ((raw, line) :: L) = lineBracket line :: viewBrackets true false L
        ∨ lineBracket line = .other
          ∧ viewBrackets true false ((raw, line) :: L) = viewBrackets true false L) := by
  have hnext : nextMode false line = false := by simp [nextMode, hopen]
  have hkeep : keeps false false line = true := by simp [keeps, hopen]
  refine ⟨hnext, by rw [viewBrackets_cons, hkeep, hnext]; rfl, ?_⟩
  cases hmark : isMarker line with
  | true =>
      have hkept : keeps true false line = true := by simp [keeps, hmark]
      left
      rw [viewBrackets_cons, hkept, hnext]
      rfl
  | false =>
      have hleft : keeps true false line = false := by simp [keeps, hopen, hmark]
      right
      refine ⟨hmarker hmark, ?_⟩
      rw [viewBrackets_cons, hleft, hnext]
      rfl

/-- Only the response view keeps the line that opens a block. -/
lemma views_opens (hopen : opensResponse line = true) :
    nextMode false line = true
      ∧ viewBrackets false false ((raw, line) :: L) = viewBrackets false true L
      ∧ viewBrackets true false ((raw, line) :: L)
        = lineBracket line :: viewBrackets true true L := by
  have hnext : nextMode false line = true := by simp [nextMode, hopen]
  have hkeep : ∀ k, keeps k false line = k := by simp [keeps, hopen]
  refine ⟨hnext, ?_, ?_⟩
  · rw [viewBrackets_cons, hkeep, hnext]
    rfl
  · rw [viewBrackets_cons, hkeep, hnext]
    rfl

/-- Only the response view keeps the line that closes a block. -/
lemma views_closes :
    nextMode true closeLine = false
      ∧ viewBrackets false true ((raw, closeLine) :: L) = viewBrackets false false L
      ∧ viewBrackets true true ((raw, closeLine) :: L) = .cls :: viewBrackets true false L :=
  ⟨rfl, rfl, rfl⟩

/-- Only the response view keeps a line inside a block. -/
lemma views_body (hne : line ≠ closeLine) :
    nextMode true line = true
      ∧ viewBrackets false true ((raw, line) :: L) = viewBrackets false true L
      ∧ viewBrackets true true ((raw, line) :: L)
        = lineBracket line :: viewBrackets true true L := by
  have hnext : nextMode true line = true := by simp [nextMode, hne]
  have hkeep : ∀ k, keeps k true line = k := by simp [keeps]
  refine ⟨hnext, ?_, ?_⟩
  · rw [viewBrackets_cons, hkeep, hnext]
    rfl
  · rw [viewBrackets_cons, hkeep, hnext]
    rfl

/-- How many blocks are open in a mode. -/
def openBlocks (mode : Bool) : ℕ := if mode then 1 else 0

@[simp] lemma openBlocks_true : openBlocks true = 1 := rfl

@[simp] lemma openBlocks_false : openBlocks false = 0 := rfl

/-- The mode after the rows. -/
def finalMode (mode : Bool) (L : List (Str × Str)) : Bool := (L.map Prod.snd).foldl nextMode mode

/-- A close that the scanner does not miss. -/
def ClosesRead (mode : Bool) (raw line : Str) : Prop :=
  mode = true → line = closeLine → lineBracket raw = .cls

/-- A line of a response that is no marker either without its carriage return. -/
def BodyRead (mode : Bool) (_raw line : Str) : Prop :=
  mode = true → line ≠ closeLine → lineBracket line = .other

/-- The query view has at most as many brackets open as the transcript has outside its blocks; if it
has as many, the scanner misses no close of a block. -/
lemma net_query :
    ∀ (L : List (Str × Str)) (mode : Bool), AtRows RowKind mode L →
      BracketKind.net (viewBrackets false mode L) + openBlocks (finalMode mode L)
          ≤ BracketKind.net (rawBrackets L) + openBlocks mode
        ∧ (BracketKind.net (rawBrackets L) + openBlocks mode
            ≤ BracketKind.net (viewBrackets false mode L) + openBlocks (finalMode mode L) →
          AtRows ClosesRead mode L)
  | [], mode, _ => ⟨Int.le_refl (0 + openBlocks mode), fun _ => atRows_nil _ _⟩
  | (raw, line) :: L, mode, h => by
      obtain ⟨hrow, hrest⟩ := atRows_cons.mp h
      obtain ⟨hle, heq⟩ := net_query L (nextMode mode line) hrest
      have hfinal : finalMode mode ((raw, line) :: L) = finalMode (nextMode mode line) L := rfl
      have hcons : rawBrackets ((raw, line) :: L) = lineBracket raw :: rawBrackets L := rfl
      rw [hfinal, hcons, BracketKind.net_cons, atRows_cons]
      cases hrow with
      | outside hopen hsame hmarker =>
          rw [hsame] at hmarker
          obtain ⟨hnext, hquery, -⟩ := views_outside (L := L) hopen hmarker
          rw [hnext] at hle heq ⊢
          rw [hquery, BracketKind.net_cons, hsame]
          exact ⟨by omega, fun hge => ⟨fun hm => absurd hm (by simp), heq (by omega)⟩⟩
      | opens hopen hraw hline =>
          obtain ⟨hnext, hquery, -⟩ := views_opens (L := L) hopen
          rw [hnext] at hle heq ⊢
          rw [hquery, hraw]
          simp only [openBlocks_true, openBlocks_false, BracketKind.delta_opn] at hle heq ⊢
          exact ⟨by omega, fun hge => ⟨fun hm => absurd hm (by simp), heq (by omega)⟩⟩
      | closes hraw =>
          obtain ⟨hnext, hquery, -⟩ := views_closes (L := L)
          rw [hnext] at hle heq ⊢
          rw [hquery]
          simp only [openBlocks_true, openBlocks_false] at hle heq ⊢
          rcases hraw with hraw | hraw
          · rw [hraw, BracketKind.delta_cls]
            exact ⟨by omega, fun hge => ⟨fun _ _ => hraw, heq (by omega)⟩⟩
          · rw [hraw, BracketKind.delta_other]
            exact ⟨by omega, fun hge => absurd hge (by omega)⟩
      | body hne hraw hline =>
          obtain ⟨hnext, hquery, -⟩ := views_body (L := L) hne
          rw [hnext] at hle heq ⊢
          rw [hquery, hraw]
          simp only [openBlocks_true, BracketKind.delta_other] at hle heq ⊢
          exact ⟨by omega, fun hge => ⟨fun _ hclose => absurd hclose hne, heq (by omega)⟩⟩

/-- Where the scanner misses no close of a block, the response view has at least as many brackets
open as the transcript; if it has as many, no carriage return hides a marker in a response. -/
lemma net_response :
    ∀ (L : List (Str × Str)) (mode : Bool), AtRows RowKind mode L → AtRows ClosesRead mode L →
      BracketKind.net (rawBrackets L) ≤ BracketKind.net (viewBrackets true mode L)
        ∧ (BracketKind.net (viewBrackets true mode L) ≤ BracketKind.net (rawBrackets L) →
          AtRows BodyRead mode L)
  | [], mode, _, _ => ⟨Int.le_refl 0, fun _ => atRows_nil _ _⟩
  | (raw, line) :: L, mode, h, hcloses => by
      obtain ⟨hrow, hrest⟩ := atRows_cons.mp h
      obtain ⟨hclose, hcloses⟩ := atRows_cons.mp hcloses
      obtain ⟨hle, heq⟩ := net_response L (nextMode mode line) hrest hcloses
      have hcons : rawBrackets ((raw, line) :: L) = lineBracket raw :: rawBrackets L := rfl
      rw [hcons, BracketKind.net_cons, atRows_cons]
      cases hrow with
      | outside hopen hsame hmarker =>
          rw [hsame] at hmarker
          obtain ⟨hnext, -, hresponse⟩ := views_outside (L := L) hopen hmarker
          rw [hnext] at hle heq ⊢
          rw [hsame]
          rcases hresponse with hkept | ⟨hother, hleft⟩
          · rw [hkept, BracketKind.net_cons]
            exact ⟨by omega, fun hge => ⟨fun hm => absurd hm (by simp), heq (by omega)⟩⟩
          · rw [hleft, hother, BracketKind.delta_other]
            exact ⟨by omega, fun hge => ⟨fun hm => absurd hm (by simp), heq (by omega)⟩⟩
      | opens hopen hraw hline =>
          obtain ⟨hnext, -, hresponse⟩ := views_opens (L := L) hopen
          rw [hnext] at hle heq ⊢
          rw [hresponse, BracketKind.net_cons, hraw, hline]
          exact ⟨by omega, fun hge => ⟨fun hm => absurd hm (by simp), heq (by omega)⟩⟩
      | closes hraw =>
          obtain ⟨hnext, -, hresponse⟩ := views_closes (L := L)
          rw [hnext] at hle heq ⊢
          rw [hresponse, BracketKind.net_cons, hclose rfl rfl]
          exact ⟨by omega, fun hge => ⟨fun _ hne => absurd rfl hne, heq (by omega)⟩⟩
      | body hne hraw hline =>
          obtain ⟨hnext, -, hresponse⟩ := views_body (L := L) hne
          rw [hnext] at hle heq ⊢
          rw [hresponse, BracketKind.net_cons, hraw, BracketKind.delta_other]
          rcases hline with hline | hline
          · rw [hline, BracketKind.delta_other]
            exact ⟨by omega, fun hge => ⟨fun _ _ => hline, heq (by omega)⟩⟩
          · rw [hline, BracketKind.delta_opn]
            exact ⟨by omega, fun hge => absurd hge (by omega)⟩

/-- Where nothing is hidden by a carriage return, both views are balanced with the transcript. -/
lemma balanced_views :
    ∀ (L : List (Str × Str)) (mode : Bool), AtRows RowKind mode L → AtRows ClosesRead mode L →
      AtRows BodyRead mode L → ∀ d : ℕ,
      BracketKind.depth (d + openBlocks mode) (rawBrackets L) = some 0 →
        BracketKind.depth d (viewBrackets false mode L) = some 0
          ∧ BracketKind.depth (d + openBlocks mode) (viewBrackets true mode L) = some 0
  | [], mode, _, _, _, d, hdepth => by
      have hzero : d + openBlocks mode = 0 := by simpa [rawBrackets] using hdepth
      obtain rfl : d = 0 := by omega
      exact ⟨rfl, hdepth⟩
  | (raw, line) :: L, mode, h, hcloses, hbody, d, hdepth => by
      obtain ⟨hrow, hrest⟩ := atRows_cons.mp h
      obtain ⟨hclose, hcloses⟩ := atRows_cons.mp hcloses
      obtain ⟨hbodyRow, hbody⟩ := atRows_cons.mp hbody
      have ih := balanced_views L (nextMode mode line) hrest hcloses hbody
      have hcons : rawBrackets ((raw, line) :: L) = lineBracket raw :: rawBrackets L := rfl
      rw [hcons] at hdepth
      cases hrow with
      | outside hopen hsame hmarker =>
          rw [hsame] at hmarker hdepth
          obtain ⟨hnext, hquery, hresponse⟩ := views_outside (L := L) hopen hmarker
          -- a line that the response view leaves out is no bracket
          have hview : ∀ e : ℕ, BracketKind.depth e (viewBrackets true false ((raw, line) :: L))
              = BracketKind.depth e (lineBracket line :: viewBrackets true false L) := by
            intro e
            rcases hresponse with hkept | ⟨hother, hleft⟩
            · rw [hkept]
            · rw [hleft, hother, BracketKind.depth_other]
          rw [hnext] at ih
          rw [hquery, hview]
          cases hline : lineBracket line with
          | opn =>
              rw [hline, BracketKind.depth_opn] at hdepth
              rw [BracketKind.depth_opn, BracketKind.depth_opn]
              exact ih (d + 1) hdepth
          | other =>
              rw [hline, BracketKind.depth_other] at hdepth
              rw [BracketKind.depth_other, BracketKind.depth_other]
              exact ih d hdepth
          | cls =>
              rw [hline] at hdepth
              cases d with
              | zero => exact absurd hdepth (by simp)
              | succ d => exact ih d hdepth
      | opens hopen hraw hline =>
          obtain ⟨hnext, hquery, hresponse⟩ := views_opens (L := L) hopen
          rw [hnext] at ih
          rw [hraw, BracketKind.depth_opn] at hdepth
          rw [hquery, hresponse, hline, BracketKind.depth_opn]
          exact ih d hdepth
      | closes hraw =>
          obtain ⟨hnext, hquery, hresponse⟩ := views_closes (L := L)
          rw [hnext] at ih
          rw [hclose rfl rfl] at hdepth
          rw [hquery, hresponse]
          exact ih d hdepth
      | body hne hraw hline =>
          obtain ⟨hnext, hquery, hresponse⟩ := views_body (L := L) hne
          rw [hnext] at ih
          rw [hraw, BracketKind.depth_other] at hdepth
          rw [hquery, hresponse, hbodyRow rfl hne, BracketKind.depth_other]
          exact ih d hdepth

end Views

/-! ## The texts -/

/-- The brackets of a transcript are those of its rows. -/
lemma balancedText_rows (t : Str) :
    BalancedText (encode t) ↔ BracketKind.Balanced (rawBrackets (rows t)) := by
  have hsplit : (encode t).splitOn nl = (t.splitOn '\n').map encode := by
    have hjoin : (encode (join '\n' (t.splitOn '\n'))).splitOn nl = (t.splitOn '\n').map encode :=
      splitOn_encode_join (fun _ hl => not_mem_of_mem_splitOn hl) (List.splitOn_ne_nil _ _)
    rwa [join_splitOn] at hjoin
  have hraw : rawBrackets (rows t) = (t.splitOn '\n').dropLast.map lineBracket
      ++ ((t.splitOn '\n').getLast?.toList.filter fun l => !l.isEmpty).map lineBracket := by
    rw [rawBrackets, rows, List.map_append, List.map_map, List.map_map]
    rfl
  rw [BalancedText, hsplit, hraw, List.map_map]
  obtain ⟨pieces, last, hpieces⟩ : ∃ pieces last, t.splitOn '\n' = pieces ++ [last] :=
    ⟨_, _, (List.dropLast_append_getLast (List.splitOn_ne_nil '\n' t)).symm⟩
  rw [hpieces, List.map_append, List.dropLast_concat, List.getLast?_concat]
  cases last with
  | nil =>
      refine (BracketKind.balanced_concat_other _).trans ?_
      rw [show ((some ([] : Str)).toList.filter fun l => !l.isEmpty) = [] from rfl, List.map_nil,
        List.append_nil]
      rfl
  | cons c last => exact Iff.rfl

/-- The brackets of a view. -/
lemma balancedText_view (t : Str) (k : Bool) :
    BalancedText (encode (projectSmt t k))
      ↔ BracketKind.Balanced (viewBrackets k false (rows t)) := by
  have hmem : ∀ l ∈ project k (lines t) ++ [[]], '\n' ∉ l := by
    intro l hl
    rcases List.mem_append.mp hl with hl | hl
    · have hsub : (project k (lines t)).Sublist (lines t) := by
        rw [project, scan_eq_selectAt]
        exact selectAt_sublist _ _
      exact (mem_lines (hsub.subset hl)).1
    · rw [List.mem_singleton.mp hl]
      exact List.not_mem_nil
  have hjoin := join_concat '\n' ([] : Str) (project k (lines t))
  rw [List.append_nil] at hjoin
  rw [BalancedText, projectSmt_eq, ← hjoin, splitOn_encode_join hmem (by simp), List.map_map,
    List.map_append, project, ← map_snd_rows]
  exact BracketKind.balanced_concat_other _

/-! ## Markers that are read alike -/

/-- Line `i` is inside a response block: the line before is in one and does not close it, and
neither does this one. -/
def InBody (ls : List Str) (i : ℕ) : Prop :=
  (∃ j, j + 1 = i ∧ InResponse ls j ∧ ls[j]? ≠ some closeLine) ∧ ls[i]? ≠ some closeLine

/-- No line inside a response block is a marker to the scanner. -/
def PlainBodies (t : Str) : Prop :=
  ∀ i raw line, (rows t)[i]? = some (raw, line) → InBody (lines t) i → lineBracket raw = .other

/-- `project_smt` and the scanner recognise the same markers: those of the scanner outside the
response blocks are kept in both views, plain lines are not kept in the response view, and a
balanced transcript without markers in its responses has balanced views. -/
structure MarkersAgree (t : Str) : Prop where
  kept : ∀ i raw line, (rows t)[i]? = some (raw, line) → ¬InResponse (lines t) i →
    isOpen (encode raw) = true ∨ isClose (encode raw) = true →
      InQueryView (lines t) i ∧ InResponseView (lines t) i
  dropped : ∀ i raw line, (rows t)[i]? = some (raw, line) → ¬InResponse (lines t) i →
    ¬(isOpen (encode raw) = true ∨ isClose (encode raw) = true) → ¬InResponseView (lines t) i
  balanced : BalancedText (encode t) → PlainBodies t →
    BalancedText (encode (projectSmt t false)) ∧ BalancedText (encode (projectSmt t true))

/-- Every line outside the response blocks is ordinary; and where the transcript is balanced and has
no markers in its responses, none of their lines is a marker but for a carriage return. -/
structure MarkersPlain (t : Str) : Prop where
  outside : ∀ i raw line, (rows t)[i]? = some (raw, line) → ¬InResponse (lines t) i →
    Ordinary raw line
  inside : BalancedText (encode t) → PlainBodies t →
    ∀ i raw line, (rows t)[i]? = some (raw, line) → InResponse (lines t) i → Bare raw line

section Agreement

variable {t raw line : Str} {i : ℕ}

lemma bracket_ne_other (l : JsString) :
    bracket l ≠ .other ↔ isOpen l = true ∨ isClose l = true := by
  rw [bracket]
  split_ifs with hopen hclose
  · simp [hopen]
  · simp [hclose]
  · simp [hopen, hclose]

lemma getElem?_lines (h : (rows t)[i]? = some (raw, line)) : (lines t)[i]? = some line := by
  rw [← map_snd_rows, List.getElem?_map, h]
  rfl

/-- The mode a row is read in. -/
def modeAt (t : Str) (i : ℕ) : Bool := (((rows t).take i).map Prod.snd).foldl nextMode false

lemma modeAt_eq (t : Str) (i : ℕ) : modeAt t i = ((lines t).take i).foldl nextMode false := by
  rw [modeAt, List.map_take, map_snd_rows]

lemma inResponse_row (h : (rows t)[i]? = some (raw, line)) :
    InResponse (lines t) i ↔ (opensResponse line || modeAt t i) = true := by
  rw [modeAt_eq]
  exact inResponse_iff (lines t) (getElem?_lines h)

/-- A row is inside a block if a block is open before it and it does not close it. -/
lemma inBody_row (h : (rows t)[i]? = some (raw, line)) :
    InBody (lines t) i ↔ modeAt t i = true ∧ line ≠ closeLine := by
  have hline := getElem?_lines h
  rw [InBody, hline, modeAt_eq]
  refine and_congr ?_ (by simp)
  cases i with
  | zero =>
      refine iff_of_false ?_ (by simp)
      rintro ⟨j, hj, -⟩
      exact absurd hj (by omega)
  | succ j =>
      obtain ⟨before, hbefore⟩ : ∃ before, (lines t)[j]? = some before := by
        refine ⟨_, List.getElem?_eq_getElem (Nat.lt_of_succ_lt ?_)⟩
        exact (List.getElem?_eq_some_iff.mp hline).1
      have htake : (lines t).take (j + 1) = (lines t).take j ++ [before] := by
        rw [List.take_add_one, hbefore]
        rfl
      have hnext : nextMode (((lines t).take j).foldl nextMode false) before = true
          ↔ (opensResponse before || ((lines t).take j).foldl nextMode false) = true
            ∧ before ≠ closeLine := by
        have hopen : opensResponse closeLine = false := rfl
        by_cases hclose : before = closeLine
        · subst hclose
          simp [nextMode, hopen]
        · simp [nextMode, hclose]
      rw [htake, List.foldl_concat, hnext, ← inResponse_iff (lines t) hbefore]
      constructor
      · rintro ⟨j', hj, hin, hne⟩
        obtain rfl : j' = j := by omega
        rw [hbefore] at hne
        exact ⟨hin, fun hclose => hne (congrArg some hclose)⟩
      · rintro ⟨hin, hne⟩
        refine ⟨j, rfl, hin, ?_⟩
        rw [hbefore]
        exact fun hclose => hne (Option.some_inj.mp hclose)

lemma Ordinary.bare (h : Ordinary raw line) : Bare raw line := by
  intro m hm hraw
  rcases mem_markChars hm with rfl | hopen
  · exact (h.cls ['\r'] hraw).2 rfl
  · exact absurd (h.opn m hopen ['\r'] hraw) (by decide)

/-- The four kinds of rows. -/
lemma rowKind {m : Bool} (hrow : RowOf raw line)
    (hout : (opensResponse line || m) = false → Ordinary raw line)
    (hbody : m = true → line ≠ closeLine → lineBracket raw = .other) : RowKind m raw line := by
  cases m with
  | false =>
      cases hopen : opensResponse line with
      | true =>
          have hprefix : opensResponse raw = true := by
            rcases hrow with rfl | rfl
            · exact hopen
            · exact List.isPrefixOf_iff_prefix.mpr
                ((List.isPrefixOf_iff_prefix.mp hopen).trans (List.prefix_append _ _))
          have hopn : ∀ l : Str, opensResponse l = true → lineBracket l = .opn := fun l hl =>
            if_pos (of_opensResponse hl).2
          exact .opens hopen (hopn raw hprefix) (hopn line hopen)
      | false =>
          have hordinary := hout (by simp [hopen])
          refine .outside hopen ((bracket_iff hrow).mpr hordinary.bare) fun hmark => ?_
          by_contra hne
          exact absurd (((marker_iff hrow).mpr hordinary).mp hne) (by simp [hmark])
  | true =>
      by_cases hclose : line = closeLine
      · subst hclose
        refine .closes ?_
        rcases hrow with rfl | rfl
        · exact Or.inl rfl
        · exact Or.inr rfl
      · have hother := hbody rfl hclose
        refine .body hclose hother ?_
        by_cases hbare : Bare raw line
        · exact Or.inl (((bracket_iff hrow).mpr hbare).symm.trans hother)
        · -- a marker without a label, behind a carriage return: it cannot be a close
          simp only [Bare, not_forall] at hbare
          obtain ⟨c, hc, rfl, hne⟩ := hbare
          have hline : line = [';', ';', c] := by
            rcases hrow with hsame | hcr
            · exact absurd hsame hne
            · have hsplit : [';', ';', c] ++ ['\r'] = line ++ ['\r'] := hcr
              exact (List.append_inj' hsplit rfl).1.symm
          subst hline
          have hlt : c ≠ '<' := by
            rintro rfl
            exact hclose rfl
          refine Or.inr ((bracket_mark hc []).trans ?_)
          rw [if_pos (show free [] = true from rfl), if_neg hlt]

lemma atRows_rowKind (hout : ∀ i raw line, (rows t)[i]? = some (raw, line) →
      ¬InResponse (lines t) i → Ordinary raw line) (hbodies : PlainBodies t) :
    AtRows RowKind false (rows t) := by
  intro i raw line hi
  refine rowKind (rowOf_of_mem (List.mem_of_getElem? hi)) (fun hmode => ?_) fun hmode hne => ?_
  · refine hout i raw line hi ?_
    rw [inResponse_row hi]
    exact fun hin => absurd (hmode.symm.trans hin) (by simp)
  · exact hbodies i raw line hi ((inBody_row hi).mpr ⟨hmode, hne⟩)

/-- The two programs agree on the markers outside the response blocks where these are ordinary. -/
lemma markers_outside_iff :
    ((∀ i raw line, (rows t)[i]? = some (raw, line) → ¬InResponse (lines t) i →
        isOpen (encode raw) = true ∨ isClose (encode raw) = true →
          InQueryView (lines t) i ∧ InResponseView (lines t) i)
      ∧ ∀ i raw line, (rows t)[i]? = some (raw, line) → ¬InResponse (lines t) i →
        ¬(isOpen (encode raw) = true ∨ isClose (encode raw) = true) → ¬InResponseView (lines t) i)
      ↔ ∀ i raw line, (rows t)[i]? = some (raw, line) → ¬InResponse (lines t) i →
        Ordinary raw line := by
  have hview : ∀ i raw line, (rows t)[i]? = some (raw, line) → ¬InResponse (lines t) i →
      (InResponseView (lines t) i ↔ isMarker line = true) := by
    intro i raw line hi hout
    rw [InResponseView, MarkerAt, getElem?_lines hi]
    exact or_iff_right hout
  constructor
  · rintro ⟨hkept, hdropped⟩ i raw line hi hout
    rw [← marker_iff (rowOf_of_mem (List.mem_of_getElem? hi)), bracket_ne_other,
      ← hview i raw line hi hout]
    refine ⟨fun hmark => (hkept i raw line hi hout hmark).2, fun hin => ?_⟩
    by_contra hnot
    exact hdropped i raw line hi hout hnot hin
  · intro hordinary
    have hiff : ∀ i raw line, (rows t)[i]? = some (raw, line) → ¬InResponse (lines t) i →
        (isOpen (encode raw) = true ∨ isClose (encode raw) = true
          ↔ InResponseView (lines t) i) := by
      intro i raw line hi hout
      rw [hview i raw line hi hout, ← bracket_ne_other,
        marker_iff (rowOf_of_mem (List.mem_of_getElem? hi))]
      exact hordinary i raw line hi hout
    refine ⟨fun i raw line hi hout hmark => ⟨hout, ?_⟩, fun i raw line hi hout hnot hin => ?_⟩
    · exact (hiff i raw line hi hout).mp hmark
    · exact hnot ((hiff i raw line hi hout).mpr hin)

/-- Where the markers outside the blocks are ordinary, the views of a balanced transcript without
markers in its responses are balanced exactly if no carriage return hides a marker. -/
lemma balanced_iff (hout : ∀ i raw line, (rows t)[i]? = some (raw, line) →
      ¬InResponse (lines t) i → Ordinary raw line) (hbalanced : BalancedText (encode t))
    (hbodies : PlainBodies t) :
    (BalancedText (encode (projectSmt t false)) ∧ BalancedText (encode (projectSmt t true)))
      ↔ ∀ i raw line, (rows t)[i]? = some (raw, line) → InResponse (lines t) i → Bare raw line := by
  have hkinds := atRows_rowKind hout hbodies
  rw [balancedText_rows] at hbalanced
  rw [balancedText_view, balancedText_view]
  constructor
  · rintro ⟨hquery, hresponse⟩
    obtain ⟨hle, hcloses⟩ := net_query (rows t) false hkinds
    have hnonneg : (0 : ℤ) ≤ openBlocks (finalMode false (rows t)) := Int.natCast_nonneg _
    rw [hquery.net, hbalanced.net, openBlocks_false] at hle hcloses
    have hread := hcloses (by omega)
    obtain ⟨-, hbody⟩ := net_response (rows t) false hkinds hread
    rw [hresponse.net, hbalanced.net] at hbody
    have hbody := hbody (Int.le_refl 0)
    intro i raw line hi hin
    rw [← bracket_iff (rowOf_of_mem (List.mem_of_getElem? hi))]
    have hkind := hkinds i raw line hi
    have hclose := hread i raw line hi
    have hplain := hbody i raw line hi
    rw [inResponse_row hi] at hin
    show lineBracket raw = lineBracket line
    generalize hmode : (((rows t).take i).map Prod.snd).foldl nextMode false = m
      at hkind hclose hplain
    rw [modeAt, hmode] at hin
    cases hkind with
    | outside hopen hsame hmarker => exact hsame
    | opens hopen hraw hline => exact hraw.trans hline.symm
    | closes hraw => exact hclose rfl rfl
    | body hne hraw hline => exact hraw.trans (hplain rfl hne).symm
  · intro hbare
    have hsame : ∀ i raw line, (rows t)[i]? = some (raw, line) → modeAt t i = true →
        lineBracket raw = lineBracket line := by
      intro i raw line hi hmode
      refine (bracket_iff (rowOf_of_mem (List.mem_of_getElem? hi))).mpr (hbare i raw line hi ?_)
      rw [inResponse_row hi, hmode, Bool.or_true]
    have hcloses : AtRows ClosesRead false (rows t) := by
      rintro i raw line hi hmode rfl
      exact hsame i raw closeLine hi hmode
    have hbody : AtRows BodyRead false (rows t) := by
      intro i raw line hi hmode hne
      rw [← hsame i raw line hi hmode]
      exact hbodies i raw line hi ((inBody_row hi).mpr ⟨hmode, hne⟩)
    exact balanced_views (rows t) false hkinds hcloses hbody 0 hbalanced

/-- **When the two programs recognise the same markers.**  The views are the lines outside the
response blocks, and those in them or with a marker.  The scanner's markers are those of the views,
and the views are balanced with the transcript, if and only if its markers are plain. -/
theorem markersAgree_iff (t : Str) :
    (projectSmt t false = unlines '\n' (selectAt (InQueryView (lines t)) (lines t))
        ∧ projectSmt t true = unlines '\n' (selectAt (InResponseView (lines t)) (lines t)))
      ∧ (MarkersAgree t ↔ MarkersPlain t) := by
  refine ⟨⟨?_, ?_⟩, ?_, ?_⟩
  · rw [projectSmt_eq, project_false_eq]
  · rw [projectSmt_eq, project_true_eq]
  · rintro ⟨hkept, hdropped, hviews⟩
    have hout := markers_outside_iff.mp ⟨hkept, hdropped⟩
    exact ⟨hout, fun hbalanced hbodies =>
      (balanced_iff hout hbalanced hbodies).mp (hviews hbalanced hbodies)⟩
  · rintro ⟨hout, hinside⟩
    obtain ⟨hkept, hdropped⟩ := markers_outside_iff.mpr hout
    exact ⟨hkept, hdropped, fun hbalanced hbodies =>
      (balanced_iff hout hbalanced hbodies).mpr (hinside hbalanced hbodies)⟩

/-- A close with a label: the scanner closes the section, and the response view loses the close. -/
theorem markersAgree_iff_labelled :
    let t := ";;> A\nx\n;;< A\n".toList
    BalancedText (encode t) ∧ ¬BalancedText (encode (projectSmt t true)) ∧ ¬MarkersAgree t := by
  refine ⟨by decide, by decide, ?_⟩
  intro hagree
  have hline := hagree.kept 2 ";;< A".toList ";;< A".toList rfl (by decide) (Or.inr (by decide))
  exact absurd hline.2 (by decide)

end Agreement

end VerusExplorer
