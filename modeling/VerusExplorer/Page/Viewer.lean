import VerusExplorer.Lib.Matching
import VerusExplorer.Page.Outline
import VerusExplorer.Page.Positions
import Mathlib.Data.Nat.Digits.Defs

/-!
# Links in the output view

The output view marks what reads as a span of the source, and a click on such a mark takes the
cursor there (`public/app.js`).  It looks for spans in what is visible only.

* `spanLink` is `SPAN_LINK_RE`, `visibleLinks` the `compute` of the plugin, `clickLink` its handler.
* `RustSpan.text` is how rustc writes a span of `input.rs`.
* **`visibleLinks_eq`** — folds and scrolling do not matter: the links are those of the whole text.
* **`links_walks`** — in the tab of a walk the banner of an item with a span of `input.rs` has one
  link, over all of the span, and it leads where the verdict of the item leads.
-/

namespace VerusExplorer

open Utf16 Lines Matching

/-! ## The source -/

/-- `\d+`. -/
def digits : Step UInt16 ℕ := do
  let ds ← run1 isDigitUnit
  pure (numberOf ds)

/-- `: \d+:\d+`. -/
def endLineCol : Step UInt16 ℕ := do
  word (js ": ")
  let _ ← digits
  word (js ":")
  digits

/-- ` \(#\d+\)`. -/
def ctxtNumber : Step UInt16 PUnit := do
  word (js " (#")
  let _ ← digits
  word (js ")")

/-- `SPAN_LINK_RE` after the name of the file: the line and the column. -/
def afterName : Step UInt16 (ℕ × ℕ) := do
  opt (word (js ">"))
  word (js ":")
  let line ← digits
  word (js ":")
  let col ← digits
  opt endLineCol
  opt ctxtNumber
  pure (line, col)

/-- `SPAN_LINK_RE`. -/
def spanLink : Step UInt16 (ℕ × ℕ) := do
  opt (word (js "<"))
  word (js "input.rs")
  afterName

/-- The marks in a text. -/
def spanLinks (text : JsString) : List (Match (ℕ × ℕ)) := matchAll spanLink text

/-- `compute` of `spanLinks`, on the visible ranges of a text. -/
def visibleLinks (text : JsString) (visibleRanges : List FoldRange) : List (Match (ℕ × ℕ)) :=
  visibleRanges.flatMap fun r =>
    (spanLinks ((text.take r.toPos).drop r.fromPos)).map (Match.shift r.fromPos)

/-- `mousedown` on a mark. -/
def clickLink (doc : Doc) (link : Match (ℕ × ℕ)) : Except RangeError (Option Jump) :=
  jumpToLoc doc link.value.1 link.value.2

/-- A span of `input.rs` with the number of its syntax context. -/
structure RustSpan where
  line : ℕ
  col : ℕ
  endLine : ℕ
  endCol : ℕ
  ctxt : ℕ
  deriving DecidableEq, Repr

/-- The span as rustc writes it. -/
def RustSpan.text (sp : RustSpan) : Str :=
  "<input.rs>:".toList ++ Nat.toDigits 10 sp.line ++ ":".toList ++ Nat.toDigits 10 sp.col
    ++ ": ".toList ++ Nat.toDigits 10 sp.endLine ++ ":".toList ++ Nat.toDigits 10 sp.endCol
    ++ " (#".toList ++ Nat.toDigits 10 sp.ctxt ++ ")".toList

/-! ## The pattern -/

section Pattern

lemma reads_digits : Reads digits := (reads_run1 _).bind fun _ => reads_pure _

lemma within_digits : Within nl digits := (within_run1 rfl).bind fun _ => within_pure _

lemma reads_afterName : Reads afterName := by
  refine (reads_word _).opt.bind fun _ => (reads_word _).bind fun _ => ?_
  refine reads_digits.bind fun line => (reads_word _).bind fun _ => ?_
  refine reads_digits.bind fun col => ?_
  refine ((reads_word _).bind fun _ => reads_digits.bind fun _ =>
    (reads_word _).bind fun _ => reads_digits).opt.bind fun _ => ?_
  refine ((reads_word _).bind fun _ => reads_digits.bind fun _ => reads_word _).opt.bind fun _ => ?_
  exact reads_pure _

lemma reads_spanLink : Reads spanLink :=
  (reads_word _).opt.bind fun _ => (reads_word _).bind fun _ => reads_afterName

/-- What is taken for a span starts with the name of the file, perhaps after a bracket. -/
lemma front_of_spanLink {s : JsString} {r : (ℕ × ℕ) × JsString} (h : spanLink.run s = some r) :
    ∃ rest, (s = js "input.rs" ++ rest ∨ s = js "<" ++ js "input.rs" ++ rest) ∧ r.2 <:+ rest := by
  obtain ⟨_, s₁, hopen, h⟩ := exists_of_bind_run h
  obtain ⟨_, s₂, hname, h⟩ := exists_of_bind_run h
  have hrest := reads_afterName _ _ h
  obtain rfl := eq_of_word_run hname
  refine ⟨s₂, ?_, hrest⟩
  rw [List.append_assoc]
  exact eq_of_opt_word_run hopen

lemma advances_spanLink : Advances spanLink := by
  intro s r h
  obtain ⟨rest, hs, hsuffix⟩ := front_of_spanLink h
  have hle := hsuffix.length_le
  have hname : (js "input.rs").length = 8 := by decide
  rcases hs with rfl | rfl
  · rw [List.length_append, hname]
    omega
  · rw [List.length_append, List.length_append, hname]
    omega

/-- A span is not read over a newline. -/
lemma within_spanLink : Within nl spanLink := by
  have hword : ∀ w : String, nl ∉ js w → Within nl (word (js w)) := fun _ => within_word
  refine (hword "<" (by decide)).opt.bind fun _ => ?_
  refine (hword "input.rs" (by decide)).bind fun _ => ?_
  refine (hword ">" (by decide)).opt.bind fun _ => (hword ":" (by decide)).bind fun _ => ?_
  refine within_digits.bind fun line => (hword ":" (by decide)).bind fun _ => ?_
  refine within_digits.bind fun col => ?_
  refine ((hword ": " (by decide)).bind fun _ => within_digits.bind fun _ =>
    (hword ":" (by decide)).bind fun _ => within_digits).opt.bind fun _ => ?_
  refine ((hword " (#" (by decide)).bind fun _ => within_digits.bind fun _ =>
    hword ")" (by decide)).opt.bind fun _ => ?_
  exact within_pure _

end Pattern

/-! ## What is visible -/

/-- A place where a line starts or ends. -/
def AtLineEdge (text : JsString) (i : ℕ) : Prop :=
  i = 0 ∨ i = text.length ∨ text[i]? = some nl ∨ text[i - 1]? = some nl

lemma isCut_of_atLineEdge {text : JsString} {i j : ℕ} (h : AtLineEdge text i) (hij : j ≤ i)
    (hi : i ≤ text.length) : IsCut nl ((text.take i).drop j) (text.drop i) := by
  rcases h with rfl | rfl | h | h
  · exact .inl (by simp)
  · exact .inr (.inl List.drop_length)
  · exact .inr (.inr (.inr (by rw [List.head?_drop, h])))
  · by_cases hlt : j < i
    · refine .inr (.inr (.inl ?_))
      have hlength : ((text.take i).drop j).length = i - j := by
        rw [List.length_drop, List.length_take, Nat.min_eq_left hi]
      rw [List.getLast?_eq_getElem?, hlength, List.getElem?_drop, List.getElem?_take,
        if_pos (by omega), show j + (i - j - 1) = i - 1 by omega, h]
    · exact .inl (by simp; omega)

/-- On ranges of whole lines the plugin marks what it would mark in the whole text there. -/
lemma visibleLinks_lines (text : JsString) (visibleRanges : List FoldRange)
    (h : ∀ r ∈ visibleRanges, r.fromPos ≤ r.toPos ∧ r.toPos ≤ text.length
      ∧ AtLineEdge text r.fromPos ∧ AtLineEdge text r.toPos) :
    visibleLinks text visibleRanges
      = visibleRanges.flatMap fun r =>
          (spanLinks text).filter (Match.inside r.fromPos r.toPos) := by
  refine List.flatMap_congr fun r hr => ?_
  obtain ⟨hle, hlen, hfrom, hto⟩ := h r hr
  have hpiece : (text.take r.toPos).drop r.fromPos ++ text.drop r.toPos = text.drop r.fromPos := by
    rw [← List.drop_append_of_le_length (by rw [List.length_take]; omega), List.take_append_drop]
  have ha : IsCut nl (text.take r.fromPos) (text.drop r.fromPos) :=
    isCut_of_atLineEdge hfrom (Nat.zero_le _) (hle.trans hlen)
  have hpieces := matchAll_piece within_spanLink reads_spanLink advances_spanLink (hpiece ▸ ha)
    (isCut_of_atLineEdge hto hle hlen)
  rw [hpiece, List.take_append_drop, List.length_take, List.length_drop, List.length_take,
    Nat.min_eq_left (hle.trans hlen), Nat.min_eq_left hlen, Nat.add_sub_cancel' hle] at hpieces
  exact hpieces.symm

lemma atLineEdge_lineEnd {ls : List JsString} {i : ℕ} (hi : i < ls.length) :
    AtLineEdge (join nl ls) (lineEnd ls i) := by
  by_cases hinner : i + 1 < ls.length
  · exact .inr (.inr (.inl (getElem?_lineEnd nl hinner)))
  · exact .inr (.inl ((length_join_eq_lineEnd_iff nl hi).mpr (by omega)).symm)

lemma atLineEdge_lineStart {ls : List JsString} {i : ℕ} (hi : i < ls.length) :
    AtLineEdge (join nl ls) (lineStart ls i) := by
  cases i with
  | zero => exact .inl rfl
  | succ i =>
      refine .inr (.inr (.inr ?_))
      rw [lineStart_succ, Nat.add_sub_cancel]
      exact getElem?_lineEnd nl hi

/-- Folds are cut at lines. -/
lemma atLineEdge_foldable (body : JsString) :
    let r := finalizeBannerBody body
    ∀ f ∈ r.foldable, AtLineEdge r.body f.fromPos ∧ AtLineEdge r.body f.toPos := by
  intro r f hf
  have hr : r = ⟨join nl (scanned body).kept,
      (scanned body).finish.map (rangeOf (scanned body).kept),
      ((scanned body).finish.filter (·.auto)).map (rangeOf (scanned body).kept)⟩ :=
    finalizeBannerBody_eq body
  rw [hr] at hf ⊢
  obtain ⟨span, hspan, rfl⟩ := List.mem_map.mp hf
  obtain ⟨hlt, hlast⟩ := Fold.first_lt_of_mem_finish (wf_scanned body) hspan
  exact ⟨atLineEdge_lineEnd (hlt.trans hlast), atLineEdge_lineEnd hlast⟩

/-- A place where a line or a fold of the tab starts or ends. -/
def SectionView.Edge (v : SectionView) (i : ℕ) : Prop :=
  AtLineEdge v.body i ∨ ∃ f ∈ v.folds, i = f.fromPos ∨ i = f.toPos

/-- What is visible of a tab: lines, less the folds that are closed. -/
def SectionView.Visible (v : SectionView) (visibleRanges : List FoldRange) : Prop :=
  ∀ r ∈ visibleRanges, r.fromPos ≤ r.toPos ∧ r.toPos ≤ v.body.length
    ∧ v.Edge r.fromPos ∧ v.Edge r.toPos

lemma atLineEdge_of_edge {mode : ActionMode} {tab raw : JsString} {i : ℕ}
    (h : (mode.shown tab raw).Edge i) : AtLineEdge (mode.shown tab raw).body i := by
  have hplain : (SectionView.mk raw [] []).Edge i → AtLineEdge raw i := by
    rintro (h | ⟨f, hf, -⟩)
    · exact h
    · exact absurd hf List.not_mem_nil
  cases mode with
  | execute => exact hplain h
  | verify =>
      simp only [ActionMode.shown, shownSection_eq] at h ⊢
      split_ifs at h ⊢
      · rcases h with h | ⟨f, hf, rfl | rfl⟩
        · exact h
        · exact (atLineEdge_foldable raw f hf).1
        · exact (atLineEdge_foldable raw f hf).2
      · exact hplain h

/-- **Links do not depend on what is visible.**  After a run that dumps its sections under different
names, whatever is scrolled to and whichever folds are closed in a tab, the links are those of its
whole text that lie in what is visible. -/
theorem visibleLinks_eq (mode : ActionMode) (calls : List Callback) (threw : Option JsString)
    (hplain : ∀ k ∈ calls, k.Plain) (hnames : ((sectionsOf calls).map Prod.fst).Nodup)
    (tab : JsString) {v : SectionView} (hv : (finishRun mode calls threw {}).view tab = some v)
    (visibleRanges : List FoldRange) (h : v.Visible visibleRanges) :
    visibleLinks v.body visibleRanges
      = visibleRanges.flatMap fun r =>
          (spanLinks v.body).filter (Match.inside r.fromPos r.toPos) := by
  obtain ⟨raw, rfl⟩ := exists_shown_of_view hplain hnames hv
  refine visibleLinks_lines _ _ fun r hr => ?_
  obtain ⟨hle, hlen, hfrom, hto⟩ := h r hr
  exact ⟨hle, hlen, atLineEdge_of_edge hfrom, atLineEdge_of_edge hto⟩

/-- A function of a library, with a span in its text. -/
def foldedCall : Callback :=
  .dump (js "VIR_RAW") (emitSection ";;> function f input.rs:1:2\ninput.rs:5:6\n;;<\n".toList)

/-- Its section is folded at first: of its links one is there. -/
theorem visibleLinks_folded :
    visibleLinks (js ";; function f input.rs:1:2\ninput.rs:5:6") [⟨0, 26⟩]
      = [⟨14, 12, (1, 2)⟩] := by
  have hlinks := visibleLinks_eq .verify [foldedCall] none
    (plain_emitSection _ _)
    (by decide) (js "VIR_RAW")
    (v := ⟨js ";; function f input.rs:1:2\ninput.rs:5:6", [⟨26, 39⟩], [⟨26, 39⟩]⟩) (by decide)
    [⟨0, 26⟩] (by
      intro r hr
      obtain rfl := List.mem_singleton.mp hr
      exact ⟨by decide, by decide, .inl (.inl rfl), .inr ⟨_, List.mem_singleton_self _, .inl rfl⟩⟩)
  rw [hlinks]
  decide

/-! ## Spans as rustc writes them -/

/-- The decimal digits of a number are read as that number. -/
lemma decimal_of_le {n : ℕ} (h : 10 ≤ n) :
    decimal n = decimal (n / 10) ++ decimal (n % 10) := by
  have hdigit : Nat.toDigits 10 (n % 10) = [(n % 10).digitChar] :=
    Nat.toDigits_of_lt_base (Nat.mod_lt n (by omega))
  rw [decimal, Nat.toDigits_of_base_le (by omega) h, encode_append, decimal, decimal, hdigit]

lemma decimal_digit : ∀ d < 10, decimal d = [UInt16.ofNat (48 + d)]
    ∧ isDigitUnit (UInt16.ofNat (48 + d)) = true ∧ (UInt16.ofNat (48 + d)).toNat - 48 = d := by
  decide

lemma decimal_spec (n : ℕ) :
    decimal n ≠ [] ∧ (∀ u ∈ decimal n, isDigitUnit u = true) ∧ numberOf (decimal n) = n := by
  induction n using Nat.strong_induction_on with
  | _ n ih =>
      by_cases hn : n < 10
      · obtain ⟨hu, hdigit, hvalue⟩ := decimal_digit n hn
        rw [hu]
        refine ⟨List.cons_ne_nil _ _, fun u' hu' => List.mem_singleton.mp hu' ▸ hdigit, ?_⟩
        simpa [numberOf] using hvalue
      · obtain ⟨hne, hdigits, hvalue⟩ := ih (n / 10) (by omega)
        obtain ⟨hu, hdigit, hlast⟩ := decimal_digit (n % 10) (by omega)
        rw [decimal_of_le (by omega), hu]
        refine ⟨by simp, ?_, ?_⟩
        · intro u' hu'
          rcases List.mem_append.mp hu' with hu' | hu'
          · exact hdigits u' hu'
          · exact List.mem_singleton.mp hu' ▸ hdigit
        · rw [numberOf] at hvalue ⊢
          rw [List.foldl_append, hvalue, List.foldl_cons, List.foldl_nil, hlast]
          omega

/-- A number is read up to a word that starts with no digit. -/
lemma decimal_run (n : ℕ) {w : String} {u : UInt16} (hw : (js w).head? = some u)
    (hu : isDigitUnit u = false) (s : JsString) :
    (run1 isDigitUnit).run (decimal n ++ (js w ++ s)) = some (decimal n, js w ++ s) := by
  obtain ⟨hne, hdigits, -⟩ := decimal_spec n
  refine run1_run hdigits hne fun c hc => ?_
  rw [List.head?_append, hw] at hc
  exact Option.some.inj hc ▸ hu

lemma digits_run (n : ℕ) {w : String} {u : UInt16} (hw : (js w).head? = some u)
    (hu : isDigitUnit u = false) (s : JsString) :
    digits.run (decimal n ++ (js w ++ s)) = some (n, js w ++ s) := by
  rw [digits, bind_run (decimal_run n hw hu s), (decimal_spec n).2.2]
  rfl

/-- The span by units. -/
lemma encode_spanText (sp : RustSpan) :
    encode sp.text = js "<input.rs>:" ++ decimal sp.line ++ js ":" ++ decimal sp.col ++ js ": "
      ++ decimal sp.endLine ++ js ":" ++ decimal sp.endCol ++ js " (#" ++ decimal sp.ctxt
      ++ js ")" := by
  show encode (_ ++ _) = _
  simp only [encode_append]
  rfl

/-- **A span of rustc is read to its end.** -/
lemma spanLink_run (sp : RustSpan) (t : JsString) :
    spanLink.run (encode sp.text ++ t) = some ((sp.line, sp.col), t) := by
  have hname : js "<input.rs>:" = js "<" ++ js "input.rs" ++ js ">" ++ js ":" := by decide
  rw [encode_spanText, hname]
  simp only [List.append_assoc]
  have hcolon : ∀ n s, digits.run (decimal n ++ (js ":" ++ s)) = some (n, js ":" ++ s) :=
    fun n s => digits_run n (u := 58) rfl rfl s
  have hgap : ∀ n s, digits.run (decimal n ++ (js ": " ++ s)) = some (n, js ": " ++ s) :=
    fun n s => digits_run n (u := 58) rfl rfl s
  have hctxt : ∀ n s, digits.run (decimal n ++ (js " (#" ++ s)) = some (n, js " (#" ++ s) :=
    fun n s => digits_run n (u := 32) rfl rfl s
  have hclose : ∀ n s, digits.run (decimal n ++ (js ")" ++ s)) = some (n, js ")" ++ s) :=
    fun n s => digits_run n (u := 41) rfl rfl s
  rw [spanLink, bind_run (opt_run (word_run _ _)), bind_run (word_run _ _), afterName,
    bind_run (opt_run (word_run _ _)), bind_run (word_run _ _), bind_run (hcolon _ _),
    bind_run (word_run _ _), bind_run (hgap _ _)]
  have hrange : ∀ n m s, endLineCol.run
      (js ": " ++ (decimal n ++ (js ":" ++ (decimal m ++ (js " (#" ++ s)))))
        = some (m, js " (#" ++ s) := by
    intro n m s
    rw [endLineCol, bind_run (word_run _ _), bind_run (hcolon _ _), bind_run (word_run _ _), hctxt]
  have hnumber : ∀ n s, ctxtNumber.run (js " (#" ++ (decimal n ++ (js ")" ++ s)))
      = some (⟨⟩, s) := by
    intro n s
    rw [ctxtNumber, bind_run (word_run _ _), bind_run (hclose _ _), word_run]
  rw [bind_run (opt_run (hrange _ _ _)), bind_run (opt_run (hnumber _ _))]
  rfl

/-- The verdict list reads the same of it. -/
lemma matchLineCol_spanText (sp : RustSpan) :
    matchLineCol (encode sp.text) = some (sp.line, sp.col) := by
  have hskip : ∀ (w s : JsString), (58 : UInt16) ∉ w → matchLineCol (w ++ s) = matchLineCol s := by
    intro w s hw
    induction w with
    | nil => rfl
    | cons u w ih =>
        have hu : ¬u = 58 := fun h => hw (h ▸ List.mem_cons_self)
        rw [List.cons_append, matchLineCol]
        simp only [hu, false_and, if_false]
        exact ih fun hmem => hw (List.mem_cons_of_mem _ hmem)
  have hname : js "<input.rs>:" = js "<input.rs>" ++ js ":" := by decide
  rw [encode_spanText, hname]
  simp only [List.append_assoc]
  rw [hskip _ _ (by decide)]
  generalize decimal sp.endLine ++ _ = rest
  obtain ⟨hline, hafter⟩ := eq_of_run1_run
    (decimal_run sp.line (w := ":") (u := 58) rfl rfl (decimal sp.col ++ (js ": " ++ rest)))
  obtain ⟨hcol, -⟩ := eq_of_run1_run (decimal_run sp.col (w := ": ") (u := 58) rfl rfl rest)
  obtain ⟨hlineNe, -, hlineValue⟩ := decimal_spec sp.line
  obtain ⟨hcolNe, -, hcolValue⟩ := decimal_spec sp.col
  have hcolon : js ":" = [58] := by decide
  rw [hcolon, List.singleton_append] at hline hafter ⊢
  rw [List.singleton_append, matchLineCol, hline, hafter]
  dsimp only
  rw [List.drop_one, List.tail_cons, hcol, if_pos ⟨rfl, hlineNe, rfl, hcolNe⟩, hlineValue,
    hcolValue]

/-! ## The lines of banners -/

/-- Before a span no other one is found, unless the name of the file is there. -/
lemma spanLink_none {chunk : JsString} (hfree : ¬js "input.rs" <:+: chunk) (sp : RustSpan) :
    ∀ k < chunk.length, spanLink.run ((chunk ++ encode sp.text).drop k) = none := by
  intro k hk
  obtain ⟨tail, htail⟩ : ∃ tail, encode sp.text = 60 :: tail := ⟨_, rfl⟩
  rw [htail, List.drop_append_of_le_length hk.le]
  have hmark : (60 : UInt16) ∉ js "input.rs" := by decide
  have hnone : ∀ d : JsString, d <:+ chunk → ¬js "input.rs" <+: d ++ 60 :: tail := by
    intro d hd hpre
    have := (prefix_append_cons_iff hmark).mp hpre
    exact hfree (this.isInfix.trans hd.isInfix)
  cases hr : spanLink.run (chunk.drop k ++ 60 :: tail) with
  | none => rfl
  | some r =>
      obtain ⟨rest, hs | hs, -⟩ := front_of_spanLink hr
      · exact absurd ⟨rest, hs.symm⟩ (hnone _ (List.drop_suffix _ _))
      · cases hd : chunk.drop k with
        | nil => exact absurd hd (by simpa using hk)
        | cons c d =>
            rw [hd] at hs
            have hsuffix : d <:+ chunk :=
              (List.suffix_cons c d).trans (hd ▸ List.drop_suffix k chunk)
            exact absurd ⟨rest, (List.cons.inj hs).2.symm⟩ (hnone d hsuffix)

lemma spanLinks_line {chunk : JsString} (hfree : ¬js "input.rs" <:+: chunk) (sp : RustSpan) :
    spanLinks (chunk ++ encode sp.text)
      = [⟨chunk.length, (encode sp.text).length, (sp.line, sp.col)⟩] := by
  rw [spanLinks, matchAll, matchFrom_none (spanLink_none hfree sp)]
  have hrun := spanLink_run sp []
  rw [List.append_nil] at hrun
  obtain ⟨tail, htail⟩ : ∃ tail, encode sp.text = 60 :: tail := ⟨_, rfl⟩
  have hfound := matchFrom_some (s := tail) (t := []) (x := spanLink) (v := (sp.line, sp.col))
    (by rw [List.append_nil, ← htail, hrun]) (0 + chunk.length)
  rw [List.append_nil, ← htail] at hfound
  rw [hfound, htail, Nat.zero_add]
  rfl

example : (spanLinks (js "at <input.rs>:12:3: 12:9 (#0), input.rs:4:5")).map Match.value
    = [(12, 3), (4, 5)] := by decide

/-- The links in a line are those of the line. -/
lemma spanLinks_inside {ls : List JsString} {i : ℕ} {l : JsString} (hl : ls[i]? = some l) :
    (spanLinks (join nl ls)).filter (Match.inside (lineStart ls i) (lineEnd ls i))
      = (spanLinks l).map (Match.shift (lineStart ls i)) := by
  obtain ⟨hi, rfl⟩ := List.getElem?_eq_some_iff.mp hl
  have hline : ((join nl ls).take (lineEnd ls i)).drop (lineStart ls i) = ls[i] := by
    rw [take_lineEnd nl hi, List.take_succ_eq_append_getElem hi, join_concat,
      ← length_unlines_take nl hi.le, List.drop_left]
  have hlinks := visibleLinks_lines (join nl ls) [⟨lineStart ls i, lineEnd ls i⟩] (by
      intro r hr
      obtain rfl := List.mem_singleton.mp hr
      exact ⟨lineStart_le_lineEnd hi, lineEnd_le_length_join nl hi, atLineEdge_lineStart hi,
        atLineEdge_lineEnd hi⟩)
  rw [visibleLinks, List.flatMap_singleton, List.flatMap_singleton] at hlinks
  dsimp only at hlinks
  rw [← hlinks, hline]

/-- The banner of an item up to its span. -/
def bannerHead (it : WalkItem) : JsString := bannerLine (it.kind ++ ' ' :: it.name ++ [' '])

lemma bannerLine_label {it : WalkItem} (h : it.span ≠ []) :
    bannerLine it.label = bannerHead it ++ encode it.span := by
  have hspan : it.span.isEmpty = false := by simpa using h
  rw [bannerHead, bannerLine, bannerLine, WalkItem.label, hspan, ← encode_append]
  simp

/-- A click on a row of the verdict list. -/
def clickRow (doc : Doc) (row : Row) : Except RangeError (Option Jump) :=
  match row.target with
  | some loc => jumpToLoc doc loc.1 loc.2
  | none => pure none

lemma clickRow_eq (doc : Doc) {e : VerdictEntry} {link : Match (ℕ × ℕ)}
    (h : matchLineCol e.span = some link.value) :
    clickRow doc (verdictRow doc.lines e) = clickLink doc link := by
  rw [clickRow, verdictRow, h, clickLink]
  by_cases hline : doc.HasLine link.value.1
  · have hclick : clickable doc.lines link.value = true := by
      simpa [clickable, Doc.HasLine] using hline
    simp [Option.filter, hclick]
  · have hclick : clickable doc.lines link.value = false := by
      rw [Doc.HasLine, not_and] at hline
      simpa [clickable] using hline
    rw [Option.filter_some, hclick, jumpToLoc, if_pos (not_not.mp (mt Doc.hasLine_iff.mpr hline))]
    rfl

/-- The lines of a tab of walks. -/
lemma splitOn_shownBody {walks : List WalkBuilder}
    (h : ∀ b ∈ walks, ∀ it ∈ b.items, it.Printable) {it : WalkItem}
    (hit : it ∈ walks.flatMap WalkBuilder.items) (htext : it.text ≠ []) :
    let r := finalizeBannerBody (dumpedSection (emitSection (walks.flatMap WalkBuilder.finish))).1
    bannerLine it.label ∈ r.body.splitOn nl := by
  intro r
  have hmem : it ∈ (shownRuns walks).flatten := by
    rw [flatten_shownRuns, List.mem_filter, (flatMap_sorted_perm walks).mem_iff]
    exact ⟨hit, by simpa using htext⟩
  obtain ⟨g, hg, hitg⟩ := List.mem_flatten.mp hmem
  have hbanner : bannerLine it.label ∈ (shownRuns walks).flatMap runLines := by
    refine List.mem_flatMap.mpr ⟨g, hg, List.mem_append_right _ ?_⟩
    exact List.mem_flatMap.mpr ⟨it, hitg, List.mem_cons_self⟩
  rw [show r = shownBody walks from finalizeBannerBody_shown h, shownBody,
    splitOn_join (nl_notMem_shownLines h) (List.ne_nil_of_mem hbanner)]
  exact hbanner

/-- **A span leads to one place from wherever it is clicked.**  In the tab of some walks whose items
are `Printable` there is a line for each shown item.  Where the span is one of `input.rs`, and the
banner does not name `input.rs` before it, there is in each line that reads so one link, over all of
the item's span; and a click on it does what a click on the row of a verdict with this span does. -/
theorem links_walks (walks : List WalkBuilder) (h : ∀ b ∈ walks, ∀ it ∈ b.items, it.Printable)
    {it : WalkItem} (hit : it ∈ walks.flatMap WalkBuilder.items) (htext : it.text ≠ [])
    (sp : RustSpan) (hspan : it.span = sp.text) (hname : ¬js "input.rs" <:+: bannerHead it) :
    let r := finalizeBannerBody (dumpedSection (emitSection (walks.flatMap WalkBuilder.finish))).1
    let ls := r.body.splitOn nl
    let link := fun i => (⟨lineStart ls i + (bannerHead it).length, (encode it.span).length,
      (sp.line, sp.col)⟩ : Match (ℕ × ℕ))
    bannerLine it.label ∈ ls
      ∧ (∀ i, ls[i]? = some (bannerLine it.label) →
        (spanLinks r.body).filter (Match.inside (lineStart ls i) (lineEnd ls i)) = [link i])
      ∧ ∀ (doc : Doc) (e : VerdictEntry) (i : ℕ), e.span = encode it.span →
        clickLink doc (link i) = clickRow doc (verdictRow doc.lines e) := by
  intro r ls link
  have hne : it.span ≠ [] := by
    rw [hspan]
    exact List.cons_ne_nil '<' _
  have hjoin : r.body = join nl ls := (join_splitOn nl r.body).symm
  refine ⟨splitOn_shownBody h hit htext, fun i hi => ?_, fun doc e i he => ?_⟩
  · rw [hjoin, spanLinks_inside hi, bannerLine_label hne, hspan,
      spanLinks_line hname]
    simp only [link, hspan]
    rfl
  · refine (clickRow_eq doc ?_).symm
    rw [he, hspan, matchLineCol_spanText]

/-- A walk over one function. -/
def spanWalk : WalkBuilder :=
  WalkBuilder.addItem {} "function".toList "f".toList none "<input.rs>:3:8: 3:20 (#0)".toList
    "see input.rs:9:9\n".toList

/-- The link of its banner. -/
theorem links_spanWalk :
    (spanLinks (js ";; function f <input.rs>:3:8: 3:20 (#0)\nsee input.rs:9:9")).filter
      (Match.inside 0 39) = [⟨14, 25, (3, 8)⟩] := by
  have hprint : ∀ b ∈ [spanWalk], ∀ it ∈ b.items, it.Printable := by
    have hf : ∀ it ∈ spanWalk.items, '\n' ∉ it.kind ∧ '\n' ∉ it.name
        ∧ (∀ k ∈ it.krate, '\n' ∉ k) ∧ '\n' ∉ it.span
        ∧ ∀ l ∈ it.textLines, isOpen (encode l) = false ∧ isClose (encode l) = false := by
      decide
    intro b hb it hit
    obtain rfl := List.mem_singleton.mp hb
    obtain ⟨h1, h2, h3, h4, h5⟩ := hf it hit
    exact ⟨h1, h2, h3, h4, h5⟩
  have hbody : (finalizeBannerBody (dumpedSection (emitSection
      ([spanWalk].flatMap WalkBuilder.finish))).1).body
        = js ";; function f <input.rs>:3:8: 3:20 (#0)\nsee input.rs:9:9" := by decide
  obtain ⟨-, hlinks, -⟩ := links_walks [spanWalk] hprint (List.mem_cons_self)
    (by decide) ⟨3, 8, 3, 20, 0⟩ (by decide) (by decide)
  rw [hbody] at hlinks
  exact hlinks 0 (by decide)

end VerusExplorer
