import VerusExplorer.Dump.Ranges

/-!
# What the scanner keeps

`finalizeBannerBody` (`public/app.js`) on any text, balanced or not: which lines of the text are
shown, and that there is nothing left to do on what it returns.

* `bodyLines` — the lines of a body, of which the empty one has none.
* `notMarker_shownLine` — without its marker character an opening marker is a plain line.
* **`finalizeBannerBody_content`** — no plain line is lost, no marker is left, and a second pass
  changes nothing.
-/

namespace VerusExplorer

open Utf16 Lines

/-- The lines of a body; the empty one has none. -/
def bodyLines (body : JsString) : List JsString := if body = [] then [] else body.splitOn nl

/-- A line that is neither marker. -/
def IsPlain (l : JsString) : Prop := isOpen l = false ∧ isClose l = false

lemma lineToken_of_isPlain {l : JsString} (h : IsPlain l) : lineToken l = .line l := by
  rw [lineToken, h.1, h.2]
  rfl

/-! ## No marker is left -/

/-- A line that starts with two semicolons is a plain one if a blank or nothing follows. -/
lemma isPlain_of_blank (rest : JsString) (h : rest = [] ∨ rest.head? = some 32) :
    IsPlain (js ";;" ++ rest) := by
  cases rest with
  | nil => exact ⟨by decide, by decide⟩
  | cons c rest =>
      obtain rfl : c = 32 := by simpa using h
      exact ⟨rfl, rfl⟩

/-- The marker character is followed by a blank or by nothing. -/
lemma isPlain_stripMarker {l : JsString} (h : isOpen l = true) : IsPlain (stripMarker l) := by
  simp only [isOpen, Bool.and_eq_true, Bool.or_eq_true, beq_iff_eq] at h
  refine isPlain_of_blank _ ?_
  rw [List.head?_drop, List.drop_eq_nil_iff]
  exact h.2.imp (fun hlen => Nat.le_of_eq hlen) id

lemma isPlain_shownLine {l : JsString} (h : isOpen l = true ∨ isClose l = false) :
    IsPlain (shownLine l) := by
  rw [shownLine]
  split_ifs with hopen
  · exact isPlain_stripMarker hopen
  · exact ⟨Bool.not_eq_true _ ▸ hopen, h.resolve_left hopen⟩

/-! ## The lines of the body -/

lemma bodyLines_join {ls : List JsString} (hhead : ls.head? ≠ some []) (hls : ∀ l ∈ ls, nl ∉ l) :
    bodyLines (join nl ls) = ls := by
  rw [bodyLines]
  split_ifs with hempty
  · exact ((join_eq_nil_iff hhead).mp hempty).symm
  · refine splitOn_join hls ?_
    rintro rfl
    exact hempty rfl

lemma body_eq (s : JsString) : (finalizeBannerBody s).body = join nl (scanned s).kept := by
  rw [finalizeBannerBody_eq]
  rfl

lemma bodyLines_body (s : JsString) :
    bodyLines (finalizeBannerBody s).body = (scanned s).kept := by
  rw [body_eq]
  exact bodyLines_join (wf_scanned s).head_ne (nl_notMem_kept s)

/-- Up to some line the machine has kept nothing exactly if the scanner has nothing. -/
lemma cleaned_eq_nil_iff (ls : List JsString) :
    (ls.foldl scanLine {}).cleaned = [] ↔ (Fold.Machine.init.run (ls.map lineToken)).kept = [] := by
  have hinit : Refines {} (Fold.Machine.init : Fold.Machine UInt16) := ⟨rfl, rfl, rfl, rfl⟩
  obtain ⟨hrun, hwf⟩ := refines_foldl hinit Fold.Machine.wf_init ls
  rw [hrun.cleaned]
  exact join_eq_nil_iff hwf.head_ne

/-! ## A second pass -/

/-- Plain lines of which the first is not blank are left as they are. -/
lemma finalizeBannerBody_plain {ls : List JsString} (hhead : ls.head? ≠ some [])
    (hnl : ∀ l ∈ ls, nl ∉ l) (hplain : ∀ l ∈ ls, IsPlain l) :
    finalizeBannerBody (join nl ls) = ⟨join nl ls, [], []⟩ := by
  by_cases hne : ls = []
  · subst hne
    rfl
  · have htokens : ((join nl ls).splitOn nl).map lineToken = (Fold.Forest.ofLines ls).tokens := by
      rw [splitOn_join hnl hne, Fold.Forest.tokens_ofLines]
      exact List.map_congr_left fun l hl => lineToken_of_isPlain (hplain l hl)
    have hdrop : (Fold.Forest.ofLines ls).dropBlank = Fold.Forest.ofLines ls := by
      match ls with
      | [] => rfl
      | [] :: ls => exact absurd rfl hhead
      | (c :: l) :: ls => rfl
    rw [finalizeBannerBody_forest htokens, Fold.Forest.prune_ofLines, hdrop, renderForest]
    simp

/-- **No content is lost and no marker is left.**  The body of any text is made of lines of the text
at increasing places: plain lines as they are, and opening markers without their marker character.
Every plain line is there, except a blank one met while nothing had been kept.  No line of the body
is a marker, and a second pass returns the same body with no ranges. -/
theorem finalizeBannerBody_content (s : JsString) :
    let ls := s.splitOn nl
    let r := finalizeBannerBody s
    (∃ is : List ℕ, is.Pairwise (· < ·)
        ∧ (bodyLines r.body).map some = is.map (fun i => ls[i]?.map shownLine)
        ∧ (∀ i ∈ is, ∀ l, ls[i]? = some l → isOpen l ∨ IsPlain l)
        ∧ ∀ i l, ls[i]? = some l → IsPlain l →
          (i ∈ is ↔ ¬ (l = [] ∧ ((ls.take i).foldl scanLine {}).cleaned = [])))
      ∧ (∀ l ∈ bodyLines r.body, IsPlain l)
      ∧ finalizeBannerBody r.body = ⟨r.body, [], []⟩ := by
  intro ls r
  obtain ⟨is, his⟩ := Fold.exists_origins (bannered_lines ls)
  have hplain : ∀ k ∈ (scanned s).kept, IsPlain k := by
    intro k hk
    obtain ⟨i, -, l, -, hkind, rfl⟩ := exists_origin his hk
    exact isPlain_shownLine hkind
  rw [show bodyLines r.body = (scanned s).kept from bodyLines_body s]
  refine ⟨⟨is, his.increasing, map_some_kept his, ?_, ?_⟩, hplain, ?_⟩
  · intro i hi l hl
    obtain ⟨l', hl', hkind, -⟩ := origin_line his hi
    obtain rfl : l = l' := Option.some.inj (hl.symm.trans hl')
    by_cases hopen : isOpen l
    · exact Or.inl hopen
    · exact Or.inr ⟨Bool.not_eq_true _ ▸ hopen, hkind.resolve_left hopen⟩
  · intro i l hl hl'
    have htoken : (ls.map lineToken)[i]? = some (.line l) := by
      rw [List.getElem?_map, hl, Option.map_some, lineToken_of_isPlain hl']
    rw [his.lines i l htoken, cleaned_eq_nil_iff, List.map_take]
  · rw [show r.body = join nl (scanned s).kept from body_eq s]
    exact finalizeBannerBody_plain (wf_scanned s).head_ne (nl_notMem_kept s) hplain

end VerusExplorer
