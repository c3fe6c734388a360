import VerusExplorer.Dump.Scanner
import VerusExplorer.Lib.FoldRuns

/-!
# The ranges the editor may fold

What `finalizeBannerBody` (`public/app.js`) returns for any text, balanced or not: the editor is
given well formed ranges only.

* `FoldRange.Apart` — nested or disjoint, and not from the same place.
* `scanned` — the kept lines and their spans, of which the result is the text and the offsets.
* **`finalizeBannerBody_ranges`** — every range runs from the end of a banner line to the end of a
  later line.
-/

namespace VerusExplorer

open Utf16 Lines

/-- Two ranges of which one ends before the other starts, or one starts inside the other and ends no
later. -/
def FoldRange.Apart (r t : FoldRange) : Prop :=
  r.toPos < t.fromPos ∨ t.toPos < r.fromPos ∨ (r.fromPos < t.fromPos ∧ t.toPos ≤ r.toPos)
    ∨ (t.fromPos < r.fromPos ∧ r.toPos ≤ t.toPos)

/-- What the machine makes of the lines of a body. -/
def scanned (body : JsString) : Fold.Machine UInt16 :=
  Fold.Machine.init.run ((body.splitOn nl).map lineToken)

lemma bannered_lines (ls : List JsString) : Fold.Bannered (ls.map lineToken) := by
  intro auto b hb
  obtain ⟨l, -, hl⟩ := List.mem_map.mp hb
  exact banner_ne_nil hl

lemma wf_scanned (body : JsString) : (scanned body).WF :=
  Fold.wf_run Fold.Machine.wf_init (bannered_lines _)

lemma laminar_scanned (body : JsString) : Fold.Laminar (scanned body) :=
  Fold.laminar_run Fold.Machine.wf_init Fold.laminar_init (bannered_lines _)

/-! ## Lines and offsets -/

lemma lineEnd_le_lineEnd {ls : List JsString} {i j : ℕ} (hij : i ≤ j) (hj : j < ls.length) :
    lineEnd ls i ≤ lineEnd ls j := by
  rcases Nat.lt_or_eq_of_le hij with h | rfl
  · exact Nat.le_of_lt (lineEnd_strictMono h hj)
  · exact Nat.le_refl _

lemma rangeOf_apart {ls : List JsString} {s t : Fold.Span} (hs : s.first < s.last)
    (ht : t.first < t.last) (hsl : s.last < ls.length) (htl : t.last < ls.length)
    (h : s.Apart t) : (rangeOf ls s).Apart (rangeOf ls t) := by
  rcases h with h | h | ⟨h, hle⟩ | ⟨h, hle⟩
  · exact Or.inl (lineEnd_strictMono h (by omega))
  · exact Or.inr (Or.inl (lineEnd_strictMono h (by omega)))
  · exact Or.inr (Or.inr (Or.inl ⟨lineEnd_strictMono h (by omega), lineEnd_le_lineEnd hle hsl⟩))
  · exact Or.inr (Or.inr (Or.inr ⟨lineEnd_strictMono h (by omega), lineEnd_le_lineEnd hle htl⟩))

lemma FoldRange.Apart.fromPos_ne {r t : FoldRange} (hr : r.fromPos < r.toPos)
    (ht : t.fromPos < t.toPos) (h : r.Apart t) : r.fromPos ≠ t.fromPos := by
  rcases h with h | h | ⟨h, -⟩ | ⟨h, -⟩
  · omega
  · omega
  · exact Nat.ne_of_lt h
  · exact Nat.ne_of_gt h

/-! ## The lines that are kept -/

lemma nl_notMem_stripMarker {l : JsString} (h : nl ∉ l) : nl ∉ stripMarker l := by
  intro hmem
  rcases List.mem_append.mp hmem with hmem | hmem
  · exact absurd hmem (by decide)
  · exact h (List.mem_of_mem_drop hmem)

/-- What is left of a line that is kept. -/
def shownLine (l : JsString) : JsString := if isOpen l then stripMarker l else l

lemma nl_notMem_shownLine {l : JsString} (h : nl ∉ l) : nl ∉ shownLine l := by
  rw [shownLine]
  split_ifs
  · exact nl_notMem_stripMarker h
  · exact h

/-- A line leaves something exactly if it does not close a section. -/
lemma text_lineToken {l b : JsString} (h : (lineToken l).text = some b) :
    shownLine l = b ∧ (isOpen l ∨ isClose l = false) := by
  rw [lineToken] at h
  rw [shownLine]
  split_ifs at h ⊢ with hopen hclose
  · exact ⟨Option.some.inj h, Or.inl hopen⟩
  · exact absurd h (by simp [Fold.Token.text])
  · exact ⟨Option.some.inj h, Or.inr (Bool.not_eq_true _ ▸ hclose)⟩

lemma lineToken_eq_opn {l b : JsString} {auto : Bool} (h : lineToken l = .opn auto b) :
    isOpen l ∧ b = stripMarker l := by
  rw [lineToken] at h
  split_ifs at h with hopen
  exact ⟨hopen, (Fold.Token.opn.inj h).2.symm⟩

section Kept

variable {ls : List JsString} {is : List ℕ} {m : Fold.Machine UInt16}

/-- The line that a kept line comes from. -/
lemma origin_line (h : Fold.Origins (ls.map lineToken) is m) {i : ℕ} (hi : i ∈ is) :
    ∃ l, ls[i]? = some l ∧ (isOpen l ∨ isClose l = false)
      ∧ (ls.map lineToken)[i]?.bind Fold.Token.text = some (shownLine l) := by
  have hmem : (ls.map lineToken)[i]?.bind Fold.Token.text ∈ m.kept.map some :=
    h.kept ▸ List.mem_map_of_mem (f := fun i => (ls.map lineToken)[i]?.bind Fold.Token.text) hi
  obtain ⟨b, -, hb⟩ := List.mem_map.mp hmem
  obtain ⟨t, ht, htext⟩ := Option.bind_eq_some_iff.mp hb.symm
  rw [List.getElem?_map] at ht
  obtain ⟨l, hl, rfl⟩ := Option.map_eq_some_iff.mp ht
  obtain ⟨hshown, hkind⟩ := text_lineToken htext
  exact ⟨l, hl, hkind, by rw [← hb, hshown]⟩

/-- The kept lines are what is left of the lines they come from. -/
lemma map_some_kept (h : Fold.Origins (ls.map lineToken) is m) :
    m.kept.map some = is.map (fun i => ls[i]?.map shownLine) := by
  refine h.kept.symm.trans (List.map_congr_left fun i hi => ?_)
  obtain ⟨l, hl, -, htext⟩ := origin_line h hi
  rw [htext, hl, Option.map_some]

/-- A kept line, with the line it comes from. -/
lemma exists_origin (h : Fold.Origins (ls.map lineToken) is m) {k : JsString} (hk : k ∈ m.kept) :
    ∃ i ∈ is, ∃ l, ls[i]? = some l ∧ (isOpen l ∨ isClose l = false) ∧ k = shownLine l := by
  have hmem : some k ∈ is.map (fun i => ls[i]?.map shownLine) :=
    map_some_kept h ▸ List.mem_map_of_mem hk
  obtain ⟨i, hi, hsome⟩ := List.mem_map.mp hmem
  obtain ⟨l, hl, hkind, -⟩ := origin_line h hi
  rw [hl, Option.map_some, Option.some.injEq] at hsome
  exact ⟨i, hi, l, hl, hkind, hsome.symm⟩

end Kept

lemma nl_notMem_kept (body : JsString) : ∀ k ∈ (scanned body).kept, nl ∉ k := by
  obtain ⟨is, his⟩ := Fold.exists_origins (bannered_lines (body.splitOn nl))
  intro k hk
  obtain ⟨i, -, l, hl, -, rfl⟩ := exists_origin his hk
  exact nl_notMem_shownLine (not_mem_of_mem_splitOn (List.mem_of_getElem? hl))

/-- The line a span starts with is the banner of an opening marker. -/
lemma banner_of_mem_finish {body : JsString} {s : Fold.Span} (hs : s ∈ (scanned body).finish) :
    ∃ l ∈ body.splitOn nl, isOpen l ∧ (scanned body).kept[s.first]? = some (stripMarker l) := by
  obtain ⟨is, his⟩ := Fold.exists_origins (bannered_lines (body.splitOn nl))
  obtain ⟨i, hi, b, hb⟩ := his.opensAt_of_mem_finish hs
  rw [List.getElem?_map] at hb
  obtain ⟨l, hl, htoken⟩ := Option.map_eq_some_iff.mp hb
  have hopen : isOpen l := (lineToken_eq_opn htoken).1
  have hkept := congrArg (·[s.first]?) (map_some_kept his)
  simp only [List.getElem?_map, hi, hl, Option.map_some, shownLine, if_pos hopen] at hkept
  obtain ⟨k, hk, hsome⟩ := Option.map_eq_some_iff.mp hkept
  exact ⟨l, List.mem_of_getElem? hl, hopen, hk.trans hsome⟩

/-- The line that ends at the end of a line is that line. -/
lemma getLast?_splitOn_take {ls : List JsString} (hls : ∀ l ∈ ls, nl ∉ l) {i : ℕ} {b : JsString}
    (hb : ls[i]? = some b) :
    (((join nl ls).take (lineEnd ls i)).splitOn nl).getLast? = some b := by
  obtain ⟨hi, rfl⟩ := List.getElem?_eq_some_iff.mp hb
  have hne : ls.take (i + 1) ≠ [] := List.ne_nil_of_length_pos (by simp; omega)
  rw [take_lineEnd nl hi, splitOn_join (fun l hl => hls l (List.mem_of_mem_take hl)) hne,
    List.take_succ_eq_append_getElem hi, List.getLast?_concat]

/-- **Fold ranges are well formed.**  On any text every range runs from the end of a banner line,
where a newline stands, to the end of a later line; two ranges are nested or disjoint and start at
different places; and the ranges folded at first are some of them, in the same order. -/
theorem finalizeBannerBody_ranges (body : JsString) :
    let r := finalizeBannerBody body
    (∀ g ∈ r.foldable,
      0 < g.fromPos ∧ g.fromPos < g.toPos ∧ g.toPos ≤ r.body.length
        ∧ r.body[g.fromPos]? = some nl
        ∧ (∃ l ∈ body.splitOn nl, isOpen l
          ∧ ((r.body.take g.fromPos).splitOn nl).getLast? = some (stripMarker l))
        ∧ (g.toPos = r.body.length ∨ r.body[g.toPos]? = some nl))
      ∧ r.foldable.Pairwise (fun g g' => g.Apart g' ∧ g.fromPos ≠ g'.fromPos)
      ∧ r.autoFolded.Sublist r.foldable := by
  intro r
  have hwf := wf_scanned body
  have hspan := fun s hs => Fold.first_lt_of_mem_finish (s := s) hwf hs
  have hr : r = ⟨join nl (scanned body).kept,
      (scanned body).finish.map (rangeOf (scanned body).kept),
      ((scanned body).finish.filter (·.auto)).map (rangeOf (scanned body).kept)⟩ :=
    finalizeBannerBody_eq body
  rw [hr]
  refine ⟨?_, ?_, ?_⟩
  · intro g hg
    obtain ⟨s, hs, rfl⟩ := List.mem_map.mp hg
    obtain ⟨hlt, hlast⟩ := hspan s hs
    obtain ⟨l, hl, hopen, hbanner⟩ := banner_of_mem_finish hs
    have hline := getLast?_splitOn_take (nl_notMem_kept body) hbanner
    have hend := length_join nl (List.ne_nil_of_length_pos (Nat.zero_lt_of_lt hlast))
    refine ⟨?_, lineEnd_strictMono hlt hlast, ?_, getElem?_lineEnd nl (by omega),
      ⟨l, hl, hopen, hline⟩, ?_⟩
    · -- nothing but a blank line ends at the start of a text
      rcases Nat.eq_zero_or_pos (rangeOf (scanned body).kept s).fromPos with hzero | hpos
      · rw [show lineEnd (scanned body).kept s.first = 0 from hzero] at hline
        exact absurd (Option.some.inj hline).symm (stripMarker_ne_nil l)
      · exact hpos
    · exact le_of_le_of_eq (lineEnd_le_lineEnd (by omega) (by omega)) hend.symm
    · rcases Nat.lt_or_ge (s.last + 1) (scanned body).kept.length with hinner | houter
      · exact Or.inr (getElem?_lineEnd nl hinner)
      · left
        rw [hend, show (scanned body).kept.length - 1 = s.last by omega]
        rfl
  · rw [List.pairwise_map]
    refine (Fold.pairwise_finish (laminar_scanned body) hwf).imp_of_mem fun {s t} hs ht h => ?_
    obtain ⟨hs1, hs2⟩ := hspan s hs
    obtain ⟨ht1, ht2⟩ := hspan t ht
    have happart := rangeOf_apart hs1 ht1 hs2 ht2 h
    exact ⟨happart, happart.fromPos_ne (lineEnd_strictMono hs1 hs2) (lineEnd_strictMono ht1 ht2)⟩
  · exact List.filter_sublist.map _

end VerusExplorer
