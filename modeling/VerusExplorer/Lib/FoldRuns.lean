import VerusExplorer.Lib.Fold
import Mathlib.Data.List.Induction

/-!
# Runs of the folding machine on any text

What holds of `Fold.Machine` whatever it reads, balanced or not.

* `Laminar` — the recorded spans are nested or disjoint, and no open section starts inside one.
  `pairwise_finish` is what this says of the spans at the end of the text.
* `Origins` — which token each kept line comes from.  Deleting a section only takes back the token
  that opened it: that is the content of `Origins.cut`, and why no plain line is ever lost.
-/

namespace Fold

open Machine

variable {α : Type*}

/-! ## Spans are nested or disjoint -/

/-- Two spans of which one ends before the other starts, or one lies inside the other. -/
def Span.Apart (s t : Span) : Prop :=
  s.last < t.first ∨ t.last < s.first ∨ (s.first < t.first ∧ t.last ≤ s.last)
    ∨ (t.first < s.first ∧ s.last ≤ t.last)

/-- The spans of a state, and the sections that may still become one. -/
structure Laminar (m : Machine α) : Prop where
  spans : m.spans.Pairwise Span.Apart
  opened : ∀ s ∈ m.spans, ∀ o ∈ m.opened, s.last < o.banner ∨ o.banner < s.first

lemma laminar_init : Laminar (init : Machine α) := by
  constructor <;> simp [init]

lemma Laminar.close {m : Machine α} {o : Opening} {os : List Opening} (h : Laminar m) (hm : m.WF)
    (ho : m.opened = o :: os) : Laminar (Machine.close { m with opened := os } o) := by
  have hnest := hm.nested
  rw [ho, List.pairwise_cons] at hnest
  have hmem : ∀ {o'}, o' ∈ os → o' ∈ m.opened := fun h' => ho ▸ List.mem_cons_of_mem o h'
  have holt : o.banner < m.kept.length := hm.opened_lt o (by simp [ho])
  rw [Machine.close]
  split_ifs with hlen
  · exact ⟨h.spans, fun s hs o' ho' => h.opened s hs o' (hmem ho')⟩
  · simp only at hlen
    refine ⟨List.pairwise_append.mpr ⟨h.spans, List.pairwise_singleton _ _, ?_⟩, ?_⟩
    · intro s hs t ht
      rw [List.mem_singleton] at ht
      subst ht
      have hlast := hm.last_lt s hs
      rcases h.opened s hs o (by simp [ho]) with hbefore | hinside
      · exact Or.inl hbefore
      · exact Or.inr (Or.inr (Or.inr ⟨hinside, by simp only; omega⟩))
    · intro s hs o' ho'
      rcases List.mem_append.mp hs with hs | hs
      · exact h.opened s hs o' (hmem ho')
      · rw [List.mem_singleton] at hs
        subst hs
        exact Or.inr (hnest.1 o' ho')

lemma Laminar.step {m : Machine α} (h : Laminar m) (hm : m.WF) (t : Token α) :
    Laminar (m.step t) := by
  cases t with
  | opn auto b =>
      refine ⟨h.spans, fun s hs o ho => ?_⟩
      rcases List.mem_cons.mp ho with rfl | ho
      · exact Or.inl (hm.last_lt s hs)
      · exact h.opened s hs o ho
  | cls =>
      cases ho : m.opened with
      | nil => simpa only [Machine.step, ho] using h
      | cons o os => simpa only [Machine.step, ho] using h.close hm ho
  | line l =>
      simp only [Machine.step, keep]
      split_ifs with hblank
      · exact h
      · exact ⟨h.spans, h.opened⟩

/-- The tokens of a text whose banners are not blank. -/
def Bannered (ts : List (Token α)) : Prop := ∀ auto b, Token.opn auto b ∈ ts → b ≠ []

lemma Bannered.tail {t : Token α} {ts : List (Token α)} (h : Bannered (t :: ts)) : Bannered ts :=
  fun auto b hb => h auto b (List.mem_cons_of_mem t hb)

lemma Bannered.head {t : Token α} {ts : List (Token α)} (h : Bannered (t :: ts)) :
    ∀ auto b, t = .opn auto b → b ≠ [] :=
  fun auto b ht => h auto b (ht ▸ List.mem_cons_self)

lemma Bannered.init {t : Token α} {ts : List (Token α)} (h : Bannered (ts ++ [t])) : Bannered ts :=
  fun auto b hb => h auto b (List.mem_append_left _ hb)

lemma wf_run {ts : List (Token α)} {m : Machine α} (hm : m.WF) (hts : Bannered ts) :
    (m.run ts).WF := by
  induction ts generalizing m with
  | nil => exact hm
  | cons t ts ih => exact ih (hm.step hts.head) hts.tail

lemma laminar_run {ts : List (Token α)} {m : Machine α} (hm : m.WF) (h : Laminar m)
    (hts : Bannered ts) : Laminar (m.run ts) := by
  induction ts generalizing m with
  | nil => exact h
  | cons t ts ih => exact ih (hm.step hts.head) (h.step hm t) hts.tail

/-- What is recorded at the end of the text for the sections that are still open. -/
lemma mem_finish {m : Machine α} {s : Span} : s ∈ m.finish ↔ s ∈ m.spans
    ∨ ∃ o ∈ m.opened, o.banner + 1 < m.kept.length
      ∧ s = ⟨o.banner, m.kept.length - 1, o.auto⟩ := by
  rw [finish, List.mem_append, List.mem_filterMap]
  refine or_congr_right (exists_congr fun o => and_congr_right fun _ => ?_)
  split_ifs with hlen
  · simp [hlen, eq_comm]
  · simp [hlen]

lemma first_lt_of_mem_finish {m : Machine α} (hm : m.WF) {s : Span} (hs : s ∈ m.finish) :
    s.first < s.last ∧ s.last < m.kept.length := by
  rcases mem_finish.mp hs with hs | ⟨o, -, hlen, rfl⟩
  · exact ⟨hm.first_lt s hs, hm.last_lt s hs⟩
  · constructor
    · simp only
      omega
    · simp only
      omega

/-- **Spans are nested or disjoint** in the result of any run. -/
theorem pairwise_finish {m : Machine α} (h : Laminar m) (hm : m.WF) :
    m.finish.Pairwise Span.Apart := by
  refine List.pairwise_append.mpr ⟨h.spans, ?_, ?_⟩
  · -- two open sections both end where the text does, and one starts before the other
    rw [List.pairwise_filterMap]
    refine hm.nested.imp fun {o o'} hlt s hs t ht => ?_
    split_ifs at hs ht
    cases hs
    cases ht
    exact Or.inr (Or.inr (Or.inr ⟨hlt, Nat.le_refl _⟩))
  · intro s hs t ht
    obtain ⟨o, ho, hsome⟩ := List.mem_filterMap.mp ht
    split_ifs at hsome with hlen
    cases hsome
    have hlast := hm.last_lt s hs
    rcases h.opened s hs o ho with hbefore | hinside
    · exact Or.inl hbefore
    · exact Or.inr (Or.inr (Or.inr ⟨hinside, by simp only; omega⟩))

/-! ## Where the kept lines come from -/

/-- The line a token leaves where it is kept. -/
def Token.text : Token α → Option (List α)
  | .opn _ b => some b
  | .cls => none
  | .line l => some l

/-- `i` is the token that opened a section folded at first or not as `auto` says. -/
def OpensAt (ts : List (Token α)) (auto : Bool) (i : ℕ) : Prop := ∃ b, ts[i]? = some (.opn auto b)

lemma OpensAt.append {ts : List (Token α)} {auto : Bool} {i : ℕ} (h : OpensAt ts auto i)
    (t : Token α) :
    OpensAt (ts ++ [t]) auto i := by
  obtain ⟨b, hb⟩ := h
  have hi : i < ts.length := (List.getElem?_eq_some_iff.mp hb).1
  exact ⟨b, by rwa [List.getElem?_append_left hi]⟩

/-- `is` are the tokens whose lines were kept, in order. -/
structure Origins (ts : List (Token α)) (is : List ℕ) (m : Machine α) : Prop where
  increasing : is.Pairwise (· < ·)
  kept : is.map (fun i => ts[i]?.bind Token.text) = m.kept.map some
  /-- A plain line is kept unless it is blank and nothing has been kept before it. -/
  lines : ∀ i l, ts[i]? = some (.line l) →
    (i ∈ is ↔ ¬ (l = [] ∧ (init.run (ts.take i)).kept = []))
  opened : ∀ o ∈ m.opened, ∃ i, is[o.banner]? = some i ∧ OpensAt ts o.auto i
  spans : ∀ s ∈ m.spans, ∃ i, is[s.first]? = some i ∧ OpensAt ts s.auto i

lemma origins_nil : Origins ([] : List (Token α)) [] init where
  increasing := List.Pairwise.nil
  kept := rfl
  lines i l h := by simp at h
  opened o ho := absurd ho List.not_mem_nil
  spans s hs := absurd hs List.not_mem_nil

namespace Origins

variable {ts : List (Token α)} {is : List ℕ} {m : Machine α}

lemma length_eq (h : Origins ts is m) : is.length = m.kept.length := by
  simpa using congrArg List.length h.kept

lemma lt_length (h : Origins ts is m) {i : ℕ} (hi : i ∈ is) : i < ts.length := by
  have hmem : ts[i]?.bind Token.text ∈ m.kept.map some :=
    h.kept ▸ List.mem_map_of_mem (f := fun i => ts[i]?.bind Token.text) hi
  obtain ⟨l, -, hl⟩ := List.mem_map.mp hmem
  by_contra hge
  rw [List.getElem?_eq_none (Nat.le_of_not_lt hge)] at hl
  exact Option.some_ne_none l hl

/-- Tokens that were kept are still where they were after one more token. -/
lemma map_append (h : Origins ts is m) (t : Token α) :
    is.map (fun i => (ts ++ [t])[i]?.bind Token.text) = m.kept.map some := by
  rw [← h.kept]
  refine List.map_congr_left fun i hi => ?_
  rw [List.getElem?_append_left (h.lt_length hi)]

/-- A plain line of the longer text is one of the shorter one or the token that was added. -/
lemma lines_append (h : Origins ts is m) (t : Token α) {js : List ℕ}
    (hold : ∀ i l, ts[i]? = some (.line l) → (i ∈ js ↔ i ∈ is))
    (hnew : ∀ l, t = .line l → (ts.length ∈ js ↔ ¬ (l = [] ∧ (init.run ts).kept = []))) :
    ∀ i l, (ts ++ [t])[i]? = some (.line l) →
      (i ∈ js ↔ ¬ (l = [] ∧ (init.run ((ts ++ [t]).take i)).kept = [])) := by
  intro i l hl
  rcases Nat.lt_trichotomy i ts.length with hi | rfl | hi
  · rw [List.getElem?_append_left hi] at hl
    rw [List.take_append_of_le_length (Nat.le_of_lt hi), hold i l hl, h.lines i l hl]
  · rw [List.getElem?_concat_length] at hl
    rw [List.take_left, hnew l (Option.some.inj hl)]
  · have hge : (ts ++ [t]).length ≤ i := by
      rw [List.length_append, List.length_singleton]
      exact hi
    rw [List.getElem?_eq_none hge] at hl
    exact absurd hl (by simp)

lemma getElem?_concat {n i : ℕ} (hn : is[n]? = some i) (j : ℕ) :
    (is ++ [j])[n]? = some i := by
  rw [List.getElem?_append_left (List.getElem?_eq_some_iff.mp hn).1, hn]

/-- One more token that is kept. -/
lemma concat (h : Origins ts is m) {t : Token α} {l : List α} (ht : t.text = some l)
    {opened : List Opening}
    (hlines : ∀ l', t = .line l' → ¬ (l' = [] ∧ (init.run ts).kept = []))
    (hopened : ∀ o ∈ opened, o ∈ m.opened
      ∨ (o.banner = m.kept.length ∧ ∃ b, t = .opn o.auto b)) :
    Origins (ts ++ [t]) (is ++ [ts.length]) { m with kept := m.kept ++ [l], opened } where
  increasing := by
    refine List.pairwise_append.mpr ⟨h.increasing, List.pairwise_singleton _ _, ?_⟩
    intro i hi j hj
    rw [List.mem_singleton.mp hj]
    exact h.lt_length hi
  kept := by
    rw [List.map_append, h.map_append t, List.map_append]
    simp [ht]
  lines := by
    refine h.lines_append t (fun i l hl => ?_) fun l' hl' => ?_
    · have hi : i < ts.length := (List.getElem?_eq_some_iff.mp hl).1
      rw [List.mem_append, List.mem_singleton, or_iff_left (Nat.ne_of_lt hi)]
    · exact iff_of_true (List.mem_append_right _ List.mem_cons_self) (hlines l' hl')
  opened o ho := by
    rcases hopened o ho with hold | ⟨hlast, b, rfl⟩
    · obtain ⟨i, hi, hopn⟩ := h.opened o hold
      exact ⟨i, getElem?_concat hi _, hopn.append t⟩
    · refine ⟨ts.length, ?_, b, List.getElem?_concat_length⟩
      rw [hlast, ← h.length_eq, List.getElem?_concat_length]
  spans s hs := by
    obtain ⟨i, hi, hopn⟩ := h.spans s hs
    exact ⟨i, getElem?_concat hi _, hopn.append t⟩

/-- One more token that leaves no line. -/
lemma skip (h : Origins ts is m) {t : Token α}
    (hlines : ∀ l, t = .line l → l = [] ∧ (init.run ts).kept = []) :
    Origins (ts ++ [t]) is m where
  increasing := h.increasing
  kept := h.map_append t
  lines := by
    refine h.lines_append t (fun i l _ => Iff.rfl) fun l hl => ?_
    exact iff_of_false (fun hmem => Nat.lt_irrefl _ (h.lt_length hmem)) (not_not.mpr (hlines l hl))
  opened o ho := by
    obtain ⟨i, hi, hopn⟩ := h.opened o ho
    exact ⟨i, hi, hopn.append t⟩
  spans s hs := by
    obtain ⟨i, hi, hopn⟩ := h.spans s hs
    exact ⟨i, hi, hopn.append t⟩

/-- Deleting the innermost section.  Nothing was kept since its banner, so the only token taken back
is the one that opened it. -/
lemma cut (h : Origins ts is m) (hm : m.WF) {o : Opening} {os : List Opening}
    (ho : m.opened = o :: os) (hlen : m.kept.length = o.banner + 1) :
    Origins ts (is.take o.banner) { m with kept := m.kept.take o.banner, opened := os } := by
  obtain ⟨i₀, hi₀, b₀, hb₀⟩ := h.opened o (by simp [ho])
  have hnest := hm.nested
  rw [ho, List.pairwise_cons] at hnest
  have hsplit : is = is.take o.banner ++ [i₀] := by
    have hlt : o.banner < is.length := (List.getElem?_eq_some_iff.mp hi₀).1
    have hall : is = is.take (o.banner + 1) :=
      (List.take_of_length_le (Nat.le_of_eq (by rw [h.length_eq, hlen]))).symm
    rw [List.getElem?_eq_getElem hlt] at hi₀
    rw [← Option.some.inj hi₀, ← List.take_succ_eq_append_getElem hlt]
    exact hall
  refine ⟨h.increasing.sublist (List.take_sublist _ _), ?_, ?_, ?_, ?_⟩
  · rw [List.map_take, h.kept, List.map_take]
  · intro i l hl
    rw [← h.lines i l hl]
    refine ⟨List.mem_of_mem_take, fun hi => ?_⟩
    rw [hsplit] at hi
    rcases List.mem_append.mp hi with hi | hi
    · exact hi
    · rw [List.mem_singleton.mp hi, hb₀] at hl
      exact absurd hl (by simp)
  · intro o' ho'
    obtain ⟨i, hi, hopn⟩ := h.opened o' (ho ▸ List.mem_cons_of_mem o ho')
    exact ⟨i, by rw [List.getElem?_take_of_lt (hnest.1 o' ho'), hi], hopn⟩
  · intro s hs
    obtain ⟨i, hi, hopn⟩ := h.spans s hs
    have h1 := hm.first_lt s hs
    have h2 := hm.last_lt s hs
    have h3 := hm.last_ne s hs o (by simp [ho])
    exact ⟨i, by rw [List.getElem?_take_of_lt (by omega), hi], hopn⟩

lemma close (h : Origins ts is m) (hm : m.WF) {o : Opening} {os : List Opening}
    (ho : m.opened = o :: os) : ∃ js, Origins ts js (Machine.close { m with opened := os } o) := by
  rw [Machine.close]
  split_ifs with hlen
  · exact ⟨_, h.cut hm ho hlen⟩
  · refine ⟨is, h.increasing, h.kept, h.lines, ?_, ?_⟩
    · intro o' ho'
      exact h.opened o' (ho ▸ List.mem_cons_of_mem o ho')
    · intro s hs
      rcases List.mem_append.mp hs with hs | hs
      · exact h.spans s hs
      · rw [List.mem_singleton] at hs
        subst hs
        exact h.opened o (by simp [ho])

/-- One more token, from a state that a run has reached. -/
lemma step (h : Origins ts is (init.run ts)) (hm : (init.run ts).WF) (t : Token α) :
    ∃ js, Origins (ts ++ [t]) js ((init.run ts).step t) := by
  cases t with
  | opn auto b =>
      refine ⟨_, h.concat rfl (fun l' hl' => absurd hl' (by simp)) fun o ho => ?_⟩
      rcases List.mem_cons.mp ho with rfl | ho
      · exact Or.inr ⟨rfl, b, rfl⟩
      · exact Or.inl ho
  | cls =>
      have hskip : Origins (ts ++ [.cls]) is (init.run ts) :=
        h.skip fun l hl => absurd hl (by simp)
      cases ho : (init.run ts).opened with
      | nil =>
          simp only [Machine.step, ho]
          exact ⟨is, hskip⟩
      | cons o os =>
          simp only [Machine.step, ho]
          exact hskip.close hm ho
  | line l =>
      simp only [Machine.step, keep]
      split_ifs with hblank
      · refine ⟨is, h.skip fun l' hl' => ?_⟩
        cases hl'
        exact ⟨hblank.2, hblank.1⟩
      · refine ⟨_, h.concat rfl (fun l' hl' => ?_) fun o ho => Or.inl ho⟩
        cases hl'
        exact fun hb => hblank ⟨hb.2, hb.1⟩

end Origins

/-- **Every kept line comes from a token of its own**, whatever the text. -/
theorem exists_origins {ts : List (Token α)} (hts : Bannered ts) :
    ∃ is, Origins ts is (init.run ts) := by
  induction ts using List.reverseRecOn with
  | nil => exact ⟨[], origins_nil⟩
  | append_singleton ts t ih =>
      obtain ⟨is, his⟩ := ih hts.init
      rw [run_append]
      exact his.step (wf_run wf_init hts.init) t

/-- The spans at the end of the text start at banners. -/
lemma Origins.opensAt_of_mem_finish {ts : List (Token α)} {is : List ℕ} {m : Machine α}
    (h : Origins ts is m) {s : Span} (hs : s ∈ m.finish) :
    ∃ i, is[s.first]? = some i ∧ OpensAt ts s.auto i := by
  rcases mem_finish.mp hs with hs | ⟨o, ho, -, rfl⟩
  · exact h.spans s hs
  · exact h.opened o ho

end Fold
