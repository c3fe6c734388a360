import VerusExplorer.Lib.Fold
import VerusExplorer.Lib.Lines
import Mathlib.Data.List.Induction

/-!
# What is seen of a folded text

Closing a section hides the lines behind its banner.  A program hides offsets of a text, a reader
thinks of the tree.

* `without` — a list less what stands at some places, for a list of units as for a list of lines.
* **`without_join`** — a text from which units are hidden, the same for all of a line with the
  newline before it, is the text of the lines that are left.
* `Forest.view` — the lines of a forest some of whose sections are closed.
* **`Forest.without_lines`** — these are the lines that no closed span hides.
-/

namespace Lines

variable {α : Type*}

/-- The list less what stands at the hidden places, when it starts at place `p`. -/
def without (hidden : ℕ → Bool) : ℕ → List α → List α
  | _, [] => []
  | p, a :: s => if hidden p then without hidden (p + 1) s else a :: without hidden (p + 1) s

section Without

variable {hidden : ℕ → Bool}

lemma without_append (s t : List α) (p : ℕ) :
    without hidden p (s ++ t) = without hidden p s ++ without hidden (p + s.length) t := by
  induction s generalizing p with
  | nil => rfl
  | cons a s ih =>
      rw [List.cons_append, without, without, ih, List.length_cons, Nat.add_assoc, Nat.add_comm 1]
      split_ifs
      · rfl
      · rfl

lemma without_congr {hidden' : ℕ → Bool} {s : List α} {p : ℕ}
    (h : ∀ k, p ≤ k → k < p + s.length → hidden k = hidden' k) :
    without hidden p s = without hidden' p s := by
  induction s generalizing p with
  | nil => rfl
  | cons a s ih =>
      rw [List.length_cons] at h
      rw [without, without, h p le_rfl (by omega), ih fun k hk hlt => h k (by omega) (by omega)]

lemma without_of_hidden {s : List α} {p : ℕ}
    (h : ∀ k, p ≤ k → k < p + s.length → hidden k = true) : without hidden p s = [] := by
  induction s generalizing p with
  | nil => rfl
  | cons a s ih =>
      rw [List.length_cons] at h
      rw [without, h p le_rfl (by omega), if_pos rfl, ih fun k hk hlt => h k (by omega) (by omega)]

lemma without_of_shown {s : List α} {p : ℕ}
    (h : ∀ k, p ≤ k → k < p + s.length → hidden k = false) : without hidden p s = s := by
  induction s generalizing p with
  | nil => rfl
  | cons a s ih =>
      rw [List.length_cons] at h
      rw [without, h p le_rfl (by omega), if_neg Bool.false_ne_true,
        ih fun k hk hlt => h k (by omega) (by omega)]

end Without

/-- **Hiding whole lines.**  The first line is shown, and any other line is hidden together with the
newline before it. -/
theorem without_join (nl : α) {hidden hiddenLine : ℕ → Bool} (hfirst : hiddenLine 0 = false)
    {ls : List (List α)} (hne : ls ≠ []) (hzero : ∀ p < lineEnd ls 0, hidden p = false)
    (hline : ∀ i p, i + 1 < ls.length → lineEnd ls i ≤ p → p < lineEnd ls (i + 1) →
      hidden p = hiddenLine (i + 1)) :
    without hidden 0 (join nl ls) = join nl (without hiddenLine 0 ls) := by
  induction ls using List.reverseRecOn with
  | nil => exact absurd rfl hne
  | append_singleton ls l ih =>
      by_cases hls : ls = []
      · subst hls
        have hend : lineEnd [l] 0 = l.length := by simp [lineEnd]
        have hshown : without hidden 0 l = l := without_of_shown fun k _ hk => hzero k (by
          rw [List.nil_append, hend]
          omega)
        rw [List.nil_append, join_singleton, hshown, without, hfirst, if_neg Bool.false_ne_true,
          without, join_singleton]
      · have hpos := List.length_pos_iff.mpr hls
        have hend : ∀ i < ls.length, lineEnd (ls ++ [l]) i = lineEnd ls i :=
          fun i hi => lineEnd_append [l] hi
        have hlength : (ls ++ [l]).length = ls.length + 1 := by simp
        have hfront := ih hls (fun p hp => hzero p (by rwa [hend 0 hpos])) fun i p hi hle hlt =>
          hline i p (by omega) (by rwa [hend i (by omega)]) (by rwa [hend (i + 1) hi])
        obtain ⟨n, hn⟩ : ∃ n, ls.length = n + 1 := ⟨ls.length - 1, by omega⟩
        have hjoin : (join nl ls).length = lineEnd ls n := by
          rw [length_join nl hls, hn, Nat.add_sub_cancel]
        have hlast : ∀ k, lineEnd ls n ≤ k → k < lineEnd ls n + (nl :: l).length →
            hidden k = hiddenLine (n + 1) := by
          intro k hle hlt
          refine hline n k (by omega) (by rwa [hend n (by omega)]) ?_
          have hget : ∀ h, (ls ++ [l]).get ⟨n + 1, h⟩ = l := by simp [← hn]
          rw [lineEnd_succ (by omega), hend n (by omega), hget]
          rw [List.length_cons] at hlt
          omega
        have hkeep : without hiddenLine 0 ls ≠ [] := by
          cases ls with
          | nil => exact absurd rfl hls
          | cons k ls =>
              rw [without, hfirst, if_neg Bool.false_ne_true]
              exact List.cons_ne_nil _ _
        rw [join_append nl hls (List.cons_ne_nil _ _), join_singleton, without_append, hfront,
          hjoin, Nat.zero_add, without_append, Nat.zero_add, hn]
        cases hhidden : hiddenLine (n + 1) with
        | true =>
            rw [without_of_hidden fun k hle hlt => (hlast k hle hlt).trans hhidden, without,
              hhidden, if_pos rfl, without, List.append_nil, List.append_nil]
        | false =>
            rw [without_of_shown fun k hle hlt => (hlast k hle hlt).trans hhidden, without,
              hhidden, if_neg Bool.false_ne_true, without,
              join_append nl hkeep (List.cons_ne_nil _ _), join_singleton]

end Lines

namespace Fold

variable {α : Type*}

/-- The lines behind the banner. -/
def Span.hides (s : Span) (j : ℕ) : Bool := s.first < j && j ≤ s.last

def hiddenBy (closed : List Span) (j : ℕ) : Bool := closed.any fun s => s.hides j

lemma Span.hides_iff {s : Span} {j : ℕ} : s.hides j = true ↔ s.first < j ∧ j ≤ s.last := by
  rw [Span.hides, Bool.and_eq_true, decide_eq_true_eq, decide_eq_true_eq]

lemma hiddenBy_append (closed closed' : List Span) (j : ℕ) :
    hiddenBy (closed ++ closed') j = (hiddenBy closed j || hiddenBy closed' j) :=
  List.any_append

lemma hiddenBy_eq_false {closed : List Span} {j : ℕ}
    (h : ∀ s ∈ closed, j ≤ s.first ∨ s.last < j) : hiddenBy closed j = false := by
  refine List.any_eq_false.mpr fun s hs => ?_
  rw [Span.hides_iff]
  have := h s hs
  omega

namespace Forest

/-- The lines of a forest that starts at line `i` when some sections are closed. -/
def view (closed : Span → Bool) : ℕ → Forest α → List (List α)
  | _, nil => []
  | i, line l rest => l :: rest.view closed (i + 1)
  | i, sect auto b kids rest =>
      b :: (if closed ⟨i, i + kids.lines.length, auto⟩ then [] else kids.view closed (i + 1))
        ++ rest.view closed (i + 1 + kids.lines.length)

lemma mem_spans_bounds {s : Span} :
    ∀ {f : Forest α} {i : ℕ}, s ∈ f.spans i →
      i ≤ s.first ∧ s.first ≤ s.last ∧ s.last < i + f.lines.length
  | nil, _, h => absurd h List.not_mem_nil
  | line l rest, i, h => by
      have := mem_spans_bounds (f := rest) h
      rw [lines, List.length_cons]
      omega
  | sect auto b kids rest, i, h => by
      rw [lines, List.length_append, List.length_cons]
      rcases List.mem_append.mp h with h | h
      · have := mem_spans_bounds h
        omega
      · rcases List.mem_cons.mp h with rfl | h
        · dsimp only
          omega
        · have := mem_spans_bounds h
          omega

variable (closed : Span → Bool)

/-- Closed spans hide no lines in front of the forest and none behind it. -/
lemma hiddenBy_spans_outside {f : Forest α} {i j : ℕ} (h : j ≤ i ∨ i + f.lines.length ≤ j) :
    hiddenBy ((f.spans i).filter closed) j = false :=
  hiddenBy_eq_false fun s hs => by
    have := mem_spans_bounds (List.mem_of_mem_filter hs)
    omega

/-- **The view of the tree** is what is left when the lines of the closed spans are hidden. -/
theorem without_lines : ∀ (f : Forest α) (i : ℕ),
    Lines.without (hiddenBy ((f.spans i).filter closed)) i f.lines = f.view closed i
  | nil, _ => rfl
  | line l rest, i => by
      have hshown : hiddenBy ((rest.spans (i + 1)).filter closed) i = false :=
        hiddenBy_spans_outside closed (.inl (Nat.le_succ i))
      rw [lines, spans, Lines.without, hshown, if_neg Bool.false_ne_true, without_lines rest,
        view]
  | sect auto b kids rest, i => by
      let own : Span := ⟨i, i + kids.lines.length, auto⟩
      let after := i + 1 + kids.lines.length
      have hkids := without_lines kids (i + 1)
      have hrest := without_lines rest after
      -- what hides a line depends on where it is: at the banner, among the children or behind
      have hsplit : ∀ j, hiddenBy (((sect auto b kids rest).spans i).filter closed) j
          = (hiddenBy ((kids.spans (i + 1)).filter closed) j
            || (closed own && own.hides j) || hiddenBy ((rest.spans after).filter closed) j) := by
        intro j
        rw [spans, List.filter_append, hiddenBy_append, List.filter_cons, Bool.or_assoc]
        cases hown : closed own with
        | false => rw [if_neg Bool.false_ne_true, Bool.false_and, Bool.false_or]
        | true =>
            rw [if_pos rfl, Bool.true_and]
            rfl
      have hbanner : hiddenBy (((sect auto b kids rest).spans i).filter closed) i = false := by
        have hself : own.hides i = false := by simp [Span.hides, own]
        rw [hsplit, hiddenBy_spans_outside closed (.inl (by omega)), hself,
          hiddenBy_spans_outside closed (.inl (by omega)), Bool.and_false, Bool.or_false,
          Bool.or_false]
      have hbehind : Lines.without (hiddenBy (((sect auto b kids rest).spans i).filter closed))
          after rest.lines = rest.view closed after := by
        rw [← hrest]
        refine Lines.without_congr fun j hj _ => ?_
        have hself : own.hides j = false := by
          rw [← Bool.not_eq_true, Span.hides_iff]
          simp only [own]
          omega
        rw [hsplit, hiddenBy_spans_outside closed (.inr hj), hself, Bool.and_false,
          Bool.or_false, Bool.false_or]
      have hinside : Lines.without (hiddenBy (((sect auto b kids rest).spans i).filter closed))
          (i + 1) kids.lines = if closed own then [] else kids.view closed (i + 1) := by
        cases hown : closed own with
        | true =>
            rw [if_pos rfl]
            refine Lines.without_of_hidden fun j hj hlt => ?_
            have hself : own.hides j = true := by
              rw [Span.hides_iff]
              simp only [own]
              omega
            rw [hsplit, hown, hself, Bool.true_and, Bool.or_true, Bool.true_or]
        | false =>
            rw [if_neg Bool.false_ne_true, ← hkids]
            refine Lines.without_congr fun j _ hlt => ?_
            have hafter : hiddenBy ((rest.spans after).filter closed) j = false :=
              hiddenBy_spans_outside closed (.inl hlt.le)
            rw [hsplit, hown, hafter, Bool.false_and, Bool.or_false, Bool.or_false]
      rw [lines, List.cons_append, Lines.without, hbanner, if_neg Bool.false_ne_true,
        Lines.without_append, hinside, hbehind]
      rfl

/-! ### Closing sections by their marks -/

lemma view_append (f g : Forest α) :
    ∀ i, (f.append g).view closed i = f.view closed i ++ g.view closed (i + f.lines.length) := by
  induction f with
  | nil => exact fun _ => rfl
  | line l rest ih =>
      intro i
      rw [append, view, view, ih, lines, List.length_cons, List.cons_append, Nat.add_assoc,
        Nat.add_comm 1]
  | sect auto b kids rest _ ih =>
      intro i
      rw [append, view, view, ih, lines, List.length_append, List.length_cons]
      simp [Nat.add_assoc, Nat.add_comm]

/-- Where the sections that are closed do not depend on their places, nor does the view. -/
lemma view_auto (f : Forest α) : ∀ i, f.view Span.auto i = f.view Span.auto 0 := by
  induction f with
  | nil => exact fun _ => rfl
  | line l rest ih =>
      intro i
      rw [view, view, ih, ih (0 + 1)]
  | sect auto b kids rest ihKids ih =>
      intro i
      rw [view, view, ih, ih (0 + 1 + _), ihKids, ihKids (0 + 1)]

lemma view_concat_auto (fs : List (Forest α)) (i : ℕ) :
    (concat fs).view Span.auto i = fs.flatMap fun f => f.view Span.auto 0 := by
  induction fs generalizing i with
  | nil => rfl
  | cons f fs ih =>
      rw [List.flatMap_cons, ← ih (i + f.lines.length), ← view_auto f i, ← view_append]
      rfl

lemma view_ofLines (ls : List (List α)) : ∀ i, (ofLines ls).view closed i = ls := by
  induction ls with
  | nil => exact fun _ => rfl
  | cons l ls ih =>
      intro i
      show l :: (ofLines ls).view closed (i + 1) = _
      rw [ih]

end Forest

end Fold
