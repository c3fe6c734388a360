import Mathlib.Data.List.Basic
import Mathlib.Tactic.Lemma

/-!
# Cutting a line into tokens

A tokenizer is called again and again until it stands at the end of the line.  What lies between two
calls is a token.

* `Chain` — spans one after the other, none of them empty, from one place to another.
* `spans` — the spans of the calls, if the end is reached within so many of them.
* `exists_spans_iff` — where a call moves on from the states that are good and takes the others to
  states that are not, the end is reached from the good ones only.
-/

namespace Lexing

variable {σ : Type*}

/-- Spans that cover what is between `i` and `j` and do not overlap. -/
inductive Chain : ℕ → ℕ → List (ℕ × ℕ) → Prop
  | nil (i : ℕ) : Chain i i []
  | cons {i j k : ℕ} {ss : List (ℕ × ℕ)} (hij : i < j) (h : Chain j k ss) : Chain i k ((i, j) :: ss)

variable (pos : σ → ℕ) (stop : ℕ) (step : σ → σ)

/-- The spans of the calls from `s` on, if there are at most `n`. -/
def spans : ℕ → σ → Option (List (ℕ × ℕ))
  | 0, s => if stop ≤ pos s then some [] else none
  | n + 1, s =>
      if stop ≤ pos s then some []
      else (spans n (step s)).map ((pos s, pos (step s)) :: ·)

variable {pos stop step} {I Good : σ → Prop}

/-- From a good state every call moves on, so the end is reached. -/
lemma exists_spans (hI : ∀ s, I s → pos s ≤ stop ∧ I (step s))
    (hgood : ∀ s, I s → Good s → pos s < stop → pos s < pos (step s) ∧ Good (step s)) :
    ∀ n s, I s → Good s → stop - pos s ≤ n →
      ∃ ss, spans pos stop step n s = some ss ∧ Chain (pos s) stop ss
  | 0, s, hs, _, hn => by
      have heq : pos s = stop := by
        have := (hI s hs).1
        omega
      refine ⟨[], ?_, heq ▸ Chain.nil _⟩
      rw [spans, if_pos (Nat.le_of_eq heq.symm)]
  | n + 1, s, hs, hg, hn => by
      rw [spans]
      split_ifs with hstop
      · have heq : pos s = stop := Nat.le_antisymm (hI s hs).1 hstop
        exact ⟨[], rfl, heq ▸ Chain.nil _⟩
      · obtain ⟨hmove, hg'⟩ := hgood s hs hg (by omega)
        obtain ⟨ss, hss, hchain⟩ := exists_spans hI hgood n (step s) (hI s hs).2 hg' (by omega)
        exact ⟨_ :: ss, by rw [hss, Option.map_some], .cons hmove hchain⟩

/-- From a state that is not good the end is never reached. -/
lemma spans_eq_none (hI : ∀ s, I s → pos s ≤ stop ∧ I (step s))
    (hbad : ∀ s, I s → ¬Good s → pos s < stop ∧ ¬Good (step s)) :
    ∀ n s, I s → ¬Good s → spans pos stop step n s = none
  | 0, s, hs, hg => by
      rw [spans, if_neg (Nat.not_le_of_lt (hbad s hs hg).1)]
  | n + 1, s, hs, hg => by
      obtain ⟨hlt, hg'⟩ := hbad s hs hg
      rw [spans, if_neg (Nat.not_le_of_lt hlt), spans_eq_none hI hbad n _ (hI s hs).2 hg',
        Option.map_none]

/-- **The end is reached from the good states only**, and then the spans cover the line. -/
theorem exists_spans_iff (hI : ∀ s, I s → pos s ≤ stop ∧ I (step s))
    (hgood : ∀ s, I s → Good s → pos s < stop → pos s < pos (step s) ∧ Good (step s))
    (hbad : ∀ s, I s → ¬Good s → pos s < stop ∧ ¬Good (step s)) {s : σ} (hs : I s) :
    (∃ n ss, spans pos stop step n s = some ss ∧ Chain (pos s) stop ss) ↔ Good s := by
  constructor
  · rintro ⟨n, ss, hss, -⟩
    by_contra hnot
    rw [spans_eq_none hI hbad n s hs hnot] at hss
    exact absurd hss (by simp)
  · intro hg
    obtain ⟨ss, hss⟩ := exists_spans hI hgood _ s hs hg (Nat.le_refl _)
    exact ⟨_, ss, hss⟩

end Lexing
