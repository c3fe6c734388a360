import Mathlib.Data.List.Forall2
import Mathlib.Tactic.Lemma

/-!
# Loops that may fail

A loop over a list whose rounds ask something that may fail.

* `collect` keeps what a round finds, if it finds anything; `collect_forall₂` says what is found
  when no round fails.
* `foldlM_eq_foldl`, `mapM_eq_map` — a loop none of whose rounds fails is a fold, or a map.
-/

namespace Loops

variable {α β ε : Type*}

/-- What is found in the elements of a list, in order. -/
def collect (find : α → Except ε (Option β)) (xs : List α) : Except ε (List β) :=
  xs.foldlM (fun found x => do return found ++ (← find x).toList) []

/-- If something is found exactly in the elements that satisfy `p`, and it is related to the element
it is found in, then so it is in the list. -/
theorem collect_forall₂ {find : α → Except ε (Option β)} {p : α → Prop} [DecidablePred p]
    {R : α → β → Prop} (hfound : ∀ x, p x → ∃ y, find x = .ok (some y) ∧ R x y)
    (hnone : ∀ x, ¬p x → find x = .ok none) (xs : List α) :
    ∃ ys, collect find xs = .ok ys ∧ List.Forall₂ R (xs.filter p) ys := by
  suffices h : ∀ acc : List β, ∃ ys,
      xs.foldlM (fun found x => do return found ++ (← find x).toList) acc = Except.ok (acc ++ ys)
        ∧ List.Forall₂ R (xs.filter p) ys from h []
  induction xs with
  | nil =>
      intro acc
      exact ⟨[], congrArg Except.ok (List.append_nil acc).symm, .nil⟩
  | cons x xs ih =>
      intro acc
      rw [List.foldlM_cons]
      by_cases hx : p x
      · obtain ⟨y, hy, hR⟩ := hfound x hx
        obtain ⟨ys, hys, hall⟩ := ih (acc ++ [y])
        refine ⟨y :: ys, ?_, ?_⟩
        · rw [hy, List.append_cons]
          exact hys
        · rw [List.filter_cons_of_pos (by simpa using hx)]
          exact .cons hR hall
      · obtain ⟨ys, hys, hall⟩ := ih acc
        refine ⟨ys, ?_, ?_⟩
        · rw [hnone x hx]
          show xs.foldlM _ (acc ++ []) = _
          rw [List.append_nil]
          exact hys
        · rw [List.filter_cons_of_neg (by simpa using hx)]
          exact hall

/-- A loop that never fails is a fold. -/
theorem foldlM_eq_foldl {f : β → α → Except ε β} {g : β → α → β} {xs : List α}
    (h : ∀ acc, ∀ x ∈ xs, f acc x = .ok (g acc x)) (acc : β) :
    xs.foldlM f acc = .ok (xs.foldl g acc) := by
  induction xs generalizing acc with
  | nil => rfl
  | cons x xs ih =>
      rw [List.foldlM_cons, List.foldl_cons, h acc x List.mem_cons_self]
      exact ih (fun acc y hy => h acc y (List.mem_cons_of_mem _ hy)) _

/-- A traversal that never fails is a map. -/
theorem mapM_eq_map {f : α → Except ε β} {g : α → β} {xs : List α}
    (h : ∀ x ∈ xs, f x = .ok (g x)) : xs.mapM f = .ok (xs.map g) := by
  induction xs with
  | nil => rfl
  | cons x xs ih =>
      rw [List.mapM_cons, h x List.mem_cons_self, ih fun y hy => h y (List.mem_cons_of_mem _ hy)]
      rfl

end Loops
