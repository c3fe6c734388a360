import Mathlib.Data.List.Sort
import Mathlib.Tactic.Lemma

/-!
# Stable sorting by a key

The elements of a list have keys, and are sorted by a relation that two elements of one key are in
both ways.

* `filter_insertionSort` — the elements of a key stay as they are.
* `eq_of_filter_key` — a sorted list is known by its elements of each key.
* **`insertionSort_eq`** — so two lists that agree on these, however they mix them, are sorted into
  the same list.
-/

namespace Stable

variable {α κ : Type*} [DecidableEq κ] {key : α → κ} {r : α → α → Prop}

/-- Sorting leaves a sublist as it is if its elements are in order. -/
lemma filter_insertionSort [DecidableRel r] (hr : ∀ a b, key a = key b → r a b) (xs : List α)
    (k : κ) :
    (xs.insertionSort r).filter (key · = k) = xs.filter (key · = k) := by
  have hordered : (xs.filter (key · = k)).Pairwise r := by
    refine List.pairwise_of_forall_mem_list fun a ha b hb => hr a b ?_
    rw [of_decide_eq_true (List.mem_filter.mp ha).2, of_decide_eq_true (List.mem_filter.mp hb).2]
  have hsub := (List.sublist_insertionSort hordered List.filter_sublist).filter (key · = k)
  rw [List.filter_filter] at hsub
  simp only [Bool.and_self] at hsub
  have hlength := ((List.perm_insertionSort r xs).filter (key · = k)).length_eq
  exact (hsub.eq_of_length hlength.symm).symm

lemma mem_of_filter_key {xs ys : List α}
    (h : ∀ k, xs.filter (key · = k) = ys.filter (key · = k)) {x : α} (hx : x ∈ xs) : x ∈ ys := by
  have hmem : x ∈ xs.filter (key · = key x) := List.mem_filter.mpr ⟨hx, by simp⟩
  rw [h] at hmem
  exact (List.mem_filter.mp hmem).1

/-- A sorted list is known by its elements of each key. -/
lemma eq_of_filter_key (hanti : ∀ a b, r a b → r b a → key a = key b) :
    ∀ {xs ys : List α}, xs.Pairwise r → ys.Pairwise r →
      (∀ k, xs.filter (key · = k) = ys.filter (key · = k)) → xs = ys
  | [], [], _, _, _ => rfl
  | [], y :: ys, _, _, h => absurd (h (key y)) (by simp)
  | x :: xs, [], _, _, h => absurd (h (key x)) (by simp)
  | x :: xs, y :: ys, hx, hy, h => by
      have hxs := List.pairwise_cons.mp hx
      have hys := List.pairwise_cons.mp hy
      have hkey : key x = key y := by
        by_contra hne
        have hxy : x ≠ y := fun heq => hne (congrArg key heq)
        have hxmem := List.mem_cons.mp (mem_of_filter_key h List.mem_cons_self)
        have hymem := List.mem_cons.mp
          (mem_of_filter_key (fun k => (h k).symm) List.mem_cons_self)
        exact hne (hanti x y (hxs.1 y (hymem.resolve_left hxy.symm))
          (hys.1 x (hxmem.resolve_left hxy)))
      have hhead := h (key x)
      rw [List.filter_cons_of_pos (by simp), List.filter_cons_of_pos (by simp [hkey])] at hhead
      obtain ⟨rfl, -⟩ := List.cons_eq_cons.mp hhead
      refine congrArg (x :: ·) (eq_of_filter_key hanti hxs.2 hys.2 fun k => ?_)
      have hk := h k
      by_cases hxk : key x = k
      · rw [List.filter_cons_of_pos (by simpa using hxk),
          List.filter_cons_of_pos (by simpa using hxk)] at hk
        exact (List.cons_eq_cons.mp hk).2
      · rw [List.filter_cons_of_neg (by simpa using hxk),
          List.filter_cons_of_neg (by simpa using hxk)] at hk
        exact hk

/-- **Two lists with the same elements of each key, in the same order, are sorted into the same
list.** -/
theorem insertionSort_eq [DecidableRel r] [Std.Total r] [IsTrans α r]
    (hr : ∀ a b, key a = key b → r a b) (hanti : ∀ a b, r a b → r b a → key a = key b)
    {xs ys : List α} (h : ∀ k, xs.filter (key · = k) = ys.filter (key · = k)) :
    xs.insertionSort r = ys.insertionSort r := by
  refine eq_of_filter_key hanti (List.pairwise_insertionSort r xs)
    (List.pairwise_insertionSort r ys) fun k => ?_
  rw [filter_insertionSort hr, filter_insertionSort hr, h]

end Stable
