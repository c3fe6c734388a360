import Mathlib.Data.List.Basic
import Mathlib.Tactic.Lemma

/-!
# Selecting from a list

Two ways to select elements of a list without reordering them, and how they compare.

* `selectAt p xs` keeps the elements at the positions where `p` holds.
* `scan next keep s xs` reads the list with a state and keeps an element when `keep` says so of
  the state it is read in.
* `scan_eq_selectAt` — a scan is the selection of the positions whose state and element pass
  `keep`.  A statement about positions needs no state, so it is the one to specify a scan by.
-/

namespace Select

variable {α σ : Type*}

/-- The elements at the positions where `p` holds, in order. -/
def selectAt (p : ℕ → Prop) [DecidablePred p] (xs : List α) : List α :=
  (xs.zipIdx.filter fun x => decide (p x.2)).map Prod.fst

lemma selectAt_cons (p : ℕ → Prop) [DecidablePred p] (x : α) (xs : List α) :
    selectAt p (x :: xs)
      = (if p 0 then [x] else []) ++ selectAt (fun i => p (i + 1)) xs := by
  have hshift : (xs.zipIdx 1).filter (fun y => decide (p y.2))
      = (xs.zipIdx.filter fun y => decide (p (y.2 + 1))).map fun y => (y.1, y.2 + 1) := by
    rw [List.zipIdx_succ, List.filter_map]
    rfl
  rw [selectAt, List.zipIdx_cons, List.filter_cons, Nat.zero_add, hshift]
  split_ifs <;> simp_all [selectAt]

lemma selectAt_congr {p q : ℕ → Prop} [DecidablePred p] [DecidablePred q] :
    ∀ {xs : List α}, (∀ i < xs.length, p i ↔ q i) → selectAt p xs = selectAt q xs
  | [], _ => rfl
  | x :: xs, h => by
      have h0 := h 0 (by simp)
      have ih := selectAt_congr (p := fun i => p (i + 1)) (q := fun i => q (i + 1))
        fun i hi => h (i + 1) (by simpa using hi)
      rw [selectAt_cons, selectAt_cons, ih]
      simp only [h0]

/-- A selection is a sublist: nothing is added, repeated or moved. -/
lemma selectAt_sublist (p : ℕ → Prop) [DecidablePred p] (xs : List α) :
    (selectAt p xs).Sublist xs := by
  have h := (List.filter_sublist (l := xs.zipIdx) (p := fun x => decide (p x.2))).map Prod.fst
  rwa [List.zipIdx_map_fst] at h

/-- Selecting among the selected elements by a property of the elements. -/
lemma filter_selectAt (q : α → Bool) (p : ℕ → Prop) [DecidablePred p] (xs : List α) :
    (selectAt p xs).filter q = selectAt (fun i => p i ∧ xs[i]?.any q) xs := by
  induction xs generalizing p with
  | nil => rfl
  | cons x xs ih =>
      rw [selectAt_cons, selectAt_cons, List.filter_append, ih]
      congr 1
      by_cases hp : p 0 <;> by_cases hq : q x <;> simp [hp, hq]

variable (next : σ → α → σ) (keep : σ → α → Bool)

/-- Keep an element when `keep` holds of it and of the state it is read in. -/
def scan : σ → List α → List α
  | _, [] => []
  | s, x :: xs => if keep s x then x :: scan (next s x) xs else scan (next s x) xs

lemma scan_append (s : σ) (xs ys : List α) :
    scan next keep s (xs ++ ys) = scan next keep s xs ++ scan next keep (xs.foldl next s) ys := by
  induction xs generalizing s with
  | nil => rfl
  | cons x xs ih =>
      simp only [List.cons_append, scan, ih, List.foldl_cons]
      split_ifs <;> simp

/-- A scan selects the positions whose state and element pass `keep`. -/
theorem scan_eq_selectAt (s : σ) (xs : List α) :
    scan next keep s xs = selectAt (fun i => xs[i]?.any (keep ((xs.take i).foldl next s))) xs := by
  induction xs generalizing s with
  | nil => rfl
  | cons x xs ih =>
      have hrest : selectAt (fun i => xs[i]?.any (keep ((xs.take i).foldl next (next s x)))) xs
          = selectAt
            (fun i => (x :: xs)[i + 1]?.any (keep (((x :: xs).take (i + 1)).foldl next s))) xs :=
        selectAt_congr fun i _ => by simp
      rw [scan, selectAt_cons, ih, hrest]
      cases hk : keep s x <;> simp [hk]

end Select
