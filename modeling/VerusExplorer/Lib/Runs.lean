import Mathlib.Data.List.SplitBy
import Mathlib.Tactic.Lemma

/-!
# Wrapping runs of equal keys

A loop emits the pieces `body x` of a list in order.  Some elements belong to a group, named by
`key x`; around each run of consecutive elements of one group the loop puts an opening `opn k` and
a closing `cls`.  It does so with one variable, the group currently open, which it rotates when
the key changes and closes at the end.

* `rotations` is that loop, `wrapRuns` the loop with its final close.
* `runs` cuts the list into its maximal runs of equal keys; `wrapRun` is one run with its wrapper.
* **`wrapRuns_eq`** — the loop emits exactly the wrapped runs.

The loop may also stop early: `rotations` then says what has been emitted and which group is
still open.
-/

namespace Runs

variable {α κ τ : Type*} [DecidableEq κ]

section Loop

variable (key : α → Option κ) (opn : κ → List τ) (cls : List τ) (body : α → List τ)

/-- What closes the group `cur`, if one is open. -/
def closing (cur : Option κ) : List τ := if cur.isSome then cls else []

/-- What opens the group `new`, if there is one. -/
def opening (new : Option κ) : List τ := new.elim [] opn

/-- What the loop emits between an element of group `cur` and one of group `new`. -/
def rotate (cur new : Option κ) : List τ :=
  if cur = new then [] else closing cls cur ++ opening opn new

/-- The loop, from the group `cur` on: what it emits and the group it leaves open. -/
def rotations : Option κ → List α → List τ × Option κ
  | cur, [] => ([], cur)
  | cur, x :: xs =>
      let rest := rotations (key x) xs
      (rotate opn cls cur (key x) ++ body x ++ rest.1, rest.2)

/-- The loop and its final close. -/
def wrapRuns (xs : List α) : List τ :=
  (rotations key opn cls body none xs).1 ++ closing cls (rotations key opn cls body none xs).2

/-- The maximal runs of equal keys. -/
def runs (xs : List α) : List (List α) := xs.splitBy fun a b => decide (key a = key b)

/-- The key of a run, read off its first element. -/
def runKey (g : List α) : Option κ := g.head?.bind key

/-- One run with its wrapper. -/
def wrapRun (g : List α) : List τ :=
  opening opn (runKey key g) ++ g.flatMap body ++ closing cls (runKey key g)

end Loop

section Lemmas

variable {key : α → Option κ} (opn : κ → List τ) (cls : List τ) (body : α → List τ)

@[simp] lemma rotate_self (cur : Option κ) : rotate opn cls cur cur = [] := if_pos rfl

/-- Changing groups closes the one and opens the other; doing neither is the case where there is
no group on either side. -/
lemma rotate_eq {cur new : Option κ} (h : cur = new → cur = none) :
    rotate opn cls cur new = closing cls cur ++ opening opn new := by
  unfold rotate
  split_ifs with hc
  · obtain rfl := h hc
    subst hc
    rfl
  · rfl

lemma rotations_append (cur : Option κ) (xs ys : List α) :
    rotations key opn cls body cur (xs ++ ys)
      = ((rotations key opn cls body cur xs).1
          ++ (rotations key opn cls body (rotations key opn cls body cur xs).2 ys).1,
        (rotations key opn cls body (rotations key opn cls body cur xs).2 ys).2) := by
  induction xs generalizing cur with
  | nil => simp [rotations]
  | cons x xs ih => simp [rotations, ih]

/-- Inside a run nothing is rotated. -/
lemma rotations_const {k : Option κ} {g : List α} (h : ∀ x ∈ g, key x = k) :
    rotations key opn cls body k g = (g.flatMap body, k) := by
  induction g with
  | nil => rfl
  | cons x g ih =>
      have hx : key x = k := h x (by simp)
      have ih' := ih fun y hy => h y (List.mem_cons_of_mem x hy)
      simp [rotations, hx, ih']

/-- A run is entered by one rotation. -/
lemma rotations_run {k : Option κ} {g : List α} (hne : g ≠ []) (h : ∀ x ∈ g, key x = k)
    (cur : Option κ) :
    rotations key opn cls body cur g = (rotate opn cls cur k ++ g.flatMap body, k) := by
  obtain ⟨x, xs, rfl⟩ := List.exists_cons_of_ne_nil hne
  have hx : key x = k := h x (by simp)
  have hxs := rotations_const opn cls body fun y hy => h y (List.mem_cons_of_mem x hy)
  simp [rotations, hx, hxs]

omit [DecidableEq κ] in
lemma runKey_eq {k : Option κ} {g : List α} (hne : g ≠ []) (h : ∀ x ∈ g, key x = k) :
    runKey key g = k := by
  obtain ⟨x, xs, rfl⟩ := List.exists_cons_of_ne_nil hne
  simpa [runKey] using h x (by simp)

/-! ### The maximal runs -/

@[simp] lemma flatten_runs (key : α → Option κ) (xs : List α) : (runs key xs).flatten = xs :=
  List.flatten_splitBy _ xs

lemma ne_nil_of_mem_runs {xs g : List α} (h : g ∈ runs key xs) : g ≠ [] :=
  List.ne_nil_of_mem_splitBy h

/-- All elements of a list whose neighbours have equal keys have the key of the first. -/
lemma key_eq_of_isChain {k : Option κ} :
    ∀ {g : List α}, g.IsChain (fun a b => decide (key a = key b) = true) →
      (∀ x ∈ g.head?, key x = k) → ∀ x ∈ g, key x = k
  | [], _, _, _, hx => absurd hx List.not_mem_nil
  | [a], _, h, x, hx => by
      rw [List.mem_singleton] at hx
      exact h x (by simp [hx])
  | a :: b :: g, hc, h, x, hx => by
      rw [List.isChain_cons_cons] at hc
      have ha : key a = k := h a (by simp)
      rcases List.mem_cons.mp hx with rfl | hx
      · exact ha
      · refine key_eq_of_isChain hc.2 (fun y hy => ?_) x hx
        obtain rfl : b = y := by simpa using hy
        rw [← of_decide_eq_true hc.1, ha]

/-- All elements of a run have the run's key. -/
lemma key_eq_of_mem_runs {xs g : List α} (hg : g ∈ runs key xs) :
    ∀ x ∈ g, key x = runKey key g := by
  have hchain := List.isChain_of_mem_splitBy hg
  refine key_eq_of_isChain hchain ?_
  intro x hx
  simp [runKey, Option.mem_def.mp hx]

/-- Neighbouring runs have different keys. -/
lemma isChain_runs (key : α → Option κ) (xs : List α) :
    (runs key xs).IsChain fun g h => runKey key g ≠ runKey key h := by
  have hchain := List.isChain_getLast_head_splitBy (fun a b => decide (key a = key b)) xs
  have hall : ∀ g ∈ runs key xs, ∀ x ∈ g, key x = runKey key g := fun g hg => key_eq_of_mem_runs hg
  refine List.IsChain.imp_of_mem_imp (fun g h hg hh ⟨hgne, hhne, hne⟩ => ?_) hchain
  rw [← hall g hg _ (List.getLast_mem hgne), ← hall h hh _ (List.head_mem hhne)]
  exact of_decide_eq_false hne

/-! ### The loop emits the wrapped runs -/

/-- From the group `cur` on, the loop closes `cur` and emits the wrapped runs. -/
lemma rotations_flatten :
    ∀ (gs : List (List α)) (cur : Option κ), (∀ g ∈ gs, g ≠ []) →
      (∀ g ∈ gs, ∀ x ∈ g, key x = runKey key g) →
      gs.IsChain (fun g h => runKey key g ≠ runKey key h) →
      (∀ g ∈ gs.head?, cur = runKey key g → cur = none) →
      (rotations key opn cls body cur gs.flatten).1
          ++ closing cls (rotations key opn cls body cur gs.flatten).2
        = closing cls cur ++ gs.flatMap (wrapRun key opn cls body)
  | [], cur, _, _, _, _ => by simp [rotations]
  | g :: gs, cur, hne, hkey, hchain, hcur => by
      have hg := rotations_run opn cls body (hne g (by simp)) (hkey g (by simp)) cur
      have hnext : ∀ h ∈ gs.head?, runKey key g = runKey key h → runKey key g = none :=
        fun h hh heq => absurd heq ((List.isChain_cons.mp hchain).1 h hh)
      have ih := rotations_flatten gs (runKey key g)
        (fun h hh => hne h (List.mem_cons_of_mem g hh))
        (fun h hh => hkey h (List.mem_cons_of_mem g hh)) (List.isChain_cons.mp hchain).2 hnext
      rw [List.flatten_cons, rotations_append, hg, List.append_assoc, ih,
        rotate_eq opn cls (hcur g (by simp))]
      simp [wrapRun]

/-- **The loop emits exactly the maximal runs, each in its wrapper.** -/
theorem wrapRuns_eq (key : α → Option κ) (xs : List α) :
    wrapRuns key opn cls body xs = (runs key xs).flatMap (wrapRun key opn cls body) := by
  have h := rotations_flatten opn cls body (runs key xs) none
    (fun _ => ne_nil_of_mem_runs) (fun _ => key_eq_of_mem_runs) (isChain_runs key xs)
    (fun _ _ _ => rfl)
  rw [flatten_runs] at h
  simpa [wrapRuns, closing] using h

end Lemmas

end Runs
