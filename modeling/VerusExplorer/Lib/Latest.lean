import Mathlib.Data.List.Nodup
import Mathlib.Data.List.Perm.Basic
import VerusExplorer.Lib.Machine

/-!
# The last call wins

A writer with a generation guard.  A call takes the next number and works on its value for some
time; calls finish in any order, and one that finishes writes its value only if no call has been
made after it.

* `step`, `writes` — the writer; `calls` and `written` are the values called with and written.
* `current` — the value of the last call, while it is under way.
* **`written_sublist`** — the values are written in the order of the calls.
* **`getLast?_written`** — the last value is written or still under way.
-/

namespace Latest

variable {α : Type*}

/-- The number of the last call, and the calls under way with theirs. -/
structure State (α : Type*) where
  gen : ℕ
  pending : List (ℕ × α)

inductive Op (α : Type*) where
  | call (a : α)
  | finish (i : ℕ)

def step (s : State α) : Op α → State α
  | .call a => ⟨s.gen + 1, s.pending ++ [(s.gen + 1, a)]⟩
  | .finish i => ⟨s.gen, s.pending.eraseIdx i⟩

/-- What is written at an operation. -/
def writes (s : State α) : Op α → List α
  | .call _ => []
  | .finish i =>
      match s.pending[i]? with
      | some p => if p.1 = s.gen then [p.2] else []
      | none => []

def Op.called : Op α → List α
  | .call a => [a]
  | .finish _ => []

/-- The values of the calls, in order. -/
def calls (ops : List (Op α)) : List α := ops.flatMap Op.called

/-- The values written, in order. -/
def written (s : State α) (ops : List (Op α)) : List α := Machine.outputs step writes s ops

/-- The value of the last call, if that is under way. -/
def current (s : State α) : Option α := (s.pending.find? fun p => p.1 == s.gen).map Prod.snd

/-! ## Numbers -/

/-- The calls under way have different numbers, none later than the last one given. -/
structure Numbered (s : State α) : Prop where
  nodup : (s.pending.map Prod.fst).Nodup
  le : ∀ p ∈ s.pending, p.1 ≤ s.gen

/-- An element taken out of a list, and the others. -/
lemma perm_eraseIdx {β : Type*} {xs : List β} {i : ℕ} {x : β} (h : xs[i]? = some x) :
    (x :: xs.eraseIdx i).Perm xs := by
  obtain ⟨hi, rfl⟩ := List.getElem?_eq_some_iff.mp h
  exact List.getElem_cons_eraseIdx_perm hi

lemma Numbered.step {s : State α} (h : Numbered s) (o : Op α) : Numbered (step s o) := by
  cases o with
  | call a =>
      constructor
      · show ((s.pending ++ [(s.gen + 1, a)]).map Prod.fst).Nodup
        rw [List.map_append, List.nodup_append]
        refine ⟨h.nodup, by simp, ?_⟩
        rintro _ ha _ hb rfl
        obtain ⟨p, hp, rfl⟩ := List.mem_map.mp ha
        have hle := h.le p hp
        have heq : p.1 = s.gen + 1 := List.mem_singleton.mp hb
        omega
      · intro p hp
        show p.1 ≤ s.gen + 1
        rcases List.mem_append.mp hp with hp | hp
        · exact Nat.le_succ_of_le (h.le p hp)
        · obtain rfl := List.mem_singleton.mp hp
          exact Nat.le_refl _
  | finish i =>
      constructor
      · exact h.nodup.sublist ((List.eraseIdx_sublist s.pending i).map Prod.fst)
      · intro p hp
        exact h.le p (List.mem_of_mem_eraseIdx hp)

lemma Numbered.run {s : State α} (h : Numbered s) (ops : List (Op α)) :
    Numbered (Machine.run Latest.step s ops) :=
  Machine.run_invariant (P := Numbered) (fun _ o h => h.step o) ops h

/-! ## The last call -/

/-- Taking out an element that is not looked for changes nothing. -/
lemma find?_eraseIdx {β : Type*} {q : β → Bool} :
    ∀ (xs : List β) (i : ℕ), (∀ x ∈ xs[i]?, q x = false) → (xs.eraseIdx i).find? q = xs.find? q
  | [], _, _ => rfl
  | x :: xs, 0, h => by
      have hx : q x = false := h x rfl
      rw [List.eraseIdx_cons_zero, List.find?_cons_of_neg (by simp [hx])]
  | x :: xs, i + 1, h => by
      rw [List.eraseIdx_cons_succ, List.find?_cons, List.find?_cons, find?_eraseIdx xs i h]

/-- Of two calls under way only one has a number. -/
lemma current_eq {s : State α} (h : Numbered s) {a : α} (hmem : (s.gen, a) ∈ s.pending) :
    current s = some a := by
  cases hfind : s.pending.find? fun p => p.1 == s.gen with
  | none => exact absurd (List.find?_eq_none.mp hfind _ hmem) (by simp)
  | some p =>
      have hp : p ∈ s.pending := List.mem_of_find?_eq_some hfind
      have hgen : p.1 = s.gen := by simpa using List.find?_some hfind
      have heq : p = (s.gen, a) := List.inj_on_of_nodup_map h.nodup hp hmem hgen
      rw [current, hfind, heq]
      rfl

lemma current_call {s : State α} (h : Numbered s) (a : α) : current (step s (.call a)) = some a :=
  current_eq (h.step (.call a)) (List.mem_append_right _ List.mem_cons_self)

/-- A call that finishes is the last one and writes, or leaves that one alone. -/
lemma finish_cases {s : State α} (h : Numbered s) (i : ℕ) :
    (writes s (.finish i) = [] ∧ current (step s (.finish i)) = current s)
      ∨ ∃ a, writes s (.finish i) = [a] ∧ current s = some a
        ∧ current (step s (.finish i)) = none := by
  cases hi : s.pending[i]? with
  | none =>
      refine Or.inl ⟨by rw [writes, hi], ?_⟩
      show ((s.pending.eraseIdx i).find? _).map _ = _
      rw [find?_eraseIdx _ _ (by simp [hi])]
      rfl
  | some p =>
      by_cases hgen : p.1 = s.gen
      · obtain ⟨gen, a⟩ := p
        obtain rfl : gen = s.gen := hgen
        refine Or.inr ⟨a, ?_, current_eq h (List.mem_of_getElem? hi), ?_⟩
        · rw [writes, hi]
          exact if_pos rfl
        · show ((s.pending.eraseIdx i).find? _).map _ = none
          rw [Option.map_eq_none_iff, List.find?_eq_none]
          intro q hq heq
          have hperm := (perm_eraseIdx hi).map Prod.fst
          have hnot := (List.nodup_cons.mp (hperm.nodup_iff.mpr h.nodup)).1
          have hsame : q.1 = s.gen := by simpa [step] using heq
          exact hnot (List.mem_map.mpr ⟨q, hq, hsame⟩)
      · refine Or.inl ⟨?_, ?_⟩
        · rw [writes, hi]
          exact if_neg hgen
        · show ((s.pending.eraseIdx i).find? _).map _ = _
          rw [find?_eraseIdx]
          · rfl
          · intro x hx
            obtain rfl : p = x := Option.some_inj.mp (hi.symm.trans hx)
            simpa [step] using hgen

/-! ## What is written -/

/-- **The values are written in the order of the calls**, a call under way before the later ones. -/
theorem written_sublist :
    ∀ (ops : List (Op α)) {s : State α}, Numbered s →
      (written s ops).Sublist ((current s).toList ++ calls ops)
  | [], _, _ => List.nil_sublist _
  | .call a :: ops, s, h => by
      have ih := written_sublist ops (h.step (.call a))
      rw [current_call h] at ih
      exact ih.trans (List.sublist_append_right _ _)
  | .finish i :: ops, s, h => by
      have ih := written_sublist ops (h.step (.finish i))
      show (writes s (.finish i) ++ written (step s (.finish i)) ops).Sublist _
      rcases finish_cases h i with ⟨hw, hcur⟩ | ⟨a, hw, hcur, hnext⟩
      · rw [hcur] at ih
        rw [hw]
        exact ih
      · rw [hnext] at ih
        rw [hw, hcur]
        exact ih.cons_cons a

/-- **The last value is written, or still under way.** -/
theorem getLast?_written :
    ∀ (ops : List (Op α)) {s : State α}, Numbered s →
      (written s ops ++ (current (Machine.run step s ops)).toList).getLast?
        = ((current s).toList ++ calls ops).getLast?
  | [], s, _ => by
      show ([] ++ (current s).toList).getLast? = ((current s).toList ++ []).getLast?
      rw [List.nil_append, List.append_nil]
  | .call a :: ops, s, h => by
      have ih := getLast?_written ops (h.step (.call a))
      rw [current_call h] at ih
      refine ih.trans ?_
      show ([a] ++ calls ops).getLast? = ((current s).toList ++ ([a] ++ calls ops)).getLast?
      rw [List.getLast?_append_of_ne_nil (current s).toList (by simp)]
  | .finish i :: ops, s, h => by
      have ih := getLast?_written ops (h.step (.finish i))
      show (writes s (.finish i) ++ written (step s (.finish i)) ops
        ++ (current (Machine.run step (step s (.finish i)) ops)).toList).getLast? = _
      rcases finish_cases h i with ⟨hw, hcur⟩ | ⟨a, hw, hcur, hnext⟩
      · rw [hcur] at ih
        rw [hw]
        exact ih
      · rw [hnext] at ih
        rw [hw, hcur, List.append_assoc, List.getLast?_append, ih]
        show (calls ops).getLast?.or [a].getLast? = ([a] ++ calls ops).getLast?
        rw [List.getLast?_append]

end Latest
