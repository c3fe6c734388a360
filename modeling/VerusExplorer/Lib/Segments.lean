import Mathlib.Data.List.Basic
import Mathlib.Tactic.Lemma

/-!
# Segments of a trace

A trace is a flat list of events; what happens between a starting event and the next stopping
event belongs to the start.  `segments start stop xs` cuts these stretches out.

* A list is `Closed` when every start in it is followed by a stop.  Segments of a closed list do
  not depend on what comes after it (`segments_append`), so facts about the segments of a long
  trace are facts about its pieces.
-/

namespace Segments

variable {α β : Type*} (start : α → Option β) (stop : α → Bool)

/-- Every starting event with the events after it, up to the next stop. -/
def segments : List α → List (β × List α)
  | [] => []
  | x :: xs =>
      ((start x).map fun b => (b, xs.takeWhile fun y => !stop y)).toList ++ segments xs

/-- Every start is followed by a stop. -/
def Closed : List α → Prop
  | [] => True
  | x :: xs => ((start x).isSome → ∃ y ∈ xs, stop y = true) ∧ Closed xs

variable {start stop}

lemma takeWhile_append_of_exists {xs ys : List α} (h : ∃ y ∈ xs, stop y = true) :
    (xs ++ ys).takeWhile (fun y => !stop y) = xs.takeWhile fun y => !stop y := by
  induction xs with
  | nil =>
      obtain ⟨y, hy, -⟩ := h
      exact absurd hy List.not_mem_nil
  | cons x xs ih =>
      rw [List.cons_append, List.takeWhile_cons, List.takeWhile_cons]
      cases hx : stop x with
      | true => rfl
      | false =>
          obtain ⟨y, hy, hstop⟩ := h
          have hmem : y ∈ xs := by
            rcases List.mem_cons.mp hy with rfl | hy
            · rw [hx] at hstop
              exact absurd hstop (by simp)
            · exact hy
          simp [ih ⟨y, hmem, hstop⟩]

/-- The segments of a closed list do not reach beyond it. -/
lemma segments_append {xs : List α} (ys : List α) (h : Closed start stop xs) :
    segments start stop (xs ++ ys) = segments start stop xs ++ segments start stop ys := by
  induction xs with
  | nil => rfl
  | cons x xs ih =>
      obtain ⟨hx, hxs⟩ := h
      rw [List.cons_append, segments, segments, ih hxs]
      cases hs : start x with
      | none => rfl
      | some b =>
          rw [hs] at hx
          simp [takeWhile_append_of_exists (hx rfl)]

lemma Closed.append {xs ys : List α} (hx : Closed start stop xs) (hy : Closed start stop ys) :
    Closed start stop (xs ++ ys) := by
  induction xs with
  | nil => exact hy
  | cons x xs ih =>
      obtain ⟨h, hxs⟩ := hx
      refine ⟨fun hs => ?_, ih hxs⟩
      obtain ⟨y, hmem, hstop⟩ := h hs
      exact ⟨y, List.mem_append_left ys hmem, hstop⟩

lemma Closed.of_append_right {xs ys : List α} (h : Closed start stop (xs ++ ys)) :
    Closed start stop ys := by
  induction xs with
  | nil => exact h
  | cons x xs ih => exact ih h.2

/-- Events that stop nothing close nothing. -/
lemma Closed.of_append_left {xs ys : List α} (h : Closed start stop (xs ++ ys))
    (hys : ∀ y ∈ ys, stop y = false) : Closed start stop xs := by
  induction xs with
  | nil => trivial
  | cons x xs ih =>
      refine ⟨fun hs => ?_, ih h.2⟩
      obtain ⟨y, hy, hstop⟩ := h.1 hs
      rcases List.mem_append.mp hy with hy | hy
      · exact ⟨y, hy, hstop⟩
      · exact absurd (hstop.symm.trans (hys y hy)) (by simp)

/-- Events that start nothing have no segments. -/
lemma segments_of_no_start {xs : List α} (h : ∀ x ∈ xs, start x = none) :
    segments start stop xs = [] := by
  induction xs with
  | nil => rfl
  | cons x xs ih =>
      have hx : start x = none := h x (by simp)
      have ih' := ih fun y hy => h y (List.mem_cons_of_mem x hy)
      simp [segments, hx, ih']

/-- Every starting event has its segment. -/
lemma exists_segment {x : α} {b : β} {xs : List α} (hx : x ∈ xs) (hb : start x = some b) :
    ∃ seg ∈ segments start stop xs, seg.1 = b := by
  induction xs with
  | nil => exact absurd hx List.not_mem_nil
  | cons y ys ih =>
      rw [segments]
      rcases List.mem_cons.mp hx with rfl | hx
      · rw [hb]
        exact ⟨(b, ys.takeWhile fun y => !stop y), by simp, rfl⟩
      · obtain ⟨seg, hseg, hfst⟩ := ih hx
        exact ⟨seg, List.mem_append_right _ hseg, hfst⟩

lemma closed_of_no_start {xs : List α} (h : ∀ x ∈ xs, start x = none) :
    Closed start stop xs := by
  induction xs with
  | nil => trivial
  | cons x xs ih =>
      refine ⟨fun hs => ?_, ih fun y hy => h y (List.mem_cons_of_mem x hy)⟩
      rw [h x (by simp)] at hs
      exact absurd hs (by simp)

/-- One start, events that neither start nor stop, and a stop. -/
lemma segments_piece {x z : α} {b : β} {xs : List α} (hx : start x = some b)
    (hxs : ∀ y ∈ xs, start y = none ∧ stop y = false) (hz : start z = none)
    (hstop : stop z = true) :
    segments start stop (x :: xs ++ [z]) = [(b, xs)] ∧ Closed start stop (x :: xs ++ [z]) := by
  have hnone : ∀ y ∈ xs ++ [z], start y = none := by
    intro y hy
    rcases List.mem_append.mp hy with hy | hy
    · exact (hxs y hy).1
    · rw [List.mem_singleton] at hy
      exact hy ▸ hz
  have htake : (xs ++ [z]).takeWhile (fun y => !stop y) = xs := by
    rw [List.takeWhile_append_of_pos (fun y hy => by simp [(hxs y hy).2])]
    simp [hstop]
  constructor
  · rw [List.cons_append, segments, hx, segments_of_no_start hnone, htake]
    rfl
  · refine ⟨fun _ => ⟨z, by simp, hstop⟩, ?_⟩
    exact closed_of_no_start hnone

end Segments
