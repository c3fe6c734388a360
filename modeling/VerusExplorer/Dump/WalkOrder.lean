import VerusExplorer.Dump.Walk
import VerusExplorer.Lib.Stable

/-!
# The order of a walk

`WalkBuilder::finish` (`util.rs`) sorts the items of a walk by crate and wraps its runs.

* `itemText`, `groupText` — what an item and a group of items come to in the body.
* `Precedes` — external items by the name of their crate, then local ones.
* **`walkBuilder_finish`** — the body is the groups, in that order, with the items of each crate as
  they were added; how the crates were interleaved does not matter.
-/

namespace VerusExplorer

open Lines

/-! ## The pieces of the body -/

/-- The section of an item. -/
def itemText (it : WalkItem) : Str := unlines '\n' (markedLines it)

/-- The items of a group, in the wrapper of their crate and kind if they are external. -/
def groupText (g : List WalkItem) : Str :=
  match Runs.runKey WalkItem.run g with
  | none => g.flatMap itemText
  | some k => unlines '\n' [markLine '>' (wrapLabel k)] ++ g.flatMap itemText
      ++ unlines '\n' [closeLine]

lemma flatMap_unlines {α : Type} (f : α → List Str) (xs : List α) :
    xs.flatMap (fun x => unlines '\n' (f x)) = unlines '\n' (xs.flatMap f) := by
  induction xs with
  | nil => rfl
  | cons x xs ih => rw [List.flatMap_cons, List.flatMap_cons, unlines_append, ih]

lemma groupText_eq (g : List WalkItem) : groupText g = unlines '\n' (runMarked g) := by
  have hitems : g.flatMap itemText = unlines '\n' (g.flatMap markedLines) :=
    flatMap_unlines markedLines g
  rw [groupText, runMarked, Runs.wrapRun, unlines_append, unlines_append, ← hitems]
  cases Runs.runKey WalkItem.run g with
  | none => exact (List.append_nil _).symm
  | some k => rfl

/-- The body is that of its groups. -/
lemma finish_groups (b : WalkBuilder) :
    b.finish = (Runs.runs WalkItem.run b.sorted).flatMap groupText := by
  have hlines : walkLines b = (Runs.runs WalkItem.run b.sorted).flatMap runMarked :=
    Runs.wrapRuns_eq _ _ _ _ _
  rw [finish_eq, hlines, ← flatMap_unlines]
  exact List.flatMap_congr fun g _ => (groupText_eq g).symm

/-! ## The order -/

/-- Before an external item there are only items of crates up to its own. -/
def Precedes (a c : WalkItem) : Prop := ∀ k', c.krate = some k' → ∃ k, a.krate = some k ∧ k ≤ k'

lemma sortLe_iff (a c : WalkItem) : sortLe a c = true ↔ Precedes a c := by
  rw [sortLe, Precedes]
  cases a.krate <;> cases c.krate <;> simp

instance : Std.Total fun a c : WalkItem => sortLe a c = true where
  total a c := by
    rw [sortLe_iff, sortLe_iff, Precedes, Precedes]
    cases a.krate <;> cases c.krate <;> simp [le_total]

instance : IsTrans WalkItem fun a c => sortLe a c = true where
  trans a c d := by
    rw [sortLe_iff, sortLe_iff, sortLe_iff]
    intro hac hcd k'' hk''
    obtain ⟨k', hk', hle'⟩ := hcd k'' hk''
    obtain ⟨k, hk, hle⟩ := hac k' hk'
    exact ⟨k, hk, le_trans hle hle'⟩

lemma sortLe_of_krate_eq (a c : WalkItem) (h : a.krate = c.krate) : sortLe a c = true := by
  rw [sortLe_iff]
  intro k hk
  exact ⟨k, h.trans hk, le_refl k⟩

lemma krate_eq_of_sortLe (a c : WalkItem) (hac : sortLe a c = true) (hca : sortLe c a = true) :
    a.krate = c.krate := by
  rw [sortLe_iff] at hac hca
  cases ha : a.krate with
  | none =>
      cases hc : c.krate with
      | none => rfl
      | some k =>
          obtain ⟨_, hk, -⟩ := hac k hc
          rw [ha] at hk
          exact absurd hk (by simp)
  | some k =>
      obtain ⟨k', hc, hle⟩ := hca k ha
      obtain ⟨k'', ha', hle'⟩ := hac k' hc
      obtain rfl := Option.some.inj (ha.symm.trans ha')
      rw [hc, le_antisymm hle' hle]

/-- **The groups of a walk.**  The body is one piece for each group: these hold every item once,
external ones before local ones and by the name of their crate, those of one crate in the order
they were added; the items of a group share their crate and kind, neighbouring groups do not, and
only an external group has a wrapper.  So only the items of each crate matter, however the crates
were interleaved. -/
theorem walkBuilder_finish (b : WalkBuilder) :
    (∃ groups : List (List WalkItem),
      b.finish = groups.flatMap groupText
        ∧ groups.flatten.Perm b.items
        ∧ groups.flatten.Pairwise Precedes
        ∧ (∀ krate, groups.flatten.filter (·.krate = krate) = b.items.filter (·.krate = krate))
        ∧ (∀ g ∈ groups, g ≠ [] ∧ ∀ it ∈ g, it.run = Runs.runKey WalkItem.run g)
        ∧ groups.IsChain fun g h => Runs.runKey WalkItem.run g ≠ Runs.runKey WalkItem.run h)
      ∧ ∀ b' : WalkBuilder,
        (∀ krate, b'.items.filter (·.krate = krate) = b.items.filter (·.krate = krate)) →
          b'.finish = b.finish := by
  constructor
  · refine ⟨Runs.runs WalkItem.run b.sorted, finish_groups b, ?_, ?_, ?_, fun g hg =>
      ⟨Runs.ne_nil_of_mem_runs hg, Runs.key_eq_of_mem_runs hg⟩, Runs.isChain_runs WalkItem.run _⟩
    · rw [Runs.flatten_runs]
      exact List.perm_insertionSort _ _
    · rw [Runs.flatten_runs]
      have hsorted : b.sorted.Pairwise fun a c => sortLe a c = true :=
        List.pairwise_insertionSort _ b.items
      exact hsorted.imp fun h => (sortLe_iff _ _).mp h
    · rw [Runs.flatten_runs]
      exact Stable.filter_insertionSort sortLe_of_krate_eq b.items
  · intro b' hb'
    have hsorted : b'.sorted = b.sorted :=
      Stable.insertionSort_eq sortLe_of_krate_eq krate_eq_of_sortLe hb'
    rw [finish_groups, finish_groups, hsorted]

/-- A local function may be added before or after one of `vstd`. -/
theorem walkBuilder_finish_interleaved :
    let external : WalkItem := ⟨"fn".toList, "f".toList, some "vstd".toList, [], []⟩
    let here : WalkItem := ⟨"fn".toList, "g".toList, none, [], []⟩
    WalkBuilder.finish ⟨[here, external]⟩ = WalkBuilder.finish ⟨[external, here]⟩ := by
  intro external here
  refine (walkBuilder_finish ⟨[external, here]⟩).2 ⟨[here, external]⟩ fun krate => ?_
  cases krate with
  | none => rfl
  | some k => simp [external, here, List.filter_cons]

end VerusExplorer
