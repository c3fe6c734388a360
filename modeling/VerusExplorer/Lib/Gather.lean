import VerusExplorer.Lib.OrderedMap
import Mathlib.Data.List.Induction
import Mathlib.Data.List.Sort

/-!
# Gathering values by key

A loop goes through a list and keeps one value for each key, which every further element of that key
is added to.  The elements may come in any order: what a value says is a disjunction.

* `gather` is the loop.
* `Flag` — a question about the values that adding an element answers by a disjunction;
  **`flag_gather`** says what it asks of the list.
* `byKey` sorts the entries.  `eq_of_sorted` — a strictly sorted list is known by its members.
-/

namespace Gather

variable {α κ ν : Type*} [DecidableEq κ]

section Loop

variable (key : α → Option κ) (add : Option ν → α → ν)

/-- Add an element to the value of its key; an element without a key is skipped. -/
def gatherOne (m : OrderedMap κ ν) (x : α) : OrderedMap κ ν :=
  match key x with
  | none => m
  | some k => OrderedMap.set k (add (OrderedMap.get? k m) x) m

/-- One value for each key of a list. -/
def gather (xs : List α) : OrderedMap κ ν := xs.foldl (gatherOne key add) []

/-- A question `q` about the values that are `kept`: the value of some elements has it exactly if
one of them has `p`. -/
structure Flag (kept q : ν → Prop) (p : α → Prop) : Prop where
  new : ∀ x, (key x).isSome → kept (add none x) ∧ (q (add none x) ↔ p x)
  old : ∀ v x, (key x).isSome → kept v → kept (add (some v) x) ∧ (q (add (some v) x) ↔ q v ∨ p x)

/-- A value for a key answers for the elements of that key. -/
def Answers (kept q : ν → Prop) (p : α → Prop) (xs : List α) (k : κ) : Option ν → Prop
  | none => ∀ x ∈ xs, key x ≠ some k
  | some v =>
      (∃ x ∈ xs, key x = some k) ∧ kept v ∧ (q v ↔ ∃ x ∈ xs, key x = some k ∧ p x)

end Loop

variable {key : α → Option κ} {add : Option ν → α → ν} {kept q : ν → Prop} {p : α → Prop}

omit [DecidableEq κ] in
/-- An element of another key, or of none, changes no answer. -/
lemma Answers.concat_of_ne {xs : List α} {x : α} {k : κ} {v : Option ν} (hx : key x ≠ some k)
    (h : Answers key kept q p xs k v) : Answers key kept q p (xs ++ [x]) k v := by
  cases v with
  | none =>
      intro y hy
      rcases List.mem_append.mp hy with hy | hy
      · exact h y hy
      · rw [List.mem_singleton.mp hy]
        exact hx
  | some v =>
      obtain ⟨⟨y, hy, hky⟩, hkept, hq⟩ := h
      refine ⟨⟨y, List.mem_append_left _ hy, hky⟩, hkept, ?_⟩
      rw [hq]
      simp [or_and_right, exists_or, hx]

omit [DecidableEq κ] in
/-- An element of the key is added to what was there. -/
lemma Answers.concat_of_eq (hflag : Flag key add kept q p) {xs : List α} {x : α} {k : κ}
    {v : Option ν} (hx : key x = some k) (h : Answers key kept q p xs k v) :
    Answers key kept q p (xs ++ [x]) k (some (add v x)) := by
  have hsome : (key x).isSome := by rw [hx, Option.isSome_some]
  have hmem : x ∈ xs ++ [x] := List.mem_append_right _ List.mem_cons_self
  cases v with
  | none =>
      obtain ⟨hkept, hq⟩ := hflag.new x hsome
      refine ⟨⟨x, hmem, hx⟩, hkept, hq.trans ⟨fun hp => ⟨x, hmem, hx, hp⟩, ?_⟩⟩
      rintro ⟨y, hy, hky, hp⟩
      rcases List.mem_append.mp hy with hy | hy
      · exact absurd hky (h y hy)
      · exact List.mem_singleton.mp hy ▸ hp
  | some v =>
      obtain ⟨-, hkept, hq⟩ := h
      obtain ⟨hkept', hq'⟩ := hflag.old v x hsome hkept
      refine ⟨⟨x, hmem, hx⟩, hkept', ?_⟩
      rw [hq', hq]
      simp [or_and_right, exists_or, hx]

/-- **What is gathered for a key answers for the elements of that key**, and no key has two
entries. -/
theorem flag_gather (hflag : Flag key add kept q p) (xs : List α) :
    ((gather key add xs).map Prod.fst).Nodup
      ∧ ∀ k, Answers key kept q p xs k (OrderedMap.get? k (gather key add xs)) := by
  induction xs using List.reverseRecOn with
  | nil => exact ⟨List.nodup_nil, fun k x hx => absurd hx List.not_mem_nil⟩
  | append_singleton xs x ih =>
      obtain ⟨hnodup, hall⟩ := ih
      have hstep : gather key add (xs ++ [x]) = gatherOne key add (gather key add xs) x :=
        List.foldl_concat ..
      rw [hstep, gatherOne]
      cases hx : key x with
      | none => exact ⟨hnodup, fun k => (hall k).concat_of_ne (by simp [hx])⟩
      | some l =>
          refine ⟨OrderedMap.nodup_set l _ hnodup, fun k => ?_⟩
          by_cases hk : k = l
          · subst hk
            rw [OrderedMap.get?_set_self]
            exact (hall k).concat_of_eq hflag hx
          · rw [OrderedMap.get?_set_of_ne hk]
            refine (hall k).concat_of_ne ?_
            rw [hx]
            exact fun heq => hk (Option.some_inj.mp heq).symm

/-- The entries are the keys that occur, each with a value that answers for its elements. -/
lemma mem_gather (hflag : Flag key add kept q p) {xs : List α} {k : κ} {v : ν}
    (h : (k, v) ∈ gather key add xs) :
    (∃ x ∈ xs, key x = some k) ∧ kept v ∧ (q v ↔ ∃ x ∈ xs, key x = some k ∧ p x) := by
  obtain ⟨hnodup, hall⟩ := flag_gather hflag xs
  have hk := hall k
  rw [(OrderedMap.mem_iff_get? hnodup).mp h] at hk
  exact hk

lemma exists_mem_gather (hflag : Flag key add kept q p) {xs : List α} {k : κ}
    (h : ∃ x ∈ xs, key x = some k) : ∃ v, (k, v) ∈ gather key add xs := by
  obtain ⟨hnodup, hall⟩ := flag_gather hflag xs
  obtain ⟨x, hx, hkx⟩ := h
  have hk := hall k
  cases hv : OrderedMap.get? k (gather key add xs) with
  | none =>
      rw [hv] at hk
      exact absurd hkx (hk x hx)
  | some v => exact ⟨v, (OrderedMap.mem_iff_get? hnodup).mpr hv⟩

/-! ## Sorted entries -/

/-- The entries sorted by their keys. -/
def byKey (m : OrderedMap ℕ ν) : List (ℕ × ν) := m.insertionSort fun a b => a.1 ≤ b.1

lemma mem_byKey {m : OrderedMap ℕ ν} {e : ℕ × ν} : e ∈ byKey m ↔ e ∈ m :=
  (List.perm_insertionSort _ m).mem_iff

/-- The keys are in strict order, as no two are equal. -/
lemma pairwise_byKey {m : OrderedMap ℕ ν} (h : (m.map Prod.fst).Nodup) :
    (byKey m).Pairwise fun a b => a.1 < b.1 := by
  let r : ℕ × ν → ℕ × ν → Prop := fun a b => a.1 ≤ b.1
  have : Std.Total r := ⟨fun a b => Nat.le_total a.1 b.1⟩
  have : IsTrans (ℕ × ν) r := ⟨fun _ _ _ => Nat.le_trans⟩
  have hperm : (m.insertionSort r).Perm m := List.perm_insertionSort r m
  have hsorted : (m.insertionSort r).Pairwise r := List.pairwise_insertionSort r m
  have hne : (m.insertionSort r).Pairwise fun a b => a.1 ≠ b.1 :=
    List.pairwise_map.mp ((hperm.map Prod.fst).nodup_iff.mpr h)
  exact (hsorted.and hne).imp fun hab => Nat.lt_of_le_of_ne hab.1 hab.2

/-- A strictly sorted list is known by its members. -/
lemma eq_of_sorted {f : α → ℕ} {xs ys : List α} (hx : xs.Pairwise fun a b => f a < f b)
    (hy : ys.Pairwise fun a b => f a < f b) (h : ∀ a, a ∈ xs ↔ a ∈ ys) : xs = ys := by
  have hnodup : ∀ {zs : List α}, zs.Pairwise (fun a b => f a < f b) → zs.Nodup :=
    fun hz => hz.imp fun {a b} (hab : f a < f b) (heq : a = b) => Nat.lt_irrefl _ (heq ▸ hab)
  have hperm : xs.Perm ys := (List.perm_ext_iff_of_nodup (hnodup hx) (hnodup hy)).mpr h
  exact hperm.eq_of_pairwise (fun a b _ _ hab hba => absurd hab (Nat.lt_asymm hba)) hx hy

end Gather
