import Mathlib.Algebra.Group.Basic
import Mathlib.Data.List.Basic
import Mathlib.Tactic.Lemma

/-!
# Maps that remember the order of insertion

A map as a list of entries, at most one for a key.  Setting a key that is present changes its
value and keeps its place.

The lemmas are about `get?` after `set`, about the entries while no key has two of them, and about
the sum of the values.
-/

/-- A map from `κ` to `ν`, as its entries in the order of their insertion. -/
abbrev OrderedMap (κ ν : Type*) := List (κ × ν)

namespace OrderedMap

variable {κ ν : Type*} [DecidableEq κ]

def get? (key : κ) : OrderedMap κ ν → Option ν
  | [] => none
  | (k, v) :: m => if k = key then some v else get? key m

def has (m : OrderedMap κ ν) (key : κ) : Bool := (get? key m).isSome

def set (key : κ) (value : ν) : OrderedMap κ ν → OrderedMap κ ν
  | [] => [(key, value)]
  | (k, v) :: m => if k = key then (key, value) :: m else (k, v) :: set key value m

lemma set_ne_nil (key : κ) (value : ν) : ∀ m : OrderedMap κ ν, set key value m ≠ []
  | [] => by simp [set]
  | (k, v) :: m => by
      rw [set]
      split_ifs <;> simp

@[simp] lemma get?_set_self (key : κ) (value : ν) :
    ∀ m : OrderedMap κ ν, get? key (set key value m) = some value
  | [] => if_pos rfl
  | (k, v) :: m => by
      rw [set]
      split_ifs with hk
      · exact if_pos rfl
      · rw [get?, if_neg hk, get?_set_self]

lemma get?_set_of_ne {key other : κ} (h : other ≠ key) (value : ν) :
    ∀ m : OrderedMap κ ν, get? other (set key value m) = get? other m
  | [] => if_neg h.symm
  | (k, v) :: m => by
      rw [set]
      split_ifs with hk
      · rw [get?, get?, if_neg h.symm, if_neg (hk ▸ h.symm)]
      · rw [get?, get?, get?_set_of_ne h]

lemma has_set (key other : κ) (value : ν) (m : OrderedMap κ ν) :
    has (set key value m) other = (other == key || has m other) := by
  rw [has, has]
  by_cases h : other = key
  · rw [h, get?_set_self]
    simp
  · rw [get?_set_of_ne h]
    simp [h]

/-- Setting what is there already changes nothing. -/
lemma set_of_get? {key : κ} {value : ν} :
    ∀ {m : OrderedMap κ ν}, get? key m = some value → set key value m = m
  | (k, v) :: m, h => by
      rw [get?] at h
      rw [set]
      split_ifs at h ⊢ with hk
      · rw [hk, Option.some_inj.mp h]
      · rw [set_of_get? h]

/-- Values can be changed before or after. -/
lemma map_set {ν' : Type*} (f : ν → ν') (key : κ) (value : ν) : ∀ m : OrderedMap κ ν,
    (set key value m).map (fun x => (x.1, f x.2))
      = set key (f value) (m.map fun x => (x.1, f x.2))
  | [] => rfl
  | (k, v) :: m => by
      rw [List.map_cons, set, set]
      split_ifs with hk
      · rfl
      · rw [List.map_cons, map_set f key value m]

/-- A key has a value exactly if it is the key of an entry. -/
lemma get?_eq_none_iff {key : κ} :
    ∀ {m : OrderedMap κ ν}, get? key m = none ↔ key ∉ m.map Prod.fst
  | [] => by simp [get?]
  | (k, v) :: m => by
      rw [get?, List.map_cons, List.mem_cons, not_or, ← get?_eq_none_iff (m := m)]
      split_ifs with hk
      · exact iff_of_false (by simp) fun hnot => hnot.1 hk.symm
      · exact ⟨fun hm => ⟨Ne.symm hk, hm⟩, fun hm => hm.2⟩

/-- The entries, while no key has two of them. -/
lemma mem_iff_get? {key : κ} {value : ν} :
    ∀ {m : OrderedMap κ ν}, (m.map Prod.fst).Nodup → ((key, value) ∈ m ↔ get? key m = some value)
  | [], _ => by simp [get?]
  | (k, v) :: m, h => by
      obtain ⟨hnot, hnodup⟩ := List.nodup_cons.mp h
      rw [List.mem_cons, get?, mem_iff_get? hnodup, Prod.mk.injEq]
      split_ifs with hk
      · subst hk
        rw [get?_eq_none_iff.mpr hnot]
        simp [eq_comm]
      · simp [Ne.symm hk]

/-- No key gets a second entry. -/
lemma nodup_set (key : κ) (value : ν) {m : OrderedMap κ ν} (h : (m.map Prod.fst).Nodup) :
    ((set key value m).map Prod.fst).Nodup := by
  induction m with
  | nil => simp [set]
  | cons e m ih =>
      obtain ⟨hnot, hnodup⟩ := List.nodup_cons.mp h
      rw [set]
      split_ifs with hk
      · rw [List.map_cons, ← hk]
        exact h
      · refine List.nodup_cons.mpr ⟨?_, ih hnodup⟩
        rw [← get?_eq_none_iff, get?_set_of_ne hk]
        exact get?_eq_none_iff.mpr hnot

/-- A key that is present keeps its place. -/
lemma keys_set_of_has {key : κ} (value : ν) :
    ∀ {m : OrderedMap κ ν}, has m key = true → (set key value m).map Prod.fst = m.map Prod.fst
  | [], h => absurd h (by simp [has, get?])
  | (k, v) :: m, h => by
      rw [set]
      split_ifs with hk
      · rw [List.map_cons, List.map_cons, hk]
      · rw [has, get?, if_neg hk] at h
        rw [List.map_cons, List.map_cons, keys_set_of_has value h]

/-- A key that is not is added at the end. -/
lemma set_of_notMem {key : κ} (value : ν) :
    ∀ {m : OrderedMap κ ν}, key ∉ m.map Prod.fst → set key value m = m ++ [(key, value)]
  | [], _ => rfl
  | (k, v) :: m, h => by
      rw [List.map_cons, List.mem_cons, not_or] at h
      rw [set, if_neg (Ne.symm h.1), set_of_notMem value h.2, List.cons_append]

/-- Entries that are set one after another under different keys are the entries of the map. -/
lemma foldl_set_of_nodup :
    ∀ (es m : OrderedMap κ ν), ((m ++ es).map Prod.fst).Nodup →
      es.foldl (fun m e => set e.1 e.2 m) m = m ++ es
  | [], m, _ => (List.append_nil m).symm
  | e :: es, m, h => by
      have hnot : e.1 ∉ m.map Prod.fst := by
        rw [List.map_append, List.map_cons] at h
        exact fun hmem => (List.nodup_append.mp h).2.2 _ hmem _ List.mem_cons_self rfl
      rw [List.append_cons] at h
      rw [List.foldl_cons, set_of_notMem e.2 hnot, foldl_set_of_nodup es (m ++ [(e.1, e.2)]) h]
      exact (List.append_cons m e es).symm

section Total

variable {ν : Type*} [AddCommMonoid ν]

/-- The sum of the values of the keys that satisfy `p`. -/
def total (p : κ → Bool) : OrderedMap κ ν → ν
  | [] => 0
  | (k, v) :: m => (if p k then v else 0) + total p m

/-- Adding to the value of a key adds to the sum. -/
lemma total_set_add (p : κ → Bool) (key : κ) (v : ν) :
    ∀ m : OrderedMap κ ν,
      total p (set key ((get? key m).getD 0 + v) m) = total p m + if p key then v else 0
  | [] => by simp [set, get?, total]
  | (k, w) :: m => by
      rw [set, get?]
      split_ifs with hk hp hp
      · simp [total, hk, hp, add_right_comm]
      · simp [total, hk, hp]
      · rw [total, total, total_set_add p key v m, if_pos hp, add_assoc]
      · rw [total, total, total_set_add p key v m, if_neg hp, add_assoc]

end Total

end OrderedMap
