import Mathlib.Data.List.Basic
import Mathlib.Tactic.Lemma

/-!
# Strings of UTF-16 units

A JavaScript string is a sequence of 16-bit units; `length`, indexing and every offset count
units, not characters.  `encode` is how a sequence of Unicode scalar values arrives there: one
unit for a scalar of the Basic Multilingual Plane, a surrogate pair for any other.
-/

namespace Utf16

/-- A string of UTF-16 units. -/
abbrev JsString := List UInt16

/-- The units of one scalar value. -/
def units (c : Char) : JsString :=
  if c.toNat < 0x10000 then [UInt16.ofNat c.toNat]
  else
    [UInt16.ofNat (0xD800 + (c.toNat - 0x10000) / 0x400),
      UInt16.ofNat (0xDC00 + (c.toNat - 0x10000) % 0x400)]

/-- The units of a sequence of scalar values. -/
def encode (s : List Char) : JsString := s.flatMap units

/-- A string literal of the source. -/
def js (s : String) : JsString := encode s.toList

@[simp] lemma encode_nil : encode [] = [] := rfl

@[simp] lemma encode_cons (c : Char) (s : List Char) : encode (c :: s) = units c ++ encode s :=
  List.flatMap_cons

@[simp] lemma encode_append (s t : List Char) : encode (s ++ t) = encode s ++ encode t :=
  List.flatMap_append

lemma units_ne_nil (c : Char) : units c ≠ [] := by
  rw [units]
  split_ifs <;> simp

lemma toNat_lt (c : Char) : c.toNat < 0x110000 := by
  rcases c.valid with h | h
  · exact Nat.lt_trans h (by decide)
  · exact h.2

/-! ### Lengths -/

lemma length_units (c : Char) : (units c).length = if c.toNat < 0x10000 then 1 else 2 := by
  rw [units]
  split_ifs <;> rfl

/-- No encoding is shorter than the text. -/
lemma length_le_length_encode : ∀ s : List Char, s.length ≤ (encode s).length
  | [] => Nat.le_refl 0
  | c :: s => by
      have ih := length_le_length_encode s
      rw [encode_cons, List.length_append, length_units, List.length_cons]
      split_ifs <;> omega

/-- Units and scalar values are counted alike exactly in a text of the Basic Multilingual Plane. -/
lemma length_encode_eq_iff :
    ∀ s : List Char, (encode s).length = s.length ↔ ∀ c ∈ s, c.toNat < 0x10000
  | [] => by simp
  | c :: s => by
      have ih := length_encode_eq_iff s
      have hle := length_le_length_encode s
      rw [List.forall_mem_cons, ← ih, encode_cons, List.length_append, length_units,
        List.length_cons]
      split_ifs with hc
      · simp only [hc, true_and]
        omega
      · simp only [hc, false_and, iff_false]
        omega

/-! ### Units and scalars -/

/-- Below the surrogates a unit stands for the scalar of the same number and for no other. -/
lemma mem_units_iff {c : Char} {u : UInt16} (hu : u.toNat < 0xD800) :
    u ∈ units c ↔ c.toNat = u.toNat := by
  have hc := toNat_lt c
  rw [units]
  split_ifs with h
  · rw [List.mem_singleton, ← UInt16.toNat_inj, UInt16.toNat_ofNat', Nat.mod_eq_of_lt h]
    exact eq_comm
  · have h1 : (UInt16.ofNat (0xD800 + (c.toNat - 0x10000) / 0x400)).toNat
        = 0xD800 + (c.toNat - 0x10000) / 0x400 := by
      rw [UInt16.toNat_ofNat', Nat.mod_eq_of_lt (by omega)]
    have h2 : (UInt16.ofNat (0xDC00 + (c.toNat - 0x10000) % 0x400)).toNat
        = 0xDC00 + (c.toNat - 0x10000) % 0x400 := by
      rw [UInt16.toNat_ofNat', Nat.mod_eq_of_lt (by omega)]
    simp only [List.mem_cons, List.not_mem_nil, or_false, ← UInt16.toNat_inj, h1, h2]
    omega

/-- A unit below the surrogates occurs in an encoding exactly when its scalar occurs. -/
lemma mem_encode_iff {s : List Char} {u : UInt16} (hu : u.toNat < 0xD800) :
    u ∈ encode s ↔ ∃ c ∈ s, c.toNat = u.toNat := by
  simp only [encode, List.mem_flatMap, mem_units_iff hu]

/-- The units of one scalar are told from those of another by whatever follows. -/
lemma units_append_inj {c d : Char} {us vs : JsString} (h : units c ++ us = units d ++ vs) :
    c = d ∧ us = vs := by
  have hc := toNat_lt c
  have hd := toNat_lt d
  have hsurrogate : ∀ e : Char, e.toNat < 0xD800 ∨ 0xDFFF < e.toNat := by
    intro e
    rcases e.valid with he | ⟨he, -⟩
    · exact .inl he
    · exact .inr he
  have hc' := hsurrogate c
  have hd' := hsurrogate d
  rw [units, units] at h
  rw [← Char.toNat_inj]
  split_ifs at h with hcb hdb hdb
  · obtain ⟨hhead, htail⟩ := List.cons_eq_cons.mp h
    rw [← UInt16.toNat_inj, UInt16.toNat_ofNat', UInt16.toNat_ofNat'] at hhead
    refine ⟨by omega, htail⟩
  · obtain ⟨hhead, -⟩ := List.cons_eq_cons.mp h
    rw [← UInt16.toNat_inj, UInt16.toNat_ofNat', UInt16.toNat_ofNat'] at hhead
    omega
  · obtain ⟨hhead, -⟩ := List.cons_eq_cons.mp h
    rw [← UInt16.toNat_inj, UInt16.toNat_ofNat', UInt16.toNat_ofNat'] at hhead
    omega
  · obtain ⟨hhead, hrest⟩ := List.cons_eq_cons.mp h
    obtain ⟨hsecond, htail⟩ := List.cons_eq_cons.mp hrest
    rw [← UInt16.toNat_inj, UInt16.toNat_ofNat', UInt16.toNat_ofNat'] at hhead hsecond
    refine ⟨by omega, htail⟩

/-- Nothing is lost on the way to a JavaScript string. -/
lemma encode_injective : Function.Injective encode := by
  intro s t h
  induction s generalizing t with
  | nil =>
      cases t with
      | nil => rfl
      | cons d t => exact absurd h.symm (by simp [units_ne_nil])
  | cons c s ih =>
      cases t with
      | nil => exact absurd h (by simp [units_ne_nil])
      | cons d t =>
          obtain ⟨rfl, htail⟩ := units_append_inj h
          rw [ih htail]

end Utf16
