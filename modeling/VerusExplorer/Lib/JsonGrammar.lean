import VerusExplorer.Lib.Json

/-!
# The JSON grammar

The productions of JSON as relations: `IsValue s v rest` says that `s` is a text of the value `v`
followed by `rest`, and so for its parts.  Nothing here says how to find the derivation.

* `IsText` — a whole text, blanks around the value included.
* **`parse_iff`** — the parser accepts exactly the texts of the grammar, with the value they have.
-/

namespace Json

open Utf16

/-! ## Productions -/

inductive IsBlanks : JsString → JsString → Prop
  | nil {s : JsString} : IsBlanks s s
  | cons {u : UInt16} {s rest : JsString} (hu : isSpace u) (h : IsBlanks s rest) :
      IsBlanks (u :: s) rest

/-- The characters of a string and its closing quote. -/
inductive IsChars : JsString → JsString → JsString → Prop
  | close {rest : JsString} : IsChars (34 :: rest) [] rest
  | plain {u : UInt16} {s cs rest : JsString} (h34 : u ≠ 34) (h92 : u ≠ 92) (h32 : ¬ u < 32)
      (h : IsChars s cs rest) : IsChars (u :: s) (u :: cs) rest
  | letter {e x : UInt16} {s cs rest : JsString} (hx : escaped e = some x)
      (h : IsChars s cs rest) : IsChars (92 :: e :: s) (x :: cs) rest
  | number {a b c d a' b' c' d' : UInt16} {s cs rest : JsString} (ha : hexValue a = some a')
      (hb : hexValue b = some b') (hc : hexValue c = some c') (hd : hexValue d = some d')
      (h : IsChars s cs rest) :
      IsChars (92 :: 117 :: a :: b :: c :: d :: s) ((((a' * 16 + b') * 16 + c') * 16 + d') :: cs)
        rest

inductive IsDigits : JsString → JsString → JsString → Prop
  | last {u : UInt16} {rest : JsString} (hu : isDigit u) : IsDigits (u :: rest) [u] rest
  | cons {u : UInt16} {s ds rest : JsString} (hu : isDigit u) (h : IsDigits s ds rest) :
      IsDigits (u :: s) (u :: ds) rest

/-- No digit stands behind a leading zero. -/
inductive IsInteger : JsString → JsString → JsString → Prop
  | zero {rest : JsString} : IsInteger (48 :: rest) [48] rest
  | digits {u : UInt16} {s ds rest : JsString} (h0 : u ≠ 48) (h : IsDigits (u :: s) ds rest) :
      IsInteger (u :: s) ds rest

inductive IsFraction : JsString → JsString → JsString → Prop
  | absent {s : JsString} : IsFraction s [] s
  | present {s ds rest : JsString} (h : IsDigits s ds rest) : IsFraction (46 :: s) (46 :: ds) rest

inductive IsExponent : JsString → JsString → JsString → Prop
  | absent {s : JsString} : IsExponent s [] s
  | bare {u : UInt16} {s ds rest : JsString} (hu : u = 101 ∨ u = 69) (h : IsDigits s ds rest) :
      IsExponent (u :: s) (u :: ds) rest
  | signed {u sign : UInt16} {s ds rest : JsString} (hu : u = 101 ∨ u = 69)
      (hsign : sign = 43 ∨ sign = 45) (h : IsDigits s ds rest) :
      IsExponent (u :: sign :: s) (u :: sign :: ds) rest

inductive IsSign : JsString → JsString → JsString → Prop
  | absent {s : JsString} : IsSign s [] s
  | minus {s : JsString} : IsSign (45 :: s) [45] s

inductive IsNumber : JsString → JsString → JsString → Prop
  | mk {s s₁ s₂ s₃ rest sign int frac exp : JsString} (hsign : IsSign s sign s₁)
      (hint : IsInteger s₁ int s₂) (hfrac : IsFraction s₂ frac s₃) (hexp : IsExponent s₃ exp rest) :
      IsNumber s (sign ++ int ++ frac ++ exp) rest

mutual

inductive IsValue : JsString → Value → JsString → Prop
  | null {rest : JsString} : IsValue (110 :: 117 :: 108 :: 108 :: rest) .null rest
  | true {rest : JsString} : IsValue (116 :: 114 :: 117 :: 101 :: rest) (.bool true) rest
  | false {rest : JsString} : IsValue (102 :: 97 :: 108 :: 115 :: 101 :: rest) (.bool false) rest
  | num {s text rest : JsString} (h : IsNumber s text rest) : IsValue s (.num text) rest
  | str {s cs rest : JsString} (h : IsChars s cs rest) : IsValue (34 :: s) (.str cs) rest
  | emptyArr {s rest : JsString} (h : IsBlanks s (93 :: rest)) : IsValue (91 :: s) (.arr []) rest
  | arr {s s₁ rest : JsString} {vs : List Value} (hs : IsBlanks s s₁) (h : IsElements s₁ vs rest) :
      IsValue (91 :: s) (.arr vs) rest
  | emptyObj {s rest : JsString} (h : IsBlanks s (125 :: rest)) : IsValue (123 :: s) (.obj []) rest
  | obj {s s₁ rest : JsString} {ms : List (JsString × Value)} (hs : IsBlanks s s₁)
      (h : IsMembers s₁ ms rest) : IsValue (123 :: s) (.obj ms) rest

/-- One element or more and the closing bracket. -/
inductive IsElements : JsString → List Value → JsString → Prop
  | last {s s₁ rest : JsString} {v : Value} (hv : IsValue s v s₁)
      (hend : IsBlanks s₁ (93 :: rest)) : IsElements s [v] rest
  | cons {s s₁ s₂ s₃ rest : JsString} {v : Value} {vs : List Value} (hv : IsValue s v s₁)
      (hcomma : IsBlanks s₁ (44 :: s₂)) (hs : IsBlanks s₂ s₃) (h : IsElements s₃ vs rest) :
      IsElements s (v :: vs) rest

/-- One member or more and the closing brace. -/
inductive IsMembers : JsString → List (JsString × Value) → JsString → Prop
  | last {s s₁ s₂ s₃ s₄ key rest : JsString} {v : Value} (hkey : IsChars s key s₁)
      (hcolon : IsBlanks s₁ (58 :: s₂)) (hs : IsBlanks s₂ s₃) (hv : IsValue s₃ v s₄)
      (hend : IsBlanks s₄ (125 :: rest)) : IsMembers (34 :: s) [(key, v)] rest
  | cons {s s₁ s₂ s₃ s₄ s₅ s₆ key rest : JsString} {v : Value} {ms : List (JsString × Value)}
      (hkey : IsChars s key s₁) (hcolon : IsBlanks s₁ (58 :: s₂)) (hs : IsBlanks s₂ s₃)
      (hv : IsValue s₃ v s₄) (hcomma : IsBlanks s₄ (44 :: s₅)) (hs' : IsBlanks s₅ s₆)
      (h : IsMembers s₆ ms rest) : IsMembers (34 :: s) ((key, v) :: ms) rest

end

/-- A whole text. -/
def IsText (s : JsString) (v : Value) : Prop :=
  ∃ s₁ s₂, IsBlanks s s₁ ∧ IsValue s₁ v s₂ ∧ IsBlanks s₂ []

/-! ## What the parser accepts is derived -/

lemma isBlanks_skipSpace (s : JsString) : IsBlanks s (skipSpace s) := by
  induction s with
  | nil => exact .nil
  | cons u s ih =>
      rw [skipSpace, List.dropWhile_cons]
      split_ifs with hu
      · exact .cons hu ih
      · exact .nil

lemma isBlanks_of_skipSpace {s rest : JsString} (h : skipSpace s = rest) : IsBlanks s rest :=
  h ▸ isBlanks_skipSpace s

lemma map_prepend_eq_some {us cs rest : JsString} {r : Option (JsString × JsString)} :
    r.map (prepend us) = some (cs, rest) ↔ ∃ ds, r = some (ds, rest) ∧ us ++ ds = cs := by
  cases r with
  | none => simp
  | some r => simp [prepend, Prod.ext_iff, and_comm]

lemma isChars_stringBody (s : JsString) {cs rest : JsString}
    (h : stringBody s = some (cs, rest)) : IsChars s cs rest := by
  fun_induction stringBody s generalizing cs with
  | case1 => cases h
  | case2 =>
      obtain ⟨rfl, rfl⟩ := Prod.mk.inj (Option.some.inj h)
      exact .close
  | case3 => cases h
  | case4 a b c d s _ ih =>
      simp only [Option.bind_eq_bind, Option.bind_eq_some_iff] at h
      obtain ⟨a', ha, b', hb, c', hc, d', hd, hs⟩ := h
      obtain ⟨ds, hds, rfl⟩ := map_prepend_eq_some.mp hs
      exact .number ha hb hc hd (ih hds)
  | case5 => cases h
  | case6 e s _ _ ih =>
      simp only [Option.bind_eq_bind, Option.bind_eq_some_iff] at h
      obtain ⟨x, hx, hs⟩ := h
      obtain ⟨ds, hds, rfl⟩ := map_prepend_eq_some.mp hs
      exact .letter hx (ih hds)
  | case7 => cases h
  | case8 u s h34 h92 h32 ih =>
      obtain ⟨ds, hds, rfl⟩ := map_prepend_eq_some.mp h
      exact .plain h34 h92 h32 (ih hds)

lemma isDigits_takeWhile (u : UInt16) (s : JsString) (hu : isDigit u) :
    IsDigits (u :: s) (u :: s.takeWhile isDigit) (s.dropWhile isDigit) := by
  induction s generalizing u with
  | nil => exact .last hu
  | cons w s ih =>
      rw [List.takeWhile_cons, List.dropWhile_cons]
      split_ifs with hw
      · exact .cons hu (ih w hw)
      · exact .last hu

lemma isDigits_digits {s ds rest : JsString} (h : digits s = some (ds, rest)) :
    IsDigits s ds rest := by
  cases s with
  | nil => cases h
  | cons u s =>
      rw [digits, List.takeWhile_cons, List.dropWhile_cons] at h
      split_ifs at h with hu
      · obtain ⟨rfl, rfl⟩ := Prod.mk.inj (Option.some.inj h)
        exact isDigits_takeWhile u s hu

lemma isInteger_integerPart {s ds rest : JsString} (h : integerPart s = some (ds, rest)) :
    IsInteger s ds rest := by
  rw [integerPart.eq_def] at h
  split at h
  next =>
    obtain ⟨rfl, rfl⟩ := Prod.mk.inj (Option.some.inj h)
    exact .zero
  next h0 =>
    have hds := isDigits_digits h
    cases s with
    | nil => cases hds
    | cons u s => exact .digits (fun hu => h0 s (hu ▸ rfl)) hds

lemma isFraction_fractionPart {s ds rest : JsString} (h : fractionPart s = some (ds, rest)) :
    IsFraction s ds rest := by
  rw [fractionPart.eq_def] at h
  split at h
  next =>
    obtain ⟨ds, hds, rfl⟩ := map_prepend_eq_some.mp h
    exact .present (isDigits_digits hds)
  next =>
    obtain ⟨rfl, rfl⟩ := Prod.mk.inj (Option.some.inj h)
    exact .absent

lemma isExponent_exponentPart {s ds rest : JsString} (h : exponentPart s = some (ds, rest)) :
    IsExponent s ds rest := by
  rw [exponentPart.eq_def] at h
  split at h
  next u sign s =>
    split_ifs at h with hu hsign
    · obtain ⟨ds, hds, rfl⟩ := map_prepend_eq_some.mp h
      exact .signed hu hsign (isDigits_digits hds)
    · obtain ⟨ds, hds, rfl⟩ := map_prepend_eq_some.mp h
      exact .bare hu (isDigits_digits hds)
    · obtain ⟨rfl, rfl⟩ := Prod.mk.inj (Option.some.inj h)
      exact .absent
  next u =>
    split_ifs at h with hu
    obtain ⟨rfl, rfl⟩ := Prod.mk.inj (Option.some.inj h)
    exact .absent
  next =>
    obtain ⟨rfl, rfl⟩ := Prod.mk.inj (Option.some.inj h)
    exact .absent

lemma isNumber_number {s text rest : JsString} (h : number s = some (text, rest)) :
    IsNumber s text rest := by
  rw [number.eq_def] at h
  split at h
  next sign s₁ hsplit =>
    have hsign : IsSign s sign s₁ := by
      split at hsplit
      next =>
        obtain ⟨rfl, rfl⟩ := Prod.mk.inj hsplit
        exact .minus
      next =>
        obtain ⟨rfl, rfl⟩ := Prod.mk.inj hsplit
        exact .absent
    simp only [Option.bind_eq_bind, Option.bind_eq_some_iff] at h
    obtain ⟨⟨int, s₂⟩, hint, ⟨frac, s₃⟩, hfrac, ⟨exp, s₄⟩, hexp, heq⟩ := h
    obtain ⟨rfl, rfl⟩ := Prod.mk.inj (Option.some.inj heq)
    exact .mk hsign (isInteger_integerPart hint) (isFraction_fractionPart hfrac)
      (isExponent_exponentPart hexp)

lemma isChars_string {s cs rest : JsString} (h : string s = some (cs, rest)) :
    ∃ t, s = 34 :: t ∧ IsChars t cs rest := by
  cases s with
  | nil => cases h
  | cons u s =>
      rw [string] at h
      split_ifs at h with hu
      · exact ⟨s, hu ▸ rfl, isChars_stringBody s h⟩

/-- Everything the parser reads with this fuel is derived. -/
structure Sound (fuel : ℕ) : Prop where
  value : ∀ {s rest : JsString} {v : Value}, value fuel s = some (v, rest) → IsValue s v rest
  members : ∀ {s rest : JsString} {ms : List (JsString × Value)},
    members fuel s = some (ms, rest) → IsMembers s ms rest
  elements : ∀ {s rest : JsString} {vs : List Value},
    elements fuel s = some (vs, rest) → IsElements s vs rest

namespace Sound

variable {fuel : ℕ} {s rest : JsString}

lemma value_succ (ih : Sound fuel) {v : Value} (h : Json.value (fuel + 1) s = some (v, rest)) :
    IsValue s v rest := by
  rw [Json.value.eq_def] at h
  simp only at h
  split at h
  next s =>
    split at h
    next s' hend =>
      obtain ⟨rfl, rfl⟩ := Prod.mk.inj (Option.some.inj h)
      exact .emptyObj (isBlanks_of_skipSpace hend)
    next =>
      obtain ⟨⟨ms, s'⟩, hms, heq⟩ := Option.map_eq_some_iff.mp h
      obtain ⟨rfl, rfl⟩ := Prod.mk.inj heq
      exact .obj (isBlanks_skipSpace s) (ih.members hms)
  next s =>
    split at h
    next s' hend =>
      obtain ⟨rfl, rfl⟩ := Prod.mk.inj (Option.some.inj h)
      exact .emptyArr (isBlanks_of_skipSpace hend)
    next =>
      obtain ⟨⟨vs, s'⟩, hvs, heq⟩ := Option.map_eq_some_iff.mp h
      obtain ⟨rfl, rfl⟩ := Prod.mk.inj heq
      exact .arr (isBlanks_skipSpace s) (ih.elements hvs)
  next s =>
    obtain ⟨⟨cs, s'⟩, hcs, heq⟩ := Option.map_eq_some_iff.mp h
    obtain ⟨rfl, rfl⟩ := Prod.mk.inj heq
    exact .str (isChars_stringBody s hcs)
  next =>
    obtain ⟨rfl, rfl⟩ := Prod.mk.inj (Option.some.inj h)
    exact .true
  next =>
    obtain ⟨rfl, rfl⟩ := Prod.mk.inj (Option.some.inj h)
    exact .false
  next =>
    obtain ⟨rfl, rfl⟩ := Prod.mk.inj (Option.some.inj h)
    exact .null
  next =>
    obtain ⟨⟨text, s'⟩, htext, heq⟩ := Option.map_eq_some_iff.mp h
    obtain ⟨rfl, rfl⟩ := Prod.mk.inj heq
    exact .num (isNumber_number htext)

lemma members_succ (ih : Sound fuel) {ms : List (JsString × Value)}
    (h : Json.members (fuel + 1) s = some (ms, rest)) : IsMembers s ms rest := by
  rw [Json.members.eq_def] at h
  simp only [Option.bind_eq_bind, Option.bind_eq_some_iff] at h
  obtain ⟨⟨key, s₁⟩, hstring, h⟩ := h
  obtain ⟨s, rfl, hkey⟩ := isChars_string hstring
  split at h
  next s₂ hcolon =>
    simp only [Option.bind_some, Option.bind_eq_some_iff] at h
    obtain ⟨⟨v, s₄⟩, hv, h⟩ := h
    have hv' := ih.value hv
    split at h
    next s₅ hcomma =>
      obtain ⟨⟨ms, s'⟩, hms, heq⟩ := Option.map_eq_some_iff.mp h
      obtain ⟨rfl, rfl⟩ := Prod.mk.inj heq
      exact .cons hkey (isBlanks_of_skipSpace hcolon) (isBlanks_skipSpace s₂) hv'
        (isBlanks_of_skipSpace hcomma) (isBlanks_skipSpace s₅) (ih.members hms)
    next hend =>
      obtain ⟨rfl, rfl⟩ := Prod.mk.inj (Option.some.inj h)
      exact .last hkey (isBlanks_of_skipSpace hcolon) (isBlanks_skipSpace s₂) hv'
        (isBlanks_of_skipSpace hend)
    next => cases h
  next => cases h

lemma elements_succ (ih : Sound fuel) {vs : List Value}
    (h : Json.elements (fuel + 1) s = some (vs, rest)) : IsElements s vs rest := by
  rw [Json.elements.eq_def] at h
  simp only [Option.bind_eq_bind, Option.bind_eq_some_iff] at h
  obtain ⟨⟨v, s₁⟩, hv, h⟩ := h
  have hv' := ih.value hv
  split at h
  next s₂ hcomma =>
    obtain ⟨⟨vs, s'⟩, hvs, heq⟩ := Option.map_eq_some_iff.mp h
    obtain ⟨rfl, rfl⟩ := Prod.mk.inj heq
    exact .cons hv' (isBlanks_of_skipSpace hcomma) (isBlanks_skipSpace s₂) (ih.elements hvs)
  next hend =>
    obtain ⟨rfl, rfl⟩ := Prod.mk.inj (Option.some.inj h)
    exact .last hv' (isBlanks_of_skipSpace hend)
  next => cases h

end Sound

lemma sound (fuel : ℕ) : Sound fuel := by
  induction fuel with
  | zero => exact ⟨fun h => (by cases h), fun h => (by cases h), fun h => (by cases h)⟩
  | succ fuel ih => exact ⟨ih.value_succ, ih.members_succ, ih.elements_succ⟩

theorem isText_of_parse {s : JsString} {v : Value} (h : parse s = some v) : IsText s v := by
  rw [parse] at h
  split at h
  next v' s₂ hv =>
    split_ifs at h with hend
    obtain rfl := Option.some.inj h
    exact ⟨skipSpace s, s₂, isBlanks_skipSpace s, (sound _).value hv,
      isBlanks_of_skipSpace (List.isEmpty_iff.mp hend)⟩
  next => cases h

/-! ## What is derived is accepted

A number is the one production whose end the parser has to find; `EndsNumber` says that what
follows is no part of one.
-/

def EndsNumber (rest : JsString) : Prop :=
  ∀ u ∈ rest.head?, ¬ isDigit u ∧ u ≠ 46 ∧ u ≠ 101 ∧ u ≠ 69

lemma endsNumber_of_isBlanks {s rest : JsString} (h : IsBlanks s rest) (hrest : EndsNumber rest) :
    EndsNumber s := by
  cases h with
  | nil => exact hrest
  | @cons u s rest hu h =>
      rintro w hw
      obtain rfl : u = w := Option.some.inj hw
      simp only [isSpace, Bool.or_eq_true, beq_iff_eq] at hu
      rcases hu with ((rfl | rfl) | rfl) | rfl <;> decide

lemma skipSpace_of_isBlanks {s rest : JsString} (h : IsBlanks s rest)
    (hrest : ∀ u ∈ rest.head?, ¬ isSpace u) : skipSpace s = rest := by
  induction h with
  | @nil s =>
      cases s with
      | nil => rfl
      | cons u s => exact List.dropWhile_cons_of_neg (hrest u rfl)
  | cons hu h ih => rw [skipSpace, List.dropWhile_cons_of_pos hu, ← skipSpace, ih hrest]

lemma stringBody_of_isChars {s cs rest : JsString} (h : IsChars s cs rest) :
    stringBody s = some (cs, rest) := by
  induction h with
  | close => exact stringBody_close _
  | plain h34 h92 h32 h ih =>
      rw [stringBody_plain h34 h92 h32, ih]
      rfl
  | @letter e x s cs rest hx h ih =>
      have he : e ≠ 117 := by
        rintro rfl
        cases hx
      rw [stringBody_letter he hx, ih]
      rfl
  | number ha hb hc hd h ih =>
      rw [stringBody_number ha hb hc hd, ih]
      rfl

lemma takeWhile_of_isDigits {s ds rest : JsString} (h : IsDigits s ds rest)
    (hrest : ∀ u ∈ rest.head?, ¬ isDigit u) :
    s.takeWhile isDigit = ds ∧ s.dropWhile isDigit = rest := by
  induction h with
  | @last u rest hu =>
      rw [List.takeWhile_cons_of_pos hu, List.dropWhile_cons_of_pos hu]
      cases rest with
      | nil => exact ⟨rfl, rfl⟩
      | cons w rest =>
          have hw := hrest w rfl
          rw [List.takeWhile_cons_of_neg hw, List.dropWhile_cons_of_neg hw]
          exact ⟨rfl, rfl⟩
  | cons hu h ih =>
      obtain ⟨htake, hdrop⟩ := ih hrest
      rw [List.takeWhile_cons_of_pos hu, List.dropWhile_cons_of_pos hu, htake, hdrop]
      exact ⟨rfl, rfl⟩

lemma digits_of_isDigits {s ds rest : JsString} (h : IsDigits s ds rest)
    (hrest : ∀ u ∈ rest.head?, ¬ isDigit u) : digits s = some (ds, rest) := by
  obtain ⟨htake, hdrop⟩ := takeWhile_of_isDigits h hrest
  rw [digits, htake, hdrop]
  cases h <;> rfl

lemma isDigit_of_isDigits {u : UInt16} {s ds rest : JsString} (h : IsDigits (u :: s) ds rest) :
    isDigit u := by
  cases h with
  | last hu => exact hu
  | cons hu h => exact hu

lemma integerPart_of_isInteger {s ds rest : JsString} (h : IsInteger s ds rest)
    (hrest : ∀ u ∈ rest.head?, ¬ isDigit u) : integerPart s = some (ds, rest) := by
  cases h with
  | zero => rfl
  | digits h0 h =>
      rw [integerPart.eq_def]
      split
      next heq => exact absurd (List.cons_eq_cons.mp heq).1 h0
      next => exact digits_of_isDigits h hrest

lemma fractionPart_of_isFraction {s ds rest : JsString} (h : IsFraction s ds rest)
    (hrest : ∀ u ∈ rest.head?, ¬ isDigit u ∧ u ≠ 46) : fractionPart s = some (ds, rest) := by
  cases h with
  | absent =>
      rw [fractionPart.eq_def]
      split
      next => exact absurd rfl (hrest 46 rfl).2
      next => rfl
  | present h =>
      show (digits _).map _ = _
      rw [digits_of_isDigits h fun u hu => (hrest u hu).1]
      rfl

lemma exponentPart_of_isExponent {s ds rest : JsString} (h : IsExponent s ds rest)
    (hrest : EndsNumber rest) : exponentPart s = some (ds, rest) := by
  have hdigit : ∀ u ∈ rest.head?, ¬ isDigit u := fun u hu => (hrest u hu).1
  cases h with
  | absent =>
      have hno : ∀ u ∈ s.head?, ¬ (u = 101 ∨ u = 69) := by
        intro u hu
        obtain ⟨-, -, h101, h69⟩ := hrest u hu
        exact not_or.mpr ⟨h101, h69⟩
      rw [exponentPart.eq_def]
      split
      next u sign s => exact if_neg (hno u rfl)
      next u => exact if_neg (hno u rfl)
      next => rfl
  | @bare u s ds rest hu h =>
      cases s with
      | nil => cases h
      | cons w s =>
          have hsign : ¬ (w = 43 ∨ w = 45) := by
            have hw := isDigit_of_isDigits h
            rintro (rfl | rfl) <;> exact absurd hw (by decide)
          rw [exponentPart, if_pos hu, if_neg hsign, digits_of_isDigits h hdigit]
          rfl
  | signed hu hsign h =>
      rw [exponentPart, if_pos hu, if_pos hsign, digits_of_isDigits h hdigit]
      rfl

/-- An exponent is no part of the fraction in front of it. -/
lemma isExponent_head {s ds rest : JsString} (h : IsExponent s ds rest) (hrest : EndsNumber rest) :
    ∀ u ∈ s.head?, ¬ isDigit u ∧ u ≠ 46 := by
  rintro u hu
  cases h with
  | absent =>
      obtain ⟨hdigit, hpoint, -⟩ := hrest u hu
      exact ⟨hdigit, hpoint⟩
  | bare h101 h =>
      obtain rfl := Option.some.inj hu
      rcases h101 with rfl | rfl <;> decide
  | signed h101 hsign h =>
      obtain rfl := Option.some.inj hu
      rcases h101 with rfl | rfl <;> decide

/-- A fraction is no part of the integer in front of it. -/
lemma isFraction_head {s ds rest : JsString} (h : IsFraction s ds rest)
    (hrest : ∀ u ∈ rest.head?, ¬ isDigit u) : ∀ u ∈ s.head?, ¬ isDigit u := by
  rintro u hu
  cases h with
  | absent => exact hrest u hu
  | present h =>
      obtain rfl := Option.some.inj hu
      decide

lemma isInteger_head {s ds rest : JsString} (h : IsInteger s ds rest) :
    ∃ u t, s = u :: t ∧ isDigit u := by
  cases h with
  | zero => exact ⟨48, _, rfl, by decide⟩
  | digits h0 h => exact ⟨_, _, rfl, isDigit_of_isDigits h⟩

lemma isNumber_head {s text rest : JsString} (h : IsNumber s text rest) :
    ∃ u t, s = u :: t ∧ (isDigit u ∨ u = 45) := by
  obtain ⟨hsign, hint, -, -⟩ := h
  obtain ⟨u, t, rfl, hu⟩ := isInteger_head hint
  cases hsign with
  | absent => exact ⟨u, t, rfl, .inl hu⟩
  | minus => exact ⟨45, _, rfl, .inr rfl⟩

lemma number_of_isNumber {s text rest : JsString} (h : IsNumber s text rest)
    (hrest : EndsNumber rest) : number s = some (text, rest) := by
  obtain ⟨hsign, hint, hfrac, hexp⟩ := h
  have hexp_head := isExponent_head hexp hrest
  have hfrac_head := isFraction_head hfrac fun u hu => (hexp_head u hu).1
  have hi := integerPart_of_isInteger hint hfrac_head
  have hf := fractionPart_of_isFraction hfrac hexp_head
  have he := exponentPart_of_isExponent hexp hrest
  cases hsign with
  | absent =>
      obtain ⟨u, t, rfl, hu⟩ := isInteger_head hint
      have hminus : ∀ rest, u :: t ≠ 45 :: rest := by
        rintro rest heq
        rw [(List.cons_eq_cons.mp heq).1] at hu
        exact absurd hu (by decide)
      rw [number.eq_def]
      split
      next sign s₁ hsplit =>
        split at hsplit
        next rest heq => exact absurd heq (hminus rest)
        next =>
          obtain ⟨rfl, rfl⟩ := Prod.mk.inj hsplit
          simp only [hi, hf, he, Option.bind_eq_bind, Option.bind_some]
  | minus =>
      rw [number.eq_def]
      simp only [hi, hf, he, Option.bind_eq_bind, Option.bind_some]

/-! ### Lengths -/

lemma IsBlanks.length_le {s rest : JsString} (h : IsBlanks s rest) : rest.length ≤ s.length := by
  induction h with
  | nil => exact Nat.le_refl _
  | cons hu h ih => exact Nat.le_succ_of_le ih

lemma IsChars.length_lt {s cs rest : JsString} (h : IsChars s cs rest) :
    rest.length < s.length := by
  induction h <;> simp only [List.length_cons] <;> omega

lemma IsDigits.length_lt {s ds rest : JsString} (h : IsDigits s ds rest) :
    rest.length < s.length := by
  induction h <;> simp only [List.length_cons] <;> omega

lemma IsNumber.length_lt {s text rest : JsString} (h : IsNumber s text rest) :
    rest.length < s.length := by
  obtain ⟨hsign, hint, hfrac, hexp⟩ := h
  rename_i s₁ s₂ s₃ _ _ _ _
  have h₁ : s₁.length ≤ s.length := by
    cases hsign with
    | absent => exact Nat.le_refl _
    | minus => exact Nat.le_succ _
  have h₂ : s₂.length < s₁.length := by
    cases hint with
    | zero => exact Nat.lt_succ_self _
    | digits h0 h => exact h.length_lt
  have h₃ : s₃.length ≤ s₂.length := by
    cases hfrac with
    | absent => exact Nat.le_refl _
    | present h => exact Nat.le_succ_of_le (Nat.le_of_lt h.length_lt)
  have h₄ : rest.length ≤ s₃.length := by
    cases hexp with
    | absent => exact Nat.le_refl _
    | bare hu h => exact Nat.le_succ_of_le (Nat.le_of_lt h.length_lt)
    | signed hu hsign h =>
        exact Nat.le_succ_of_le (Nat.le_succ_of_le (Nat.le_of_lt h.length_lt))
  omega

mutual

theorem IsValue.length_lt {s rest : JsString} {v : Value} :
    IsValue s v rest → rest.length < s.length
  | .null => by simp only [List.length_cons]; omega
  | .true => by simp only [List.length_cons]; omega
  | .false => by simp only [List.length_cons]; omega
  | .num h => h.length_lt
  | .str h => Nat.lt_succ_of_lt h.length_lt
  | .emptyArr h => by
      have hend := h.length_le
      simp only [List.length_cons] at hend ⊢
      omega
  | .arr hs h => by
      have hlt := IsElements.length_lt h
      have hle := hs.length_le
      simp only [List.length_cons]
      omega
  | .emptyObj h => by
      have hend := h.length_le
      simp only [List.length_cons] at hend ⊢
      omega
  | .obj hs h => by
      have hlt := IsMembers.length_lt h
      have hle := hs.length_le
      simp only [List.length_cons]
      omega

theorem IsElements.length_lt {s rest : JsString} {vs : List Value} :
    IsElements s vs rest → rest.length < s.length
  | .last hv hend => by
      have hlt := IsValue.length_lt hv
      have hle := hend.length_le
      simp only [List.length_cons] at hle
      omega
  | .cons hv hcomma hs h => by
      have hlt := IsValue.length_lt hv
      have hcomma' := hcomma.length_le
      have hs' := hs.length_le
      have hrest := IsElements.length_lt h
      simp only [List.length_cons] at hcomma'
      omega

theorem IsMembers.length_lt {s rest : JsString} {ms : List (JsString × Value)} :
    IsMembers s ms rest → rest.length < s.length
  | .last hkey hcolon hs hv hend => by
      have hkey' := hkey.length_lt
      have hcolon' := hcolon.length_le
      have hs' := hs.length_le
      have hv' := IsValue.length_lt hv
      have hend' := hend.length_le
      simp only [List.length_cons] at hcolon' hend' ⊢
      omega
  | .cons hkey hcolon hs hv hcomma hs₂ h => by
      have hkey' := hkey.length_lt
      have hcolon' := hcolon.length_le
      have hs' := hs.length_le
      have hv' := IsValue.length_lt hv
      have hcomma' := hcomma.length_le
      have hs₂' := hs₂.length_le
      have hrest := IsMembers.length_lt h
      simp only [List.length_cons] at hcolon' hcomma' ⊢
      omega

end

/-! ### Heads -/

lemma isSpace_iff {u : UInt16} : isSpace u ↔ u = 32 ∨ u = 9 ∨ u = 10 ∨ u = 13 := by
  simp [isSpace, or_assoc]

lemma IsValue.head {s rest : JsString} {v : Value} (h : IsValue s v rest) :
    ∃ u t, s = u :: t ∧ ¬ isSpace u ∧ u ≠ 93 := by
  cases h with
  | num h =>
      obtain ⟨u, t, rfl, hu⟩ := isNumber_head h
      refine ⟨u, t, rfl, ?_⟩
      rcases hu with hu | rfl
      · refine ⟨fun hspace => ?_, ?_⟩
        · rcases isSpace_iff.mp hspace with rfl | rfl | rfl | rfl <;> exact absurd hu (by decide)
        · rintro rfl
          exact absurd hu (by decide)
      · decide
  | _ => exact ⟨_, _, rfl, by decide⟩

lemma IsElements.head {s rest : JsString} {vs : List Value} (h : IsElements s vs rest) :
    ∃ u t, s = u :: t ∧ ¬ isSpace u ∧ u ≠ 93 := by
  cases h with
  | last hv hend => exact hv.head
  | cons hv hcomma hs h => exact hv.head

lemma IsMembers.head {s rest : JsString} {ms : List (JsString × Value)} (h : IsMembers s ms rest) :
    ∃ t, s = 34 :: t := by
  cases h <;> exact ⟨_, rfl⟩

/-! ### Values -/

/-- Everything derived of a text that this fuel is enough for is read. -/
structure Complete (fuel : ℕ) : Prop where
  value : ∀ {s rest : JsString} {v : Value}, IsValue s v rest → EndsNumber rest →
    s.length ≤ fuel + rest.length → value fuel s = some (v, rest)
  members : ∀ {s rest : JsString} {ms : List (JsString × Value)}, IsMembers s ms rest →
    s.length ≤ fuel + rest.length → members fuel s = some (ms, rest)
  elements : ∀ {s rest : JsString} {vs : List Value}, IsElements s vs rest →
    s.length ≤ fuel + rest.length → elements fuel s = some (vs, rest)

/-- A number is none of the other values. -/
lemma value_number {u : UInt16} {t : JsString} (hu : isDigit u ∨ u = 45) (fuel : ℕ) :
    value (fuel + 1) (u :: t) = (number (u :: t)).map fun r => (.num r.1, r.2) := by
  have hne : u ≠ 123 ∧ u ≠ 91 ∧ u ≠ 34 ∧ u ≠ 116 ∧ u ≠ 102 ∧ u ≠ 110 := by
    rcases hu with hu | rfl
    · refine ⟨?_, ?_, ?_, ?_, ?_, ?_⟩ <;> rintro rfl <;> exact absurd hu (by decide)
    · decide
  obtain ⟨h123, h91, h34, h116, h102, h110⟩ := hne
  rw [value.eq_def]
  simp only
  split
  next heq => exact absurd (List.cons_eq_cons.mp heq).1 h123
  next heq => exact absurd (List.cons_eq_cons.mp heq).1 h91
  next heq => exact absurd (List.cons_eq_cons.mp heq).1 h34
  next heq => exact absurd (List.cons_eq_cons.mp heq).1 h116
  next heq => exact absurd (List.cons_eq_cons.mp heq).1 h102
  next heq => exact absurd (List.cons_eq_cons.mp heq).1 h110
  next => rfl

namespace Complete

variable {fuel : ℕ} {s rest : JsString}

lemma value_succ (ih : Complete fuel) {v : Value} (h : IsValue s v rest) (hrest : EndsNumber rest)
    (hfuel : s.length ≤ fuel + 1 + rest.length) :
    Json.value (fuel + 1) s = some (v, rest) := by
  cases h with
  | null => rfl
  | true => rfl
  | false => rfl
  | num h =>
      obtain ⟨u, t, rfl, hu⟩ := isNumber_head h
      rw [value_number hu, number_of_isNumber h hrest]
      rfl
  | str h =>
      show (stringBody _).map _ = _
      rw [stringBody_of_isChars h]
      rfl
  | emptyArr h =>
      have hskip := skipSpace_of_isBlanks h (by simp [isSpace])
      rw [Json.value.eq_def]
      simp only [hskip]
  | @arr s s₁ rest vs hs h =>
      obtain ⟨u, t, rfl, hu, h93⟩ := h.head
      have hskip := skipSpace_of_isBlanks hs (by simpa using hu)
      have hle := hs.length_le
      have hvs := ih.elements h (by simp only [List.length_cons] at hfuel hle ⊢; omega)
      rw [Json.value.eq_def]
      simp only [hskip]
      split
      next heq => exact absurd (List.cons_eq_cons.mp heq).1 h93
      next =>
        rw [hvs]
        rfl
  | emptyObj h =>
      have hskip := skipSpace_of_isBlanks h (by simp [isSpace])
      rw [Json.value.eq_def]
      simp only [hskip]
  | @obj s s₁ rest ms hs h =>
      obtain ⟨t, rfl⟩ := h.head
      have hskip := skipSpace_of_isBlanks hs (by simp [isSpace])
      have hle := hs.length_le
      have hms := ih.members h (by simp only [List.length_cons] at hfuel hle ⊢; omega)
      rw [Json.value.eq_def]
      simp only [hskip]
      show (Json.members fuel (34 :: t)).map _ = _
      rw [hms]
      rfl

lemma elements_succ (ih : Complete fuel) {vs : List Value} (h : IsElements s vs rest)
    (hfuel : s.length ≤ fuel + 1 + rest.length) :
    Json.elements (fuel + 1) s = some (vs, rest) := by
  cases h with
  | @last s s₁ rest v hv hend =>
      have hle := hend.length_le
      have hvalue := ih.value hv (endsNumber_of_isBlanks hend (by simp [EndsNumber, isDigit]))
        (by simp only [List.length_cons] at hle; omega)
      have hskip := skipSpace_of_isBlanks hend (by simp [isSpace])
      rw [Json.elements.eq_def]
      simp only [hvalue, hskip, Option.bind_eq_bind, Option.bind_some]
  | @cons s s₁ s₂ s₃ rest v vs hv hcomma hs h =>
      have hlt := hv.length_lt
      have hcomma' := hcomma.length_le
      have hs' := hs.length_le
      have hrest := h.length_lt
      simp only [List.length_cons] at hcomma'
      have hvalue := ih.value hv (endsNumber_of_isBlanks hcomma (by simp [EndsNumber, isDigit]))
        (by omega)
      have hvs := ih.elements h (by omega)
      obtain ⟨u, t, rfl, hu, -⟩ := h.head
      have hskip := skipSpace_of_isBlanks hcomma (by simp [isSpace])
      have hskip' := skipSpace_of_isBlanks hs (by simpa using hu)
      rw [Json.elements.eq_def]
      simp only [hvalue, hskip, hskip', hvs, Option.bind_eq_bind, Option.bind_some,
        Option.map_some]

lemma members_succ (ih : Complete fuel) {ms : List (JsString × Value)} (h : IsMembers s ms rest)
    (hfuel : s.length ≤ fuel + 1 + rest.length) :
    Json.members (fuel + 1) s = some (ms, rest) := by
  cases h with
  | @last s s₁ s₂ s₃ s₄ key rest v hkey hcolon hs hv hend =>
      have hkey' := hkey.length_lt
      have hcolon' := hcolon.length_le
      have hs' := hs.length_le
      have hend' := hend.length_le
      simp only [List.length_cons] at hfuel hcolon' hend'
      have hvalue := ih.value hv (endsNumber_of_isBlanks hend (by simp [EndsNumber, isDigit]))
        (by omega)
      obtain ⟨u, t, rfl, hu, -⟩ := hv.head
      have hstring : string (34 :: s) = some (key, s₁) := stringBody_of_isChars hkey
      have hskip := skipSpace_of_isBlanks hcolon (by simp [isSpace])
      have hskip' := skipSpace_of_isBlanks hs (by simpa using hu)
      have hskip'' := skipSpace_of_isBlanks hend (by simp [isSpace])
      rw [Json.members.eq_def]
      simp only [hstring, hskip, hskip', hvalue, hskip'', Option.bind_eq_bind, Option.bind_some]
  | @cons s s₁ s₂ s₃ s₄ s₅ s₆ key rest v ms hkey hcolon hs hv hcomma hs₂ h =>
      have hkey' := hkey.length_lt
      have hcolon' := hcolon.length_le
      have hs' := hs.length_le
      have hv' := hv.length_lt
      have hcomma' := hcomma.length_le
      have hs₂' := hs₂.length_le
      have hrest := h.length_lt
      simp only [List.length_cons] at hfuel hcolon' hcomma'
      have hvalue := ih.value hv (endsNumber_of_isBlanks hcomma (by simp [EndsNumber, isDigit]))
        (by omega)
      have hms := ih.members h (by omega)
      obtain ⟨u, t, rfl, hu, -⟩ := hv.head
      obtain ⟨t', rfl⟩ := h.head
      have hstring : string (34 :: s) = some (key, s₁) := stringBody_of_isChars hkey
      have hskip := skipSpace_of_isBlanks hcolon (by simp [isSpace])
      have hskip' := skipSpace_of_isBlanks hs (by simpa using hu)
      have hskip'' := skipSpace_of_isBlanks hcomma (by simp [isSpace])
      have hskip₂ := skipSpace_of_isBlanks hs₂ (by simp [isSpace])
      rw [Json.members.eq_def]
      simp only [hstring, hskip, hskip', hvalue, hskip'', hskip₂, hms, Option.bind_eq_bind,
        Option.bind_some, Option.map_some]

end Complete

lemma complete (fuel : ℕ) : Complete fuel := by
  induction fuel with
  | zero =>
      refine ⟨?_, ?_, ?_⟩
      · intro s rest v h _ hfuel
        have hlt := h.length_lt
        omega
      · intro s rest ms h hfuel
        have hlt := h.length_lt
        omega
      · intro s rest vs h hfuel
        have hlt := h.length_lt
        omega
  | succ fuel ih => exact ⟨ih.value_succ, ih.members_succ, ih.elements_succ⟩

theorem parse_of_isText {s : JsString} {v : Value} (h : IsText s v) : parse s = some v := by
  obtain ⟨s₁, s₂, hs, hv, hend⟩ := h
  have hle := hs.length_le
  have hvalue := (complete (s.length + 1)).value hv
    (endsNumber_of_isBlanks hend (by simp [EndsNumber])) (by omega)
  obtain ⟨u, t, rfl, hu, -⟩ := hv.head
  have hskip := skipSpace_of_isBlanks hs (by simpa using hu)
  have hskip' := skipSpace_of_isBlanks hend (by simp)
  rw [parse, hskip, hvalue]
  simp only [hskip', List.isEmpty_nil, if_true]

/-- **The parser accepts exactly the texts of the grammar**, and reads the value they have. -/
theorem parse_iff {s : JsString} {v : Value} : parse s = some v ↔ IsText s v :=
  ⟨isText_of_parse, parse_of_isText⟩

end Json
