import VerusExplorer.Lib.Lines
import VerusExplorer.Lib.Utf8Lossy

/-!
# Form-encoded queries

The format `application/x-www-form-urlencoded`: pairs of texts, each written in UTF-8 with all but
the plain bytes escaped, with `=` inside and `&` between the pairs.

* `parse`, `serialize`, and `get?`, `set`, `erase` on the pairs, by the URL standard.
* **`parse_serialize`** — what has been written is read back, whatever the texts are.
-/

namespace Urlencoded

open Lines

/-- A pair of a name and a value. -/
abbrev Pair := List Char × List Char

/-! ## Bytes -/

/-- The bytes that are written as they are: letters, digits, and `*`, `-`, `.` and `_`. -/
def plain (b : UInt8) : Bool :=
  (48 ≤ b && b ≤ 57) || (65 ≤ b && b ≤ 90) || (97 ≤ b && b ≤ 122)
    || b == 42 || b == 45 || b == 46 || b == 95

def hexDigit (n : ℕ) : UInt8 := if n < 10 then UInt8.ofNat (48 + n) else UInt8.ofNat (55 + n)

def hexValue? (b : UInt8) : Option ℕ :=
  if 48 ≤ b && b ≤ 57 then some (b.toNat - 48)
  else if 65 ≤ b && b ≤ 70 then some (b.toNat - 55)
  else if 97 ≤ b && b ≤ 102 then some (b.toNat - 87)
  else none

/-- A byte as it is written: a space as `+`, what is not plain as `%` with two digits. -/
def encodeByte (b : UInt8) : List UInt8 :=
  if b = 32 then [43]
  else if plain b then [b]
  else [37, hexDigit (b.toNat / 16), hexDigit (b.toNat % 16)]

/-- The byte that `%` and two digits stand for. -/
def escaped? (a hi lo : UInt8) : Option UInt8 :=
  if a = 37 then
    match hexValue? hi, hexValue? lo with
    | some h, some l => some (UInt8.ofNat (16 * h + l))
    | _, _ => none
  else none

/-- A `%` that two digits do not follow stands for itself. -/
def percentDecode : List UInt8 → List UInt8
  | [] => []
  | [a] => [a]
  | [a, b] => [a, b]
  | a :: hi :: lo :: rest =>
      match escaped? a hi lo with
      | some b => b :: percentDecode rest
      | none => a :: percentDecode (hi :: lo :: rest)

def plusToSpace (b : UInt8) : UInt8 := if b = 43 then 32 else b

/-! ## Pairs -/

def encodeText (text : List Char) : List UInt8 :=
  (text.flatMap String.utf8EncodeChar).flatMap encodeByte

def decodeText (bytes : List UInt8) : List Char :=
  Utf8.lossy (percentDecode (bytes.map plusToSpace))

def encodePair (p : Pair) : List UInt8 := encodeText p.1 ++ 61 :: encodeText p.2

/-- A sequence without `=` is a name with the empty value. -/
def decodePair (bytes : List UInt8) : Pair :=
  (decodeText (bytes.takeWhile (· != 61)), decodeText ((bytes.dropWhile (· != 61)).drop 1))

def serialize (ps : List Pair) : List UInt8 := join 38 (ps.map encodePair)

def parse (query : List UInt8) : List Pair :=
  ((query.splitOn 38).filter (· ≠ [])).map decodePair

/-! ### Looking up and changing -/

def get? (name : List Char) (ps : List Pair) : Option (List Char) :=
  (ps.find? fun p => p.1 = name).map Prod.snd

def erase (name : List Char) (ps : List Pair) : List Pair := ps.filter fun p => p.1 ≠ name

/-- The first pair of the name gets the value and the others go; without one it is added. -/
def set (name value : List Char) : List Pair → List Pair
  | [] => [(name, value)]
  | p :: ps => if p.1 = name then (name, value) :: erase name ps else p :: set name value ps

/-! ## Round trip -/

lemma hexValue?_hexDigit : ∀ n < 16, hexValue? (hexDigit n) = some n := by decide

lemma plusToSpace_hexDigit : ∀ n < 16, plusToSpace (hexDigit n) = hexDigit n := by decide

lemma percentDecode_cons {a : UInt8} (h : a ≠ 37) (rest : List UInt8) :
    percentDecode (a :: rest) = a :: percentDecode rest := by
  match rest with
  | [] => rfl
  | [_] => rfl
  | _ :: _ :: _ => rw [percentDecode, escaped?, if_neg h]

lemma percentDecode_escape (b : UInt8) (rest : List UInt8) :
    percentDecode (37 :: hexDigit (b.toNat / 16) :: hexDigit (b.toNat % 16) :: rest)
      = b :: percentDecode rest := by
  have hlt : b.toNat < 256 := b.toNat_lt
  have hsum : 16 * (b.toNat / 16) + b.toNat % 16 = b.toNat := Nat.div_add_mod _ _
  have hbyte : escaped? 37 (hexDigit (b.toNat / 16)) (hexDigit (b.toNat % 16)) = some b := by
    rw [escaped?, if_pos rfl, hexValue?_hexDigit _ (by omega), hexValue?_hexDigit _ (by omega)]
    dsimp only
    rw [hsum, UInt8.ofNat_toNat]
  rw [percentDecode, hbyte]

lemma plain_ne {b : UInt8} (h : plain b = true) : b ≠ 37 ∧ b ≠ 43 ∧ b ≠ 38 ∧ b ≠ 61 := by
  refine ⟨?_, ?_, ?_, ?_⟩ <;>
    · rintro rfl
      exact absurd h (by decide)

/-- A byte is read back. -/
lemma percentDecode_encodeByte (b : UInt8) (rest : List UInt8) :
    percentDecode ((encodeByte b).map plusToSpace ++ rest) = b :: percentDecode rest := by
  have hlt : b.toNat < 256 := b.toNat_lt
  rw [encodeByte]
  split_ifs with hspace hplain
  · rw [hspace]
    exact percentDecode_cons (by decide) rest
  · obtain ⟨hpercent, hplus, -, -⟩ := plain_ne hplain
    have hsame : plusToSpace b = b := if_neg hplus
    rw [List.map_singleton, hsame]
    exact percentDecode_cons hpercent rest
  · have hpercent : plusToSpace 37 = 37 := rfl
    simp only [List.map_cons, List.map_nil, hpercent, plusToSpace_hexDigit _ (show b.toNat / 16 < 16
      by omega), plusToSpace_hexDigit _ (show b.toNat % 16 < 16 by omega)]
    exact percentDecode_escape b rest

lemma percentDecode_encode (bytes : List UInt8) :
    percentDecode ((bytes.flatMap encodeByte).map plusToSpace) = bytes := by
  induction bytes with
  | nil => rfl
  | cons b bytes ih =>
      rw [List.flatMap_cons, List.map_append, percentDecode_encodeByte, ih]

/-- A text is read back. -/
lemma decodeText_encodeText (text : List Char) : decodeText (encodeText text) = text := by
  rw [decodeText, encodeText, percentDecode_encode, (Utf8.lossy_encode text).1]

/-- No separator is written inside a text. -/
lemma separator_notMem_encodeText (text : List Char) :
    (38 : UInt8) ∉ encodeText text ∧ (61 : UInt8) ∉ encodeText text := by
  have hdigit : ∀ n < 16, hexDigit n ≠ 38 ∧ hexDigit n ≠ 61 := by decide
  have hbyte : ∀ b c : UInt8, c ∈ encodeByte b → c ≠ 38 ∧ c ≠ 61 := by
    intro b c hc
    have hlt : b.toNat < 256 := b.toNat_lt
    rw [encodeByte] at hc
    split_ifs at hc with hspace hplain
    · rw [List.mem_singleton.mp hc]
      decide
    · obtain ⟨-, -, hamp, heq⟩ := plain_ne hplain
      rw [List.mem_singleton.mp hc]
      exact ⟨hamp, heq⟩
    · simp only [List.mem_cons, List.not_mem_nil, or_false] at hc
      rcases hc with rfl | rfl | rfl
      · decide
      · exact hdigit _ (by omega)
      · exact hdigit _ (by omega)
  constructor
  · intro h
    obtain ⟨b, -, hb⟩ := List.mem_flatMap.mp h
    exact (hbyte b 38 hb).1 rfl
  · intro h
    obtain ⟨b, -, hb⟩ := List.mem_flatMap.mp h
    exact (hbyte b 61 hb).2 rfl

/-- A pair is read back. -/
lemma decodePair_encodePair (p : Pair) : decodePair (encodePair p) = p := by
  have hname : ∀ c ∈ encodeText p.1, (c != 61) = true := by
    intro c hc
    have hne : c ≠ 61 := fun h => (separator_notMem_encodeText p.1).2 (h ▸ hc)
    simpa using hne
  rw [decodePair, encodePair, List.takeWhile_append_of_pos hname,
    List.dropWhile_append_of_pos hname]
  simp [decodeText_encodeText]

/-- **What has been written is read back.** -/
theorem parse_serialize (ps : List Pair) : parse (serialize ps) = ps := by
  rcases eq_or_ne ps [] with rfl | hne
  · rfl
  · have hsplit : ∀ l ∈ ps.map encodePair, (38 : UInt8) ∉ l := by
      intro l hl
      obtain ⟨p, -, rfl⟩ := List.mem_map.mp hl
      have hname := (separator_notMem_encodeText p.1).1
      have hvalue := (separator_notMem_encodeText p.2).1
      simp [encodePair, hname, hvalue]
    have hfilter : (ps.map encodePair).filter (· ≠ []) = ps.map encodePair := by
      refine List.filter_eq_self.mpr fun l hl => ?_
      obtain ⟨p, -, rfl⟩ := List.mem_map.mp hl
      simp [encodePair]
    rw [parse, serialize, splitOn_join hsplit (by simpa using hne), hfilter, List.map_map]
    exact (List.map_congr_left fun p _ => decodePair_encodePair p).trans (List.map_id ps)

/-! ## Lookups after changes -/

section Changes

variable {name other value : List Char} {ps : List Pair}

lemma get?_cons (p : Pair) :
    get? name (p :: ps) = if p.1 = name then some p.2 else get? name ps := by
  rw [get?, List.find?_cons]
  by_cases h : p.1 = name
  · simp [h]
  · simp [h, get?]

lemma get?_erase_self : get? name (erase name ps) = none := by
  rw [get?, Option.map_eq_none_iff, List.find?_eq_none]
  intro p hp
  simpa using (List.mem_filter.mp hp).2

lemma get?_erase_of_ne (h : other ≠ name) : get? other (erase name ps) = get? other ps := by
  induction ps with
  | nil => rfl
  | cons p ps ih =>
      rw [get?_cons, erase, List.filter_cons]
      split_ifs with hkeep heq heq
      · rw [get?_cons, if_pos heq]
      · rw [get?_cons, if_neg heq]
        exact ih
      · exact absurd (heq.symm.trans (by simpa using hkeep)) h
      · exact ih

lemma get?_set_self : get? name (set name value ps) = some value := by
  induction ps with
  | nil => simp [set, get?]
  | cons p ps ih =>
      rw [set]
      split_ifs with h
      · rw [get?_cons, if_pos rfl]
      · rw [get?_cons, if_neg h, ih]

lemma get?_set_of_ne (h : other ≠ name) : get? other (set name value ps) = get? other ps := by
  induction ps with
  | nil => simp [set, get?, h.symm]
  | cons p ps ih =>
      rw [set]
      split_ifs with hp
      · rw [get?_cons, if_neg (show name ≠ other from h.symm), get?_erase_of_ne h, get?_cons,
          if_neg (hp.trans_ne h.symm)]
      · rw [get?_cons, get?_cons, ih]

/-- The other pairs stay as they are and where they are. -/
lemma erase_set : erase name (set name value ps) = erase name ps := by
  induction ps with
  | nil => simp [set, erase]
  | cons p ps ih =>
      rw [set]
      split_ifs with hp
      · simp [erase, hp]
      · rw [erase, List.filter_cons_of_pos (by simpa using hp), erase,
          List.filter_cons_of_pos (by simpa using hp)]
        exact congrArg (p :: ·) ih

lemma erase_erase : erase name (erase name ps) = erase name ps := by
  simp [erase]

lemma erase_comm : erase name (erase other ps) = erase other (erase name ps) := by
  rw [erase, erase, List.filter_filter, erase, erase, List.filter_filter]
  exact List.filter_congr fun _ _ => Bool.and_comm _ _

end Changes

end Urlencoded
