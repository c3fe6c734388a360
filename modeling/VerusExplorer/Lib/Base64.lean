import VerusExplorer.Lib.Utf16
import Mathlib.Data.List.DropRight

/-!
# Base64

Bytes as digits of six bits, in three layers.

* `sextets` and `octets` regroup the bits, four digits to three bytes; `octets_sextets` undoes the
  regrouping for every length.
* `digit` and `value?` are the alphabet.
* `encode` pads to a multiple of four digits.  `decode` is the forgiving decoder of browsers, which
  skips white space, takes padding or leaves it, and drops bits that are left over.
  **`decode_pad`** — it decodes any padded list of digits that `sextets` can yield.
-/

namespace Base64

open Utf16

/-! ## Regrouping -/

/-- The six-bit groups of some bytes; the last one is filled up with zeros. -/
def sextets : List UInt8 → List ℕ
  | [] => []
  | [a] => [a.toNat / 4, a.toNat % 4 * 16]
  | [a, b] => [a.toNat / 4, a.toNat % 4 * 16 + b.toNat / 16, b.toNat % 16 * 4]
  | a :: b :: c :: bytes =>
      a.toNat / 4 :: (a.toNat % 4 * 16 + b.toNat / 16) :: (b.toNat % 16 * 4 + c.toNat / 64)
        :: c.toNat % 64 :: sextets bytes

/-- The bytes in some six-bit groups; bits that do not fill a byte are dropped. -/
def octets : List ℕ → List UInt8
  | w :: x :: y :: z :: digits =>
      UInt8.ofNat (w * 4 + x / 16) :: UInt8.ofNat (x % 16 * 16 + y / 4)
        :: UInt8.ofNat (y % 4 * 64 + z) :: octets digits
  | [w, x, y] => [UInt8.ofNat (w * 4 + x / 16), UInt8.ofNat (x % 16 * 16 + y / 4)]
  | [w, x] => [UInt8.ofNat (w * 4 + x / 16)]
  | _ => []

lemma ofNat_eq {a : UInt8} {n : ℕ} (h : n = a.toNat) : UInt8.ofNat n = a := by
  rw [h, UInt8.ofNat_toNat]

theorem octets_sextets : ∀ bytes : List UInt8, octets (sextets bytes) = bytes
  | [] => rfl
  | [a] => by
      rw [sextets, octets, ofNat_eq (a := a) (by omega)]
  | [a, b] => by
      have hb := b.toNat_lt
      rw [sextets, octets, ofNat_eq (a := a) (by omega), ofNat_eq (a := b) (by omega)]
  | a :: b :: c :: bytes => by
      have hb := b.toNat_lt
      have hc := c.toNat_lt
      rw [sextets, octets, ofNat_eq (a := a) (by omega), ofNat_eq (a := b) (by omega),
        ofNat_eq (a := c) (by omega), octets_sextets bytes]

/-- One digit is never alone. -/
lemma length_sextets : ∀ bytes : List UInt8, (sextets bytes).length % 4 ≠ 1
  | [] => by simp [sextets]
  | [a] => by simp [sextets]
  | [a, b] => by simp [sextets]
  | a :: b :: c :: bytes => by
      have ih := length_sextets bytes
      simp only [sextets, List.length_cons]
      omega

lemma lt_of_mem_sextets : ∀ {bytes : List UInt8} {n : ℕ}, n ∈ sextets bytes → n < 64
  | [], n, h => absurd h List.not_mem_nil
  | [a], n, h => by
      have ha := a.toNat_lt
      simp only [sextets, List.mem_cons, List.not_mem_nil, or_false] at h
      omega
  | [a, b], n, h => by
      have ha := a.toNat_lt
      have hb := b.toNat_lt
      simp only [sextets, List.mem_cons, List.not_mem_nil, or_false] at h
      omega
  | a :: b :: c :: bytes, n, h => by
      have ha := a.toNat_lt
      have hb := b.toNat_lt
      have hc := c.toNat_lt
      simp only [sextets, List.mem_cons] at h
      rcases h with h | h | h | h | h
      · omega
      · omega
      · omega
      · omega
      · exact lt_of_mem_sextets h

/-! ## The alphabet -/

/-- `A`–`Z`, `a`–`z`, `0`–`9`, `+`, `/`. -/
def digit (n : ℕ) : UInt16 :=
  if n < 26 then UInt16.ofNat (65 + n)
  else if n < 52 then UInt16.ofNat (97 + (n - 26))
  else if n < 62 then UInt16.ofNat (48 + (n - 52))
  else if n = 62 then 43
  else 47

def value? (u : UInt16) : Option ℕ :=
  if 65 ≤ u ∧ u ≤ 90 then some (u.toNat - 65)
  else if 97 ≤ u ∧ u ≤ 122 then some (u.toNat - 97 + 26)
  else if 48 ≤ u ∧ u ≤ 57 then some (u.toNat - 48 + 52)
  else if u = 43 then some 62
  else if u = 47 then some 63
  else none

/-- The padding character. -/
def pad : UInt16 := 61

/-- Tab, line feed, form feed, carriage return and space. -/
def isSpace (u : UInt16) : Bool := u == 9 || u == 10 || u == 12 || u == 13 || u == 32

lemma value?_digit : ∀ n < 64, value? (digit n) = some n := by decide

lemma digit_plain : ∀ n < 64, isSpace (digit n) = false ∧ digit n ≠ pad := by decide

/-! ## Text -/

/-- The padding of so many digits. -/
def padding (n : ℕ) : JsString := List.replicate ((4 - n % 4) % 4) pad

/-- `btoa`. -/
def encode (bytes : List UInt8) : JsString :=
  (sextets bytes).map digit ++ padding (sextets bytes).length

/-- One or two padding characters at the end are removed. -/
def dropPadding (s : JsString) : JsString :=
  match s.reverse with
  | u :: v :: rest =>
      if u = pad then if v = pad then rest.reverse else (v :: rest).reverse else s
  | [u] => if u = pad then [] else s
  | [] => []

/-- `atob`. -/
def decode (s : JsString) : Option (List UInt8) :=
  let data := s.filter fun u => !isSpace u
  let data := if data.length % 4 = 0 then dropPadding data else data
  if data.length % 4 = 1 then none
  else (data.mapM value?).map octets

lemma dropPadding_of_getLast? {s : JsString} (h : s.getLast? ≠ some pad) : dropPadding s = s := by
  rw [List.getLast?_eq_head?_reverse] at h
  rw [dropPadding]
  cases hs : s.reverse with
  | nil => exact (List.reverse_eq_nil_iff.mp hs).symm
  | cons u rest =>
      rw [hs, List.head?_cons, ne_eq, Option.some_inj] at h
      cases rest with
      | nil => simp [h]
      | cons v rest => simp [h]

lemma dropPadding_one {s : JsString} (h : s.getLast? ≠ some pad) :
    dropPadding (s ++ [pad]) = s := by
  rw [List.getLast?_eq_head?_reverse] at h
  rw [dropPadding, List.reverse_append]
  cases hs : s.reverse with
  | nil =>
      rw [List.reverse_eq_nil_iff.mp hs]
      rfl
  | cons u rest =>
      rw [hs, List.head?_cons, ne_eq, Option.some_inj] at h
      show (if pad = pad then if u = pad then _ else (u :: rest).reverse else _) = s
      rw [if_pos rfl, if_neg h, ← hs, List.reverse_reverse]

lemma dropPadding_two (s : JsString) : dropPadding (s ++ [pad, pad]) = s := by
  rw [dropPadding, List.reverse_append]
  show (if pad = pad then if pad = pad then s.reverse.reverse else _ else _) = s
  rw [if_pos rfl, if_pos rfl, List.reverse_reverse]

lemma mapM_value? : ∀ {digits : List ℕ}, (∀ n ∈ digits, n < 64) →
    (digits.map digit).mapM value? = some digits
  | [], _ => rfl
  | n :: digits, h => by
      have ih := mapM_value? fun m hm => h m (List.mem_cons_of_mem n hm)
      rw [List.map_cons, List.mapM_cons, value?_digit n (h n List.mem_cons_self), ih]
      rfl

/-- Padded digits are decoded, unless one digit is left over. -/
theorem decode_pad {digits : List ℕ} (h : ∀ n ∈ digits, n < 64) (hlen : digits.length % 4 ≠ 1) :
    decode (digits.map digit ++ padding digits.length) = some (octets digits) := by
  have hplain : ∀ u ∈ digits.map digit, isSpace u = false ∧ u ≠ pad := by
    intro u hu
    obtain ⟨n, hn, rfl⟩ := List.mem_map.mp hu
    exact digit_plain n (h n hn)
  have hlast : (digits.map digit).getLast? ≠ some pad := by
    intro heq
    exact (hplain pad (List.mem_of_getLast? heq)).2 rfl
  have hfilter : (digits.map digit ++ padding digits.length).filter (fun u => !isSpace u)
      = digits.map digit ++ padding digits.length := by
    refine List.filter_eq_self.mpr ?_
    intro u hu
    rcases List.mem_append.mp hu with hu | hu
    · simp [(hplain u hu).1]
    · rw [(List.mem_replicate.mp hu).2]
      rfl
  have hdata : (let data := digits.map digit ++ padding digits.length
      if data.length % 4 = 0 then dropPadding data else data) = digits.map digit := by
    have htotal : (digits.map digit ++ padding digits.length).length % 4 = 0 := by
      rw [List.length_append, List.length_map, padding, List.length_replicate]
      omega
    simp only [htotal, if_true]
    have hcases : (4 - digits.length % 4) % 4 = 0 ∨ (4 - digits.length % 4) % 4 = 1
        ∨ (4 - digits.length % 4) % 4 = 2 := by omega
    rcases hcases with hpad | hpad | hpad
    · rw [padding, hpad, List.replicate_zero, List.append_nil, dropPadding_of_getLast? hlast]
    · rw [padding, hpad]
      exact dropPadding_one hlast
    · rw [padding, hpad]
      exact dropPadding_two _
  rw [decode, hfilter]
  simp only [hdata, List.length_map, hlen, if_false, mapM_value? h, Option.map_some]

end Base64
