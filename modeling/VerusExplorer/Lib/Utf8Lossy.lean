import Mathlib.Data.List.Basic
import Mathlib.Data.List.Forall2
import Mathlib.Tactic.Lemma

/-!
# Lossy decoding of UTF-8

Bytes that need not be UTF-8 are decoded into characters.  Where a sequence is cut off or a byte
cannot start one, a replacement character stands for the longest stretch that could have been the
beginning of a sequence, and decoding goes on with the byte after it.

* `follow` — which bytes may follow the first byte of a sequence.
* `step`, `lossy` — the decoder, one byte at a time, and what it makes of a list of bytes.
* `lossy_encode` — text comes through as it is.
* `cutsSequence` — a cut inside a sequence.  **`lossy_flatten_iff`** — decoding the pieces of a list
  of bytes one by one gives what decoding the whole does exactly if no cut is such a one.
-/

namespace Utf8

/-! ## The decoder -/

/-- U+FFFD. -/
def replacement : Char := '\uFFFD'

/-- From which byte to which the next one may be.  No byte after the first of a sequence starts one.
-/
structure ByteRange where
  lo : ℕ
  hi : ℕ
  le_lo : 0x80 ≤ lo := by decide
  hi_le : hi ≤ 0xBF := by decide
  deriving DecidableEq, Repr

def ByteRange.has (r : ByteRange) (b : UInt8) : Bool := r.lo ≤ b.toNat && b.toNat ≤ r.hi

/-- Any byte of a sequence but the first. -/
def tail : ByteRange := { lo := 0x80, hi := 0xBF }

/-- The bytes that must follow the first byte of a sequence; none for a byte that starts none. -/
def follow (b : UInt8) : Option (List ByteRange) :=
  let n := b.toNat
  if n ≤ 0x7F then some []
  else if n < 0xC2 then none
  else if n ≤ 0xDF then some [tail]
  else if n = 0xE0 then some [{ lo := 0xA0, hi := 0xBF }, tail]
  else if n = 0xED then some [{ lo := 0x80, hi := 0x9F }, tail]
  else if n ≤ 0xEF then some [tail, tail]
  else if n = 0xF0 then some [{ lo := 0x90, hi := 0xBF }, tail, tail]
  else if n ≤ 0xF3 then some [tail, tail, tail]
  else if n = 0xF4 then some [{ lo := 0x80, hi := 0x8F }, tail, tail]
  else none

/-- The character a whole sequence stands for. -/
def scalar : List UInt8 → Char
  | [a] => .ofNat a.toNat
  | [a, b] => .ofNat (a.toNat % 0x20 * 0x40 + b.toNat % 0x40)
  | [a, b, c] => .ofNat ((a.toNat % 0x10 * 0x40 + b.toNat % 0x40) * 0x40 + c.toNat % 0x40)
  | [a, b, c, d] =>
      .ofNat (((a.toNat % 0x08 * 0x40 + b.toNat % 0x40) * 0x40 + c.toNat % 0x40) * 0x40
        + d.toNat % 0x40)
  | _ => replacement

/-- The beginning of a sequence: its bytes so far, what the next one may be and those after it. -/
structure Begun where
  seen : List UInt8
  next : ByteRange
  rest : List ByteRange
  deriving DecidableEq, Repr

/-- Between two sequences, or inside one. -/
abbrev State := Option Begun

/-- More bytes of a sequence are to come, or it is complete. -/
def more (seen : List UInt8) : List ByteRange → State × List Char
  | [] => (none, [scalar seen])
  | next :: rest => (some ⟨seen, next, rest⟩, [])

/-- A byte between two sequences. -/
def start (b : UInt8) : State × List Char :=
  match follow b with
  | none => (none, [replacement])
  | some ranges => more [b] ranges

/-- One byte: the state after it and the characters that are thereby decided. -/
def step : State → UInt8 → State × List Char
  | none, b => start b
  | some p, b =>
      if p.next.has b then more (p.seen ++ [b]) p.rest
      else ((start b).1, replacement :: (start b).2)

/-- What is left at the end: a sequence that is cut off. -/
def close : State → List Char
  | none => []
  | some _ => [replacement]

/-- The characters that are decided by some bytes. -/
def decided : State → List UInt8 → List Char
  | _, [] => []
  | q, b :: bs => (step q b).2 ++ decided (step q b).1 bs

/-- The state after some bytes. -/
def after : State → List UInt8 → State
  | q, [] => q
  | q, b :: bs => after (step q b).1 bs

def decode (q : State) (bytes : List UInt8) : List Char := decided q bytes ++ close (after q bytes)

/-- The characters of some bytes. -/
def lossy (bytes : List UInt8) : List Char := decode none bytes

lemma after_append (q : State) (a b : List UInt8) : after q (a ++ b) = after (after q a) b := by
  induction a generalizing q with
  | nil => rfl
  | cons x a ih => exact ih (step q x).1

lemma decided_append (q : State) (a b : List UInt8) :
    decided q (a ++ b) = decided q a ++ decided (after q a) b := by
  induction a generalizing q with
  | nil => rfl
  | cons x a ih =>
      rw [List.cons_append, decided, ih, decided, after, List.append_assoc]

lemma decode_append (q : State) (a b : List UInt8) :
    decode q (a ++ b) = decided q a ++ decode (after q a) b := by
  rw [decode, decided_append, after_append, decode, List.append_assoc]

/-! ## Text -/

/-- The rest of a sequence completes it. -/
lemma decided_more : ∀ {ranges : List ByteRange} {rest : List UInt8} (seen : List UInt8),
    List.Forall₂ (fun r b => ByteRange.has r b = true) ranges rest →
      (more seen ranges).2 ++ decided (more seen ranges).1 rest = [scalar (seen ++ rest)]
        ∧ after (more seen ranges).1 rest = none
  | [], [], seen, _ => by
      rw [List.append_nil]
      exact ⟨rfl, rfl⟩
  | next :: ranges, b :: rest, seen, h => by
      obtain ⟨hb, hrest⟩ := List.forall₂_cons.mp h
      obtain ⟨hdecided, hafter⟩ := decided_more (seen ++ [b]) hrest
      have hstep : step (some ⟨seen, next, ranges⟩) b = more (seen ++ [b]) ranges := if_pos hb
      rw [List.append_assoc, List.singleton_append] at hdecided
      refine ⟨?_, ?_⟩
      · rw [more, List.nil_append, decided, hstep, hdecided]
      · rw [more, after, hstep, hafter]

lemma toNat_byte {n : ℕ} (h : n < 256) : (UInt8.ofNat n).toNat = n := UInt8.toNat_ofNat_of_lt' h

lemma has_iff {r : ByteRange} {n : ℕ} (h : n < 256) :
    r.has (UInt8.ofNat n) = true ↔ r.lo ≤ n ∧ n ≤ r.hi := by
  rw [ByteRange.has, toNat_byte h, Bool.and_eq_true, decide_eq_true_iff, decide_eq_true_iff]

lemma tail_has (n : ℕ) : tail.has (UInt8.ofNat (n % 0x40 + 0x80)) = true := by
  rw [has_iff (by omega)]
  show 0x80 ≤ _ ∧ _ ≤ 0xBF
  omega

/-- The bytes after the first two. -/
lemma forall₂_tail₁ (n : ℕ) : List.Forall₂ (fun r b => ByteRange.has r b = true) [tail]
    [UInt8.ofNat (n % 0x40 + 0x80)] := .cons (tail_has n) .nil

lemma forall₂_tail₂ (n m : ℕ) : List.Forall₂ (fun r b => ByteRange.has r b = true) [tail, tail]
    [UInt8.ofNat (n % 0x40 + 0x80), UInt8.ofNat (m % 0x40 + 0x80)] :=
  .cons (tail_has n) (forall₂_tail₁ m)

/-- What may follow the first byte of a sequence of two, three and four bytes. -/
lemma follow_two {n : ℕ} (h : 0xC2 ≤ n) (h' : n ≤ 0xDF) : follow (UInt8.ofNat n) = some [tail] := by
  rw [follow, toNat_byte (by omega), if_neg (by omega), if_neg (by omega), if_pos h']

lemma exists_follow_three {v : ℕ} (h : 0x7FF < v) (h' : v ≤ 0xFFFF)
    (hvalid : v < 0xD800 ∨ 0xDFFF < v) :
    ∃ r : ByteRange, follow (UInt8.ofNat (v / 4096 % 0x10 + 0xE0)) = some [r, tail]
      ∧ r.has (UInt8.ofNat (v / 64 % 0x40 + 0x80)) = true := by
  have hbyte : v / 4096 % 0x10 + 0xE0 < 256 := by omega
  rw [follow, toNat_byte hbyte, if_neg (by omega), if_neg (by omega), if_neg (by omega)]
  split_ifs with hE0 hED hEF
  · refine ⟨_, rfl, (has_iff (by omega)).mpr ?_⟩
    simp only
    omega
  · refine ⟨_, rfl, (has_iff (by omega)).mpr ?_⟩
    simp only
    omega
  · exact ⟨tail, rfl, tail_has _⟩
  all_goals omega

lemma exists_follow_four {v : ℕ} (h : 0xFFFF < v) (h' : v < 0x110000) :
    ∃ r : ByteRange, follow (UInt8.ofNat (v / 262144 % 0x08 + 0xF0)) = some [r, tail, tail]
      ∧ r.has (UInt8.ofNat (v / 4096 % 0x40 + 0x80)) = true := by
  have hbyte : v / 262144 % 0x08 + 0xF0 < 256 := by omega
  rw [follow, toNat_byte hbyte, if_neg (by omega), if_neg (by omega), if_neg (by omega),
    if_neg (by omega), if_neg (by omega), if_neg (by omega)]
  split_ifs with hF0 hF3 hF4
  · refine ⟨_, rfl, (has_iff (by omega)).mpr ?_⟩
    simp only
    omega
  · exact ⟨tail, rfl, tail_has _⟩
  · refine ⟨_, rfl, (has_iff (by omega)).mpr ?_⟩
    simp only
    omega
  · omega

/-- A character is encoded as a whole sequence that stands for it. -/
lemma exists_sequence (c : Char) :
    ∃ b rest ranges, String.utf8EncodeChar c = b :: rest ∧ follow b = some ranges
      ∧ List.Forall₂ (fun r b => ByteRange.has r b = true) ranges rest
      ∧ scalar (b :: rest) = c := by
  have hvalid : c.val.toNat < 0xD800 ∨ 0xDFFF < c.val.toNat ∧ c.val.toNat < 0x110000 := c.valid
  have hofNat : ∀ n, n = c.val.toNat → Char.ofNat n = c := by
    intro n hn
    rw [hn]
    exact Char.ofNat_toNat c
  rw [String.utf8EncodeChar]
  generalize c.val.toNat = v at hvalid hofNat ⊢
  split_ifs with h₁ h₂ h₃
  · refine ⟨_, _, [], rfl, ?_, .nil, hofNat _ (toNat_byte (by omega))⟩
    rw [follow, toNat_byte (by omega)]
    exact if_pos h₁
  · refine ⟨_, _, _, rfl, follow_two (by omega) (by omega), forall₂_tail₁ _, hofNat _ ?_⟩
    rw [toNat_byte (by omega), toNat_byte (by omega)]
    omega
  · obtain ⟨r, hfollow, hr⟩ := exists_follow_three (Nat.lt_of_not_le h₂) h₃
      (hvalid.imp id And.left)
    refine ⟨_, _, _, rfl, hfollow, .cons hr (forall₂_tail₁ _), hofNat _ ?_⟩
    rw [toNat_byte (by omega), toNat_byte (by omega), toNat_byte (by omega)]
    omega
  · obtain ⟨r, hfollow, hr⟩ := exists_follow_four (Nat.lt_of_not_le h₃) (by omega)
    refine ⟨_, _, _, rfl, hfollow, .cons hr (forall₂_tail₂ _ _), hofNat _ ?_⟩
    rw [toNat_byte (by omega), toNat_byte (by omega), toNat_byte (by omega),
      toNat_byte (by omega)]
    omega

lemma decided_char (c : Char) :
    decided none (String.utf8EncodeChar c) = [c] ∧ after none (String.utf8EncodeChar c) = none := by
  obtain ⟨b, rest, ranges, hbytes, hfollow, hrest, hscalar⟩ := exists_sequence c
  obtain ⟨hdecided, hafter⟩ := decided_more [b] hrest
  have hstep : step none b = more [b] ranges := by
    rw [step, start, hfollow]
  rw [hbytes, decided, after, hstep, hdecided, hafter]
  exact ⟨congrArg (fun c => [c]) hscalar, rfl⟩

/-- Text comes through as it is, and ends between two sequences. -/
lemma lossy_encode (s : List Char) :
    lossy (s.flatMap String.utf8EncodeChar) = s
      ∧ after none (s.flatMap String.utf8EncodeChar) = none := by
  induction s with
  | nil => exact ⟨rfl, rfl⟩
  | cons c s ih =>
      obtain ⟨hdecided, hafter⟩ := decided_char c
      rw [List.flatMap_cons]
      constructor
      · rw [lossy, decode_append, hdecided, hafter]
        exact congrArg (c :: ·) ih.1
      · rw [after_append, hafter, ih.2]

/-! ## Pieces -/

/-- The first byte goes on with the sequence that has been begun. -/
def goesOn : State → List UInt8 → Bool
  | some p, c :: _ => p.next.has c
  | some _, [] => false
  | none, _ => false

/-- The first byte of `b` goes on with a sequence that `a` has begun. -/
def cutsSequence (a b : List UInt8) : Bool := goesOn (after none a) b

lemma follow_of_has {r : ByteRange} {b : UInt8} (h : r.has b = true) : follow b = none := by
  rw [ByteRange.has, Bool.and_eq_true, decide_eq_true_iff, decide_eq_true_iff] at h
  have hlo := r.le_lo
  have hhi := r.hi_le
  rw [follow, if_neg (by omega), if_pos (by omega)]

/-- A byte that does not go on with a sequence is decoded as if there were none. -/
lemma step_of_not_has {p : Begun} {c : UInt8} (h : p.next.has c = false) :
    step (some p) c = ((step none c).1, replacement :: (step none c).2) :=
  if_neg (by simp [h])

lemma decode_of_not_has {p : Begun} {c : UInt8} (h : p.next.has c = false) (bs : List UInt8) :
    decode (some p) (c :: bs) = replacement :: decode none (c :: bs)
      ∧ after (some p) (c :: bs) = after none (c :: bs) := by
  have hstep := step_of_not_has h
  constructor
  · rw [decode, decode, decided, decided, after, after, hstep, List.cons_append, List.cons_append]
  · rw [after, after, hstep]

/-- Between two sequences the pieces can be decoded one by one. -/
lemma lossy_append {a b : List UInt8} (h : cutsSequence a b = false) :
    lossy (a ++ b) = lossy a ++ lossy b := by
  have hsplit : lossy a ++ lossy b
      = decided none a ++ (close (after none a) ++ decode none b) := List.append_assoc _ _ _
  rw [lossy, decode_append, hsplit]
  refine congrArg (decided none a ++ ·) ?_
  cases ha : after none a with
  | none => rfl
  | some p =>
      cases b with
      | nil => rfl
      | cons c bs =>
          rw [cutsSequence, ha] at h
          exact (decode_of_not_has h bs).1

/-- The state after the second piece is that after decoding it on its own. -/
lemma after_append_of_not_cuts {a b : List UInt8} (h : cutsSequence a b = false) (hb : b ≠ []) :
    after none (a ++ b) = after none b := by
  rw [after_append]
  cases ha : after none a with
  | none => rfl
  | some p =>
      cases b with
      | nil => exact absurd rfl hb
      | cons c bs =>
          rw [cutsSequence, ha] at h
          exact (decode_of_not_has h bs).2

/-! ### Cuts in text -/

/-- Inside a sequence the next byte goes on with it. -/
lemma goesOn_more : ∀ {ranges : List ByteRange} (u : List UInt8) {c : UInt8} {v : List UInt8}
    (seen : List UInt8), List.Forall₂ (fun r b => ByteRange.has r b = true) ranges (u ++ c :: v) →
      ∀ b, goesOn (after (more seen ranges).1 u) (c :: b) = true
  | [], u, _, _, _, h, _ => absurd (List.forall₂_nil_left_iff.mp h) (by simp)
  | next :: ranges, [], c, v, seen, h, _ => (List.forall₂_cons.mp h).1
  | next :: ranges, x :: u, c, v, seen, h, b => by
      obtain ⟨hx, hrest⟩ := List.forall₂_cons.mp h
      have hstep : step (some ⟨seen, next, ranges⟩) x = more (seen ++ [x]) ranges := if_pos hx
      rw [more, after, hstep]
      exact goesOn_more u (seen ++ [x]) hrest b

/-- A cut in the bytes of a character that leaves some on either side. -/
lemma cutsSequence_char {c : Char} {a b : List UInt8} (ha : a ≠ []) (hb : b ≠ [])
    (h : String.utf8EncodeChar c = a ++ b) (rest : List UInt8) :
    cutsSequence a (b ++ rest) = true := by
  obtain ⟨first, bytes, ranges, hbytes, hfollow, hrest, -⟩ := exists_sequence c
  obtain ⟨x, u, rfl⟩ := List.exists_cons_of_ne_nil ha
  obtain ⟨y, v, rfl⟩ := List.exists_cons_of_ne_nil hb
  rw [hbytes, List.cons_append] at h
  obtain ⟨rfl, rfl⟩ := List.cons_eq_cons.mp h
  have hstep : step none first = more [first] ranges := by
    rw [step, start, hfollow]
  rw [cutsSequence, after, hstep, List.cons_append]
  exact goesOn_more u [first] hrest (v ++ rest)

/-- A cut in text is inside a sequence exactly if what is before it is not text. -/
lemma cutsSequence_iff_of_encode : ∀ {s : List Char} {a b : List UInt8},
    s.flatMap String.utf8EncodeChar = a ++ b →
      (cutsSequence a b = true ↔ ∀ t : List Char, a ≠ t.flatMap String.utf8EncodeChar) := by
  intro s a b h
  constructor
  · rintro hcut t rfl
    rw [cutsSequence, (lossy_encode t).2] at hcut
    exact absurd hcut (by simp [goesOn])
  · intro hnot
    induction s generalizing a with
    | nil =>
        rw [List.flatMap_nil] at h
        exact absurd (List.append_eq_nil_iff.mp h.symm).1 (hnot [])
    | cons c s ih =>
        rw [List.flatMap_cons] at h
        rcases List.append_eq_append_iff.mp h with ⟨a', rfl, hrest⟩ | ⟨b', hchar, rfl⟩
        · have hcut := ih hrest fun t ht => hnot (c :: t) (by rw [List.flatMap_cons, ht])
          rw [cutsSequence, after_append, (decided_char c).2]
          exact hcut
        · by_cases hb : b' = []
          · refine absurd ?_ (hnot [c])
            rw [List.flatMap_singleton, hchar, hb, List.append_nil]
          · exact cutsSequence_char (hnot []) hb hchar _

/-! ### Counting characters -/

lemma length_decode_cons (q : State) (b : UInt8) (bs : List UInt8) :
    (decode q (b :: bs)).length = (step q b).2.length + (decode (step q b).1 bs).length := by
  rw [decode, decode, decided, after, List.append_assoc, List.length_append]

/-- Going on with a sequence yields no more characters than beginning anew, which needs one for the
byte that starts nothing. -/
lemma length_decode_le : ∀ (p : Begun) (bs : List UInt8),
    (decode (some p) bs).length ≤ (decode none bs).length + 1
      ∧ ∀ c cs, bs = c :: cs → p.next.has c = true →
        (decode (some p) bs).length ≤ (decode none bs).length
  | p, [] => ⟨Nat.le_refl 1, fun _ _ h => absurd h (by simp)⟩
  | p, c :: cs => by
      have hgoes : p.next.has c = true →
          (decode (some p) (c :: cs)).length ≤ (decode none (c :: cs)).length := by
        intro hc
        have hstep : step (some p) c = more (p.seen ++ [c]) p.rest := if_pos hc
        have hanew : step none c = (none, [replacement]) := by
          rw [step, start, follow_of_has hc]
        rw [length_decode_cons, length_decode_cons, hstep, hanew]
        cases p.rest with
        | nil => exact Nat.le_refl _
        | cons next rest =>
            have hrest := (length_decode_le ⟨p.seen ++ [c], next, rest⟩ cs).1
            simp only [more, List.length_nil, List.length_singleton, Nat.zero_add]
            omega
      constructor
      · cases hc : p.next.has c with
        | true => exact Nat.le_succ_of_le (hgoes hc)
        | false =>
            rw [(decode_of_not_has hc cs).1]
            exact Nat.le_refl _
      · rintro _ _ ⟨⟩ hc
        exact hgoes hc

/-- A cut adds characters if it is one inside a sequence, and never takes any away. -/
lemma length_lossy_append (a b : List UInt8) :
    (lossy (a ++ b)).length ≤ (lossy a).length + (lossy b).length
      ∧ (cutsSequence a b = true →
        (lossy (a ++ b)).length < (lossy a).length + (lossy b).length) := by
  have hwhole : (lossy (a ++ b)).length
      = (decided none a).length + (decode (after none a) b).length := by
    rw [lossy, decode_append, List.length_append]
  have hfirst : (lossy a).length = (decided none a).length + (close (after none a)).length :=
    List.length_append
  have hsecond : (lossy b).length = (decode none b).length := rfl
  cases ha : after none a with
  | none =>
      rw [ha] at hwhole hfirst
      refine ⟨by omega, fun h => ?_⟩
      rw [cutsSequence, ha] at h
      exact absurd h (by simp [goesOn])
  | some p =>
      have hone : (close (some p)).length = 1 := rfl
      obtain ⟨hle, hgoes⟩ := length_decode_le p b
      rw [ha] at hwhole hfirst
      refine ⟨by omega, fun h => ?_⟩
      cases b with
      | nil =>
          rw [cutsSequence, ha] at h
          exact absurd h (by simp [goesOn])
      | cons c cs =>
          rw [cutsSequence, ha] at h
          have := hgoes c cs rfl h
          omega

lemma length_lossy_flatten_le (pieces : List (List UInt8)) :
    (lossy pieces.flatten).length ≤ (pieces.map lossy).flatten.length := by
  induction pieces with
  | nil => exact Nat.le_refl _
  | cons w ws ih =>
      have hle := (length_lossy_append w ws.flatten).1
      rw [List.flatten_cons, List.map_cons, List.flatten_cons, List.length_append]
      omega

/-- **Decoding the pieces one by one gives what decoding the whole does exactly if no cut is inside
a sequence.** -/
theorem lossy_flatten_iff (pieces : List (List UInt8)) :
    (pieces.map lossy).flatten = lossy pieces.flatten
      ↔ ∀ before rest, pieces = before ++ rest →
        cutsSequence before.flatten rest.flatten = false := by
  constructor
  · rintro heq before rest rfl
    by_contra hcut
    have hlt := (length_lossy_append before.flatten rest.flatten).2 (by simpa using hcut)
    have hbefore := length_lossy_flatten_le before
    have hrest := length_lossy_flatten_le rest
    have hlen := congrArg List.length heq
    rw [List.map_append, List.flatten_append, List.flatten_append, List.length_append] at hlen
    omega
  · intro hclean
    induction pieces with
    | nil => rfl
    | cons w ws ih =>
        have hw : cutsSequence w ws.flatten = false := by
          have h := hclean [w] ws rfl
          rw [List.flatten_singleton] at h
          exact h
        rw [List.flatten_cons, lossy_append hw, List.map_cons, List.flatten_cons, ih ?_]
        rintro before rest rfl
        cases hb : before.flatten with
        | nil => rfl
        | cons c cs =>
            have hsplit := hclean (w :: before) rest rfl
            have hfirst : cutsSequence w before.flatten = false := by
              rw [List.flatten_append, hb] at hw
              rw [hb, cutsSequence]
              cases ha : after none w with
              | none => rfl
              | some p =>
                  rw [cutsSequence, ha] at hw
                  exact hw
            rw [List.flatten_cons, cutsSequence,
              after_append_of_not_cuts hfirst (by simp [hb])] at hsplit
            rw [cutsSequence, ← hb]
            exact hsplit

end Utf8
