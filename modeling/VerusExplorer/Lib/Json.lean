import VerusExplorer.Lib.Utf16

/-!
# JSON texts

`parse` reads a JSON text the way a browser does: over UTF-16 units, accepting exactly the JSON
grammar.  A number is kept as its text.

* `stringBody`, `value`, `members`, `parse` — the parser.  A value is read with fuel, of which the
  length of the text is always enough.
* `Escapes esc` says that `esc` writes each scalar so that a string reads back as that scalar;
  `string_quote` lifts it to whole strings.
* `members_cons`, `members_last` — reading an object whose members are written one by one.
-/

namespace Json

open Utf16

/-- A JSON value. -/
inductive Value where
  | null
  | bool (b : Bool)
  | num (text : JsString)
  | str (s : JsString)
  | arr (elements : List Value)
  | obj (members : List (JsString × Value))

/-! ## The parser -/

def isSpace (u : UInt16) : Bool := u == 32 || u == 9 || u == 10 || u == 13

def skipSpace (s : JsString) : JsString := s.dropWhile isSpace

def isDigit (u : UInt16) : Bool := 48 ≤ u && u ≤ 57

/-- The value of a hexadecimal digit. -/
def hexValue (u : UInt16) : Option UInt16 :=
  if 48 ≤ u ∧ u ≤ 57 then some (u - 48)
  else if 97 ≤ u ∧ u ≤ 102 then some (u - 87)
  else if 65 ≤ u ∧ u ≤ 70 then some (u - 55)
  else none

/-- What a one-letter escape stands for. -/
def escaped (u : UInt16) : Option UInt16 :=
  if u = 34 ∨ u = 92 ∨ u = 47 then some u
  else if u = 98 then some 8
  else if u = 102 then some 12
  else if u = 110 then some 10
  else if u = 114 then some 13
  else if u = 116 then some 9
  else none

/-- Put a unit in front of a string that has been read. -/
def prepend (us : JsString) (r : JsString × JsString) : JsString × JsString := (us ++ r.1, r.2)

/-- The rest of a string after its opening quote, and what follows the closing one. -/
def stringBody : JsString → Option (JsString × JsString)
  | [] => none
  | u :: rest =>
      if u = 34 then some ([], rest)
      else if u = 92 then
        match rest with
        | [] => none
        | e :: rest =>
            if e = 117 then
              match rest with
              | a :: b :: c :: d :: rest => do
                  let a ← hexValue a
                  let b ← hexValue b
                  let c ← hexValue c
                  let d ← hexValue d
                  (stringBody rest).map (prepend [((a * 16 + b) * 16 + c) * 16 + d])
              | _ => none
            else do
              let x ← escaped e
              (stringBody rest).map (prepend [x])
      else if u < 32 then none
      else (stringBody rest).map (prepend [u])

/-- A string with its quotes. -/
def string : JsString → Option (JsString × JsString)
  | [] => none
  | u :: rest => if u = 34 then stringBody rest else none

/-- At least one digit. -/
def digits (s : JsString) : Option (JsString × JsString) :=
  match s.takeWhile isDigit with
  | [] => none
  | ds => some (ds, s.dropWhile isDigit)

def integerPart (s : JsString) : Option (JsString × JsString) :=
  match s with
  | 48 :: rest => some ([48], rest)
  | _ => digits s

def fractionPart (s : JsString) : Option (JsString × JsString) :=
  match s with
  | 46 :: rest => (digits rest).map (prepend [46])
  | _ => some ([], s)

def exponentPart (s : JsString) : Option (JsString × JsString) :=
  match s with
  | u :: sign :: rest =>
      if u = 101 ∨ u = 69 then
        if sign = 43 ∨ sign = 45 then (digits rest).map (prepend [u, sign])
        else (digits (sign :: rest)).map (prepend [u])
      else some ([], s)
  | [u] => if u = 101 ∨ u = 69 then none else some ([], s)
  | [] => some ([], s)

/-- A number: sign, integer part, fraction and exponent. -/
def number (s : JsString) : Option (JsString × JsString) := do
  let (sign, s) : JsString × JsString := match s with
    | 45 :: rest => ([45], rest)
    | _ => ([], s)
  let (int, s) ← integerPart s
  let (frac, s) ← fractionPart s
  let (exp, s) ← exponentPart s
  some (sign ++ int ++ frac ++ exp, s)

mutual

/-- A value; leading space has been skipped. -/
def value : ℕ → JsString → Option (Value × JsString)
  | 0, _ => none
  | fuel + 1, s =>
      match s with
      | 123 :: rest =>
          match skipSpace rest with
          | 125 :: rest => some (.obj [], rest)
          | rest => (members fuel rest).map fun r => (.obj r.1, r.2)
      | 91 :: rest =>
          match skipSpace rest with
          | 93 :: rest => some (.arr [], rest)
          | rest => (elements fuel rest).map fun r => (.arr r.1, r.2)
      | 34 :: rest => (stringBody rest).map fun r => (.str r.1, r.2)
      | 116 :: 114 :: 117 :: 101 :: rest => some (.bool true, rest)
      | 102 :: 97 :: 108 :: 115 :: 101 :: rest => some (.bool false, rest)
      | 110 :: 117 :: 108 :: 108 :: rest => some (.null, rest)
      | s => (number s).map fun r => (.num r.1, r.2)

/-- The members of an object up to its closing brace; leading space has been skipped. -/
def members : ℕ → JsString → Option (List (JsString × Value) × JsString)
  | 0, _ => none
  | fuel + 1, s => do
      let (key, s) ← string s
      let s ← match skipSpace s with
        | 58 :: rest => some (skipSpace rest)
        | _ => none
      let (v, s) ← value fuel s
      match skipSpace s with
      | 44 :: rest => (members fuel (skipSpace rest)).map fun r => ((key, v) :: r.1, r.2)
      | 125 :: rest => some ([(key, v)], rest)
      | _ => none

/-- The elements of an array up to its closing bracket; leading space has been skipped. -/
def elements : ℕ → JsString → Option (List Value × JsString)
  | 0, _ => none
  | fuel + 1, s => do
      let (v, s) ← value fuel s
      match skipSpace s with
      | 44 :: rest => (elements fuel (skipSpace rest)).map fun r => (v :: r.1, r.2)
      | 93 :: rest => some ([v], rest)
      | _ => none

end

/-- A whole text. -/
def parse (s : JsString) : Option Value :=
  match value (s.length + 1) (skipSpace s) with
  | some (v, rest) => if (skipSpace rest).isEmpty then some v else none
  | none => none

/-- A member of an object; the last one of a name counts. -/
def Value.get? (key : JsString) : Value → Option Value
  | .obj members => (members.reverse.find? fun m => m.1 == key).map Prod.snd
  | _ => none

/-! ## Strings written with an escaper -/

/-- `esc` writes a scalar so that reading the string gives the scalar back. -/
def Escapes (esc : Char → List Char) : Prop :=
  ∀ (c : Char) (rest : JsString),
    stringBody (encode (esc c) ++ rest) = (stringBody rest).map (prepend (units c))

/-- A string in its quotes. -/
def quote (esc : Char → List Char) (s : List Char) : JsString :=
  34 :: encode (s.flatMap esc) ++ [34]

lemma stringBody_close (rest : JsString) : stringBody (34 :: rest) = some ([], rest) := by
  rw [stringBody.eq_def]
  exact if_pos rfl

/-- A unit that needs no escape stands for itself. -/
lemma stringBody_plain {u : UInt16} (h34 : u ≠ 34) (h92 : u ≠ 92) (h32 : ¬ u < 32)
    (rest : JsString) : stringBody (u :: rest) = (stringBody rest).map (prepend [u]) := by
  rw [stringBody.eq_def]
  exact (if_neg h34).trans ((if_neg h92).trans (if_neg h32))

/-- A one-letter escape. -/
lemma stringBody_letter {e x : UInt16} (he : e ≠ 117) (hx : escaped e = some x) (rest : JsString) :
    stringBody (92 :: e :: rest) = (stringBody rest).map (prepend [x]) := by
  have h92 : ¬ (92 : UInt16) = 34 := by decide
  rw [stringBody.eq_def]
  refine (if_neg h92).trans ((if_pos rfl).trans ((if_neg he).trans ?_))
  rw [hx]
  rfl

/-- An escape by number. -/
lemma stringBody_number {a b c d a' b' c' d' : UInt16} (ha : hexValue a = some a')
    (hb : hexValue b = some b') (hc : hexValue c = some c') (hd : hexValue d = some d')
    (rest : JsString) :
    stringBody (92 :: 117 :: a :: b :: c :: d :: rest)
      = (stringBody rest).map (prepend [((a' * 16 + b') * 16 + c') * 16 + d']) := by
  have h92 : ¬ (92 : UInt16) = 34 := by decide
  rw [stringBody.eq_def]
  refine (if_neg h92).trans ((if_pos rfl).trans ((if_pos rfl).trans ?_))
  simp only [ha, hb, hc, hd]
  rfl

lemma prepend_prepend (us vs : JsString) (r : JsString × JsString) :
    prepend us (prepend vs r) = prepend (us ++ vs) r := by
  simp [prepend]

/-- Several units in a row that need no escape. -/
lemma stringBody_plains {us : JsString} (h : ∀ u ∈ us, u ≠ 34 ∧ u ≠ 92 ∧ ¬ u < 32)
    (rest : JsString) : stringBody (us ++ rest) = (stringBody rest).map (prepend us) := by
  induction us with
  | nil =>
      have hid : prepend ([] : JsString) = id := rfl
      rw [hid, Option.map_id]
      rfl
  | cons u us ih =>
      obtain ⟨h34, h92, h32⟩ := h u (by simp)
      have ih' := ih fun v hv => h v (List.mem_cons_of_mem u hv)
      rw [List.cons_append, stringBody_plain h34 h92 h32, ih', Option.map_map]
      refine congrArg (fun f => (stringBody rest).map f) ?_
      funext r
      exact prepend_prepend [u] us r

variable {esc : Char → List Char}

/-- Reading back what the escaper wrote. -/
lemma stringBody_flatMap (h : Escapes esc) (s : List Char) (rest : JsString) :
    stringBody (encode (s.flatMap esc) ++ 34 :: rest) = some (encode s, rest) := by
  induction s with
  | nil => exact stringBody_close rest
  | cons c s ih =>
      rw [List.flatMap_cons, encode_append, List.append_assoc, h, ih]
      rfl

lemma string_quote (h : Escapes esc) (s : List Char) (rest : JsString) :
    string (quote esc s ++ rest) = some (encode s, rest) := by
  have hbody := stringBody_flatMap h s rest
  have happ : quote esc s ++ rest = 34 :: (encode (s.flatMap esc) ++ 34 :: rest) := by
    simp [quote]
  rw [happ, string, if_pos rfl, hbody]

lemma value_quote (h : Escapes esc) (s : List Char) (rest : JsString) (fuel : ℕ) :
    value (fuel + 1) (quote esc s ++ rest) = some (.str (encode s), rest) := by
  have hbody := stringBody_flatMap h s rest
  have happ : quote esc s ++ rest = 34 :: (encode (s.flatMap esc) ++ 34 :: rest) := by
    simp [quote]
  rw [happ]
  show (stringBody _).map _ = _
  rw [hbody]
  rfl

lemma skipSpace_quote (s : List Char) (rest : JsString) :
    skipSpace (quote esc s ++ rest) = quote esc s ++ rest := rfl

/-! ## Objects written member by member -/

/-- A member with more to come, whose value is a string. -/
lemma members_cons (h : Escapes esc) (key s : List Char) (rest : JsString) (fuel : ℕ) :
    members (fuel + 2) (quote esc key ++ 58 :: (quote esc s ++ 44 :: rest))
      = (members (fuel + 1) (skipSpace rest)).map fun r =>
          ((encode key, .str (encode s)) :: r.1, r.2) := by
  rw [members, string_quote h]
  show (value (fuel + 1) (quote esc s ++ 44 :: rest)).bind _ = _
  rw [value_quote h]
  rfl

/-- The last member, whose value is a Boolean. -/
lemma members_last (h : Escapes esc) (key : List Char) (b : Bool) (rest : JsString) (fuel : ℕ) :
    members (fuel + 2)
        (quote esc key ++ 58 :: (encode (if b then "true".toList else "false".toList)
          ++ 125 :: rest))
      = some ([(encode key, .bool b)], rest) := by
  rw [members, string_quote h]
  cases b <;> rfl

end Json
