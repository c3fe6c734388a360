import VerusExplorer.Lib.Json
import VerusExplorer.Verify.Session

/-!
# Verdicts

A verdict is streamed to the page as one line of JSON, formatted by hand in `verus.rs` and parsed
by the browser in `verus_verdict` (`public/app.js`).

* `jsonEscape`, `Verdict.fromResult`, `Verdict.toJson` follow the Rust source.
* `VerdictEntry` is what `renderMeta` reads of a parsed entry, `parseVerdict` how it gets there.
* **`parseVerdict_toJson`** — every verdict arrives as it was sent.
-/

namespace VerusExplorer

open Utf16

/-! ## The Rust side -/

def hexDigit (n : ℕ) : Char := "0123456789abcdef".toList.getD n '0'

/-- `{:04x}`. -/
def hex4 (n : ℕ) : Str :=
  [hexDigit (n / 4096 % 16), hexDigit (n / 256 % 16), hexDigit (n / 16 % 16), hexDigit (n % 16)]

def jsonEscapeChar (c : Char) : Str :=
  if c = '"' then "\\\"".toList
  else if c = '\\' then "\\\\".toList
  else if c = '\n' then "\\n".toList
  else if c = '\r' then "\\r".toList
  else if c = '\t' then "\\t".toList
  else if c.toNat < 0x20 then "\\u".toList ++ hex4 c.toNat
  else [c]

def jsonEscape (s : Str) : Str := s.flatMap jsonEscapeChar

structure Verdict where
  function : Str
  span : Str
  kind : Str
  outcome : Str
  proved : Bool
  deriving DecidableEq, Repr

def QueryOp.kind : QueryOp → Str
  | .specTermination => "spec termination".toList
  | .body .normal => "body".toList
  | .body .recommendsFollowupFromError => "recommends".toList
  | .body .recommendsChecked => "recommends check".toList
  | .body .expanded => "expanded".toList
  | .body .checkApiSafety => "api safety".toList

def ValidityResult.outcome : ValidityResult → Str
  | .valid => "valid".toList
  | .invalid _ _ _ => "invalid".toList
  | .canceled => "timeout".toList
  | .typeError _ => "type error".toList
  | .unexpectedOutput s => "solver error: ".toList ++ s

def Verdict.fromResult (result : ValidityResult) (function span : Str) (op : QueryOp) : Verdict :=
  { function, span, kind := op.kind, outcome := result.outcome, proved := result.isValid }

def Verdict.toJson (v : Verdict) : Str :=
  "\x7b\"function\":\"".toList ++ jsonEscape v.function ++ "\",\"span\":\"".toList
    ++ jsonEscape v.span ++ "\",\"kind\":\"".toList ++ jsonEscape v.kind
    ++ "\",\"outcome\":\"".toList ++ jsonEscape v.outcome ++ "\",\"proved\":".toList
    ++ (if v.proved then "true".toList else "false".toList) ++ "\x7d".toList

/-! ## The browser side -/

/-- An entry of `_verdicts`. -/
structure VerdictEntry where
  function : JsString
  span : JsString
  kind : JsString
  outcome : JsString
  proved : Bool
  deriving DecidableEq, Repr

def strMember (v : Json.Value) (key : String) : Option JsString :=
  match v.get? (js key) with
  | some (.str s) => some s
  | _ => none

def boolMember (v : Json.Value) (key : String) : Option Bool :=
  match v.get? (js key) with
  | some (.bool b) => some b
  | _ => none

/-- `JSON.parse` of a line and the five members the page reads. -/
def parseVerdict (line : JsString) : Option VerdictEntry := do
  let v ← Json.parse line
  let function ← strMember v "function"
  let span ← strMember v "span"
  let kind ← strMember v "kind"
  let outcome ← strMember v "outcome"
  let proved ← boolMember v "proved"
  some { function, span, kind, outcome, proved }

/-- A verdict as the page should have it. -/
def Verdict.entry (v : Verdict) : VerdictEntry where
  function := encode v.function
  span := encode v.span
  kind := encode v.kind
  outcome := encode v.outcome
  proved := v.proved

/-! ## Round trip -/

/-- The unit of a hexadecimal digit. -/
def hexUnit (n : ℕ) : UInt16 := UInt16.ofNat (hexDigit n).toNat

/-- The digits of a control character read back as its number. -/
lemma hexValue_hex4 : ∀ n < 32,
    encode (hex4 n) = [hexUnit 0, hexUnit 0, hexUnit (n / 16), hexUnit (n % 16)]
      ∧ Json.hexValue (hexUnit (n / 16)) = some (UInt16.ofNat (n / 16))
      ∧ Json.hexValue (hexUnit (n % 16)) = some (UInt16.ofNat (n % 16))
      ∧ ((0 * 16 + 0) * 16 + UInt16.ofNat (n / 16)) * 16 + UInt16.ofNat (n % 16)
        = UInt16.ofNat n := by
  decide

lemma stringBody_hex4 {n : ℕ} (hn : n < 32) (rest : JsString) :
    Json.stringBody (encode ("\\u".toList ++ hex4 n) ++ rest)
      = (Json.stringBody rest).map (Json.prepend [UInt16.ofNat n]) := by
  obtain ⟨hunits, hhigh, hlow, hsum⟩ := hexValue_hex4 n hn
  have hzero : Json.hexValue (hexUnit 0) = some 0 := by decide
  have h := Json.stringBody_number hzero hzero hhigh hlow rest
  rw [hsum] at h
  rw [encode_append, hunits]
  exact h

/-- The units of a scalar that needs no escape need none. -/
lemma units_plain {c : Char} (h34 : c ≠ '"') (h92 : c ≠ '\\') (h32 : ¬ c.toNat < 0x20) :
    ∀ u ∈ units c, u ≠ 34 ∧ u ≠ 92 ∧ ¬ u < 32 := by
  have hnot : ∀ n : ℕ, n < 0xD800 → c.toNat ≠ n → UInt16.ofNat n ∉ units c := by
    intro n hn hc hmem
    have hlt : n < 2 ^ 16 := by omega
    have hnat : (UInt16.ofNat n).toNat = n := by
      rw [UInt16.toNat_ofNat', Nat.mod_eq_of_lt hlt]
    rw [mem_units_iff (by rw [hnat]; exact hn), hnat] at hmem
    exact hc hmem
  intro u hu
  refine ⟨?_, ?_, ?_⟩
  · rintro rfl
    exact hnot 34 (by omega) (fun h => h34 (Char.toNat_inj.mp h)) hu
  · rintro rfl
    exact hnot 92 (by omega) (fun h => h92 (Char.toNat_inj.mp h)) hu
  · intro hlt
    have hlt' : u.toNat < 32 := hlt
    exact h32 ((mem_units_iff (by omega)).mp hu ▸ hlt')

/-- A scalar below the surrogates is one unit. -/
lemma units_of_lt {c : Char} (h : c.toNat < 0x20) : units c = [UInt16.ofNat c.toNat] := by
  rw [units, if_pos (by omega)]

lemma escapes_jsonEscapeChar : Json.Escapes jsonEscapeChar := by
  intro c rest
  rw [jsonEscapeChar]
  split_ifs with h1 h2 h3 h4 h5 h6
  · subst h1
    exact Json.stringBody_letter (by decide) (by decide) rest
  · subst h2
    exact Json.stringBody_letter (by decide) (by decide) rest
  · subst h3
    exact Json.stringBody_letter (by decide) (by decide) rest
  · subst h4
    exact Json.stringBody_letter (by decide) (by decide) rest
  · subst h5
    exact Json.stringBody_letter (by decide) (by decide) rest
  · rw [units_of_lt h6]
    exact stringBody_hex4 h6 rest
  · rw [encode_cons, encode_nil, List.append_nil]
    exact Json.stringBody_plains (units_plain h1 h2 h6) rest

/-- The members of a verdict's line, as the parser meets them. -/
def memberUnits (v : Verdict) : JsString :=
  Json.quote jsonEscapeChar "function".toList ++ 58 ::
    (Json.quote jsonEscapeChar v.function ++ 44 ::
      (Json.quote jsonEscapeChar "span".toList ++ 58 ::
        (Json.quote jsonEscapeChar v.span ++ 44 ::
          (Json.quote jsonEscapeChar "kind".toList ++ 58 ::
            (Json.quote jsonEscapeChar v.kind ++ 44 ::
              (Json.quote jsonEscapeChar "outcome".toList ++ 58 ::
                (Json.quote jsonEscapeChar v.outcome ++ 44 ::
                  (Json.quote jsonEscapeChar "proved".toList ++ 58 ::
                    (encode (if v.proved then "true".toList else "false".toList)
                      ++ 125 :: [])))))))))

/-- Reading a concatenation piece by piece. -/
lemma encode_append_of {s t : Str} {us vs : JsString} (hs : encode s = us) (ht : encode t = vs) :
    encode (s ++ t) = us ++ vs := by
  rw [encode_append, hs, ht]

lemma encode_toJson (v : Verdict) : encode v.toJson = 123 :: memberUnits v := by
  have h1 : encode "\x7b\"function\":\"".toList
      = 123 :: (Json.quote jsonEscapeChar "function".toList ++ [58, 34]) := by decide
  have h2 : encode "\",\"span\":\"".toList
      = [34, 44] ++ (Json.quote jsonEscapeChar "span".toList ++ [58, 34]) := by decide
  have h3 : encode "\",\"kind\":\"".toList
      = [34, 44] ++ (Json.quote jsonEscapeChar "kind".toList ++ [58, 34]) := by decide
  have h4 : encode "\",\"outcome\":\"".toList
      = [34, 44] ++ (Json.quote jsonEscapeChar "outcome".toList ++ [58, 34]) := by decide
  have h5 : encode "\",\"proved\":".toList
      = [34, 44] ++ (Json.quote jsonEscapeChar "proved".toList ++ [58]) := by decide
  have h6 : encode "\x7d".toList = [125] := by decide
  have hline := encode_append_of (encode_append_of (encode_append_of (encode_append_of
    (encode_append_of (encode_append_of (encode_append_of (encode_append_of (encode_append_of
      (encode_append_of h1 (rfl : encode (jsonEscape v.function) = _)) h2)
      (rfl : encode (jsonEscape v.span) = _)) h3) (rfl : encode (jsonEscape v.kind) = _)) h4)
      (rfl : encode (jsonEscape v.outcome) = _)) h5)
      (rfl : encode (if v.proved then "true".toList else "false".toList) = _)) h6
  refine hline.trans ?_
  simp only [memberUnits, Json.quote, jsonEscape, List.append_assoc, List.cons_append,
    List.nil_append]

lemma parse_toJson (v : Verdict) :
    Json.parse (encode v.toJson)
      = some (.obj [(js "function", .str (encode v.function)), (js "span", .str (encode v.span)),
          (js "kind", .str (encode v.kind)), (js "outcome", .str (encode v.outcome)),
          (js "proved", .bool v.proved)]) := by
  have hlen : ∃ n, (encode v.toJson).length = n + 6 := by
    refine ⟨(encode v.toJson).length - 6, ?_⟩
    rw [encode_toJson, memberUnits, Json.quote]
    simp only [List.length_cons, List.length_append]
    have : (encode ("function".toList.flatMap jsonEscapeChar)).length = 8 := by decide
    omega
  obtain ⟨n, hn⟩ := hlen
  have hmembers : Json.members (n + 6) (memberUnits v)
      = some ([(js "function", .str (encode v.function)), (js "span", .str (encode v.span)),
          (js "kind", .str (encode v.kind)), (js "outcome", .str (encode v.outcome)),
          (js "proved", .bool v.proved)], []) := by
    rw [memberUnits, Json.members_cons escapes_jsonEscapeChar, Json.skipSpace_quote,
      Json.members_cons escapes_jsonEscapeChar, Json.skipSpace_quote,
      Json.members_cons escapes_jsonEscapeChar, Json.skipSpace_quote,
      Json.members_cons escapes_jsonEscapeChar, Json.skipSpace_quote,
      Json.members_last escapes_jsonEscapeChar]
    rfl
  have hvalue : Json.value (n + 7) (123 :: memberUnits v)
      = (Json.members (n + 6) (memberUnits v)).map fun r => (.obj r.1, r.2) := rfl
  have hspace : Json.skipSpace (encode v.toJson) = 123 :: memberUnits v := by
    rw [encode_toJson]
    rfl
  rw [Json.parse, hspace, hn, hvalue, hmembers]
  rfl

/-- **Every verdict arrives as it was sent.** -/
theorem parseVerdict_toJson (v : Verdict) : parseVerdict (encode v.toJson) = some v.entry := by
  rw [parseVerdict, parse_toJson]
  rfl

end VerusExplorer
