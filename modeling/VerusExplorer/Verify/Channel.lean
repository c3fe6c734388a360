import VerusExplorer.Lib.JsonGrammar
import VerusExplorer.Verify.Verdict

/-!
# The verdict channel

What a verdict's line is apart from what the page's parser makes of it: one line of text, a JSON
object of five members by the grammar, and another line for every other verdict.

* `Verdict.value` — the object a verdict is sent as.
* **`toJson_faithful`** — the line is one line, has that value and no other, and is read back as
  the verdict; no two verdicts share it.
-/

namespace VerusExplorer

open Utf16

/-- The object a verdict is sent as. -/
def Verdict.value (v : Verdict) : Json.Value :=
  .obj [(js "function", .str (encode v.function)), (js "span", .str (encode v.span)),
    (js "kind", .str (encode v.kind)), (js "outcome", .str (encode v.outcome)),
    (js "proved", .bool v.proved)]

/-! ## One line -/

/-- A text without control characters, line feeds and carriage returns among them. -/
def OneLine (s : Str) : Prop := ∀ c ∈ s, ¬ c.toNat < 0x20

instance (s : Str) : Decidable (OneLine s) :=
  List.decidableBAll (fun c : Char => ¬ c.toNat < 0x20) s

namespace OneLine

lemma append {s t : Str} (hs : OneLine s) (ht : OneLine t) : OneLine (s ++ t) := by
  intro c hc
  rcases List.mem_append.mp hc with hc | hc
  · exact hs c hc
  · exact ht c hc

lemma hexDigit : ∀ n < 16, OneLine [hexDigit n] := by decide

lemma hex4 (n : ℕ) : OneLine (hex4 n) := by
  have hdigit : ∀ k, OneLine [VerusExplorer.hexDigit (k % 16)] :=
    fun k => hexDigit _ (Nat.mod_lt k (by decide))
  exact ((hdigit (n / 4096)).append (hdigit (n / 256))).append
    ((hdigit (n / 16)).append (hdigit n))

lemma jsonEscapeChar (c : Char) : OneLine (jsonEscapeChar c) := by
  rw [VerusExplorer.jsonEscapeChar]
  split_ifs with h1 h2 h3 h4 h5 h6
  · decide
  · decide
  · decide
  · decide
  · decide
  · exact append (by decide) (hex4 c.toNat)
  · intro d hd
    obtain rfl := List.mem_singleton.mp hd
    exact h6

lemma jsonEscape (s : Str) : OneLine (jsonEscape s) := by
  intro d hd
  obtain ⟨c, -, hd⟩ := List.mem_flatMap.mp hd
  exact jsonEscapeChar c d hd

lemma toJson (v : Verdict) : OneLine v.toJson := by
  have hproved : OneLine (if v.proved then "true".toList else "false".toList) := by
    split_ifs <;> decide
  have hfunction : OneLine ("\x7b\"function\":\"".toList ++ VerusExplorer.jsonEscape v.function) :=
    append (by decide) (jsonEscape v.function)
  have hspan := (hfunction.append (t := "\",\"span\":\"".toList) (by decide)).append
    (jsonEscape v.span)
  have hkind := (hspan.append (t := "\",\"kind\":\"".toList) (by decide)).append
    (jsonEscape v.kind)
  have houtcome := (hkind.append (t := "\",\"outcome\":\"".toList) (by decide)).append
    (jsonEscape v.outcome)
  exact ((houtcome.append (t := "\",\"proved\":".toList) (by decide)).append hproved).append
    (by decide)

end OneLine

/-! ## One value -/

lemma isText_toJson_iff (v : Verdict) (value : Json.Value) :
    Json.IsText (encode v.toJson) value ↔ value = v.value := by
  rw [← Json.parse_iff, parse_toJson, Option.some_inj]
  exact eq_comm

/-! ## One verdict -/

lemma entry_injective : Function.Injective Verdict.entry := by
  rintro ⟨f, s, k, o, p⟩ ⟨f', s', k', o', p'⟩ h
  obtain ⟨hf, hs, hk, ho, hp⟩ := VerdictEntry.mk.inj h
  obtain rfl : f = f' := encode_injective hf
  obtain rfl : s = s' := encode_injective hs
  obtain rfl : k = k' := encode_injective hk
  obtain rfl : o = o' := encode_injective ho
  obtain rfl : p = p' := hp
  rfl

lemma toJson_injective : Function.Injective Verdict.toJson := by
  intro v w h
  have hv := parseVerdict_toJson v
  rw [h, parseVerdict_toJson] at hv
  exact entry_injective (Option.some.inj hv).symm

/-- **The verdict channel is faithful.** -/
theorem toJson_faithful :
    (∀ v : Verdict,
      OneLine v.toJson
        ∧ (∀ value, Json.IsText (encode v.toJson) value ↔ value = v.value)
        ∧ Json.parse (encode v.toJson) = some v.value
        ∧ parseVerdict (encode v.toJson) = some v.entry)
      ∧ Function.Injective Verdict.entry
      ∧ Function.Injective Verdict.toJson := by
  refine ⟨fun v => ⟨OneLine.toJson v, isText_toJson_iff v, parse_toJson v,
    parseVerdict_toJson v⟩, entry_injective, toJson_injective⟩

end VerusExplorer
