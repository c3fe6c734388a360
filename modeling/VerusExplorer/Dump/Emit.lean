import VerusExplorer.Dump.Scanner
import Mathlib.Data.List.DropRight

/-!
# Handing a section to the browser

`emit_section` (`util.rs`) trims a finished body and passes it through the `verus_dump` callback;
`verus_dump` (`public/app.js`) concatenates the blocks it is given and stores the result.  A body
is a sequence of scalar values on the Rust side and of UTF-16 units on the other.
-/

namespace VerusExplorer

open Utf16 Lines

/-- A Rust string. -/
abbrev Str := List Char

/-- The characters with the Unicode property `White_Space`. -/
def isWhiteSpace (c : Char) : Bool :=
  let n := c.toNat
  (0x9 ≤ n && n ≤ 0xD) || n == 0x20 || n == 0x85 || n == 0xA0 || n == 0x1680
    || (0x2000 ≤ n && n ≤ 0x200A) || n == 0x2028 || n == 0x2029 || n == 0x202F || n == 0x205F
    || n == 0x3000

def trimEnd (s : Str) : Str := s.rdropWhile isWhiteSpace

/-- The arguments of a call of `verus_dump`, after the section's name. -/
structure DumpCall where
  contents : List Str
  folds : List UInt8
  deriving DecidableEq, Repr

def emitSection (body : Str) : DumpCall := { contents := [trimEnd body], folds := [0] }

/-- The body of the loop of `verus_dump` over the blocks. -/
def dumpBlock (acc : JsString × List FoldRange) (content : JsString) (fold : Option UInt8) :
    JsString × List FoldRange :=
  let body := if acc.1.length > 0 && acc.1.getLast? != some nl then acc.1 ++ [nl] else acc.1
  let start := body.length
  let body := body ++ content
  match fold.any (· != 0), content.idxOf? nl with
  | true, some firstNl => (body, acc.2 ++ [⟨start + firstNl, body.length⟩])
  | _, _ => (body, acc.2)

/-- The body and the declared ranges `verus_dump` stores for its section. -/
def dumpedSection (d : DumpCall) : JsString × List FoldRange :=
  d.contents.zipIdx.foldl (fun acc (c, i) => dumpBlock acc (encode c) d.folds[i]?) ([], [])

/-- A section emitted as one unfolded block is stored as it is, with no range. -/
lemma dumpedSection_emitSection (body : Str) :
    dumpedSection (emitSection body) = (encode (trimEnd body), []) := by
  simp [dumpedSection, emitSection, dumpBlock]

/-- A text whose lines end with one that trimming leaves alone loses only its last newline. -/
lemma trimEnd_unlines {ls : List Str} {last : Str} (h : ls.getLast? = some last)
    (hlast : last ≠ [] ∧ trimEnd last = last) : trimEnd (unlines '\n' ls) = join '\n' ls := by
  obtain ⟨init, rfl⟩ : ∃ init, ls = init ++ [last] :=
    ⟨ls.dropLast, (List.dropLast_append_getLast? last h).symm⟩
  obtain ⟨front, c, hc⟩ := (List.eq_nil_or_concat last).resolve_left hlast.1
  rw [List.concat_eq_append] at hc
  have hnot : isWhiteSpace c = false := by
    by_contra hw
    have htrim := hlast.2
    rw [hc, trimEnd, List.rdropWhile_concat_pos _ _ _ (by simpa using hw)] at htrim
    have := congrArg List.length htrim
    have hle := (List.rdropWhile_prefix isWhiteSpace (l := front)).length_le
    simp only [List.length_append, List.length_singleton] at this
    omega
  have hnl : isWhiteSpace '\n' = true := rfl
  rw [unlines_eq_join '\n' (by simp), trimEnd, List.rdropWhile_concat_pos _ _ _ hnl, join_concat,
    hc, ← List.append_assoc, List.rdropWhile_concat_neg _ _ _ (by simp [hnot])]

/-- Encoding commutes with joining lines. -/
lemma encode_join (ls : List Str) : encode (join '\n' ls) = join nl (ls.map encode) :=
  flatMap_join units rfl ls

/-- Only a newline is encoded with the newline unit. -/
lemma nl_mem_encode {s : Str} : nl ∈ encode s ↔ '\n' ∈ s := by
  rw [mem_encode_iff (by decide)]
  constructor
  · rintro ⟨c, hc, hn⟩
    have : c = '\n' := Char.toNat_inj.mp hn
    exact this ▸ hc
  · intro h
    exact ⟨'\n', h, rfl⟩

/-- The lines the scanner sees in an emitted text are the lines it was made of. -/
lemma splitOn_encode_join {ls : List Str} (h : ∀ l ∈ ls, '\n' ∉ l) (hne : ls ≠ []) :
    (encode (join '\n' ls)).splitOn nl = ls.map encode := by
  rw [encode_join]
  refine splitOn_join (fun l hl => ?_) (by simpa using hne)
  obtain ⟨s, hs, rfl⟩ := List.mem_map.mp hl
  exact nl_mem_encode.not.mpr (h s hs)

/-! ## Markers as the Rust side writes them -/

def closeLine : Str := ";;<".toList

/-- An opening marker; `marker` is `>` or `v`. -/
def markLine (marker : Char) (label : Str) : Str := ";;".toList ++ marker :: ' ' :: label

/-- A label as the scanner shows it, its marker character gone. -/
def bannerLine (label : Str) : JsString := encode (";; ".toList ++ label)

lemma lineToken_markLine (auto : Bool) (label : Str) :
    lineToken (encode (markLine (if auto then '>' else 'v') label))
      = .opn auto (bannerLine label) := by
  cases auto <;> rfl

lemma lineToken_closeLine : lineToken (encode closeLine) = .cls := rfl

end VerusExplorer
