import VerusExplorer.Lib.Utf8Lossy
import VerusExplorer.Page.Panel

/-!
# The output of a program

Each `write` a program makes is decoded on its own (`wasm.rs`) and pushed to the page's `runOutput`
(`app.js`).

* `verusExplorerStdout`, `verusExplorerStderr` follow the source.
* `programWrites` — what a run of writes to both streams leaves in `runOutput`.
* **`programWrites_text`** — the texts of a stream are the decoding of what was written to it
  exactly if no write ends inside a character that the next bytes complete or go on with.
-/

namespace VerusExplorer

open Utf16

/-! ## The source -/

/-- `__verus_explorer_stdout`: the bytes of one write. -/
def verusExplorerStdout (bytes : List UInt8) : Callback := .stdout (encode (Utf8.lossy bytes))

/-- `__verus_explorer_stderr`. -/
def verusExplorerStderr (bytes : List UInt8) : Callback := .stderr (encode (Utf8.lossy bytes))

/-- A write of a program to one of its streams. -/
structure ProgramWrite where
  stream : Stream
  bytes : List UInt8
  deriving DecidableEq, Repr

def ProgramWrite.callback (w : ProgramWrite) : Callback :=
  match w.stream with
  | .stdout => verusExplorerStdout w.bytes
  | .stderr => verusExplorerStderr w.bytes

/-- The page after some writes. -/
def programWrites (c : RunCaches) (writes : List ProgramWrite) : RunCaches :=
  writes.foldl (fun c w => w.callback.run c) c

/-! ## The texts of a stream -/

/-- The texts delivered to a stream. -/
def delivered (stream : Stream) (chunks : List RunChunk) : JsString :=
  (chunks.filter fun chunk => chunk.stream = stream).flatMap RunChunk.text

/-- The writes to a stream. -/
def writtenTo (stream : Stream) (writes : List ProgramWrite) : List (List UInt8) :=
  (writes.filter fun w => w.stream = stream).map ProgramWrite.bytes

lemma runOutput_callback (c : RunCaches) (w : ProgramWrite) :
    (w.callback.run c).runOutput = c.runOutput ++ [⟨w.stream, encode (Utf8.lossy w.bytes)⟩] := by
  obtain ⟨stream, bytes⟩ := w
  cases stream <;> rfl

/-- Each write is one chunk, in order. -/
lemma runOutput_programWrites (writes : List ProgramWrite) (c : RunCaches) :
    (programWrites c writes).runOutput
      = c.runOutput ++ writes.map fun w => ⟨w.stream, encode (Utf8.lossy w.bytes)⟩ := by
  induction writes generalizing c with
  | nil => exact (List.append_nil _).symm
  | cons w writes ih =>
      have hrest : (programWrites (w.callback.run c) writes).runOutput = _ := ih _
      rw [runOutput_callback, List.append_assoc, List.singleton_append] at hrest
      exact hrest

lemma encode_flatten (texts : List (List Char)) :
    encode texts.flatten = texts.flatMap encode := by
  induction texts with
  | nil => rfl
  | cons t ts ih => rw [List.flatten_cons, encode_append, ih, List.flatMap_cons]

lemma delivered_programWrites (stream : Stream) (writes : List ProgramWrite) (c : RunCaches) :
    delivered stream (programWrites c writes).runOutput
      = delivered stream c.runOutput
        ++ encode ((writtenTo stream writes).map Utf8.lossy).flatten := by
  rw [runOutput_programWrites, delivered, List.filter_append, List.flatMap_append, List.filter_map,
    List.flatMap_map, encode_flatten, writtenTo, List.map_map, List.flatMap_map]
  rfl

/-- Some of the writes to a stream end inside a sequence that what is written next goes on with. -/
def SplitsSequence (pieces : List (List UInt8)) : Prop :=
  ∃ before rest, pieces = before ++ rest
    ∧ Utf8.cutsSequence before.flatten rest.flatten = true

/-- **The texts of a stream are the decoding of all that was written to it exactly if no write ends
inside a sequence that what is written next goes on with.**  In the bytes of a text these are the
writes that end inside a character. -/
theorem programWrites_text (stream : Stream) (writes : List ProgramWrite) (c : RunCaches) :
    (delivered stream (programWrites c writes).runOutput
        = delivered stream c.runOutput ++ encode (Utf8.lossy (writtenTo stream writes).flatten)
      ↔ ¬SplitsSequence (writtenTo stream writes))
      ∧ ∀ text : List Char, (writtenTo stream writes).flatten = text.flatMap String.utf8EncodeChar →
        (SplitsSequence (writtenTo stream writes) ↔ ∃ before rest,
          writtenTo stream writes = before ++ rest
            ∧ ∀ t : List Char, before.flatten ≠ t.flatMap String.utf8EncodeChar) := by
  constructor
  · rw [delivered_programWrites, List.append_cancel_left_eq, encode_injective.eq_iff,
      Utf8.lossy_flatten_iff, SplitsSequence]
    simp only [not_exists, not_and, Bool.not_eq_true]
  · intro text htext
    have hcut : ∀ before rest, writtenTo stream writes = before ++ rest →
        (Utf8.cutsSequence before.flatten rest.flatten = true
          ↔ ∀ t : List Char, before.flatten ≠ t.flatMap String.utf8EncodeChar) := by
      intro before rest hsplit
      rw [hsplit, List.flatten_append] at htext
      exact Utf8.cutsSequence_iff_of_encode htext.symm
    constructor
    · rintro ⟨before, rest, hsplit, h⟩
      exact ⟨before, rest, hsplit, (hcut before rest hsplit).mp h⟩
    · rintro ⟨before, rest, hsplit, h⟩
      exact ⟨before, rest, hsplit, (hcut before rest hsplit).mpr h⟩

/-- The write of the first byte of `é` is not text. -/
theorem programWrites_text_begun :
    ∃ before rest, writtenTo .stdout [⟨.stdout, [0xC3]⟩, ⟨.stdout, [0xA9]⟩] = before ++ rest
      ∧ ∀ t : List Char, before.flatten ≠ t.flatMap String.utf8EncodeChar :=
  ((programWrites_text .stdout [⟨.stdout, [0xC3]⟩, ⟨.stdout, [0xA9]⟩] {}).2 "é".toList
    (by decide)).mp ⟨[[0xC3]], [[0xA9]], rfl, by decide⟩

/-- The two bytes of `é` in two writes are two replacement characters. -/
theorem programWrites_text_split :
    let writes : List ProgramWrite := [⟨.stdout, [0xC3]⟩, ⟨.stdout, [0xA9]⟩]
    let c : RunCaches := {}
    delivered .stdout (programWrites c writes).runOutput
        ≠ encode (Utf8.lossy (writtenTo .stdout writes).flatten)
      ∧ Utf8.lossy (writtenTo .stdout writes).flatten = "é".toList
      ∧ delivered .stdout (programWrites c writes).runOutput
        = encode [Utf8.replacement, Utf8.replacement] := by
  decide

end VerusExplorer
