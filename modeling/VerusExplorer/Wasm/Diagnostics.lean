import VerusExplorer.Dump.Emit
import VerusExplorer.Lib.Lines
import VerusExplorer.Lib.Utf8Lossy

/-!
# The diagnostic channel

rustc writes one JSON object a line into a `DiagnosticWriter` (`rust.rs`), which hands each line to
`verus_diagnostic` as soon as its newline has been written.

* `DiagnosticWriter` with `write`, `flush` and `drop` follows the source; an operation gives the
  messages it hands over and the writer it leaves.
* `Split` — what has been written is the lines handed over and what is pending.
* **`diagnosticWriter_messages`** — the messages do not depend on how the bytes were cut into
  writes.
-/

namespace VerusExplorer

open Lines

/-! ## The source -/

/-- `b'\n'`. -/
def newline : UInt8 := 0x0A

structure DiagnosticWriter where
  pending : List UInt8
  deriving DecidableEq, Repr

namespace DiagnosticWriter

def new : DiagnosticWriter := ⟨[]⟩

/-- The drain loop of `emit_complete_lines`. -/
def emitCompleteLines (w : DiagnosticWriter) : List Str × DiagnosticWriter :=
  match hidx : w.pending.findIdx? (· == newline) with
  | none => ([], w)
  | some idx =>
      have : idx < w.pending.length := (List.findIdx?_eq_some_iff_findIdx_eq.mp hidx).1
      let line := w.pending.take idx
      let handed := if line.isEmpty then [] else [Utf8.lossy line]
      let rest := emitCompleteLines ⟨w.pending.drop (idx + 1)⟩
      (handed ++ rest.1, rest.2)
termination_by w.pending.length
decreasing_by
  rw [List.length_drop]
  omega

/-- `write`, with the number of bytes it has taken. -/
def write (w : DiagnosticWriter) (buf : List UInt8) : ℕ × List Str × DiagnosticWriter :=
  (buf.length, emitCompleteLines ⟨w.pending ++ buf⟩)

def flush (w : DiagnosticWriter) : List Str × DiagnosticWriter := emitCompleteLines w

def drop (w : DiagnosticWriter) : List Str × DiagnosticWriter :=
  if w.pending.isEmpty then ([], w) else ([Utf8.lossy w.pending], ⟨[]⟩)

end DiagnosticWriter

/-- What rustc does with a writer while it has it. -/
inductive WriterCall where
  | write (buf : List UInt8)
  | flush

/-- The bytes a call adds to what is written. -/
def WriterCall.bytes : WriterCall → List UInt8
  | .write buf => buf
  | .flush => []

def WriterCall.run (w : DiagnosticWriter) : WriterCall → List Str × DiagnosticWriter
  | .write buf => (w.write buf).2
  | .flush => w.flush

def runCalls (w : DiagnosticWriter) : List WriterCall → List Str × DiagnosticWriter
  | [] => ([], w)
  | call :: calls =>
      let ran := call.run w
      let rest := runCalls ran.2 calls
      (ran.1 ++ rest.1, rest.2)

/-! ## What is handed over -/

/-- The messages for some pieces of what is written. -/
def messagesOf (pieces : List (List UInt8)) : List Str :=
  (pieces.filter fun piece => !piece.isEmpty).map Utf8.lossy

lemma messagesOf_append (xs ys : List (List UInt8)) :
    messagesOf (xs ++ ys) = messagesOf xs ++ messagesOf ys := by
  rw [messagesOf, List.filter_append, List.map_append]
  rfl

/-- What was written is some lines, which have been handed over, and what is pending. -/
structure Split (written : List UInt8) (handed : List Str) (w : DiagnosticWriter) :
    Prop where
  lines : ∃ closed, (∀ l ∈ closed, newline ∉ l) ∧ written = unlines newline closed ++ w.pending
    ∧ handed = messagesOf closed
  pending : newline ∉ w.pending

/-- The first newline ends the first line. -/
lemma line_of_findIdx? {bytes : List UInt8} {idx : ℕ}
    (h : bytes.findIdx? (· == newline) = some idx) :
    bytes = bytes.take idx ++ newline :: bytes.drop (idx + 1) ∧ newline ∉ bytes.take idx := by
  obtain ⟨hlt, hat, hbefore⟩ := List.findIdx?_eq_some_iff_getElem.mp h
  constructor
  · rw [← beq_iff_eq.mp hat, ← List.drop_eq_getElem_cons hlt, List.take_append_drop]
  · intro hmem
    obtain ⟨j, hj, hget⟩ := List.mem_take_iff_getElem.mp hmem
    have hne := hbefore j (Nat.lt_of_lt_of_le hj (Nat.min_le_left _ _))
    exact hne (beq_iff_eq.mpr hget)

/-- The drain loop hands over the closed lines and keeps the rest. -/
lemma split_emitCompleteLines (w : DiagnosticWriter) :
    Split w.pending w.emitCompleteLines.1 w.emitCompleteLines.2 := by
  fun_induction DiagnosticWriter.emitCompleteLines w with
  | case1 w hidx =>
      refine ⟨⟨[], fun _ hl => absurd hl List.not_mem_nil, rfl, rfl⟩, fun hmem => ?_⟩
      exact absurd (List.findIdx?_eq_none_iff.mp hidx newline hmem) (by simp)
  | case2 w idx hidx _ line handed rest ih =>
      obtain ⟨⟨closed, hclosed, hwritten, hhanded⟩, hpending⟩ := ih
      obtain ⟨hline, hnot⟩ := line_of_findIdx? hidx
      refine ⟨⟨line :: closed, ?_, ?_, ?_⟩, hpending⟩
      · intro l hl
        rcases List.mem_cons.mp hl with rfl | hl
        · exact hnot
        · exact hclosed l hl
      · rw [unlines_cons, List.append_assoc, List.cons_append, ← hwritten]
        exact hline
      · have hfirst : handed = messagesOf [line] := by
          rw [messagesOf]
          cases hempty : line.isEmpty with
          | true => simp [handed, hempty]
          | false => simp [handed, hempty]
        rw [hhanded, hfirst, ← messagesOf_append, List.singleton_append]

/-- More bytes after a stretch that has been split. -/
lemma Split.write {written : List UInt8} {handed : List Str} {w : DiagnosticWriter}
    (h : Split written handed w) (buf : List UInt8) :
    Split (written ++ buf) (handed ++ (w.write buf).2.1) (w.write buf).2.2 := by
  obtain ⟨⟨closed, hclosed, hwritten, hhanded⟩, -⟩ := h
  obtain ⟨⟨closed', hclosed', hwritten', hhanded'⟩, hpending⟩ :=
    split_emitCompleteLines ⟨w.pending ++ buf⟩
  refine ⟨⟨closed ++ closed', ?_, ?_, ?_⟩, hpending⟩
  · intro l hl
    exact (List.mem_append.mp hl).elim (hclosed l) (hclosed' l)
  · rw [hwritten, unlines_append, List.append_assoc, List.append_assoc]
    exact congrArg (unlines newline closed ++ ·) hwritten'
  · rw [hhanded, messagesOf_append, ← hhanded']
    rfl

/-- A flush is a write of nothing. -/
lemma flush_eq_write (w : DiagnosticWriter) : w.flush = (w.write []).2 := by
  rw [DiagnosticWriter.flush, DiagnosticWriter.write, List.append_nil]

lemma Split.run {written : List UInt8} {handed : List Str} {w : DiagnosticWriter}
    (h : Split written handed w) (call : WriterCall) :
    Split (written ++ call.bytes) (handed ++ (call.run w).1) (call.run w).2 := by
  cases call with
  | write buf => exact h.write buf
  | flush =>
      rw [WriterCall.run, flush_eq_write]
      exact h.write []

lemma split_runCalls : ∀ (calls : List WriterCall) {written : List UInt8}
    {handed : List Str} {w : DiagnosticWriter}, Split written handed w →
      Split (written ++ calls.flatMap WriterCall.bytes) (handed ++ (runCalls w calls).1)
        (runCalls w calls).2
  | [], written, handed, w, h => by
      rw [List.flatMap_nil, List.append_nil, runCalls, List.append_nil]
      exact h
  | call :: calls, written, handed, w, h => by
      have hrest := split_runCalls calls (h.run call)
      rw [List.append_assoc, List.append_assoc] at hrest
      exact hrest

lemma split_new : Split [] [] DiagnosticWriter.new :=
  ⟨⟨[], fun _ hl => absurd hl List.not_mem_nil, rfl, rfl⟩, List.not_mem_nil⟩

/-- What the last line comes to, closed or not. -/
lemma drop_fst (w : DiagnosticWriter) : w.drop.1 = messagesOf [w.pending] := by
  rw [DiagnosticWriter.drop, messagesOf]
  cases hempty : w.pending.isEmpty with
  | true => simp [hempty]
  | false => simp [hempty]

lemma Split.splitOn {written : List UInt8} {handed : List Str} {w : DiagnosticWriter}
    (h : Split written handed w) :
    ∃ closed, written.splitOn newline = closed ++ [w.pending] ∧ handed = messagesOf closed := by
  obtain ⟨⟨closed, hclosed, hwritten, hhanded⟩, hpending⟩ := h
  refine ⟨closed, ?_, hhanded⟩
  rw [hwritten, ← join_concat]
  refine splitOn_join ?_ (by simp)
  intro l hl
  rcases List.mem_append.mp hl with hl | hl
  · exact hclosed l hl
  · exact List.mem_singleton.mp hl ▸ hpending

/-- **The diagnostic channel does not depend on chunking.**  However the bytes are cut into writes,
with flushes in between, the messages up to the drop are the decodings of the nonempty pieces
between newlines; and at any time all of them but the last piece's have been handed over, and no
newline is pending. -/
theorem diagnosticWriter_messages (calls : List WriterCall) :
    let written := calls.flatMap WriterCall.bytes
    let ran := runCalls DiagnosticWriter.new calls
    ran.1 ++ ran.2.drop.1 = messagesOf (written.splitOn newline)
      ∧ ran.1 = messagesOf (written.splitOn newline).dropLast
      ∧ newline ∉ ran.2.pending := by
  intro written ran
  have hsplit : Split written ran.1 ran.2 := split_runCalls calls split_new
  obtain ⟨closed, hpieces, hhanded⟩ := hsplit.splitOn
  refine ⟨?_, ?_, hsplit.pending⟩
  · rw [hpieces, messagesOf_append, ← hhanded, drop_fst]
  · rw [hpieces, List.dropLast_concat, hhanded]

end VerusExplorer
