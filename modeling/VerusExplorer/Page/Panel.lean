import VerusExplorer.Lib.OrderedMap
import VerusExplorer.Dump.Emit
import VerusExplorer.Verify.Verdict
import Mathlib.Data.Rat.Init
import Mathlib.Data.List.SplitBy

/-!
# The panel under the editor

What a run streams to the page (`public/app.js`) and what the page makes of it: the caches the
callbacks fill, the clean-up after the run, and the panel `renderMeta` builds.

* `Callback.run`, `runVerifyOnError`, `runProgramOnError`, `finalizeBannerSections`,
  `consolidateDiags`, `renderMeta` follow the source; `finishRun` is the part of `runWith` between
  the wasm call and the panel.
* `Panel.showsFailure` — a reader of the panel sees that something failed.
* **`showsFailure_finishRun`** — after a verification run that was aborted the panel shows a
  failure exactly when nothing at all had been recorded or one of the recorded results was a
  failure itself.  A run aborted after some output and some passed queries is shown as a success.
-/

namespace VerusExplorer

open Utf16

/-! ## What a run streams -/

/-- A span of a rustc diagnostic. -/
structure DiagSpan where
  isPrimary : Bool
  lineStart : ℕ
  columnStart : ℕ
  lineEnd : ℕ
  columnEnd : ℕ
  deriving DecidableEq, Repr

/-- An entry of `_diags`: the members of a rustc diagnostic that the page reads. -/
structure DiagJson where
  message : Option JsString
  rendered : Option JsString
  level : JsString
  spans : List DiagSpan
  deriving DecidableEq, Repr

inductive Stream where
  | stdout
  | stderr
  deriving DecidableEq, Repr

/-- An entry of `runOutput`. -/
structure RunChunk where
  stream : Stream
  text : JsString
  deriving DecidableEq, Repr

inductive Severity where
  | error
  | warning
  | note
  deriving DecidableEq, Repr

/-- Where a diagnostic is.  `ends` is the line and the column of its end, if that is known. -/
structure Loc where
  line : ℕ
  col : ℕ
  ends : Option (ℕ × ℕ)
  deriving DecidableEq, Repr

/-- An entry of `diagnostics`. -/
structure Diagnostic where
  rendered : JsString
  loc : Option Loc
  severity : Severity
  deriving DecidableEq, Repr

/-- The caches that belong to one run. -/
structure RunCaches where
  sectionCache : OrderedMap JsString JsString := []
  sectionFolds : OrderedMap JsString (List FoldRange) := []
  sectionAutoFolded : OrderedMap JsString (List FoldRange) := []
  diags : List DiagJson := []
  verdicts : List VerdictEntry := []
  diagnostics : List Diagnostic := []
  benchCache : OrderedMap JsString ℚ := []
  runOutput : List RunChunk := []

/-- A call of the page by the wasm module.  A diagnostic or a verdict is what `JSON.parse` makes of
the message, nothing if it throws. -/
inductive Callback where
  | diagnostic (d : Option DiagJson)
  | verdict (v : Option VerdictEntry)
  | dump (name : JsString) (blocks : DumpCall)
  | bench (label : JsString) (ms : ℚ)
  | stdout (text : JsString)
  | stderr (text : JsString)

/-- `verus_dump`. -/
def RunCaches.dump (c : RunCaches) (name : JsString) (blocks : DumpCall) : RunCaches :=
  let (body, ranges) := dumpedSection blocks
  let c := { c with sectionCache := c.sectionCache.set name body }
  if ranges.isEmpty then c
  else
    { c with
      sectionFolds := c.sectionFolds.set name ranges
      sectionAutoFolded := c.sectionAutoFolded.set name ranges }

/-- The `verus_…` functions the page gives to the wasm module. -/
def Callback.run (c : RunCaches) : Callback → RunCaches
  | .diagnostic d => { c with diags := c.diags ++ d.toList }
  | .verdict v => { c with verdicts := c.verdicts ++ v.toList }
  | .dump name blocks => c.dump name blocks
  | .bench label ms =>
      { c with benchCache := c.benchCache.set label ((c.benchCache.get? label).getD 0 + ms) }
  | .stdout text => { c with runOutput := c.runOutput ++ [⟨.stdout, text⟩] }
  | .stderr text => { c with runOutput := c.runOutput ++ [⟨.stderr, text⟩] }

/-! ## After the wasm call -/

def runVerifyOnError (message : JsString) (c : RunCaches) : RunCaches :=
  if c.diags.length = 0 ∧ c.sectionCache.length = 0 ∧ c.verdicts.length = 0 then
    { c with
      diags := c.diags ++
        [{ message := none
           rendered := some (js "Parse crashed: " ++ message)
           level := js "error"
           spans := [] }] }
  else c

def runProgramOnError (message : JsString) (c : RunCaches) : RunCaches :=
  { c with
    runOutput := c.runOutput ++ [⟨.stderr, js "\n[run aborted: " ++ message ++ js "]\n"⟩] }

def bannerFoldTabs : List JsString :=
  ["VIR_RAW", "VIR_SIMPLE", "VIR_PRUNED", "SST_AST", "SST_POLY", "AIR_INITIAL", "AIR_MIDDLE",
    "AIR_FINAL", "SMT_QUERY", "SMT_RESPONSE", "SMT_TRANSCRIPT"].map js

/-- The body of the loop of `finalizeBannerSections`. -/
def finalizeBannerSection (c : RunCaches) (tab : JsString) : RunCaches :=
  match c.sectionCache.get? tab with
  | none => c
  | some raw =>
      if raw.isEmpty then c
      else
        let r := finalizeBannerBody raw
        let c := { c with sectionCache := c.sectionCache.set tab r.body }
        let c :=
          if r.foldable.isEmpty then c
          else { c with sectionFolds := c.sectionFolds.set tab r.foldable }
        if r.autoFolded.isEmpty || tab == js "SMT_RESPONSE" then c
        else { c with sectionAutoFolded := c.sectionAutoFolded.set tab r.autoFolded }

def finalizeBannerSections (c : RunCaches) : RunCaches :=
  bannerFoldTabs.foldl finalizeBannerSection c

def severityOf (level : JsString) : Severity :=
  if level = js "warning" then .warning
  else if level = js "note" ∨ level = js "help" then .note
  else .error

/-- rustc's footer that sums the errors up. -/
def DiagJson.isFooter (d : DiagJson) : Bool := (js "aborting due to").isPrefixOf (d.message.getD [])

def DiagJson.loc (d : DiagJson) : Option Loc :=
  let primary := (d.spans.find? (·.isPrimary)).or d.spans.head?
  primary.map fun s => ⟨s.lineStart, s.columnStart, some (s.lineEnd, s.columnEnd)⟩

/-- The diagnostic an entry becomes. -/
def DiagJson.consolidate (d : DiagJson) : Option Diagnostic :=
  if d.isFooter then none
  else some ⟨(d.rendered.or d.message).getD [], d.loc, severityOf d.level⟩

def consolidateDiags (c : RunCaches) : RunCaches :=
  { c with diagnostics := c.diagnostics ++ c.diags.filterMap DiagJson.consolidate }

/-- What the action button does. -/
inductive ActionMode where
  | verify
  | execute
  deriving DecidableEq, Repr

/-- `runWith` from the wasm call to the panel: the calls the module made before it returned or
threw, `onError`, `finalize` and the consolidation of the diagnostics. -/
def finishRun (mode : ActionMode) (calls : List Callback) (threw : Option JsString)
    (c : RunCaches) : RunCaches :=
  let c := calls.foldl Callback.run c
  let c :=
    match threw, mode with
    | none, _ => c
    | some message, .verify => runVerifyOnError message c
    | some message, .execute => runProgramOnError message c
  let c := if mode = .verify then finalizeBannerSections c else c
  if c.diags.isEmpty then c else consolidateDiags c

/-! ## The panel -/

/-- A colour class. -/
inductive Cls where
  | ok
  | bad
  deriving DecidableEq, Repr

/-- A part of the headline. -/
structure Part where
  cls : Cls
  text : JsString
  deriving DecidableEq, Repr

/-- A row of the verdict list.  `target` is where a click takes the cursor. -/
structure Row where
  cls : Cls
  fn : JsString
  kind : JsString
  outcome : Option JsString
  target : Option (ℕ × ℕ)
  deriving DecidableEq, Repr

structure VerdictBlock where
  cls : Cls
  parts : List Part
  rows : List Row
  deriving DecidableEq, Repr

/-- A diagnostic as it is shown. -/
structure DiagnosticBlock where
  cls : Severity
  text : JsString
  target : Option (ℕ × ℕ)
  deriving DecidableEq, Repr

structure Panel where
  verdict : Option VerdictBlock
  output : List RunChunk
  diagnostics : List DiagnosticBlock
  deriving DecidableEq, Repr

/-- A number in decimal. -/
def decimal (n : ℕ) : JsString := encode (Nat.toDigits 10 n)

def isDigitUnit (u : UInt16) : Bool := 48 ≤ u && u ≤ 57

def numberOf (digits : JsString) : ℕ := digits.foldl (fun n u => n * 10 + (u.toNat - 48)) 0

/-- The first match of `/:(\d+):(\d+)/`. -/
def matchLineCol : JsString → Option (ℕ × ℕ)
  | [] => none
  | u :: s =>
      let line := s.takeWhile isDigitUnit
      let rest := s.dropWhile isDigitUnit
      let col := (rest.drop 1).takeWhile isDigitUnit
      if u = 58 ∧ line ≠ [] ∧ rest.head? = some 58 ∧ col ≠ [] then
        some (numberOf line, numberOf col)
      else matchLineCol s

/-- A location a click can go to: on a line the document has. -/
def clickable (docLines : ℕ) (loc : ℕ × ℕ) : Bool := 1 ≤ loc.1 && loc.1 ≤ docLines

def headline (verdicts : List VerdictEntry) : List Part :=
  let passedN := (verdicts.filter (·.proved)).length
  let failedN := verdicts.length - passedN
  if failedN = 0 then
    [⟨.ok, js "✓ verified · " ++ decimal verdicts.length
      ++ if verdicts.length = 1 then js " query" else js " queries"⟩]
  else
    (if passedN > 0 then [⟨.ok, js "✓ " ++ decimal passedN ++ js " passed"⟩] else [])
      ++ [⟨.bad, js "✗ " ++ decimal failedN ++ js " failed"⟩]

def verdictRow (docLines : ℕ) (v : VerdictEntry) : Row where
  cls := if v.proved then .ok else .bad
  fn := if v.function.isEmpty then js "<top-level>" else v.function
  kind := v.kind
  outcome := if v.proved then none else some v.outcome
  target := (matchLineCol v.span).filter (clickable docLines)

def verdictBlock (docLines : ℕ) (verdicts : List VerdictEntry) : Option VerdictBlock :=
  if verdicts.length > 0 then
    some
      { cls := if verdicts.length - (verdicts.filter (·.proved)).length = 0 then .ok else .bad
        parts := headline verdicts
        rows := verdicts.map (verdictRow docLines) }
  else none

/-- A text without the newlines at its end. -/
def stripNewlines (text : JsString) : JsString := text.rdropWhile (· == nl)

/-- The output chunks, neighbours of one stream joined. -/
def outputBlocks (chunks : List RunChunk) : List RunChunk :=
  (chunks.splitBy fun a b => a.stream == b.stream).filterMap fun run =>
    run.head?.map fun chunk => ⟨chunk.stream, stripNewlines (run.flatMap RunChunk.text)⟩

def diagnosticBlock (docLines : ℕ) (d : Diagnostic) : DiagnosticBlock where
  cls := d.severity
  text := stripNewlines d.rendered
  target := (d.loc.map fun loc => (loc.line, loc.col)).filter (clickable docLines)

def renderMeta (docLines : ℕ) (c : RunCaches) : Panel where
  verdict := verdictBlock docLines c.verdicts
  output := outputBlocks c.runOutput
  diagnostics := c.diagnostics.map (diagnosticBlock docLines)

/-! ## What a reader sees -/

/-- The panel has a failed verdict or an error. -/
def Panel.showsFailure (p : Panel) : Prop :=
  (∃ b ∈ p.verdict, ∃ row ∈ b.rows, row.cls = .bad) ∨ ∃ d ∈ p.diagnostics, d.cls = .error

/-- The headline of the panel says that every query is verified. -/
def Panel.saysAllVerified (p : Panel) : Prop :=
  ∃ b ∈ p.verdict, ∃ count, b.parts = [⟨.ok, js "✓ verified · " ++ count⟩]

/-- A verdict or a diagnostic of the caches is a failure. -/
def RunCaches.Failing (c : RunCaches) : Prop :=
  (∃ v ∈ c.verdicts, v.proved = false)
    ∨ ∃ d ∈ c.diags, d.isFooter = false ∧ severityOf d.level = .error

/-- There is something in the three caches that the `onError` of `runVerify` looks at. -/
def RunCaches.Recorded (c : RunCaches) : Prop :=
  c.diags ≠ [] ∨ c.sectionCache ≠ [] ∨ c.verdicts ≠ []

/-- A callback that leaves something in one of these caches. -/
def Callback.records : Callback → Bool
  | .diagnostic d => d.isSome
  | .verdict v => v.isSome
  | .dump _ _ => true
  | _ => false

/-- A callback that reports a failure: an error that is not rustc's footer, or a query that did
not pass. -/
def Callback.fails : Callback → Bool
  | .diagnostic (some d) => !d.isFooter && severityOf d.level == .error
  | .verdict (some v) => !v.proved
  | _ => false

/-- Without failed queries the headline is one part, otherwise its last part counts them. -/
lemma headline_verified (verdicts : List VerdictEntry) :
    (∃ count, headline verdicts = [⟨.ok, js "✓ verified · " ++ count⟩])
      ↔ ∀ v ∈ verdicts, v.proved = true := by
  have hle := List.length_filter_le VerdictEntry.proved verdicts
  rw [← List.length_filter_eq_length_iff (p := VerdictEntry.proved)]
  constructor
  · rintro ⟨count, hparts⟩
    by_contra hne
    have hfailed : ¬verdicts.length - (verdicts.filter VerdictEntry.proved).length = 0 := by
      omega
    rw [headline, if_neg hfailed] at hparts
    have hcls := congrArg (fun parts => (parts.map Part.cls).getLast?) hparts
    simp at hcls
  · intro heq
    have hnone : verdicts.length - (verdicts.filter VerdictEntry.proved).length = 0 := by
      omega
    rw [headline, if_pos hnone]
    exact ⟨_, by rw [List.append_assoc]⟩

/-- The headline says so exactly when there are verdicts and all of them are proofs. -/
lemma saysAllVerified_renderMeta (docLines : ℕ) (c : RunCaches) :
    (renderMeta docLines c).saysAllVerified
      ↔ c.verdicts ≠ [] ∧ ∀ v ∈ c.verdicts, v.proved = true := by
  rw [Panel.saysAllVerified, ← headline_verified, renderMeta, verdictBlock]
  cases c.verdicts with
  | nil => simp
  | cons v vs => simp

/-! ### The callbacks -/

section Callbacks

variable (c : RunCaches)

@[simp]
lemma RunCaches.dump_diags (name : JsString) (d : DumpCall) :
    (c.dump name d).diags = c.diags := by
  simp only [RunCaches.dump]
  split <;> rfl

@[simp]
lemma RunCaches.dump_verdicts (name : JsString) (d : DumpCall) :
    (c.dump name d).verdicts = c.verdicts := by
  simp only [RunCaches.dump]
  split <;> rfl

@[simp]
lemma RunCaches.dump_diagnostics (name : JsString) (d : DumpCall) :
    (c.dump name d).diagnostics = c.diagnostics := by
  simp only [RunCaches.dump]
  split <;> rfl

lemma RunCaches.dump_sectionCache (name : JsString) (d : DumpCall) :
    (c.dump name d).sectionCache = c.sectionCache.set name (dumpedSection d).1 := by
  simp only [RunCaches.dump]
  split <;> rfl

lemma Callback.run_diagnostics (k : Callback) : (k.run c).diagnostics = c.diagnostics := by
  cases k <;> simp [Callback.run]

/-- One callback makes the caches fail exactly when it reports a failure. -/
lemma Callback.failing_run (k : Callback) :
    (k.run c).Failing ↔ c.Failing ∨ k.fails = true := by
  cases k with
  | diagnostic d =>
      cases d with
      | none => simp [Callback.run, Callback.fails]
      | some d =>
          simp only [RunCaches.Failing, Callback.run, Option.toList_some, List.mem_append,
            List.mem_singleton, or_and_right, exists_or, exists_eq_left, Callback.fails,
            Bool.and_eq_true, Bool.not_eq_true', beq_iff_eq]
          exact or_assoc.symm
  | verdict v =>
      cases v with
      | none => simp [Callback.run, Callback.fails]
      | some v =>
          simp only [RunCaches.Failing, Callback.run, Option.toList_some, List.mem_append,
            List.mem_singleton, or_and_right, exists_or, exists_eq_left, Callback.fails,
            Bool.not_eq_true']
          exact or_right_comm
  | dump name d => simp [RunCaches.Failing, Callback.run, Callback.fails]
  | bench label ms => simp [RunCaches.Failing, Callback.run, Callback.fails]
  | stdout text => simp [RunCaches.Failing, Callback.run, Callback.fails]
  | stderr text => simp [RunCaches.Failing, Callback.run, Callback.fails]

/-- One callback leaves something behind exactly when it records. -/
lemma Callback.recorded_run (k : Callback) :
    (k.run c).Recorded ↔ c.Recorded ∨ k.records = true := by
  cases k with
  | diagnostic d =>
      cases d with
      | none => simp [Callback.run, Callback.records]
      | some d => simp [RunCaches.Recorded, Callback.run, Callback.records]
  | verdict v =>
      cases v with
      | none => simp [Callback.run, Callback.records]
      | some v => simp [RunCaches.Recorded, Callback.run, Callback.records]
  | dump name d =>
      have hset := OrderedMap.set_ne_nil name (dumpedSection d).1 c.sectionCache
      simp [RunCaches.Recorded, Callback.run, Callback.records, RunCaches.dump_sectionCache, hset]
  | bench label ms => simp [RunCaches.Recorded, Callback.run, Callback.records]
  | stdout text => simp [RunCaches.Recorded, Callback.run, Callback.records]
  | stderr text => simp [RunCaches.Recorded, Callback.run, Callback.records]

end Callbacks

lemma failing_run_calls : ∀ (calls : List Callback) (c : RunCaches),
    (calls.foldl Callback.run c).Failing ↔ c.Failing ∨ ∃ k ∈ calls, k.fails = true
  | [], c => by simp
  | k :: calls, c => by
      rw [List.foldl_cons, failing_run_calls calls, Callback.failing_run, List.exists_mem_cons_iff,
        or_assoc]

lemma recorded_run_calls : ∀ (calls : List Callback) (c : RunCaches),
    (calls.foldl Callback.run c).Recorded ↔ c.Recorded ∨ ∃ k ∈ calls, k.records = true
  | [], c => by simp
  | k :: calls, c => by
      rw [List.foldl_cons, recorded_run_calls calls, Callback.recorded_run,
        List.exists_mem_cons_iff, or_assoc]

lemma diagnostics_run_calls : ∀ (calls : List Callback) (c : RunCaches),
    (calls.foldl Callback.run c).diagnostics = c.diagnostics
  | [], _ => rfl
  | k :: calls, c => by
      rw [List.foldl_cons, diagnostics_run_calls calls, Callback.run_diagnostics]

/-! ### The clean-up -/

/-- The caches that the scanner of the section bodies does not look at. -/
def RunCaches.reports (c : RunCaches) :
    List DiagJson × List VerdictEntry × List Diagnostic × List RunChunk :=
  (c.diags, c.verdicts, c.diagnostics, c.runOutput)

lemma finalizeBannerSection_reports (c : RunCaches) (tab : JsString) :
    (finalizeBannerSection c tab).reports = c.reports := by
  simp only [finalizeBannerSection]
  split
  · rfl
  · split_ifs <;> rfl

lemma finalizeBannerSections_reports (c : RunCaches) :
    (finalizeBannerSections c).reports = c.reports := by
  rw [finalizeBannerSections]
  induction bannerFoldTabs generalizing c with
  | nil => rfl
  | cons tab tabs ih => rw [List.foldl_cons, ih, finalizeBannerSection_reports]

lemma recorded_iff (c : RunCaches) :
    c.Recorded ↔ ¬(c.diags.length = 0 ∧ c.sectionCache.length = 0 ∧ c.verdicts.length = 0) := by
  simp only [RunCaches.Recorded, List.length_eq_zero_iff, not_and_or]

lemma runVerifyOnError_recorded {c : RunCaches} (h : c.Recorded) (message : JsString) :
    runVerifyOnError message c = c := if_neg ((recorded_iff c).mp h)

/-- The entry that `onError` makes up is an error. -/
lemma failing_runVerifyOnError {c : RunCaches} (h : ¬c.Recorded) (message : JsString) :
    (runVerifyOnError message c).Failing := by
  rw [runVerifyOnError, if_pos (by simpa [recorded_iff] using h)]
  exact Or.inr ⟨_, List.mem_append_right _ (List.mem_singleton_self _), rfl, rfl⟩

/-- The diagnostics shown are the errors among the entries. -/
lemma exists_error_consolidate (ds : List DiagJson) :
    (∃ d ∈ ds.filterMap DiagJson.consolidate, d.severity = .error)
      ↔ ∃ d ∈ ds, d.isFooter = false ∧ severityOf d.level = .error := by
  simp only [List.mem_filterMap, DiagJson.consolidate]
  constructor
  · rintro ⟨_, ⟨d, hd, heq⟩, hsev⟩
    split_ifs at heq with hfoot
    cases heq
    exact ⟨d, hd, by simpa using hfoot, hsev⟩
  · rintro ⟨d, hd, hfoot, hsev⟩
    exact ⟨_, ⟨d, hd, if_neg (by simp [hfoot])⟩, hsev⟩

/-- The panel shows a failure exactly when a verdict or a listed diagnostic is one. -/
lemma showsFailure_renderMeta (docLines : ℕ) (c : RunCaches) :
    (renderMeta docLines c).showsFailure
      ↔ (∃ v ∈ c.verdicts, v.proved = false) ∨ ∃ d ∈ c.diagnostics, d.severity = .error := by
  have hrow : ∀ v : VerdictEntry,
      (verdictRow docLines v).cls = .bad ↔ v.proved = false := by
    intro v
    cases hp : v.proved <;> simp [verdictRow, hp]
  refine or_congr ?_ (by simp [renderMeta, diagnosticBlock])
  cases hv : c.verdicts with
  | nil => simp [renderMeta, verdictBlock, hv]
  | cons v vs => simp [renderMeta, verdictBlock, hv, hrow]

/-- With no diagnostics from before, what the clean-up lists are the failures of the caches. -/
lemma showsFailure_consolidateDiags (docLines : ℕ) {c : RunCaches} (h : c.diagnostics = []) :
    (renderMeta docLines (if c.diags.isEmpty then c else consolidateDiags c)).showsFailure
      ↔ c.Failing := by
  rw [showsFailure_renderMeta]
  split_ifs with hempty
  · rw [List.isEmpty_iff] at hempty
    simp [RunCaches.Failing, h, hempty]
  · rw [RunCaches.Failing, ← exists_error_consolidate]
    simp only [consolidateDiags, h, List.nil_append]

/-! ### The result of an aborted run -/

/-- The caches of an aborted verification when the diagnostics are about to be consolidated. -/
def abortedCaches (calls : List Callback) (message : JsString) : RunCaches :=
  finalizeBannerSections (runVerifyOnError message (calls.foldl Callback.run {}))

lemma finishRun_verify_threw (calls : List Callback) (message : JsString) :
    finishRun .verify calls (some message) {}
      = if (abortedCaches calls message).diags.isEmpty then abortedCaches calls message
        else consolidateDiags (abortedCaches calls message) := by
  rw [finishRun, if_pos rfl]
  rfl

lemma abortedCaches_reports (calls : List Callback) (message : JsString) :
    (abortedCaches calls message).reports
      = (runVerifyOnError message (calls.foldl Callback.run {})).reports :=
  finalizeBannerSections_reports _

lemma failing_of_reports {c c' : RunCaches} (h : c.reports = c'.reports) :
    c.Failing ↔ c'.Failing := by
  simp only [RunCaches.reports, Prod.mk.injEq] at h
  rw [RunCaches.Failing, RunCaches.Failing, h.1, h.2.1]

/-- Nothing is listed before the consolidation. -/
lemma abortedCaches_diagnostics (calls : List Callback) (message : JsString) :
    (abortedCaches calls message).diagnostics = [] := by
  have hnil : (calls.foldl Callback.run {}).diagnostics = [] := diagnostics_run_calls calls {}
  have hreports := abortedCaches_reports calls message
  simp only [RunCaches.reports, Prod.mk.injEq] at hreports
  rw [hreports.2.2.1, runVerifyOnError]
  split_ifs <;> exact hnil

/-- What an aborted verification shows is what its caches hold after `onError`. -/
lemma showsFailure_aborted (docLines : ℕ) (calls : List Callback) (message : JsString) :
    (renderMeta docLines (finishRun .verify calls (some message) {})).showsFailure
      ↔ (runVerifyOnError message (calls.foldl Callback.run {})).Failing := by
  rw [finishRun_verify_threw,
    showsFailure_consolidateDiags docLines (abortedCaches_diagnostics calls message),
    failing_of_reports (abortedCaches_reports calls message)]

/-- Once something has been recorded, `onError` adds nothing. -/
lemma failing_of_recorded {calls : List Callback} (h : (calls.foldl Callback.run {}).Recorded)
    (message : JsString) :
    (runVerifyOnError message (calls.foldl Callback.run {})).Failing
      ↔ ∃ k ∈ calls, k.fails = true := by
  rw [runVerifyOnError_recorded h, failing_run_calls]
  simp [RunCaches.Failing]

/-- A verification whose wasm call threw is shown as a failure exactly when the call had not
recorded anything before or one of the results it had recorded was itself a failure. -/
theorem showsFailure_finishRun (docLines : ℕ) (calls : List Callback) (message : JsString) :
    (renderMeta docLines (finishRun .verify calls (some message) {})).showsFailure
      ↔ (∀ k ∈ calls, k.records = false) ∨ ∃ k ∈ calls, k.fails = true := by
  have hrec : (calls.foldl Callback.run {}).Recorded ↔ ∃ k ∈ calls, k.records = true := by
    rw [recorded_run_calls]
    simp [RunCaches.Recorded]
  rw [showsFailure_aborted]
  by_cases h : (calls.foldl Callback.run {}).Recorded
  · rw [failing_of_recorded h]
    have hsome : ¬∀ k ∈ calls, k.records = false := by
      simpa using hrec.mp h
    exact ⟨Or.inr, fun hor => hor.resolve_left hsome⟩
  · have hnone : ∀ k ∈ calls, k.records = false := by
      simpa using mt hrec.mpr h
    exact ⟨fun _ => Or.inl hnone, fun _ => failing_runVerifyOnError h message⟩

/-- A query that passed. -/
def passedEntry : VerdictEntry :=
  ⟨js "crate::f", js "<input.rs>:1:1: 1:8 (#0)", js "body", js "valid", true⟩

/-- The callbacks of a verification that has dumped its first section and passed its first query. -/
def trapCalls : List Callback :=
  [.dump (js "VIR_RAW") (emitSection "(module)".toList), .verdict (some passedEntry)]

/-- When the module traps after these callbacks, the panel is a green headline and nothing else. -/
theorem showsFailure_finishRun_trap :
    let panel := renderMeta 1 (finishRun .verify trapCalls (some (js "unreachable")) {})
    panel.verdict.map VerdictBlock.parts = some [⟨.ok, js "✓ verified · 1 query"⟩]
      ∧ panel.output = [] ∧ panel.diagnostics = [] ∧ ¬panel.showsFailure := by
  intro panel
  have hrec : (trapCalls.foldl Callback.run {}).Recorded := by
    rw [recorded_run_calls]
    exact Or.inr ⟨_, List.mem_cons_self .., rfl⟩
  have hnot : ¬panel.showsFailure := by
    rw [showsFailure_aborted, failing_of_recorded hrec]
    rintro ⟨k, hk, hfails⟩
    simp only [trapCalls, List.mem_cons, List.not_mem_nil, or_false] at hk
    rcases hk with rfl | rfl
    · simp [Callback.fails] at hfails
    · simp [Callback.fails, passedEntry] at hfails
  have hreports := abortedCaches_reports trapCalls (js "unreachable")
  rw [runVerifyOnError_recorded hrec] at hreports
  simp only [RunCaches.reports, Prod.mk.injEq] at hreports
  obtain ⟨hdiags, hverdicts, hdiagnostics, houtput⟩ := hreports
  have hcaches : finishRun .verify trapCalls (some (js "unreachable")) {}
      = abortedCaches trapCalls (js "unreachable") := by
    rw [finishRun_verify_threw, if_pos (by rw [hdiags]; rfl)]
  have hheadline : headline [passedEntry] = [⟨.ok, js "✓ verified · 1 query"⟩] := by
    decide
  refine ⟨?_, ?_, ?_, hnot⟩
  · simp only [panel, renderMeta, hcaches, hverdicts]
    rw [← hheadline]
    rfl
  · simp only [panel, renderMeta, hcaches, houtput]
    rfl
  · simp only [panel, renderMeta, hcaches, hdiagnostics]
    rfl

end VerusExplorer
