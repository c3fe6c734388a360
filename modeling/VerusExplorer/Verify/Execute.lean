import VerusExplorer.Page.Sections

/-!
# The pipeline of `run`

The entry point `run` (`lib.rs`) in execute mode: the dumps of the Rust trees, those of MIR
(`rust.rs`), and the program under Miri.  MIR and Miri are code of other crates, an `Interp`.

* `Interp.run` and the functions it calls follow the source.
* **`run_views`** — what the page shows of it, however far it has got: the sections dumped so far,
  and in the panel what the program has written so far, then the exit code, or that it was cut off.
-/

namespace VerusExplorer

open Utf16

/-! ## The source -/

/-- What `dump_mir` looks at in an item: an `impl` has items, some of which are functions. -/
inductive ItemKind where
  | fn (did : ℕ)
  | impl (items : List (ℕ × Bool))
  | other

/-- What Miri does that the page is told of. -/
inductive MiriCall where
  | diagnostic (d : Option DiagJson)
  | write (w : ProgramWrite)

/-- The queries of rustc about MIR, and Miri. -/
structure Interp (σ : Type) where
  hirFreeItems : σ → List ItemKind
  isMirAvailable : σ → ℕ → Bool
  mirBuilt : ℕ → σ → Raised (List UInt8) × σ
  mirDropsElaborated : ℕ → σ → Raised (List UInt8) × σ
  optimizedMir : ℕ → σ → Raised (List UInt8) × σ
  /-- The lang item `start` is there. -/
  startFn : σ → Bool
  /-- There is an entry function. -/
  entryFn : σ → Raised Bool × σ
  /-- `eval_entry`: the exit code is not zero where there is one. -/
  evalEntry : σ → (Except ℤ Unit × List MiriCall) × σ

def ItemKind.fns : ItemKind → List ℕ
  | .fn did => [did]
  | .impl items => (items.filter Prod.snd).map Prod.fst
  | .other => []

def MiriCall.stageCall : MiriCall → StageCall
  | .diagnostic d => .rustc d
  | .write w => .write w

/-- The line that ends the output of a program. -/
def runSummary : Except ℤ Unit → Str
  | .ok _ => "[run] program exited with code 0\n".toList
  | .error code => "[run] program exited with code ".toList ++ (toString code).toList ++ ['\n']

namespace Interp

variable {σ F : Type} (I : Interp σ) (C : Compiler σ F)

/-- The functions `dump_mir` collects. -/
def defIds (s : σ) : List ℕ :=
  ((I.hirFreeItems s).flatMap ItemKind.fns).filter (I.isMirAvailable s)

/-- `emit_stage`. -/
def emitStage (name : String) (writeMirFn : ℕ → σ → Raised (List UInt8) × σ) (defIds : List ℕ) :
    Pipeline σ Unit := do
  let buf ← Traced.fold (fun buf did => do
    let text ← askRustc (writeMirFn did)
    pure (buf ++ text ++ [10])) [] defIds
  dumpSection name (Utf8.lossy buf)

def dumpMir : Pipeline σ Unit :=
  C.time "dump.mir" do
    let defIds ← look I.defIds
    emitStage "MIR_BUILT" I.mirBuilt defIds
    emitStage "MIR_DROPS" I.mirDropsElaborated defIds
    emitStage "MIR_OPT" I.optimizedMir defIds

/-- The program under Miri. -/
def eval : Pipeline σ (Except ℤ Unit) := do
  let r ← ask I.evalEntry
  Traced.each Traced.emit (r.2.map MiriCall.stageCall)
  pure r.1

/-- The end of `run`: Miri is left out if what it needs is not there. -/
def runEntry : Pipeline σ Unit := do
  let started ← look I.startFn
  if started then do
    let entry ← askRustc I.entryFn
    if entry then do
      let result ← C.time "run.miri" I.eval
      Traced.emit (.runStderr (runSummary result))

/-- What `run` does before the program. -/
def dumpTrees : Pipeline σ Unit := do
  C.time "run.parse" (askRustc C.parse)
  C.dumpAstPreExpansion
  C.dumpAst
  C.dumpHir
  I.dumpMir C

def run : Pipeline σ Unit := do
  I.dumpTrees C
  I.runEntry C

end Interp

/-! ## What the page is told -/

/-- The sections of execute mode, in the order of the pipeline. -/
def executeSections : List JsString :=
  Compiler.rustSections ++ ["MIR_BUILT", "MIR_DROPS", "MIR_OPT"].map js

section Run

variable {σ F : Type} (I : Interp σ) (C : Compiler σ F)

/-- A loop whose rounds return and dump nothing. -/
lemma emits_fold {α β : Type} {f : β → α → Pipeline σ β} (hf : ∀ b a, Emits [] (f b a)) :
    ∀ (as : List α) (b : β), Emits [] (Traced.fold f b as)
  | [], b => emits_pure b
  | a :: as, b => (hf b a).bind fun b => emits_fold hf as b

lemma emits_emitStage (name : String) (writeMirFn : ℕ → σ → Raised (List UInt8) × σ)
    (defIds : List ℕ) : Emits [js name] (Interp.emitStage name writeMirFn defIds) :=
  (emits_fold (fun _ _ => (emits_askRustc _).bind fun _ => emits_pure _) _ _).bind fun _ =>
    emits_dumpSection _ _

lemma emits_dumpMir : Emits (["MIR_BUILT", "MIR_DROPS", "MIR_OPT"].map js) (I.dumpMir C) :=
  Emits.time ((emits_look _).bind fun _ => (emits_emitStage _ _ _).bind fun _ =>
    (emits_emitStage _ _ _).bind fun _ => emits_emitStage _ _ _) _

lemma emits_runEntry : Emits [] (I.runEntry C) := by
  have heval : Emits [] I.eval := by
    refine (emits_ask _).bind fun r => (emits_each_emit ?_).bind fun _ => emits_pure _
    intro c hc
    obtain ⟨call, -, rfl⟩ := List.mem_map.mp hc
    cases call <;> rfl
  refine (emits_look _).bind fun started => ?_
  cases started with
  | false => exact emits_pure ()
  | true =>
      refine (emits_askRustc _).bind fun entry => ?_
      cases entry with
      | false => exact emits_pure ()
      | true => exact (Emits.time heval _).bind fun _ => fun s => ⟨⟨(), rfl⟩, rfl⟩

lemma emits_dumpTrees : Emits executeSections (I.dumpTrees C) := by
  refine (Emits.time (emits_askRustc _) _).bind fun _ => ?_
  refine C.emits_dumpAstPreExpansion.bind fun _ => C.emits_dumpAst.bind fun _ => ?_
  exact C.emits_dumpHir.bind fun _ => emits_dumpMir I C

/-- What `run` may call before the program. -/
lemma makes_dumpTrees {p : StageCall → Prop} (hp : Admits p)
    (hdump : ∀ name body, p (.dump name body)) : Makes p (I.dumpTrees C) := by
  have hstage : ∀ (name : String) (f : ℕ → σ → Raised (List UInt8) × σ) (defIds : List ℕ),
      Makes p (Interp.emitStage name f defIds) := fun name f defIds =>
    Makes.bind (Traced.keeps_fold (Traced.composes_callsIn _) (fun _ _ =>
      (makes_askRustc hp _).bind fun _ => makes_pure _) _ _) fun _ => makes_emit (hdump _ _)
  refine (Makes.time hp (makes_askRustc hp _) _).bind fun _ => ?_
  refine (makes_dumpAstPreExpansion hp hdump).bind fun _ => ?_
  refine (makes_dumpAst hp hdump).bind fun _ => ?_
  refine (makes_dumpHir hp hdump).bind fun _ => ?_
  exact Makes.time hp ((makes_look _).bind fun _ => (hstage _ _ _).bind fun _ =>
    (hstage _ _ _).bind fun _ => hstage _ _ _) _

lemma makes_runEntry {p : StageCall → Prop} (hp : Admits p) (hwrite : ∀ w, p (.write w))
    (hsummary : ∀ text, p (.runStderr text)) : Makes p (I.runEntry C) := by
  have heval : Makes p I.eval := by
    refine (makes_ask _).bind fun r => Makes.bind (fun s c hc => ?_) fun _ => makes_pure _
    rw [Traced.each_emit] at hc
    obtain ⟨call, -, rfl⟩ := List.mem_map.mp hc
    cases call with
    | diagnostic d => exact hp.rustc d
    | write w => exact hwrite w
  refine (makes_look _).bind fun started => ?_
  cases started with
  | false => exact makes_pure ()
  | true =>
      refine (makes_askRustc hp _).bind fun entry => ?_
      cases entry with
      | false => exact makes_pure ()
      | true => exact (Makes.time hp heval _).bind fun _ => makes_emit (hsummary _)

/-! ## The output -/

/-- The output of a program, from what Miri does and how it ends. -/
def outputOf (r : Except ℤ Unit × List MiriCall) : List RunChunk :=
  (r.2.map MiriCall.stageCall).filterMap StageCall.chunk ++ [⟨.stderr, encode (runSummary r.1)⟩]

lemma eval_run (s : Pipe σ) :
    (I.eval s).result = .ok (I.evalEntry s.session.env).1.1
      ∧ (I.eval s).calls = (I.evalEntry s.session.env).1.2.map MiriCall.stageCall := by
  have hasked : (ask I.evalEntry s).result = .ok (I.evalEntry s.session.env).1 := rfl
  have hloop := Traced.each_emit (ε := Stop)
    ((I.evalEntry s.session.env).1.2.map MiriCall.stageCall) (ask I.evalEntry s).state
  rw [Interp.eval, Traced.bind_ok hasked, Traced.bind_ok (by rw [hloop]), hloop]
  exact ⟨rfl, (List.nil_append _).trans (List.append_nil _)⟩

/-- A question to rustc returns its answer, and leaves rustc where it was given. -/
lemma askRustc_ends {α : Type} (f : σ → Raised α × σ) (s : Pipe σ) :
    (askRustc f s).result = .ok (f s.env).1.1 ∧ (askRustc f s).state.env = (f s.env).2 := by
  have hasked : (ask f s).result = .ok (f s.env).1 := rfl
  rw [askRustc, Traced.bind_ok hasked, Traced.bind_ok (by rw [Traced.each_emit]),
    Traced.each_emit]
  exact ⟨rfl, rfl⟩

/-- The end of `run` has the output of the program, if it is interpreted: then Miri starts where the
query for the entry function has ended. -/
lemma chunks_runEntry (s : Pipe σ) :
    (I.runEntry C s).calls.filterMap StageCall.chunk
      = if I.startFn s.env && (I.entryFn s.env).1.1 then
          outputOf (I.evalEntry (I.entryFn s.env).2).1
        else [] := by
  have hchunk : Admits fun c => c.chunk = none := ⟨fun _ => rfl, fun _ _ => rfl⟩
  have hstarted : (look I.startFn s).result = .ok (I.startFn s.env) := rfl
  rw [Interp.runEntry, Traced.bind_ok hstarted]
  cases I.startFn s.env with
  | false => rfl
  | true =>
      obtain ⟨hentry, hstate⟩ := askRustc_ends I.entryFn (look I.startFn s).state
      change _ = Except.ok (I.entryFn s.env).1.1 at hentry
      change _ = (I.entryFn s.env).2 at hstate
      have hsilent := (makes_askRustc hchunk I.entryFn).filterMap_calls (look I.startFn s).state
      have hquiet : (look I.startFn s).calls = [] := rfl
      dsimp only
      rw [if_pos rfl, Traced.bind_ok hentry, hquiet, List.nil_append, Bool.true_and]
      generalize (askRustc I.entryFn (look I.startFn s).state).state = s₁ at hstate
      cases (I.entryFn s.env).1.1 with
      | false =>
          rw [List.filterMap_append, hsilent]
          rfl
      | true =>
          obtain ⟨hresult, hcalls⟩ := eval_run I { s₁ with readings := s₁.readings + 1 }
          have htime : (C.time "run.miri" I.eval s₁).result
              = .ok (I.evalEntry s₁.session.env).1.1 := by
            rw [C.time_run]
            exact hresult
          rw [if_pos rfl, if_pos rfl, Traced.bind_ok htime, C.time_run, List.filterMap_append,
            hsilent, hcalls, List.nil_append, List.filterMap_append, List.filterMap_append,
            ← hstate]
          exact congrArg (· ++ _) (List.append_nil _)

/-- The calls of `run`. -/
lemma run_trace (s : Pipe σ) :
    let env := (I.dumpTrees C s).state.env
    let calls := (I.run C s).calls
    (dumps calls).map Prod.fst = executeSections ∧ calls.filterMap StageCall.entry = []
      ∧ reported calls = []
      ∧ calls.filterMap StageCall.chunk
        = if I.startFn env && (I.entryFn env).1.1 then outputOf (I.evalEntry (I.entryFn env).2).1
          else [] := by
  intro env calls
  obtain ⟨⟨u, htrees⟩, hnames⟩ := emits_dumpTrees I C s
  obtain ⟨-, hrest⟩ := emits_runEntry I C (I.dumpTrees C s).state
  have hcalls : calls = (I.dumpTrees C s).calls ++ (I.runEntry C (I.dumpTrees C s).state).calls :=
    congrArg Ran.calls (Traced.bind_ok htrees)
  have hentry : Admits fun c => c.entry = none := ⟨fun _ => rfl, fun _ _ => rfl⟩
  have hreport : Admits fun c => c.reported = none := ⟨fun _ => rfl, fun _ _ => rfl⟩
  have hchunk : Admits fun c => c.chunk = none := ⟨fun _ => rfl, fun _ _ => rfl⟩
  rw [hcalls]
  refine ⟨?_, ?_, ?_, ?_⟩
  · rw [dumps_append, List.map_append, hnames, hrest, List.append_nil]
  · rw [List.filterMap_append, (makes_dumpTrees I C hentry fun _ _ => rfl).filterMap_calls,
      (makes_runEntry I C hentry (fun _ => rfl) fun _ => rfl).filterMap_calls]
    rfl
  · rw [reported, List.filterMap_append,
      (makes_dumpTrees I C hreport fun _ _ => rfl).filterMap_calls,
      (makes_runEntry I C hreport (fun _ => rfl) fun _ => rfl).filterMap_calls]
    rfl
  · rw [List.filterMap_append, (makes_dumpTrees I C hchunk fun _ _ => rfl).filterMap_calls]
    exact chunks_runEntry I C _

end Run

/-- Each section of execute mode has a tab of its own. -/
lemma executeSections_tabs :
    executeSections.Nodup ∧ ∀ tab ∈ executeSections, tab ∈ sectionOrder true := by decide

/-- **However far a run of a program has got when it returns or traps, the page shows its sections
and its output so far.**  The sections are those dumped, each under a tab of its own; the panel has
the diagnostics of rustc and what the program has written, and a run that has been cut off ends with
a note.  A run that returns has dumped all its sections.  It has interpreted the program exactly if
the lang item `start` and an entry function are there once the trees have been dumped, from where
the query for the entry has ended; its output is then that of the program and ends with the line of
the exit code, and otherwise there is none. -/
theorem run_views {σ F : Type} (I : Interp σ) (C : Compiler σ F) (s : Pipe σ) (docLines : ℕ)
    (calls : List Callback) (threw : Option JsString)
    (hcalls : calls <+: (I.run C s).calls.flatMap C.callbacks) :
    let env := (I.dumpTrees C s).state.env
    let r := I.run C s
    let c := finishRun .execute calls threw {}
    (∃ sections, sections <+: dumps r.calls
        ∧ (calls = r.calls.flatMap C.callbacks → sections = dumps r.calls)
        ∧ c.sectionCache.map Prod.fst = sections.map Prod.fst
        ∧ ∀ x ∈ sections, c.view x.1 = some ⟨encode (trimEnd x.2), [], []⟩)
      ∧ (dumps r.calls).map Prod.fst = executeSections
      ∧ (∀ tab ∈ c.sectionCache.map Prod.fst, tab ∈ sectionOrder true)
      ∧ (∃ diags chunks, renderMeta docLines c
            = panelOf docLines diags [] (chunks ++ threw.toList.map abortedChunk)
          ∧ diags <+: raised r.calls ∧ chunks <+: r.calls.filterMap StageCall.chunk
          ∧ (calls = r.calls.flatMap C.callbacks →
            diags = raised r.calls ∧ chunks = r.calls.filterMap StageCall.chunk))
      ∧ r.calls.filterMap StageCall.chunk
        = if I.startFn env && (I.entryFn env).1.1 then outputOf (I.evalEntry (I.entryFn env).2).1
          else [] := by
  intro env r c
  obtain ⟨hnodup, htabs⟩ := executeSections_tabs
  obtain ⟨hnames, hentries, hreported, hchunks⟩ := run_trace I C s
  obtain ⟨sections, hfront, hall, hkeys, hviews⟩ :=
    views_of_trace C .execute (hnames ▸ hnodup) hcalls threw
  obtain ⟨hdiags', hentries', hchunks'⟩ := trace_reports C r.calls
  rw [show r.calls.filterMap StageCall.entry = [] from hentries] at hentries'
  rw [diags_of_unreported C hreported] at hdiags'
  refine ⟨⟨sections, hfront, hall, hkeys, hviews⟩, hnames, fun tab htab => ?_, ?_, hchunks⟩
  · rw [show c.sectionCache.map Prod.fst = sections.map Prod.fst from hkeys] at htab
    exact htabs tab (hnames ▸ (hfront.map Prod.fst).subset htab)
  · have hnone : calls.filterMap Callback.entry = [] :=
      List.prefix_nil.mp (hentries' ▸ hcalls.filterMap Callback.entry)
    refine ⟨calls.filterMap Callback.diag, calls.filterMap Callback.chunk, ?_,
      hdiags' ▸ hcalls.filterMap Callback.diag, hchunks' ▸ hcalls.filterMap Callback.chunk, ?_⟩
    · cases threw with
      | none =>
          have hpanel := renderMeta_finishRun docLines .execute calls
          rw [hnone] at hpanel
          exact hpanel.trans (by rw [Option.toList_none, List.map_nil, List.append_nil])
      | some message =>
          have hpanel := renderMeta_finishRun_aborted docLines calls message
          rw [hnone] at hpanel
          exact hpanel
    · rintro rfl
      exact ⟨hdiags', hchunks'⟩

/-- A program that prints a line. -/
def helloProgram : Interp Unit where
  hirFreeItems _ := [.fn 0]
  isMirAvailable _ _ := true
  mirBuilt _ s := (("fn main()".toList.flatMap String.utf8EncodeChar, []), s)
  mirDropsElaborated _ s := (("fn main()".toList.flatMap String.utf8EncodeChar, []), s)
  optimizedMir _ s := (("fn main()".toList.flatMap String.utf8EncodeChar, []), s)
  startFn _ := true
  entryFn s := ((true, []), s)
  evalEntry s := ((.ok (), [.write ⟨.stdout, [104, 105, 10]⟩]), s)

/-- Its output is the line and the exit code. -/
theorem run_views_hello :
    let r := helloProgram.run emptyCrate ⟨freshSession, {}, false, 0⟩
    (renderMeta 1 (finishRun .execute (r.calls.flatMap emptyCrate.callbacks) none {})).output
      = [⟨.stdout, js "hi"⟩, ⟨.stderr, js "[run] program exited with code 0"⟩] := by
  intro r
  obtain ⟨-, -, -, ⟨diags, chunks, hpanel, -, -, hall⟩, hchunks⟩ :=
    run_views helloProgram emptyCrate ⟨freshSession, {}, false, 0⟩ 1
      (r.calls.flatMap emptyCrate.callbacks) none List.prefix_rfl
  rw [hpanel, (hall rfl).2, hchunks, panelOf]
  dsimp only
  decide

end VerusExplorer
