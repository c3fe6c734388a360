import VerusExplorer.Dump.Smt
import VerusExplorer.Dump.Walk
import VerusExplorer.Lib.Zoom
import VerusExplorer.Page.Panel
import VerusExplorer.Verify.Queries
import VerusExplorer.Wasm.Output

/-!
# The pipeline of `verify`

The entry point `verify` (`lib.rs`) with its stages: the dumps of the Rust trees (`rust.rs`), the
lowering to VIR, and the verification of the modules (`verus.rs`).  rustc and the VIR passes are
code of other crates, a `Compiler`: what they answer, and the diagnostics rustc raises.

* `StageCall` — what a run of the pipeline tells the page; `Compiler.callbacks` as the page is told.
* `Compiler.verify` and the functions it calls follow the source.
* **`verify_follows`** — on the session of AIR the pipeline does what `verifySimplifiedKrate` does,
  and tells the page of the verdicts and the reports that it makes and of no others.
-/

namespace VerusExplorer

open Utf16

/-! ## The other crates -/

/-- A diagnostic of VIR with the level it is to be reported at. -/
inductive VirErrAs where
  | warning (e : VirErr)
  | note (e : VirErr)
  | nonBlockingError (e : VirErr)
  | nonFatalError (e : VirErr)
  deriving DecidableEq, Repr

def VirErrAs.reported : VirErrAs → VirErr × MessageLevel
  | .warning e => (e, .warning)
  | .note e => (e, .note)
  | .nonBlockingError e => (e, .error)
  | .nonFatalError e => (e, .error)

/-- An answer of rustc, with the diagnostics it raises on the way, as the page parses them. -/
abbrev Raised (α : Type) := α × List (Option DiagJson)

/-- rustc and the passes of VIR. -/
structure Compiler (σ F : Type) where
  /-- The readings of `perf_now`. -/
  perfNow : ℕ → ℚ
  /-- What rustc's emitter makes of a message; without a level the message has its own. -/
  emitted : Message → Option MessageLevel → List (Option DiagJson)
  parse : σ → Raised Unit × σ
  astPre : σ → Str
  resolverForLowering : σ → Raised Unit × σ
  ast : σ → Str
  hirItems : σ → List Str
  hirTypedItems : σ → Raised (List Str) × σ
  /-- `bincode::deserialize` of the bundled vstd succeeds. -/
  deserializes : Bool
  constructVirCrate : σ → Raised (Except (List VirErr × List VirErrAs) Bool) × σ
  globalCtx : σ → Except VirErr Unit × σ
  checkTraits : σ → Except VirErr Unit × σ
  simplifyKrate : σ → Except VirErr Unit × σ
  rawWalk : σ → List WalkItem
  simpleWalk : σ → List WalkItem
  modules : σ → List Module
  prune : Module → σ → List WalkItem × σ
  ctxNew : Module → σ → Except VirErr Unit × σ
  astToSst : Module → σ → Raised (Except VirErr (KrateSst F)) × σ
  poly : KrateSst F → σ → KrateSst F × σ
  sstWalk : KrateSst F → List WalkItem

/-! ## The state -/

/-- The bodies of `VerifyOutput` that are not drained from the logs. -/
structure Walks where
  virPruned : Str := []
  sstAst : Str := []
  sstPoly : Str := []
  deriving DecidableEq, Repr

/-- The state while `verify` runs: the session of AIR, the other bodies, the static `VSTD_KRATE`
and how often the clock has been read. -/
structure Pipe (σ : Type) where
  session : Session σ
  walks : Walks
  vstdCached : Bool
  readings : ℕ

/-- What a run of the pipeline tells the page. -/
inductive StageCall where
  | rustc (d : Option DiagJson)
  | report (msg : Message) (level : Option MessageLevel)
  | verdict (line : Str)
  | dump (name : JsString) (body : Str)
  | bench (label : JsString) (ms : ℚ)
  | write (w : ProgramWrite)
  | runStderr (text : Str)

abbrev Pipeline (σ α : Type) := Traced (Pipe σ) StageCall Stop α

/-- The session as a part of the state. -/
def Pipe.sessionLens (σ : Type) : Traced.Lens (Pipe σ) (Session σ) where
  get s := s.session
  put session s := { s with session := session }
  get_put _ _ := rfl
  put_put _ _ _ := rfl
  put_get _ := rfl

/-- The calls of the session that the page is told of. -/
def Call.stageCalls : Call → List StageCall
  | .report msg => [.report msg none]
  | .reportAs msg level => [.report msg (some level)]
  | .verusVerdict line => [.verdict line]
  | _ => []

/-- The calls that only the session makes once VIR has been built. -/
def StageCall.told : StageCall → Bool
  | .report _ _ => true
  | .verdict _ => true
  | _ => false

variable {σ F α : Type}

/-- A program of the session as a stage. -/
def onSession (x : Prog σ α) : Pipeline σ α := Traced.zoom (Pipe.sessionLens σ) Call.stageCalls x

/-- Ask another crate. -/
def ask (f : σ → α × σ) : Pipeline σ α := onSession (askVir f fun _ => [])

/-- Ask rustc, which may raise diagnostics. -/
def askRustc (f : σ → Raised α × σ) : Pipeline σ α := do
  let r ← ask f
  Traced.each Traced.emit (r.2.map StageCall.rustc)
  pure r.1

def Pipe.env (s : Pipe σ) : σ := s.session.env

/-- Read something off the state of the other crates. -/
def look (f : σ → α) : Pipeline σ α := do
  let s ← Traced.get
  pure (f s.env)

/-- `emit_section`. -/
def dumpSection (name : String) (body : Str) : Pipeline σ Unit :=
  Traced.emit (.dump (js name) body)

namespace Compiler

variable (C : Compiler σ F) (W : World σ F) (fuel : Fuel)

/-! ## Timers -/

def perfNowMs : Pipeline σ ℚ := do
  let s ← Traced.get
  Traced.modify fun s => { s with readings := s.readings + 1 }
  pure (C.perfNow s.readings)

def time (label : String) (x : Pipeline σ α) : Pipeline σ α := do
  let t0 ← C.perfNowMs
  let result ← Traced.attempt x
  let t1 ← C.perfNowMs
  Traced.emit (.bench (js label) (t1 - t0))
  Traced.ofExcept result

/-! ## The Rust trees -/

def dumpAstPreExpansion : Pipeline σ Unit :=
  C.time "dump.ast_pre" do
    let body ← look C.astPre
    dumpSection "AST_PRE" body

def dumpAst : Pipeline σ Unit :=
  C.time "dump.ast" do
    askRustc C.resolverForLowering
    let body ← look C.ast
    dumpSection "AST" body

/-- The items of the crate, each on lines of its own. -/
def itemLinesBody (items : List Str) : Str := items.flatMap (· ++ ['\n'])

def dumpHir : Pipeline σ Unit := do
  askRustc C.resolverForLowering
  C.time "dump.hir" do
    let items ← look C.hirItems
    dumpSection "HIR" (itemLinesBody items)
  C.time "dump.hir_typed" do
    let items ← askRustc C.hirTypedItems
    dumpSection "HIR_TYPED" (itemLinesBody items)

/-! ## VIR -/

/-- `vstd_krate`. -/
def vstdKrate : Pipeline σ (Except (List VirErr) Unit) := do
  let s ← Traced.get
  if s.vstdCached then pure (.ok ())
  else if C.deserializes then do
    Traced.modify fun s => { s with vstdCached := true }
    pure (.ok ())
  else
    pure (.error ["failed to deserialize embedded VIR crate — version mismatch?".toList])

/-- The closure around `construct_vir_crate`: what it fails with is reported. -/
def constructAndReport : Pipeline σ (Except (List VirErr) Unit) := do
  let r ← askRustc C.constructVirCrate
  match r with
  | .ok true => pure (.ok ())
  | .ok false => pure (.error [])
  | .error (errs, diagnostics) => do
      let diags := diagnostics.map VirErrAs.reported
      Traced.each (fun d => Traced.emit (.report d.1 (some d.2))) diags
      Traced.each (fun e => Traced.emit (.report e (some .error))) errs
      pure (.error errs)

/-- A pass of VIR under its timer, `map_err(|e| vec![e])`. -/
def pass (label : String) (f : σ → Except VirErr Unit × σ) :
    Pipeline σ (Except (List VirErr) Unit) := do
  let r ← C.time label (ask f)
  pure (r.mapError fun e => [e])

/-- `?`. -/
def andThen (x y : Pipeline σ (Except (List VirErr) Unit)) :
    Pipeline σ (Except (List VirErr) Unit) := do
  match ← x with
  | .error errs => pure (.error errs)
  | .ok _ => y

def buildVir : Pipeline σ (Except (List VirErr) Unit) := do
  askRustc C.resolverForLowering
  andThen (C.time "build_vir.vstd_deserialize" C.vstdKrate)
    (andThen (C.time "build_vir.construct_vir_crate" C.constructAndReport)
      (andThen (C.pass "build_vir.global_ctx" C.globalCtx)
        (andThen (C.pass "build_vir.check_traits" C.checkTraits)
          (C.pass "build_vir.simplify_krate" C.simplifyKrate))))

def dumpVir : Pipeline σ Unit := do
  C.time "dump.vir_raw" do
    let items ← look C.rawWalk
    dumpSection "VIR_RAW" (WalkBuilder.mk items).finish
  C.time "dump.vir_simple" do
    let items ← look C.simpleWalk
    dumpSection "VIR_SIMPLE" (WalkBuilder.mk items).finish

/-! ## The modules -/

/-- Append a walk to one of the bodies. -/
def pushWalk (f : Walks → Str → Walks) (items : List WalkItem) : Pipeline σ Unit :=
  Traced.modify fun s => { s with walks := f s.walks (WalkBuilder.mk items).finish }

/-- What `verify_module` does before it has an AIR context. -/
def lower (m : Module) : Pipeline σ (KrateSst F) := do
  let pruned ← C.time "verify.prune" (ask (C.prune m))
  C.time "dump.vir_pruned"
    (pushWalk (fun w text => { w with virPruned := w.virPruned ++ text }) pruned)
  C.time "verify.ctx_new" do
    let r ← ask (C.ctxNew m)
    onSession (orStop r)
  let krateSst ← C.time "verify.ast_to_sst" do
    let r ← askRustc (C.astToSst m)
    onSession (orStop r)
  C.time "dump.sst_ast"
    (pushWalk (fun w text => { w with sstAst := w.sstAst ++ text }) (C.sstWalk krateSst))
  let krateSst ← C.time "verify.poly" (ask (C.poly krateSst))
  C.time "dump.sst_poly"
    (pushWalk (fun w text => { w with sstPoly := w.sstPoly ++ text }) (C.sstWalk krateSst))
  pure krateSst

/-- `run_queries`. -/
def runQueries (krateSst : KrateSst F) : Pipeline σ Unit := do
  C.time "verify.feed_decls" (onSession (feedModuleDecls W krateSst))
  onSession (tellAir W.sectionClose .sectionClose)
  onSession drainTo
  onSession (runOps W fuel krateSst)

/-- `verify_module`. -/
def verifyModule (m : Module) : Pipeline σ Unit := do
  let krateSst ← C.lower m
  C.time "verify.air_ctx_new" (pure ())
  onSession attach
  onSession (tellAir (W.setZ3Param "air_recommended_options".toList "true".toList)
    (.setZ3Param "air_recommended_options".toList "true".toList))
  onSession (tellAir (W.setRlimit (60 * 3000000)) (.setRlimit (60 * 3000000)))
  C.time "verify.queries" (C.runQueries W fuel krateSst)
  C.time "verify.ctx_free" (pure ())

/-- The body of the loop over the modules. -/
def verifyOrReport (m : Module) : Pipeline σ Unit := do
  onSession (Traced.emit (.verifyModule m.path))
  let r ← Traced.attempt (C.time "verify.module" (C.verifyModule W fuel m))
  match r with
  | .error (.err e) => do
      onSession (Traced.emit (.reportAs e .error))
      onSession (Traced.stop (.err e))
  | r => onSession (Traced.ofExcept r)

def verifySimplifiedKrate (modules : List Module) : Pipeline σ Unit := do
  C.time "verify.reporter_new" (pure ())
  Traced.each (C.verifyOrReport W fuel) (modules.filter fun m => m.krate.isNone)

end Compiler

/-! ## The output -/

/-- `str::trim`. -/
def trim (s : Str) : Str := trimEnd (s.dropWhile isWhiteSpace)

/-- The sections of `VerifyOutput::write`. -/
def Pipe.sections (s : Pipe σ) : List (String × Str) :=
  let smt := s.session.output .smt
  [("VIR_PRUNED", s.walks.virPruned), ("SST_AST", s.walks.sstAst), ("SST_POLY", s.walks.sstPoly),
    ("AIR_INITIAL", s.session.output .airInitial), ("AIR_MIDDLE", s.session.output .airMiddle),
    ("AIR_FINAL", s.session.output .airFinal), ("SMT_QUERY", projectSmt smt false),
    ("SMT_RESPONSE", projectSmt smt true), ("SMT_TRANSCRIPT", smt)]

/-- The body of the loop of `write`: a blank section is skipped. -/
def writeSection (x : String × Str) : Pipeline σ Unit :=
  if (trim x.2).isEmpty then pure () else dumpSection x.1 x.2

/-- `VerifyOutput::write`. -/
def write : Pipeline σ Unit := do
  let s ← Traced.get
  Traced.each writeSection s.sections

/-- `VerifyOutput::default()`. -/
def freshOutput : Pipeline σ Unit :=
  Traced.modify fun s =>
    { s with
      walks := {}
      session := { s.session with output := fun _ => [] } }

namespace Compiler

variable (C : Compiler σ F) (W : World σ F) (fuel : Fuel)

/-- The stages before VIR. -/
def dumpRust : Pipeline σ Unit := do
  C.time "rustc_parse" (askRustc C.parse)
  C.dumpAstPreExpansion
  C.dumpAst
  C.dumpHir

/-- The stages after VIR has been built. -/
def verifyVir : Pipeline σ Unit := do
  C.dumpVir
  freshOutput
  let modules ← look C.modules
  let _ ← Traced.attempt (C.time "verify" (C.verifySimplifiedKrate W fuel modules))
  write

def verify : Pipeline σ Unit := do
  C.dumpRust
  match ← C.time "build_vir" C.buildVir with
  | .ok _ => C.verifyVir W fuel
  | .error _ => pure ()

/-- A call as the page is told of it. -/
def callbacks : StageCall → List Callback
  | .rustc d => [.diagnostic d]
  | .report msg level => (C.emitted msg level).map .diagnostic
  | .verdict line => [.verdict (parseVerdict (encode line))]
  | .dump name body => [.dump name (emitSection body)]
  | .bench label ms => [.bench label ms]
  | .write w => [w.callback]
  | .runStderr text => [.stderr (encode text)]

end Compiler

/-! ## The session of AIR -/

section Session

/-- The session with what the page is told of it. -/
def Pipe.sessionView (σ : Type) : Traced.View (Pipe σ) (Session σ) Call StageCall where
  toLens := Pipe.sessionLens σ
  render := Call.stageCalls
  seen := StageCall.told
  seen_render call c hc := by
    cases call <;> simp only [Call.stageCalls, List.mem_singleton, List.not_mem_nil] at hc
    all_goals
      rw [hc]
      rfl

variable (C : Compiler σ F) (W : World σ F) (fuel : Fuel)

namespace Compiler

/-- A timer reads the clock and reports. -/
lemma time_run (label : String) (x : Pipeline σ α) (s : Pipe σ) :
    let r := x { s with readings := s.readings + 1 }
    C.time label x s
      = ⟨r.result, { r.state with readings := r.state.readings + 1 },
        r.calls ++ [.bench (js label) (C.perfNow r.state.readings - C.perfNow s.readings)]⟩ := by
  intro r
  rw [time, Traced.bind_ok rfl, Traced.bind_ok rfl, Traced.bind_ok rfl, Traced.bind_ok rfl,
    Traced.ofExcept_calls]
  simp only [List.append_nil]
  rfl

/-- The lowering of a module as the session sees it. -/
def lowerModule (m : Module) (s : σ) : Except VirErr (KrateSst F) × σ :=
  let s := (C.prune m s).2
  match C.ctxNew m s with
  | (.error e, s) => (.error e, s)
  | (.ok _, s) =>
      match C.astToSst m s with
      | ((.error e, _), s) => (.error e, s)
      | ((.ok krateSst, _), s) => (.ok (C.poly krateSst s).1, (C.poly krateSst s).2)

end Compiler

open Traced (Follows)

variable {C W fuel}

lemma follows_time {x : Pipeline σ α} {y : Prog σ α} (h : Follows (Pipe.sessionView σ) x y)
    (label : String) : Follows (Pipe.sessionView σ) (C.time label x) y := by
  intro s
  obtain ⟨hresult, hstate, hcalls⟩ := h { s with readings := s.readings + 1 }
  rw [C.time_run]
  refine ⟨hresult, hstate, ?_⟩
  rw [Traced.View.visible_append, hcalls]
  exact List.append_nil _

lemma follows_ask (f : σ → α × σ) :
    Follows (Pipe.sessionView σ) (ask f) (askVir f fun _ => []) := Traced.follows_zoom _

/-- The diagnostics rustc raises leave the session alone. -/
lemma follows_askRustc (f : σ → Raised α × σ) :
    Follows (Pipe.sessionView σ) (askRustc f)
      (askVir (fun s => ((f s).1.1, (f s).2)) fun _ => []) := by
  intro s
  rw [askRustc, Traced.bind_ok rfl, Traced.bind_ok (by rw [Traced.each_emit])]
  rw [Traced.each_emit]
  refine ⟨rfl, rfl, List.filter_eq_nil_iff.mpr fun c hc => ?_⟩
  rcases List.mem_append.mp hc with hc | hc
  · exact absurd hc List.not_mem_nil
  · rcases List.mem_append.mp hc with hc | hc
    · obtain ⟨d, -, rfl⟩ := List.mem_map.mp hc
      exact Bool.false_ne_true
    · exact absurd hc List.not_mem_nil

/-- What returns, leaves the session alone and tells the page nothing of it. -/
def Aside (x : Pipeline σ Unit) : Prop :=
  ∀ s, (Pipe.sessionView σ).Agree (x s) (⟨.ok (), s.session, []⟩ : Ran (Session σ) Call Stop Unit)

lemma aside_time {x : Pipeline σ Unit} (h : Aside x) (label : String) : Aside (C.time label x) := by
  intro s
  obtain ⟨hresult, hstate, hcalls⟩ := h { s with readings := s.readings + 1 }
  rw [C.time_run]
  refine ⟨hresult, hstate, ?_⟩
  rw [Traced.View.visible_append, hcalls]
  rfl

lemma Aside.follows {x : Pipeline σ Unit} (hx : Aside x) {f : Unit → Pipeline σ α} {y : Prog σ α}
    (hf : Follows (Pipe.sessionView σ) (f ()) y) : Follows (Pipe.sessionView σ) (x >>= f) y :=
  Traced.Follows.bind_left (fun s => ⟨(), hx s⟩) fun _ => hf

lemma askVir_bind {β : Type} (f : σ → α × σ) (g : α → Prog σ β) (s : Session σ) :
    ((askVir f fun _ => []) >>= g) s = g (f s.env).1 { s with env := (f s.env).2 } := by
  rw [Traced.bind_ok rfl]
  rfl

/-- A question with `?`. -/
def askOrStop (f : σ → Except VirErr α × σ) : Prog σ α := do
  let r ← askVir f fun _ => []
  orStop r

lemma askOrStop_run (f : σ → Except VirErr α × σ) (s : Session σ) :
    askOrStop f s
      = ⟨(f s.env).1.mapError Stop.err, { s with env := (f s.env).2 }, []⟩ := by
  rw [askOrStop, askVir_bind, orStop, Traced.ofExcept_calls]

/-- The passes of `lower` one after another. -/
def lowerPasses (C : Compiler σ F) (m : Module) : Prog σ (KrateSst F) := do
  let _ ← askVir (C.prune m) fun _ => []
  askOrStop (C.ctxNew m)
  let krateSst ← askOrStop fun s => ((C.astToSst m s).1.1, (C.astToSst m s).2)
  askVir (C.poly krateSst) fun _ => []

/-- They are one pass. -/
lemma lowerPasses_eq (m : Module) : lowerPasses C m = askOrStop (C.lowerModule m) := by
  funext s
  rw [lowerPasses, askVir_bind, askOrStop_run, Compiler.lowerModule]
  rcases hctx : C.ctxNew m (C.prune m s.env).2 with ⟨e | u, s₁⟩
  · rw [Traced.bind_error (by rw [askOrStop_run, hctx]; rfl), askOrStop_run, hctx]
    rfl
  · rw [Traced.bind_ok (by rw [askOrStop_run, hctx]; rfl), askOrStop_run, hctx]
    dsimp only
    rcases hsst : C.astToSst m s₁ with ⟨⟨e | krateSst, raised⟩, s₂⟩
    · rw [Traced.bind_error (by rw [askOrStop_run, hsst]; rfl), askOrStop_run, hsst]
      rfl
    · rw [Traced.bind_ok (by rw [askOrStop_run, hsst]; rfl), askOrStop_run, hsst]
      rfl

/-- The stages before AIR do to the session what `lowerModule` does. -/
lemma follows_lower (m : Module) :
    Follows (Pipe.sessionView σ) (C.lower m) (askOrStop (C.lowerModule m)) := by
  have haside : ∀ (f : Walks → Str → Walks) (items : List WalkItem),
      Aside (Compiler.pushWalk f items : Pipeline σ Unit) := fun _ _ _ => ⟨rfl, rfl, rfl⟩
  rw [← lowerPasses_eq]
  refine (follows_time (follows_ask _) _).bind fun pruned => ?_
  refine (aside_time (haside _ _) _).follows ?_
  refine (follows_time ((follows_ask _).bind fun r => Traced.follows_zoom _) _).bind fun _ => ?_
  refine (follows_time ((follows_askRustc _).bind fun r => Traced.follows_zoom _) _).bind
    fun krateSst => ?_
  refine (aside_time (haside _ _) _).follows ?_
  refine (follows_time (follows_ask _) _).bind_right fun krateSst s => ?_
  obtain ⟨hresult, hstate, hcalls⟩ := aside_time (C := C) (haside
    (fun w text => { w with sstPoly := w.sstPoly ++ text }) (C.sstWalk krateSst)) "dump.sst_poly" s
  rw [Traced.bind_ok hresult]
  refine ⟨rfl, hstate, ?_⟩
  rw [Traced.View.visible_append, hcalls]
  rfl

lemma follows_runQueries (krateSst : KrateSst F) :
    Follows (Pipe.sessionView σ) (C.runQueries W fuel krateSst) (runQueries W fuel krateSst) := by
  refine (follows_time (Traced.follows_zoom _) _).bind fun _ => ?_
  refine (Traced.follows_zoom _).bind fun _ => ?_
  exact (Traced.follows_zoom _).bind fun _ => Traced.follows_zoom _

lemma follows_verifyModule (m : Module) :
    Follows (Pipe.sessionView σ) (C.verifyModule W fuel m)
      (do
        let lowered ← askVir (C.lowerModule m) fun _ => []
        let krateSst ← orStop lowered
        verifyModule W fuel krateSst) := by
  have hpure : ∀ label, Aside (C.time label (pure ())) := aside_time fun _ => ⟨rfl, rfl, rfl⟩
  rw [← Traced.bind_assoc']
  refine (follows_lower m).bind fun krateSst => ?_
  refine (hpure _).follows ?_
  refine (Traced.follows_zoom _).bind fun _ => ?_
  refine (Traced.follows_zoom _).bind fun _ => ?_
  refine (Traced.follows_zoom _).bind fun _ => ?_
  exact (follows_time (follows_runQueries krateSst) _).bind_right fun _ s => hpure _ s

/-- **The pipeline does to the session of AIR what the driver of the modules does**, with the passes
of VIR as `lowerModule`, and tells the page just what that does. -/
theorem verify_follows (modules : List Module) :
    Follows (Pipe.sessionView σ) (C.verifySimplifiedKrate W fuel modules)
      (verifySimplifiedKrate W C.lowerModule fuel modules) := by
  have hpure : Aside (C.time "verify.reporter_new" (pure ())) :=
    aside_time (fun _ => ⟨rfl, rfl, rfl⟩) _
  refine hpure.follows (Traced.Follows.each (fun m => ?_) _)
  refine (Traced.follows_zoom _).bind fun _ => ?_
  refine (follows_time (follows_verifyModule m) _).attempt.bind fun r => ?_
  rcases r with (e | _) | u
  · exact (Traced.follows_zoom _).bind fun _ => Traced.follows_zoom _
  · exact Traced.follows_zoom _
  · exact Traced.follows_zoom _

end Session

end VerusExplorer
