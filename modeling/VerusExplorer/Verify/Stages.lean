import VerusExplorer.Lib.Timers
import VerusExplorer.Lib.Utf16
import VerusExplorer.Verify.Session

/-!
# The timers of `verify`

The stages of `verify` as its timers see them: how long each piece of work takes, which calls of
the page it makes and whether it succeeds is up to the compiler and the solver.

* `Timer` is the timers, `Timer.label` the labels they report under.
* `verify` and the functions it calls, with the code between the timers as work.
* `callStacks`: the timers that can run at the same time.
* **`regular_verify`**: a run of `verify` has no other timers running at once, and each stretch of
  it is in the reports once for each timer that was running.
-/

namespace VerusExplorer

open Timers Utf16

/-! ## The timers -/

/-- The timers of `verify`. -/
inductive Timer where
  | rustcParse
  | dumpAstPre
  | dumpAst
  | dumpHir
  | dumpHirTyped
  | buildVir
  | vstdDeserialize
  | constructVirCrate
  | globalCtx
  | checkTraits
  | simplifyKrate
  | dumpVirRaw
  | dumpVirSimple
  | verify
  | reporterNew
  | verifyModule
  | prune
  | dumpVirPruned
  | ctxNew
  | astToSst
  | dumpSstAst
  | poly
  | dumpSstPoly
  | airCtxNew
  | queries
  | feedDecls
  | ctxFree
  deriving DecidableEq, Repr

/-- The labels the timers report under. -/
def Timer.label : Timer → JsString
  | .rustcParse => js "rustc_parse"
  | .dumpAstPre => js "dump.ast_pre"
  | .dumpAst => js "dump.ast"
  | .dumpHir => js "dump.hir"
  | .dumpHirTyped => js "dump.hir_typed"
  | .buildVir => js "build_vir"
  | .vstdDeserialize => js "build_vir.vstd_deserialize"
  | .constructVirCrate => js "build_vir.construct_vir_crate"
  | .globalCtx => js "build_vir.global_ctx"
  | .checkTraits => js "build_vir.check_traits"
  | .simplifyKrate => js "build_vir.simplify_krate"
  | .dumpVirRaw => js "dump.vir_raw"
  | .dumpVirSimple => js "dump.vir_simple"
  | .verify => js "verify"
  | .reporterNew => js "verify.reporter_new"
  | .verifyModule => js "verify.module"
  | .prune => js "verify.prune"
  | .dumpVirPruned => js "dump.vir_pruned"
  | .ctxNew => js "verify.ctx_new"
  | .astToSst => js "verify.ast_to_sst"
  | .dumpSstAst => js "dump.sst_ast"
  | .poly => js "verify.poly"
  | .dumpSstPoly => js "dump.sst_poly"
  | .airCtxNew => js "verify.air_ctx_new"
  | .queries => js "verify.queries"
  | .feedDecls => js "verify.feed_decls"
  | .ctxFree => js "verify.ctx_free"

/-! ## The stages -/

/-- What the timers cannot see.  `run` does the next piece of work, and `modules` is the crates of
the modules of the simplified krate, none for a module of the user's. -/
structure Host (σ C : Type) where
  run : σ → Worked C Unit Unit × σ
  modules : σ → List (Option Str)

/-- A part of `verify`. -/
abbrev Stage (σ C α : Type) := Timed σ Timer C Unit α

variable {σ C : Type}

namespace Host

/-- Work that ends with a result. -/
def tries (h : Host σ C) : Stage σ C Unit := work h.run

/-- Work that has no way to fail. -/
def runs (h : Host σ C) : Stage σ C Unit :=
  work fun s => ({ (h.run s).1 with result := .ok () }, (h.run s).2)

variable (h : Host σ C)

/-- `time(label, …)` around work that has no way to fail. -/
def timed (label : Timer) : Stage σ C Unit := do
  let _ ← time label h.runs

/-- `time(label, …)?`. -/
def timedTry (label : Timer) (x : Stage σ C Unit) : Stage σ C Unit := do
  Traced.ofExcept (← time label x)

def dumpAstPreExpansion : Stage σ C Unit := h.timed .dumpAstPre

def dumpAst : Stage σ C Unit := h.timed .dumpAst

def dumpHir : Stage σ C Unit := do
  h.runs
  h.timed .dumpHir
  h.timed .dumpHirTyped

def buildVir : Stage σ C Unit := do
  h.runs
  timedTry .vstdDeserialize h.tries
  h.runs
  timedTry .constructVirCrate h.tries
  h.runs
  timedTry .globalCtx h.tries
  timedTry .checkTraits h.tries
  timedTry .simplifyKrate h.tries

def dumpVir : Stage σ C Unit := do
  h.timed .dumpVirRaw
  h.timed .dumpVirSimple

/-- `run_queries`: the declarations of the module and then, as one piece of work, its ops. -/
def runQueries : Stage σ C Unit := do
  timedTry .feedDecls h.tries
  h.tries

def verifyModule : Stage σ C Unit := do
  h.timed .prune
  h.timed .dumpVirPruned
  h.runs
  timedTry .ctxNew h.tries
  h.runs
  timedTry .astToSst h.tries
  h.timed .dumpSstAst
  h.timed .poly
  h.timed .dumpSstPoly
  h.timed .airCtxNew
  h.runs
  timedTry .queries h.runQueries
  h.timed .ctxFree

/-- A round of the loop over the modules. -/
def verifyNext : Stage σ C Unit := do
  match ← time .verifyModule h.verifyModule with
  | .ok _ => pure ()
  | .error e => do
      h.runs
      Traced.stop e

def verifySimplifiedKrate : Stage σ C Unit := do
  h.timed .reporterNew
  let modules := h.modules (← Traced.get).host
  Traced.each (fun _ => h.verifyNext) (modules.filter Option.isNone)

/-- `verify`. -/
def verify : Stage σ C Unit := do
  h.runs
  h.timed .rustcParse
  h.dumpAstPreExpansion
  h.runs
  h.dumpAst
  h.dumpHir
  match ← time .buildVir h.buildVir with
  | .ok _ => do
      h.dumpVir
      let _ ← time .verify h.verifySimplifiedKrate
      h.runs
  | .error _ => pure ()
  h.runs

end Host

/-! ## Which timers run at the same time -/

/-- The timers that can run at the same time, innermost first. -/
def callStacks : List (List Timer) :=
  let top : List Timer :=
    [.rustcParse, .dumpAstPre, .dumpAst, .dumpHir, .dumpHirTyped, .buildVir, .dumpVirRaw,
      .dumpVirSimple, .verify]
  let inBuildVir : List Timer :=
    [.vstdDeserialize, .constructVirCrate, .globalCtx, .checkTraits, .simplifyKrate]
  let inVerify : List Timer := [.reporterNew, .verifyModule]
  let inModule : List Timer :=
    [.prune, .dumpVirPruned, .ctxNew, .astToSst, .dumpSstAst, .poly, .dumpSstPoly, .airCtxNew,
      .queries, .ctxFree]
  [] :: top.map ([·]) ++ inBuildVir.map ([·, .buildVir]) ++ inVerify.map ([·, .verify])
    ++ inModule.map ([·, .verifyModule, .verify])
    ++ [[.feedDecls, .queries, .verifyModule, .verify]]

/-- Run by the rules while `st` are running. -/
abbrev Staged (st : List Timer) (x : Stage σ C Unit) : Prop := Regular (· ∈ callStacks) st x

section Staged

variable (h : Host σ C) {st : List Timer} {label : Timer}

lemma staged_runs (hst : st ∈ callStacks) : Staged st h.runs := .work hst _

lemma staged_tries (hst : st ∈ callStacks) : Staged st h.tries := .work hst _

lemma staged_timed (hst : label :: st ∈ callStacks) : Staged st (h.timed label) :=
  .bind (.time (staged_runs h hst)) fun _ => .pure ()

lemma staged_timedTry {x : Stage σ C Unit} (hx : Staged (label :: st) x) :
    Staged st (Host.timedTry label x) :=
  .bind (.time hx) fun r => .ofExcept r

lemma staged_dumpHir : Staged [] h.dumpHir := by
  refine .bind (staged_runs h (by decide)) fun _ => ?_
  refine .bind (staged_timed h (by decide)) fun _ => ?_
  exact staged_timed h (by decide)

lemma staged_buildVir : Staged [.buildVir] h.buildVir := by
  refine .bind (staged_runs h (by decide)) fun _ => ?_
  refine .bind (staged_timedTry (staged_tries h (by decide))) fun _ => ?_
  refine .bind (staged_runs h (by decide)) fun _ => ?_
  refine .bind (staged_timedTry (staged_tries h (by decide))) fun _ => ?_
  refine .bind (staged_runs h (by decide)) fun _ => ?_
  refine .bind (staged_timedTry (staged_tries h (by decide))) fun _ => ?_
  refine .bind (staged_timedTry (staged_tries h (by decide))) fun _ => ?_
  exact staged_timedTry (staged_tries h (by decide))

lemma staged_dumpVir : Staged [] h.dumpVir :=
  .bind (staged_timed h (by decide)) fun _ => staged_timed h (by decide)

lemma staged_runQueries : Staged [.queries, .verifyModule, .verify] h.runQueries :=
  .bind (staged_timedTry (staged_tries h (by decide))) fun _ => staged_tries h (by decide)

lemma staged_verifyModule : Staged [.verifyModule, .verify] h.verifyModule := by
  refine .bind (staged_timed h (by decide)) fun _ => ?_
  refine .bind (staged_timed h (by decide)) fun _ => ?_
  refine .bind (staged_runs h (by decide)) fun _ => ?_
  refine .bind (staged_timedTry (staged_tries h (by decide))) fun _ => ?_
  refine .bind (staged_runs h (by decide)) fun _ => ?_
  refine .bind (staged_timedTry (staged_tries h (by decide))) fun _ => ?_
  refine .bind (staged_timed h (by decide)) fun _ => ?_
  refine .bind (staged_timed h (by decide)) fun _ => ?_
  refine .bind (staged_timed h (by decide)) fun _ => ?_
  refine .bind (staged_timed h (by decide)) fun _ => ?_
  refine .bind (staged_runs h (by decide)) fun _ => ?_
  refine .bind (staged_timedTry (staged_runQueries h)) fun _ => ?_
  exact staged_timed h (by decide)

lemma staged_verifyNext : Staged [.verify] h.verifyNext := by
  refine .bind (.time (staged_verifyModule h)) fun r => ?_
  cases r with
  | ok _ => exact .pure ()
  | error e => exact .bind (staged_runs h (by decide)) fun _ => .stop e

lemma staged_verifySimplifiedKrate : Staged [.verify] h.verifySimplifiedKrate := by
  refine .bind (staged_timed h (by decide)) fun _ => ?_
  refine .bind .get fun s => ?_
  exact .each (fun _ => staged_verifyNext h) _

/-- **In a run of `verify` no other timers run at once than the call tree says**, and each stretch
of it is in the reports once for each of the timers that was running. -/
theorem regular_verify : Staged [] h.verify := by
  refine .bind (staged_runs h (by decide)) fun _ => ?_
  refine .bind (staged_timed h (by decide)) fun _ => ?_
  refine .bind (staged_timed h (by decide)) fun _ => ?_
  refine .bind (staged_runs h (by decide)) fun _ => ?_
  refine .bind (staged_timed h (by decide)) fun _ => ?_
  refine .bind (staged_dumpHir h) fun _ => ?_
  refine .bind (.time (staged_buildVir h)) fun r => ?_
  cases r with
  | error _ => exact staged_runs h (by decide)
  | ok _ =>
      refine .bind (staged_dumpVir h) fun _ => ?_
      refine .bind (.time (staged_verifySimplifiedKrate h)) fun _ => ?_
      refine .bind (staged_runs h (by decide)) fun _ => ?_
      exact staged_runs h (by decide)

end Staged

end VerusExplorer
