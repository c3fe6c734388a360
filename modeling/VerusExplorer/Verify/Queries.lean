import VerusExplorer.Verify.HandleOp

/-!
# The op loop

`run_queries` (`verus.rs`) feeds a module's declarations to AIR, then pulls ops from the generators
and handles them one by one.  It opens a section around each op and a wrapper section around each
run of ops of one external crate, and drains the logs into the bodies of the output.

* `feedModuleDecls`, `nextOp`, `runQueries`, `verifyModule`, `verifySimplifiedKrate` follow the
  source.  A loop that asks a generator for the next op is given fuel for so many questions.
-/

namespace VerusExplorer

variable {σ F : Type} (W : World σ F)

/-! ## The source -/

/-- The name declaration of one function. -/
def feedFunctionName (f : F) : Prog σ Unit := do
  let cmds ← orStop (W.funcNameToAir f)
  feedAll W cmds

def feedModuleDecls (krateSst : KrateSst F) : Prog σ Unit := do
  feedAll W W.prelude
  let batches ← askVir (W.buildBucketPreamble krateSst) fun _ => []
  Traced.each (feedAll W) batches
  Traced.each (feedFunctionName W) krateSst.functions

def nextOp : Prog σ (Option Op) := do
  let r ← askVir W.expandErrorsNext fun _ => []
  let op ← match r with
    | some (.ok op) => pure (some op)
    | _ => askVir W.functionOpgenNext fun _ => []
  match r with
  | some (.error diag) => do
      Traced.emit (.report diag)
      pure op
  | _ => pure op

/-- The crate of an op: none for a local one. -/
def Op.krate (op : Op) : Option Str := op.function.bind OpFunction.krate

def closeWrapper : Prog σ Unit := do
  let s ← Traced.get
  if s.wrapperKrate.isSome then tellAir W.sectionClose .sectionClose else pure ()

def openWrapper (krate : Option Str) : Prog σ Unit :=
  match krate with
  | some k => tellAir (W.openSection '>' k) (.openSection '>' k)
  | none => pure ()

/-- Rotate the wrapper when the crate changes. -/
def rotateWrapper (curKrate : Option Str) : Prog σ Unit := do
  let s ← Traced.get
  if s.wrapperKrate ≠ curKrate then do
    closeWrapper W
    openWrapper W curKrate
    Traced.modify fun s => { s with wrapperKrate := curKrate }
  else pure ()

/-- The marker of an op's section, given the crate of the wrapper it is in. -/
def opMarker (op : Op) (wrapperKrate : Option Str) : Char :=
  match op.kind with
  | .context _ => if wrapperKrate.isSome then '>' else 'v'
  | .query _ _ => 'v'

/-- An op in its section, which is closed however the op ends. -/
def inSection (fuel : ℕ) (op : Op) : Prog σ Unit := do
  let s ← Traced.get
  tellAir (W.openSection (opMarker op s.wrapperKrate) op.airComment)
    (.openSection (opMarker op s.wrapperKrate) op.airComment)
  let r ← Traced.attempt (handleOp W fuel op)
  tellAir W.sectionClose .sectionClose
  Traced.ofExcept r

/-- The body of the inner loop. -/
def stepOp (fuel : ℕ) (op : Op) : Prog σ Unit := do
  rotateWrapper W op.krate
  inSection W fuel op

/-- The inner loop, over the ops of one function generator. -/
def functionLoop (probeFuel : ℕ) : ℕ → Prog σ Unit
  | 0 => Traced.stop .outOfFuel
  | fuel + 1 => do
      let op ← nextOp W
      match op with
      | none => pure ()
      | some op => do
          stepOp W probeFuel op
          functionLoop probeFuel fuel

/-- The outer loop, over the function generators. -/
def opLoop (probeFuel opFuel : ℕ) : ℕ → Prog σ Unit
  | 0 => Traced.stop .outOfFuel
  | fuel + 1 => do
      let r ← askVir W.opgenNext fun _ => []
      let more ← orStop r
      if more then do
        functionLoop W probeFuel opFuel
        opLoop probeFuel opFuel fuel
      else pure ()

/-- How often the probe loop, the inner loop and the outer loop may go round. -/
structure Fuel where
  probes : ℕ
  ops : ℕ
  functions : ℕ

/-- The end of `run_queries`, whether or not an op stopped the loop. -/
def finishOps (result : Except Stop Unit) : Prog σ Unit := do
  closeWrapper W
  drainTo
  Traced.ofExcept result

/-- The part of `run_queries` after the prelude has been closed and drained. -/
def runOps (fuel : Fuel) (krateSst : KrateSst F) : Prog σ Unit := do
  askVir (fun s => ((), W.opgenNew krateSst s)) fun _ => []
  Traced.modify fun s => { s with wrapperKrate := none }
  let result ← Traced.attempt (opLoop W fuel.probes fuel.ops fuel.functions)
  finishOps W result

def runQueries (fuel : Fuel) (krateSst : KrateSst F) : Prog σ Unit := do
  feedModuleDecls W krateSst
  tellAir W.sectionClose .sectionClose
  drainTo
  runOps W fuel krateSst

/-- `LogBufs::attach`: fresh buffers. -/
def attach : Prog σ Unit :=
  Traced.modify fun s => { s with bufs := fun _ => [], written := fun _ => [] }

/-- `verify_module` from the point on where the AIR context exists. -/
def verifyModule (fuel : Fuel) (krateSst : KrateSst F) : Prog σ Unit := do
  attach
  tellAir (W.setZ3Param "air_recommended_options".toList "true".toList)
    (.setZ3Param "air_recommended_options".toList "true".toList)
  tellAir (W.setRlimit (60 * 3000000)) (.setRlimit (60 * 3000000))
  runQueries W fuel krateSst

/-- A module of the crate, with the crate it comes from if that is another one. -/
structure Module where
  krate : Option Str
  path : Str
  deriving DecidableEq, Repr

/-- The body of the loop over the modules.  `lowerModule` is what `verify_module` does before it
has an AIR context. -/
def verifyOrReport (lowerModule : Module → σ → Except VirErr (KrateSst F) × σ) (fuel : Fuel)
    (m : Module) : Prog σ Unit := do
  Traced.emit (.verifyModule m.path)
  let r ← Traced.attempt do
    let lowered ← askVir (lowerModule m) fun _ => []
    let krateSst ← orStop lowered
    verifyModule W fuel krateSst
  match r with
  | .error (.err e) => do
      Traced.emit (.reportAs e .error)
      Traced.stop (.err e)
  | r => Traced.ofExcept r

def verifySimplifiedKrate (lowerModule : Module → σ → Except VirErr (KrateSst F) × σ) (fuel : Fuel)
    (modules : List Module) : Prog σ Unit :=
  Traced.each (verifyOrReport W lowerModule fuel) (modules.filter fun m => m.krate.isNone)

/-! ## Runs of the parts -/

lemma handleOp_run (fuel : ℕ) (op : Op) (s : Session σ) :
    handleOp W fuel op s
      = ⟨(handleOpBody W fuel op s).result, (handleOpBody W fuel op s).state,
        .handleOp op :: (handleOpBody W fuel op s).calls⟩ := Traced.bind_ok rfl

/-- An op's section is closed however the op ends. -/
lemma inSection_run (fuel : ℕ) (op : Op) (s : Session σ) :
    let marker := opMarker op s.wrapperKrate
    let opened := (tellAir (W.openSection marker op.airComment)
      (.openSection marker op.airComment) : Prog σ Unit) s
    let body := handleOpBody W fuel op opened.state
    inSection W fuel op s
      = ⟨body.result, (tellAir W.sectionClose .sectionClose body.state).state,
        [.openSection marker op.airComment]
          ++ (.handleOp op :: body.calls ++ [.sectionClose])⟩ := by
  intro marker opened body
  rw [inSection]
  refine (Traced.bind_ok rfl).trans ?_
  rw [Traced.bind_ok rfl, Traced.bind_ok rfl, Traced.bind_ok rfl, Traced.ofExcept_calls]
  show Ran.mk (handleOp W fuel op opened.state).result _
    (opened.calls ++ ((handleOp W fuel op opened.state).calls ++ ([.sectionClose] ++ []))) = _
  rw [handleOp_run, List.append_nil]
  rfl

lemma closeWrapper_of_none {s : Session σ} (h : s.wrapperKrate = none) :
    closeWrapper W s = ⟨.ok (), s, []⟩ := by
  show (if s.wrapperKrate.isSome then _ else _ : Prog σ Unit) s = _
  rw [h]
  rfl

lemma closeWrapper_of_some {s : Session σ} {k : Str} (h : s.wrapperKrate = some k) :
    closeWrapper W s = tellAir W.sectionClose .sectionClose s := by
  show (if s.wrapperKrate.isSome then _ else _ : Prog σ Unit) s = _
  rw [h]
  rfl

lemma closeWrapper_result (s : Session σ) : (closeWrapper W s).result = .ok () := by
  cases h : s.wrapperKrate with
  | none => rw [closeWrapper_of_none W h]
  | some k =>
      rw [closeWrapper_of_some W h]
      rfl

/-- The end of `run_queries` is a drain of what closing the wrapper left. -/
lemma finishOps_run (result : Except Stop Unit) (s : Session σ) :
    finishOps W result s
      = ⟨result, (drainTo (closeWrapper W s).state).state, (closeWrapper W s).calls⟩ := by
  rw [finishOps, Traced.bind_ok (closeWrapper_result W s), Traced.bind_ok rfl,
    Traced.ofExcept_calls]
  exact congrArg (Ran.mk _ _) (List.append_nil _)

/-- The op loop runs on fresh generators and is always finished. -/
lemma runOps_run (fuel : Fuel) (krateSst : KrateSst F) (s : Session σ) :
    let loop := opLoop W fuel.probes fuel.ops fuel.functions
      { s with env := W.opgenNew krateSst s.env, wrapperKrate := none }
    runOps W fuel krateSst s
      = ⟨loop.result, (drainTo (closeWrapper W loop.state).state).state,
        loop.calls ++ (closeWrapper W loop.state).calls⟩ := by
  intro loop
  rw [runOps, Traced.bind_ok rfl, Traced.bind_ok rfl, Traced.bind_ok rfl, finishOps_run]
  rfl

/-! ## Relations that hold of every op -/

namespace Respects

variable {W} {p : Call → Prop} {R : Traced.Rel (Session σ) Call} (h : Respects p R)

include h

lemma feedModuleDecls (hp : ∀ cmd r, p (.command cmd r)) (krateSst : KrateSst F) :
    Traced.Keeps R (feedModuleDecls W krateSst) := by
  refine Traced.keeps_bind h.composes (h.feedAll hp _) ?_
  intro _
  refine Traced.keeps_bind h.composes (h.silent _) ?_
  intro batches
  refine Traced.keeps_bind h.composes
    (Traced.keeps_each h.composes batches fun cmds _ => h.feedAll hp cmds) ?_
  intro _
  refine Traced.keeps_each h.composes _ ?_
  intro f _
  exact Traced.keeps_bind h.composes (h.orStop _) fun cmds => h.feedAll hp cmds

lemma nextOp (hp : ∀ msg, p (.report msg)) : Traced.Keeps R (nextOp W) := by
  refine Traced.keeps_bind h.composes (h.silent _) ?_
  intro r
  rcases r with _ | ⟨diag | op⟩
  · exact Traced.keeps_bind h.composes (h.silent _) fun op => Traced.keeps_pure h.composes op
  · refine Traced.keeps_bind h.composes (h.silent _) ?_
    intro op
    exact Traced.keeps_bind h.composes (h.emit _ (hp diag)) fun _ => Traced.keeps_pure h.composes op
  · exact Traced.keeps_bind h.composes (Traced.keeps_pure h.composes _) fun op =>
      Traced.keeps_pure h.composes op

lemma closeWrapper (hp : p .sectionClose) : Traced.Keeps R (closeWrapper W) := by
  refine Traced.keeps_bind h.composes (Traced.keeps_get h.composes) ?_
  intro s
  split_ifs
  · exact h.tellAir _ hp
  · exact Traced.keeps_pure h.composes ()

lemma openWrapper (hp : ∀ marker label, p (.openSection marker label)) (krate : Option Str) :
    Traced.Keeps R (openWrapper W krate) := by
  cases krate with
  | none => exact Traced.keeps_pure h.composes ()
  | some k => exact h.tellAir _ (hp '>' k)

/-- The rotation of the wrapper; `hset` is about the variable. -/
lemma rotateWrapper (hopen : ∀ marker label, p (.openSection marker label))
    (hclose : p .sectionClose)
    (hset : ∀ krate : Option Str, Traced.Keeps R
      (Traced.modify fun s => { s with wrapperKrate := krate } : Prog σ Unit))
    (curKrate : Option Str) : Traced.Keeps R (rotateWrapper W curKrate) := by
  refine Traced.keeps_bind h.composes (Traced.keeps_get h.composes) ?_
  intro s
  split_ifs
  · refine Traced.keeps_bind h.composes (h.closeWrapper hclose) ?_
    intro _
    exact Traced.keeps_bind h.composes (h.openWrapper hopen curKrate) fun _ => hset curKrate
  · exact Traced.keeps_pure h.composes ()

end Respects

/-! ## Relations that hold of the loop -/

section Loop

variable {W} {R : Traced.Rel (Session σ) Call} {probeFuel : ℕ} (hc : Traced.Composes R)
  (hnext : Traced.Keeps R (nextOp W)) (hstep : ∀ op, Traced.Keeps R (stepOp W probeFuel op))

include hc hnext hstep

lemma keeps_functionLoop : ∀ fuel : ℕ, Traced.Keeps R (functionLoop W probeFuel fuel)
  | 0 => Traced.keeps_stop hc _
  | fuel + 1 => by
      rw [functionLoop]
      refine Traced.keeps_bind hc hnext ?_
      intro op
      cases op with
      | none => exact Traced.keeps_pure hc ()
      | some op => exact Traced.keeps_bind hc (hstep op) fun _ => keeps_functionLoop fuel

/-- What holds of fetching an op and of one round of the loop holds of the op loop. -/
lemma keeps_opLoop (hgen : Traced.Keeps R (askVir W.opgenNext fun _ => [])) (opFuel : ℕ) :
    ∀ fuel : ℕ, Traced.Keeps R (opLoop W probeFuel opFuel fuel)
  | 0 => Traced.keeps_stop hc _
  | fuel + 1 => by
      rw [opLoop]
      refine Traced.keeps_bind hc hgen ?_
      intro r
      refine Traced.keeps_bind hc (Traced.keeps_ofExcept hc _) ?_
      intro more
      split_ifs
      · exact Traced.keeps_bind hc (keeps_functionLoop hc hnext hstep opFuel) fun _ =>
          keeps_opLoop hgen opFuel fuel
      · exact Traced.keeps_pure hc ()

end Loop

end VerusExplorer
