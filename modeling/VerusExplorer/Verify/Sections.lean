import VerusExplorer.Lib.Runs
import VerusExplorer.Verify.Queries

/-!
# The sections around the ops

`run_queries` opens and closes sections on the AIR context around the ops it handles.

* `outline` is what a reader of a log sees of a run: the sections opened and closed, and the ops
  handled in them.
* `opOutline` is the section an op should be in, and `Runs.wrapRun` puts a wrapper around a run of
  ops of one external crate.
* **`runQueries_sections`** — once the declarations are fed, `run_queries` closes the prelude
  section and then makes exactly the section calls of the wrapped runs of the ops it handled,
  however the loop ends.
-/

namespace VerusExplorer

/-- A section that is opened or closed, or an op that is handled. -/
inductive Outline where
  | opn (marker : Char) (label : Str)
  | close
  | handled (op : Op)
  deriving DecidableEq, Repr

def Call.outline : Call → Option Outline
  | .openSection marker label => some (.opn marker label)
  | .sectionClose => some .close
  | .handleOp op => some (.handled op)
  | _ => none

def outline (calls : List Call) : List Outline := calls.filterMap Call.outline

/-- The ops of an outline. -/
def handledOps (os : List Outline) : List Op :=
  os.filterMap fun
    | .handled op => some op
    | _ => none

/-- The section of an op: folded from the start only for a context op of an external crate. -/
def opOutline (op : Op) : List Outline :=
  [.opn (opMarker op op.krate) op.airComment, .handled op, .close]

/-- What opens a wrapper. -/
def wrapperOutline (k : Str) : List Outline := [.opn '>' k]

/-- The depth reached from depth `d`, unless a close finds nothing open. -/
def depthFrom : ℕ → List Outline → Option ℕ
  | d, [] => some d
  | d, .opn _ _ :: os => depthFrom (d + 1) os
  | 0, .close :: _ => none
  | d + 1, .close :: os => depthFrom d os
  | d, .handled _ :: os => depthFrom d os

/-- The ops in runs of one crate, each external run in a wrapper. -/
def wrapped (ops : List Op) : List Outline :=
  (Runs.runs Op.krate ops).flatMap (Runs.wrapRun Op.krate wrapperOutline [.close] opOutline)

/-! ## Depth -/

lemma depthFrom_append (xs ys : List Outline) :
    ∀ d : ℕ, depthFrom d (xs ++ ys) = (depthFrom d xs).bind fun d => depthFrom d ys := by
  induction xs with
  | nil =>
      intro d
      rfl
  | cons x xs ih =>
      intro d
      cases x with
      | opn marker label => exact ih (d + 1)
      | handled op => exact ih d
      | close =>
          cases d with
          | zero => rfl
          | succ d => exact ih d

lemma depthFrom_flatMap {α : Type} {f : α → List Outline} {xs : List α}
    (h : ∀ x ∈ xs, ∀ d, depthFrom d (f x) = some d) (d : ℕ) :
    depthFrom d (xs.flatMap f) = some d := by
  induction xs with
  | nil => rfl
  | cons x xs ih =>
      have ih' := ih fun y hy => h y (List.mem_cons_of_mem x hy)
      rw [List.flatMap_cons, depthFrom_append, h x (by simp)]
      exact ih'

/-- A wrapped run closes all it opens, and nothing else. -/
lemma depthFrom_wrapRun (g : List Op) (d : ℕ) :
    depthFrom d (Runs.wrapRun Op.krate wrapperOutline [.close] opOutline g) = some d := by
  have hops : ∀ d, depthFrom d (g.flatMap opOutline) = some d :=
    depthFrom_flatMap fun op _ d => rfl
  rw [Runs.wrapRun]
  cases Runs.runKey Op.krate g with
  | none => simpa [Runs.opening, Runs.closing] using hops d
  | some k =>
      rw [depthFrom_append, depthFrom_append]
      have hopen : depthFrom d (Runs.opening wrapperOutline (some k)) = some (d + 1) := rfl
      rw [hopen, Option.bind_some, hops (d + 1)]
      rfl

lemma depthFrom_wrapped (ops : List Op) (d : ℕ) : depthFrom d (wrapped ops) = some d :=
  depthFrom_flatMap (fun g _ d => depthFrom_wrapRun g d) d

/-! ## The loop rotates the wrapper -/

variable {σ F : Type} (W : World σ F)

lemma outline_append (c d : List Call) : outline (c ++ d) = outline c ++ outline d :=
  List.filterMap_append

lemma handledOps_append (xs ys : List Outline) :
    handledOps (xs ++ ys) = handledOps xs ++ handledOps ys := List.filterMap_append

/-- Nothing is opened, closed or handled, and the wrapper stays. -/
def quiet : Traced.Rel (Session σ) Call := fun _ s t c =>
  outline c = [] ∧ t.wrapperKrate = s.wrapperKrate

/-- The outline of a stretch of the loop is the one of the ops handled in it, from the wrapper
open before it, and leaves the wrapper open that comes last. -/
def rotates : Traced.Rel (Session σ) Call := fun _ s t c =>
  Runs.rotations Op.krate wrapperOutline [.close] opOutline s.wrapperKrate (handledOps (outline c))
    = (outline c, t.wrapperKrate)

lemma composes_quiet : Traced.Composes (quiet (σ := σ)) where
  nil _ := ⟨rfl, rfl⟩
  append h₁ h₂ := ⟨by rw [outline_append, h₁.1, h₂.1, List.append_nil], h₂.2.trans h₁.2⟩
  stop h := h

lemma composes_rotates : Traced.Composes (rotates (σ := σ)) where
  nil _ := rfl
  append h₁ h₂ := by
    rw [rotates, outline_append, handledOps_append, Runs.rotations_append, h₁, h₂]
  stop h := h

lemma rotates_of_quiet {b : Bool} {s t : Session σ} {c : List Call} (h : quiet b s t c) :
    rotates b s t c := by
  rw [rotates, h.1, h.2]
  rfl

lemma outline_of_withinOp (c : Call) (h : c.withinOp = true) : c.outline = none := by
  cases c <;> first | rfl | exact absurd h (by simp [Call.withinOp])

lemma respects_quiet : Respects (fun c => c.outline = none) (quiet (σ := σ)) where
  composes := composes_quiet
  askAir _ _ h _ := ⟨List.filterMap_eq_nil_iff.mpr (h _), rfl⟩
  askVir _ _ h _ := ⟨List.filterMap_eq_nil_iff.mpr (h _), rfl⟩
  emit c h _ := by
    refine ⟨List.filterMap_eq_nil_iff.mpr ?_, rfl⟩
    intro x hx
    rw [List.mem_singleton.mp hx]
    exact h

lemma ensures_closeWrapper :
    Traced.Ensures
      (fun s r t c => r = .ok () ∧ outline c = Runs.closing [.close] s.wrapperKrate
        ∧ t.wrapperKrate = s.wrapperKrate)
      (closeWrapper W) := by
  intro s
  cases hw : s.wrapperKrate with
  | none =>
      rw [closeWrapper_of_none W hw]
      exact ⟨rfl, rfl, hw⟩
  | some k =>
      rw [closeWrapper_of_some W hw]
      exact ⟨rfl, rfl, hw⟩

lemma ensures_openWrapper (cur : Option Str) :
    Traced.Ensures (fun _ r _ c => r = .ok () ∧ outline c = Runs.opening wrapperOutline cur)
      (openWrapper W cur) := by
  intro s
  cases cur <;> exact ⟨rfl, rfl⟩

lemma ensures_rotateWrapper (cur : Option Str) :
    Traced.Ensures
      (fun s r t c => r = .ok ()
        ∧ outline c = Runs.rotate wrapperOutline [.close] s.wrapperKrate cur
        ∧ t.wrapperKrate = cur)
      (rotateWrapper W cur) := by
  intro s
  have hget : rotateWrapper W cur s
      = (if s.wrapperKrate ≠ cur then do
          closeWrapper W
          openWrapper W cur
          Traced.modify fun s => { s with wrapperKrate := cur }
        else pure () : Prog σ Unit) s := rfl
  by_cases hc : s.wrapperKrate = cur
  · rw [hget, if_neg (by simpa using hc), hc, Runs.rotate_self]
    exact ⟨rfl, rfl, hc⟩
  · rw [hget, if_pos hc, Runs.rotate, if_neg hc]
    obtain ⟨h1, h2, h3⟩ := ensures_closeWrapper W s
    obtain ⟨h4, h5⟩ := ensures_openWrapper W cur (closeWrapper W s).state
    rw [Traced.bind_ok h1, Traced.bind_ok h4]
    refine ⟨rfl, ?_, rfl⟩
    simp only [outline_append, h2, h5]
    show _ ++ (_ ++ []) = _
    rw [List.append_nil]

/-- An op in its section. -/
lemma ensures_inSection (fuel : ℕ) (op : Op) :
    Traced.Ensures
      (fun s _ t c => outline c
          = [.opn (opMarker op s.wrapperKrate) op.airComment, .handled op, .close]
        ∧ t.wrapperKrate = s.wrapperKrate)
      (inSection W fuel op) := by
  intro s
  let opened := (tellAir (W.openSection (opMarker op s.wrapperKrate) op.airComment)
    (.openSection (opMarker op s.wrapperKrate) op.airComment) : Prog σ Unit) s
  obtain ⟨h1, h2⟩ := respects_quiet.handleOpBody (W := W)
    outline_of_withinOp fuel op opened.state
  rw [inSection_run]
  refine ⟨?_, h2⟩
  rw [outline_append]
  show _ :: outline (_ :: (handleOpBody W fuel op opened.state).calls ++ [.sectionClose]) = _
  rw [outline_append]
  show _ :: (_ :: outline (handleOpBody W fuel op opened.state).calls) ++ [.close] = _
  rw [h1]
  rfl

lemma handledOps_rotate (cur new : Option Str) :
    handledOps (Runs.rotate wrapperOutline [.close] cur new) = [] := by
  rw [Runs.rotate]
  split_ifs
  · rfl
  · cases cur <;> cases new <;> rfl

/-- One op: the wrapper is rotated, and the op's section is closed however its handling ends. -/
lemma rotates_stepOp (fuel : ℕ) (op : Op) : Traced.Keeps rotates (stepOp W fuel op) := by
  intro s
  obtain ⟨h1, h2, h3⟩ := ensures_rotateWrapper W op.krate s
  obtain ⟨h4, h5⟩ := ensures_inSection W fuel op (rotateWrapper W op.krate s).state
  rw [h3] at h4 h5
  rw [stepOp, Traced.bind_ok h1]
  simp only [rotates, outline_append, handledOps_append, h2, h4, h5, handledOps_rotate]
  simp [handledOps, Runs.rotations, opOutline]

lemma rotates_opLoop (probeFuel opFuel fuel : ℕ) :
    Traced.Keeps rotates (opLoop W probeFuel opFuel fuel) := by
  refine keeps_opLoop composes_rotates ?_ (rotates_stepOp W probeFuel) ?_ opFuel fuel
  · intro s
    exact rotates_of_quiet (respects_quiet.nextOp (fun _ => rfl) s)
  · intro s
    exact rotates_of_quiet (respects_quiet.silent W.opgenNext s)

/-- What the op loop leaves behind, closing its last wrapper included. -/
lemma outline_runOps (fuel : Fuel) (krateSst : KrateSst F) (s : Session σ) :
    outline (runOps W fuel krateSst s).calls
      = wrapped (handledOps (outline (runOps W fuel krateSst s).calls)) := by
  let s₀ : Session σ := { s with env := W.opgenNew krateSst s.env, wrapperKrate := none }
  let loop := opLoop W fuel.probes fuel.ops fuel.functions s₀
  have hloop : Runs.rotations Op.krate wrapperOutline [.close] opOutline none
      (handledOps (outline loop.calls)) = (outline loop.calls, loop.state.wrapperKrate) :=
    rotates_opLoop W fuel.probes fuel.ops fuel.functions s₀
  obtain ⟨-, hclose, -⟩ := ensures_closeWrapper W loop.state
  have hnone : handledOps (Runs.closing [Outline.close] loop.state.wrapperKrate) = [] := by
    cases loop.state.wrapperKrate <;> rfl
  rw [runOps_run]
  simp only [outline_append, handledOps_append]
  show outline loop.calls ++ outline (closeWrapper W loop.state).calls
    = wrapped (handledOps (outline loop.calls)
      ++ handledOps (outline (closeWrapper W loop.state).calls))
  rw [hclose, hnone, List.append_nil, wrapped, ← Runs.wrapRuns_eq, Runs.wrapRuns, hloop]

lemma handledOps_runs (ops : List Op) :
    (∀ g ∈ Runs.runs Op.krate ops, g ≠ [] ∧ ∀ op ∈ g, op.krate = Runs.runKey Op.krate g)
      ∧ (Runs.runs Op.krate ops).IsChain
        (fun g h => Runs.runKey Op.krate g ≠ Runs.runKey Op.krate h) :=
  ⟨fun _ hg => ⟨Runs.ne_nil_of_mem_runs hg, Runs.key_eq_of_mem_runs hg⟩,
    Runs.isChain_runs Op.krate ops⟩

lemma opMarker_eq (op : Op) :
    opMarker op op.krate = '>' ↔ (∃ cmds, op.kind = .context cmds) ∧ op.krate.isSome = true := by
  cases hk : op.kind with
  | context cmds => cases op.krate <;> simp [opMarker, hk]
  | query list queryOp => simp [opMarker, hk]

/-- An error in the declarations leaves `run_queries` at once. -/
lemma outline_runQueries_error {fuel : Fuel} {krateSst : KrateSst F} {s : Session σ} {e : Stop}
    (hr : (feedModuleDecls W krateSst s).result = .error e) :
    outline (runQueries W fuel krateSst s).calls = [] := by
  rw [runQueries, Traced.bind_error hr]
  exact (respects_quiet.feedModuleDecls (W := W) (fun _ _ => rfl) krateSst s).1

/-- Once the declarations are fed, the prelude section is closed and the op loop runs. -/
lemma outline_runQueries_ok {fuel : Fuel} {krateSst : KrateSst F} {s : Session σ} {u : Unit}
    (hr : (feedModuleDecls W krateSst s).result = .ok u) :
    outline (runQueries W fuel krateSst s).calls
      = .close :: wrapped (handledOps (outline (runQueries W fuel krateSst s).calls)) := by
  obtain ⟨hdecls, -⟩ := respects_quiet.feedModuleDecls (W := W) (fun _ _ => rfl) krateSst s
  let closed := (tellAir W.sectionClose .sectionClose : Prog σ Unit)
    (feedModuleDecls W krateSst s).state
  have hops := outline_runOps W fuel krateSst (drainTo closed.state).state
  have hos : outline (runQueries W fuel krateSst s).calls
      = .close :: outline (runOps W fuel krateSst (drainTo closed.state).state).calls := by
    rw [runQueries, Traced.bind_ok hr, Traced.bind_ok rfl, Traced.bind_ok rfl]
    simp only [outline_append, hdecls]
    rfl
  have hhandled : handledOps (outline (runQueries W fuel krateSst s).calls)
      = handledOps (outline (runOps W fuel krateSst (drainTo closed.state).state).calls) := by
    rw [hos]
    rfl
  rw [hhandled, ← hops]
  exact hos

/-- **The section discipline of the op loop.**  When the declarations cannot be fed, no section
call is made.  Otherwise the prelude section is closed, and what follows is exactly the ops that
were handled, each in its section, in maximal runs of one crate, each external run in a wrapper
that carries the crate's name; this holds however the loop ends.  With the prelude section open
the depth never falls below zero and ends at zero. -/
theorem runQueries_sections (fuel : Fuel) (krateSst : KrateSst F) (s : Session σ) :
    let os := outline (runQueries W fuel krateSst s).calls
    ((feedModuleDecls W krateSst s).result.isOk = false → os = [])
      ∧ ((feedModuleDecls W krateSst s).result.isOk = true →
        os = .close :: wrapped (handledOps os) ∧ depthFrom 1 os = some 0)
      ∧ (∀ g ∈ Runs.runs Op.krate (handledOps os),
        g ≠ [] ∧ ∀ op ∈ g, op.krate = Runs.runKey Op.krate g)
      ∧ (Runs.runs Op.krate (handledOps os)).IsChain
        (fun g h => Runs.runKey Op.krate g ≠ Runs.runKey Op.krate h)
      ∧ ∀ op, opMarker op op.krate = '>'
        ↔ (∃ cmds, op.kind = .context cmds) ∧ op.krate.isSome = true := by
  intro os
  refine ⟨?_, ?_, (handledOps_runs _).1, (handledOps_runs _).2, opMarker_eq⟩
  · intro herr
    cases hr : (feedModuleDecls W krateSst s).result with
    | ok u =>
        rw [hr] at herr
        exact absurd herr (by simp [Except.isOk, Except.toBool])
    | error e => exact outline_runQueries_error W hr
  · intro hok
    cases hr : (feedModuleDecls W krateSst s).result with
    | error e =>
        rw [hr] at hok
        exact absurd hok (by simp [Except.isOk, Except.toBool])
    | ok u =>
        have hos : os = .close :: wrapped (handledOps os) := outline_runQueries_ok W hr
        refine ⟨hos, ?_⟩
        rw [hos]
        exact depthFrom_wrapped _ 0

end VerusExplorer
