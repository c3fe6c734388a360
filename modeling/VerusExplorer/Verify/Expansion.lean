import VerusExplorer.Verify.Invariants
import VerusExplorer.Verify.Termination

/-!
# The expansion of failed bodies

`handle_op` (`verus.rs`) collects the assertions that the default prover could not prove, so that
the expand-errors driver of the function generator can be armed with them.  Nothing arms it.

* `failedIds` reads the assertions off the trace; **`dispatch_failedIds`**: they are what
  `handle_op` collects.
* `Round`, `rounds` — the ops of a run with what was done for each; **`opSegments_runQueries`**:
  they are the ops of its trace.
* `Expansion` — what is assumed of the driver.
* **`ops_queued`** — no op comes from an expansion.
* **`expansion_armed_iff`** — every failed body is handed over exactly if there is none.
-/

namespace VerusExplorer

open Segments

/-! ## The assertions that failed -/

/-- The provers of the commands of a query op, in order. -/
def Op.provers (op : Op) : List ProverChoice :=
  match op.kind with
  | .context _ => []
  | .query commandsWithContextList _ =>
      commandsWithContextList.flatMap fun cmds => cmds.commands.map fun _ => cmds.proverChoice

/-- The assertion an answer of the default prover names. -/
def failedId (prover : ProverChoice) : ValidityResult → List AssertId
  | .invalid _ _ (some id) => if prover = .defaultProver then [id] else []
  | _ => []

/-- The assertions that the checks of the default prover and their probes name, in the order of the
trace.  The commands still to come have the provers `provers`, the last one had `current`. -/
def failedIds (current : ProverChoice) : List ProverChoice → List Call → List AssertId
  | _, [] => []
  | prover :: provers, .command (.checkValid _) r :: calls =>
      failedId prover r ++ failedIds prover provers calls
  | prover :: provers, .command _ _ :: calls => failedIds prover provers calls
  | provers, .checkValidAgain _ r :: calls => failedId current r ++ failedIds current provers calls
  | provers, _ :: calls => failedIds current provers calls

/-- The answer to a command or to a probe. -/
def Call.answered : Call → Bool
  | .command _ _ => true
  | .checkValidAgain _ _ => true
  | _ => false

/-- Only the answers matter. -/
lemma failedIds_filter : ∀ (current : ProverChoice) (provers : List ProverChoice)
    (calls : List Call),
    failedIds current provers (calls.filter Call.answered) = failedIds current provers calls
  | _, _, [] => rfl
  | current, provers, x :: calls => by
      cases x with
      | command cmd r =>
          rw [List.filter_cons_of_pos rfl]
          cases provers with
          | nil =>
              rw [failedIds, failedIds, failedIds_filter current [] calls] <;> simp
          | cons prover provers =>
              cases cmd with
              | checkValid query => rw [failedIds, failedIds, failedIds_filter prover provers calls]
              | _ =>
                  rw [failedIds, failedIds, failedIds_filter prover provers calls] <;> simp
      | checkValidAgain early r =>
          rw [List.filter_cons_of_pos rfl, failedIds, failedIds,
            failedIds_filter current provers calls]
      | _ =>
          rw [List.filter_cons_of_neg (by simp [Call.answered]), failedIds,
            failedIds_filter current provers calls] <;> simp

section Collected

variable {σ F : Type} (W : World σ F)

/-- Where `x` returns, it has added the assertions its calls name, and it has fed a command for each
of the provers. -/
def Gathers (provers : List ProverChoice) (found : Found) (x : Prog σ Found) : Prop :=
  ∀ s found', (x s).result = .ok found' → ∃ ids,
    found'.defaultProverFailedAssertIds = found.defaultProverFailedAssertIds ++ ids
      ∧ ∀ current rest more, ∃ last,
        failedIds current (provers ++ rest) ((x s).calls ++ more)
          = ids ++ failedIds last rest more

lemma gathers_pure (found : Found) : Gathers [] found (pure found : Prog σ Found) := by
  intro s found' h
  refine ⟨[], ?_, fun current rest more => ⟨current, rfl⟩⟩
  rw [← Except.ok.inj h, List.append_nil]

lemma gathers_fold {α : Type} {f : Found → α → Prog σ Found} (g : α → List ProverChoice)
    (hf : ∀ found a, Gathers (g a) found (f found a)) : ∀ (as : List α) (found : Found),
    Gathers (as.flatMap g) found (Traced.fold f found as)
  | [], found => gathers_pure found
  | a :: as, found => by
      intro s found' h
      have hrun : Traced.fold f found (a :: as) = f found a >>= fun b => Traced.fold f b as := rfl
      rw [hrun] at h ⊢
      obtain ⟨found₁, hr, hrest⟩ := Traced.exists_of_bind_ok h
      obtain ⟨ids, hids, hread⟩ := hf found a s found₁ hr
      obtain ⟨ids', hids', hread'⟩ := gathers_fold g hf as found₁ _ found' hrest
      rw [Traced.bind_ok hr]
      refine ⟨ids ++ ids', by rw [hids', hids, List.append_assoc], fun current rest more => ?_⟩
      obtain ⟨middle, hmiddle⟩ := hread current (as.flatMap g ++ rest)
        ((Traced.fold f found₁ as (f found a s).state).calls ++ more)
      obtain ⟨last, hlast⟩ := hread' middle rest more
      refine ⟨last, ?_⟩
      rw [List.flatMap_cons, List.append_assoc, List.append_assoc, hmiddle, hlast,
        List.append_assoc]

lemma failedIds_resultCalls (current : ProverChoice) (provers : List ProverChoice) (c : Check)
    (first : Bool) (r : ValidityResult) (more : List Call) :
    failedIds current provers (resultCalls c first r ++ more) = failedIds current provers more := by
  have hnone : (resultCalls c first r).filter Call.answered = [] :=
    List.filter_eq_nil_iff.mpr (forall_mem_resultCalls (fun _ _ => by simp [Call.answered])
      fun _ => by simp [Call.answered])
  rw [← failedIds_filter, List.filter_append, hnone, List.nil_append, failedIds_filter]

lemma add_failedAssertIds (c : Check) (found : Found) (r : ValidityResult) :
    (found.add c r).defaultProverFailedAssertIds
      = found.defaultProverFailedAssertIds ++ failedId c.proverChoice r := by
  cases r with
  | invalid model error id =>
      cases id with
      | none => exact (List.append_nil _).symm
      | some id =>
          rw [Found.add, failedId]
          dsimp only
          split_ifs
          · rfl
          · exact (List.append_nil _).symm
  | _ => exact (List.append_nil _).symm

/-- The probe loop adds the assertions its results name; the first result is not one of its
calls. -/
lemma probe_gathers (c : Check) : ∀ (fuel : ℕ) (b : Budget) (first : Bool) (found : Found)
    (r : ValidityResult) (s : Session σ) (found' : Found),
    (probe W c fuel b first found r s).result = .ok found' → ∃ ids,
      found'.defaultProverFailedAssertIds
          = found.defaultProverFailedAssertIds ++ failedId c.proverChoice r ++ ids
        ∧ ∀ rest more, failedIds c.proverChoice rest
            ((probe W c fuel b first found r s).calls ++ more)
          = ids ++ failedIds c.proverChoice rest more
  | fuel, b, first, found, r, s, found', h => by
      cases hr : r.canProbe with
      | false =>
          rw [probe_last W c b first found hr] at h ⊢
          refine ⟨[], ?_, fun rest more => failedIds_resultCalls _ rest c first r more⟩
          rw [← Except.ok.inj h, add_failedAssertIds, List.append_nil]
      | true =>
          cases fuel with
          | zero =>
              rw [probe_zero W c b first found hr] at h
              exact absurd h (by simp)
          | succ fuel =>
              rw [probe_succ W c b first found hr] at h ⊢
              obtain ⟨ids, hids, hread⟩ := probe_gathers c fuel _ _ _ _ _ found' h
              let next := (W.checkValidAgain b.spend.onlyCheckEarlier s.env).1
              refine ⟨failedId c.proverChoice next ++ ids, ?_, fun rest more => ?_⟩
              · rw [hids, add_failedAssertIds, List.append_assoc]
              · rw [List.append_assoc, failedIds_resultCalls, List.cons_append, failedIds, hread,
                  List.append_assoc]

lemma gathers_runCommand (fuel : ℕ) (c : Check) (found : Found) (cmd : Command) :
    Gathers [c.proverChoice] found (runCommand W fuel c found cmd) := by
  intro s found' h
  cases cmd with
  | checkValid query =>
      obtain ⟨hresult, hcalls⟩ := runCommand_checkValid W fuel c found query s
      rw [hresult] at h
      obtain ⟨ids, hids, hread⟩ := probe_gathers W c fuel _ _ _ _ _ found' h
      refine ⟨_, by rw [hids, List.append_assoc], fun current rest more =>
        ⟨c.proverChoice, ?_⟩⟩
      rw [hcalls, h]
      simp only [Except.isOk, Except.toBool, if_true, List.cons_append, List.append_assoc,
        List.nil_append, failedIds, hread]
  | push => exact ⟨[], by rw [← Except.ok.inj h, List.append_nil], fun _ _ _ => ⟨_, rfl⟩⟩
  | pop => exact ⟨[], by rw [← Except.ok.inj h, List.append_nil], fun _ _ _ => ⟨_, rfl⟩⟩
  | setOption key value =>
      exact ⟨[], by rw [← Except.ok.inj h, List.append_nil], fun _ _ _ => ⟨_, rfl⟩⟩
  | global decl => exact ⟨[], by rw [← Except.ok.inj h, List.append_nil], fun _ _ _ => ⟨_, rfl⟩⟩

lemma gathers_queries (fuel : ℕ) (op : Op) (queryOp : QueryOp) (list : List CommandsWithContext) :
    Gathers (list.flatMap fun cmds => cmds.commands.map fun _ => cmds.proverChoice) {}
      (Traced.fold (runCommands W fuel queryOp op.funcName op.funcSpan) {} list) := by
  refine gathers_fold _ (fun found cmds => ?_) list {}
  rw [List.map_eq_flatMap]
  exact gathers_fold (fun _ => [cmds.proverChoice])
    (gathers_runCommand W fuel ⟨cmds.hintUponFailure, cmds.proverChoice, queryOp, op.funcName,
      op.funcSpan⟩) cmds.commands found

/-- Commands that are not checked name no assertion. -/
lemma failedIds_commands (current : ProverChoice) : ∀ calls : List Call,
    (∀ x ∈ calls, ∃ cmd r, x = .command cmd r) → failedIds current [] calls = []
  | [], _ => rfl
  | x :: calls, h => by
      obtain ⟨cmd, r, rfl⟩ := h x List.mem_cons_self
      have hrest := failedIds_commands current calls fun y hy => h y (List.mem_cons_of_mem _ hy)
      rw [failedIds, hrest] <;> simp

/-- **What `handle_op` collects** of an op whose checks have ended is the assertions that the checks
of the default prover and their probes name, in order. -/
theorem dispatch_failedIds (fuel : ℕ) (op : Op) (s : Session σ) {kind : Option QueryOp}
    {found : Found} (h : (dispatch W fuel op s).result = .ok (kind, found)) :
    found.defaultProverFailedAssertIds
      = failedIds .defaultProver op.provers (dispatch W fuel op s).calls := by
  cases hk : op.kind with
  | context commands =>
      have hcommands := (respects_callsIn fun x => ∃ cmd r, x = Call.command cmd r).feedAll
        (W := W) (fun cmd r => ⟨cmd, r, rfl⟩) commands s
      rw [dispatch_context W fuel hk] at h ⊢
      obtain ⟨-, rfl⟩ := Prod.mk.inj (Except.ok.inj h)
      rw [Op.provers, hk]
      exact (failedIds_commands _ _ hcommands).symm
  | query list queryOp =>
      rw [dispatch_query W fuel hk] at h ⊢
      cases hr : (Traced.fold (runCommands W fuel queryOp op.funcName op.funcSpan) {} list
          s).result with
      | error e =>
          rw [hr] at h
          exact absurd h (by simp [Except.map])
      | ok found' =>
          rw [hr] at h
          obtain ⟨ids, hids, hread⟩ := gathers_queries W fuel op queryOp list s found' hr
          obtain ⟨last, hlast⟩ := hread .defaultProver [] []
          rw [List.append_nil, List.append_nil, failedIds, List.append_nil] at hlast
          obtain ⟨-, rfl⟩ := Prod.mk.inj (Except.ok.inj h)
          rw [hids, Op.provers, hk]
          exact hlast.symm

end Collected

/-! ## The rounds of a run -/

/-- An op that has been fetched, and what was done for it before the next one is asked for. -/
structure Round (σ : Type) where
  op : Op
  ran : Ran (Session σ) Call Stop Unit

/-- The assertions that the default prover could not prove in a round, in the order in which they
were found. -/
def Round.failedIds {σ : Type} (r : Round σ) : List AssertId :=
  VerusExplorer.failedIds .defaultProver r.op.provers r.ran.calls

/-- The round of a body that has been handled. -/
def Round.IsBody {σ : Type} (r : Round σ) : Prop :=
  r.op.queryOp = some (.body .normal) ∧ r.ran.result = .ok ()

section Rounds

variable {σ F : Type} (W : World σ F)

/-- The rounds of the inner loop. -/
def functionRounds (probeFuel : ℕ) : ℕ → Session σ → List (Round σ)
  | 0, _ => []
  | fuel + 1, s =>
      match (nextOp W s).result with
      | .ok (some op) =>
          let ran := stepOp W probeFuel op (nextOp W s).state
          match ran.result with
          | .ok _ => ⟨op, ran⟩ :: functionRounds probeFuel fuel ran.state
          | .error _ => [⟨op, ran⟩]
      | _ => []

/-- The rounds of the outer loop. -/
def opRounds (probeFuel opFuel : ℕ) : ℕ → Session σ → List (Round σ)
  | 0, _ => []
  | fuel + 1, s =>
      let s' : Session σ := { s with env := (W.opgenNext s.env).2 }
      match (W.opgenNext s.env).1 with
      | .ok true =>
          let ran := functionLoop W probeFuel opFuel s'
          let rest := match ran.result with
            | .ok _ => opRounds probeFuel opFuel fuel ran.state
            | .error _ => []
          functionRounds W probeFuel opFuel s' ++ rest
      | _ => []

lemma opRounds_last {s : Session σ} (hlast : (W.opgenNext s.env).1 ≠ .ok true)
    (probeFuel opFuel fuel : ℕ) : opRounds W probeFuel opFuel (fuel + 1) s = [] := by
  rw [opRounds]
  rcases hnext : (W.opgenNext s.env).1 with e | more
  · rfl
  · cases more with
    | true => exact absurd hnext hlast
    | false => rfl

/-- The session in which the op loop of `run_queries` starts. -/
def loopStart (krateSst : KrateSst F) (fed : Session σ) : Session σ :=
  let drained := (drainTo (tellAir W.sectionClose .sectionClose fed).state).state
  { drained with env := W.opgenNew krateSst drained.env, wrapperKrate := none }

/-- The rounds of `run_queries`. -/
def rounds (fuel : Fuel) (krateSst : KrateSst F) (s : Session σ) : List (Round σ) :=
  match (feedModuleDecls W krateSst s).result with
  | .ok _ =>
      opRounds W fuel.probes fuel.ops fuel.functions
        (loopStart W krateSst (feedModuleDecls W krateSst s).state)
  | .error _ => []

/-! ### The rounds are the ops of the trace -/

/-- The calls of a stretch in which no op is left open, with these ops. -/
def HasOps (ops : List (Op × List Call)) (calls : List Call) : Prop :=
  Closed Call.startsOp Call.endsOp calls ∧ opSegments calls = ops

lemma hasOps_of_outside {calls : List Call} (h : ∀ x ∈ calls, x.outside) : HasOps [] calls :=
  ⟨closed_of_no_start fun x hx => (h x hx).1, segments_of_no_start fun x hx => (h x hx).1⟩

lemma HasOps.append {xs ys : List (Op × List Call)} {c d : List Call} (hc : HasOps xs c)
    (hd : HasOps ys d) : HasOps (xs ++ ys) (c ++ d) := by
  refine ⟨hc.1.append hd.1, ?_⟩
  rw [opSegments, segments_append _ hc.1, ← opSegments, ← opSegments, hc.2, hd.2]

lemma hasOps_nextOp (s : Session σ) : HasOps [] (nextOp W s).calls :=
  hasOps_of_outside (respects_outside.nextOp (fun _ => ⟨rfl, rfl⟩) s)

lemma hasOps_stepOp (fuel : ℕ) (op : Op) (s : Session σ) :
    HasOps (opSegments (stepOp W fuel op s).calls) (stepOp W fuel op s).calls := by
  refine ⟨?_, rfl⟩
  have hrotate : HasOps [] (rotateWrapper W op.krate s).calls :=
    hasOps_of_outside (respects_outside.rotateWrapper (fun _ _ => ⟨rfl, rfl⟩) ⟨rfl, rfl⟩
      (fun _ => outside_modify _) op.krate s)
  obtain ⟨opened, hcalls, -, hclosed⟩ := segments_inSection W fuel op
    (rotateWrapper W op.krate s).state
  rw [stepOp, Traced.bind_ok (rotateWrapper_result op.krate s)]
  refine hrotate.1.append ?_
  rw [hcalls]
  refine Closed.append (closed_of_no_start fun x hx => ?_) hclosed
  rw [List.mem_singleton.mp hx]
  rfl

/-- The ops of a list of rounds. -/
def opsOf (rs : List (Round σ)) : List (Op × List Call) :=
  rs.flatMap fun r => opSegments r.ran.calls

lemma hasOps_functionLoop (probeFuel : ℕ) : ∀ (fuel : ℕ) (s : Session σ),
    HasOps (opsOf (functionRounds W probeFuel fuel s)) (functionLoop W probeFuel fuel s).calls
  | 0, s => hasOps_of_outside fun _ hx => absurd hx List.not_mem_nil
  | fuel + 1, s => by
      have hnext := hasOps_nextOp W s
      rw [functionLoop, functionRounds]
      cases hop : (nextOp W s).result with
      | error e =>
          rw [Traced.bind_error hop]
          exact hnext
      | ok op =>
          rw [Traced.bind_ok hop]
          cases op with
          | none => exact hnext.append (hasOps_of_outside fun _ hx => absurd hx List.not_mem_nil)
          | some op =>
              have hstep := hasOps_stepOp W probeFuel op (nextOp W s).state
              dsimp only
              cases hran : (stepOp W probeFuel op (nextOp W s).state).result with
              | error e =>
                  rw [Traced.bind_error hran, opsOf, List.flatMap_singleton]
                  exact hnext.append hstep
              | ok _ =>
                  rw [Traced.bind_ok hran, opsOf, List.flatMap_cons]
                  exact hnext.append (hstep.append (hasOps_functionLoop probeFuel fuel _))

lemma hasOps_opLoop (probeFuel opFuel : ℕ) : ∀ (fuel : ℕ) (s : Session σ),
    HasOps (opsOf (opRounds W probeFuel opFuel fuel s)) (opLoop W probeFuel opFuel fuel s).calls
  | 0, s => hasOps_of_outside fun _ hx => absurd hx List.not_mem_nil
  | fuel + 1, s => by
      by_cases hmore : (W.opgenNext s.env).1 = .ok true
      · have hfunction := hasOps_functionLoop W probeFuel opFuel
          { s with env := (W.opgenNext s.env).2 }
        rw [opLoop_more W hmore, opRounds, hmore, opsOf, List.flatMap_append]
        cases hran : (functionLoop W probeFuel opFuel
            { s with env := (W.opgenNext s.env).2 }).result with
        | error e =>
            rw [Traced.bind_error hran, List.flatMap_nil, List.append_nil]
            exact hfunction
        | ok _ =>
            rw [Traced.bind_ok hran]
            exact hfunction.append (hasOps_opLoop probeFuel opFuel fuel _)
      · rw [opLoop_last W hmore, opRounds_last W hmore]
        exact hasOps_of_outside fun _ hx => absurd hx List.not_mem_nil

/-- **The rounds are the ops of the trace.** -/
theorem opSegments_runQueries (fuel : Fuel) (krateSst : KrateSst F) (s : Session σ) :
    opSegments (runQueries W fuel krateSst s).calls = opsOf (rounds W fuel krateSst s) := by
  have hfed : HasOps [] (feedModuleDecls W krateSst s).calls :=
    hasOps_of_outside (respects_outside.feedModuleDecls (fun _ _ => ⟨rfl, rfl⟩) krateSst s)
  rw [rounds]
  cases hr : (feedModuleDecls W krateSst s).result with
  | error e =>
      rw [runQueries, Traced.bind_error hr]
      exact hfed.2
  | ok _ =>
      let start := loopStart W krateSst (feedModuleDecls W krateSst s).state
      have hloop := hasOps_opLoop W fuel.probes fuel.ops fuel.functions start
      have hclosed : HasOps [] [Call.sectionClose] := hasOps_of_outside fun x hx => by
        rw [List.mem_singleton.mp hx]
        exact ⟨rfl, rfl⟩
      have hend : HasOps [] (closeWrapper W (opLoop W fuel.probes fuel.ops fuel.functions
          start).state).calls :=
        hasOps_of_outside (respects_outside.closeWrapper ⟨rfl, rfl⟩ _)
      rw [runQueries, Traced.bind_ok hr, Traced.bind_ok rfl, Traced.bind_ok rfl, runOps_run]
      have hall := hfed.append (hclosed.append (hloop.append hend))
      rw [List.append_nil, List.nil_append, List.nil_append] at hall
      exact hall.2

/-! ### What is collected in a round -/

/-- The answers in a round are the answers to the checks of its op. -/
lemma filter_stepOp (fuel : ℕ) (op : Op) (s : Session σ) :
    ∃ t, (stepOp W fuel op s).calls.filter Call.answered
        = (dispatch W fuel op t).calls.filter Call.answered
      ∧ ((stepOp W fuel op s).result = .ok () → ∃ r, (dispatch W fuel op t).result = .ok r) := by
  have hquiet := respects_callsIn (σ := σ) fun x => x.answered = false
  have hnone : ∀ {calls : List Call}, (∀ x ∈ calls, x.answered = false) →
      calls.filter Call.answered = [] :=
    fun h => List.filter_eq_nil_iff.mpr fun x hx => by simp [h x hx]
  have hrotate : (rotateWrapper W op.krate s).calls.filter Call.answered = [] :=
    hnone (hquiet.rotateWrapper (fun _ _ => rfl) rfl
      (fun _ _ _ hx => absurd hx List.not_mem_nil) op.krate s)
  rw [stepOp, Traced.bind_ok (rotateWrapper_result op.krate s), inSection_run]
  set rotated := rotateWrapper W op.krate s
  set opened := (tellAir (W.openSection (opMarker op rotated.state.wrapperKrate) op.airComment)
    (.openSection (opMarker op rotated.state.wrapperKrate) op.airComment) rotated.state).state
  refine ⟨opened, ?_, fun hok => ?_⟩
  · have hbody : (handleOpBody W fuel op opened).calls.filter Call.answered
        = (dispatch W fuel op opened).calls.filter Call.answered := by
      cases hr : (dispatch W fuel op opened).result with
      | error e => rw [handleOpBody, Traced.bind_error hr]
      | ok r =>
          have hafter := Traced.keeps_bind hquiet.composes
            (hquiet.autoRecommends (W := W) (fun _ _ => rfl) op r.1 r.2)
            fun _ => hquiet.reportExpanded (W := W) (fun _ => rfl) r.1 r.2
          rw [handleOpBody, Traced.bind_ok hr, List.filter_append, hnone (hafter _),
            List.append_nil]
    simp only [List.filter_append, hrotate, hbody, List.nil_append, List.filter_cons,
      List.filter_nil, Call.answered, Bool.false_eq_true, if_false, List.append_nil]
  · exact ⟨_, (Traced.exists_of_bind_ok hok).choose_spec.1⟩

/-- **What `handle_op` collects in a round** is the assertions that failed in it. -/
theorem stepOp_collects (fuel : ℕ) (op : Op) (s : Session σ)
    (h : (stepOp W fuel op s).result = .ok ()) :
    ∃ t kind found, (dispatch W fuel op t).result = .ok (kind, found)
      ∧ found.defaultProverFailedAssertIds = Round.failedIds ⟨op, stepOp W fuel op s⟩ := by
  obtain ⟨t, hfilter, hresult⟩ := filter_stepOp W fuel op s
  obtain ⟨⟨kind, found⟩, hfound⟩ := hresult h
  refine ⟨t, kind, found, hfound, ?_⟩
  rw [Round.failedIds, dispatch_failedIds W fuel op t hfound, ← failedIds_filter, ← hfilter,
    failedIds_filter]

/-! ### What holds in every round -/

variable {W} {I : σ → Prop} {Q : Round σ → Prop} {probeFuel : ℕ} (hI : Kept W I)
  (hQ : ∀ s op, I s.env → (nextOp W s).result = .ok (some op) →
    Q ⟨op, stepOp W probeFuel op (nextOp W s).state⟩)

include hI hQ

lemma forall_functionRounds : ∀ (fuel : ℕ) (s : Session σ), I s.env →
    ∀ r ∈ functionRounds W probeFuel fuel s, Q r
  | 0, _, _ => fun _ hr => absurd hr List.not_mem_nil
  | fuel + 1, s, hs => by
      intro r hr
      rw [functionRounds] at hr
      split at hr
      · rename_i op hop
        have hround := hQ s op hs hop
        have hnext : I (stepOp W probeFuel op (nextOp W s).state).state.env :=
          hI.stepOp probeFuel op _ (hI.nextOp s hs)
        dsimp only at hr
        split at hr
        · rcases List.mem_cons.mp hr with rfl | hr
          · exact hround
          · exact forall_functionRounds fuel _ hnext r hr
        · rw [List.mem_singleton.mp hr]
          exact hround
      · exact absurd hr List.not_mem_nil

lemma forall_opRounds (opFuel : ℕ) : ∀ (fuel : ℕ) (s : Session σ), I s.env →
    ∀ r ∈ opRounds W probeFuel opFuel fuel s, Q r
  | 0, _, _ => fun _ hr => absurd hr List.not_mem_nil
  | fuel + 1, s, hs => by
      intro r hr
      have henv : I (W.opgenNext s.env).2 := hI.opgenNext s.env hs
      by_cases hmore : (W.opgenNext s.env).1 = .ok true
      · rw [opRounds, hmore] at hr
        dsimp only at hr
        rcases List.mem_append.mp hr with hr | hr
        · exact forall_functionRounds hI hQ opFuel _ henv r hr
        · have hloop : Traced.Keeps (upholds I) (functionLoop W probeFuel opFuel) :=
            keeps_functionLoop composes_upholds hI.nextOp (hI.stepOp probeFuel) opFuel
          split at hr
          · exact forall_opRounds opFuel fuel _ (hloop _ henv) r hr
          · exact absurd hr List.not_mem_nil
      · rw [opRounds_last W hmore] at hr
        exact absurd hr List.not_mem_nil

/-- What holds of a round that starts with `I` holds of every round of a run, if fresh generators
satisfy `I` and every question keeps it. -/
lemma forall_rounds (hstart : ∀ krateSst s, I (W.opgenNew krateSst s)) (opFuel functionFuel : ℕ)
    (krateSst : KrateSst F) (s : Session σ) :
    ∀ r ∈ rounds W ⟨probeFuel, opFuel, functionFuel⟩ krateSst s, Q r := by
  intro r hr
  rw [rounds] at hr
  split at hr
  · exact forall_opRounds hI hQ opFuel functionFuel _ (hstart krateSst _) r hr
  · exact absurd hr List.not_mem_nil

end Rounds

/-! ## The driver -/

/-- What is assumed of the expand-errors driver.  `armed` is the assertions the driver of the
current function generator has been armed with and has not dealt with;
`start_expand_errors_if_possible` arms it, and nothing else does.  A driver that is not armed yields
nothing, and neither is a fresh one. -/
structure Expansion {σ F : Type} (W : World σ F) where
  armed : σ → List AssertId
  startExpandErrorsIfPossible : List AssertId → σ → σ
  armed_start : ∀ ids s, armed (startExpandErrorsIfPossible ids s) = ids
  unarmed : Kept W fun s => armed s = []
  opgenNew : ∀ krateSst s, armed (W.opgenNew krateSst s) = []
  expandErrorsNext : ∀ s, armed s = [] → (W.expandErrorsNext s).1 = none

section Driver

variable {σ F : Type} {W : World σ F} (E : Expansion W)

include E in
/-- **No op of a run comes from an expansion.** -/
theorem ops_queued (fuel : Fuel) (krateSst : KrateSst F) (s : Session σ) :
    ∀ r ∈ rounds W fuel krateSst s, ∃ env, (W.functionOpgenNext env).1 = some r.op := by
  refine forall_rounds E.unarmed (fun s op harmed hop => ?_) E.opgenNew _ _ krateSst s
  have hrun := nextOp_run (W := W) s
  have hidle := E.expandErrorsNext s.env harmed
  simp only [hidle] at hrun
  rw [hrun] at hop
  exact ⟨_, Except.ok.inj hop⟩

lemma armed_rounds (fuel : Fuel) (krateSst : KrateSst F) (s : Session σ) :
    ∀ r ∈ rounds W fuel krateSst s, E.armed r.ran.state.env = [] := by
  refine forall_rounds E.unarmed (fun s op harmed _ => ?_) E.opgenNew _ _ krateSst s
  exact E.unarmed.stepOp fuel.probes op _ (E.unarmed.nextOp s harmed)

/-- **Failed bodies are handed to the expansion exactly if there are none**: in a run, after each
body that is handled and in which the default prover could not prove some assertions, the driver is
armed with these if and only if no such body is handled. -/
theorem expansion_armed_iff (fuel : Fuel) (krateSst : KrateSst F) (s : Session σ) :
    (∀ r ∈ rounds W fuel krateSst s, r.IsBody → r.failedIds ≠ [] →
        E.armed r.ran.state.env = r.failedIds)
      ↔ ∀ r ∈ rounds W fuel krateSst s, r.IsBody → r.failedIds = [] := by
  constructor
  · intro h r hr hbody
    by_contra hfailed
    exact hfailed ((h r hr hbody hfailed).symm.trans (armed_rounds E fuel krateSst s r hr))
  · intro h r hr hbody hfailed
    exact absurd (h r hr hbody) hfailed

end Driver

/-- A function generator with an expand-errors driver. -/
structure Generator where
  left : ℕ
  queue : List Op
  armed : List AssertId

/-- Generators over a solver that answers each check with `answer`: there is one, with one op, and
its driver has a sub-query for each assertion it is armed with. -/
def expanding (answer : ValidityResult) : World Generator Unit where
  setZ3Param _ _ s := (fun _ => [], s)
  setRlimit _ s := (fun _ => [], s)
  command _ s := (answer, fun _ => [], s)
  checkValidAgain _ s := (.valid, fun _ => [], s)
  finishQuery s := (fun _ => [], s)
  openSection _ _ s := (fun _ => [], s)
  sectionClose s := (fun _ => [], s)
  prelude := []
  buildBucketPreamble _ s := ([], s)
  funcNameToAir _ := .ok []
  opgenNew _ _ := ⟨1, [], []⟩
  opgenNext s := match s.left with
    | 0 => (.ok false, s)
    | n + 1 => (.ok true, ⟨n, [checkOp .normal], []⟩)
  expandErrorsNext s := match s.armed with
    | [] => (none, s)
    | _ :: ids => (some (.ok (checkOp .expanded)), { s with armed := ids })
  functionOpgenNext s := match s.queue with
    | [] => (none, s)
    | op :: queue => (some op, { s with queue })
  retryWithRecommends _ _ s := (.ok (), s)
  reportExpandErrorResult _ s := s

def expandingDriver (answer : ValidityResult) : Expansion (expanding answer) where
  armed := Generator.armed
  startExpandErrorsIfPossible ids s := { s with armed := ids }
  armed_start _ _ := rfl
  unarmed :=
    { command := fun _ _ h => h
      checkValidAgain := fun _ _ h => h
      finishQuery := fun _ h => h
      openSection := fun _ _ _ h => h
      sectionClose := fun _ h => h
      opgenNext := fun s h => by
        simp only [expanding]
        split
        · exact h
        · rfl
      expandErrorsNext := fun s h => by
        simp only [expanding]
        rw [h]
        exact h
      functionOpgenNext := fun s h => by
        simp only [expanding]
        split <;> exact h
      retryWithRecommends := fun _ _ h => h
      reportExpandErrorResult := fun _ _ h => h }
  opgenNew _ _ := rfl
  expandErrorsNext s h := by
    simp only [expanding]
    rw [h]

/-- A session before a run. -/
def idleSession : Session Generator := ⟨⟨0, [], []⟩, fun _ => [], fun _ => [], fun _ => [], none⟩

/-- With a body that is proved there is nothing to hand over. -/
theorem expansion_armed_proved :
    ∀ r ∈ rounds (expanding .valid) ⟨8, 2, 2⟩ ⟨[]⟩ idleSession, r.IsBody → r.failedIds ≠ [] →
      r.ran.state.env.armed = r.failedIds := by
  refine (expansion_armed_iff (expandingDriver .valid) ⟨8, 2, 2⟩ ⟨[]⟩ idleSession).mpr ?_
  intro r hr _
  rw [List.mem_singleton.mp hr]
  rfl

/-- A body whose assertion 7 fails: the driver is not armed, and the run ends without a sub-query.
-/
theorem expansion_not_armed :
    let failing := expanding (.invalid true (some "assertion failed".toList) (some [7]))
    ∃ r, rounds failing ⟨8, 2, 2⟩ ⟨[]⟩ idleSession = [r]
      ∧ r.IsBody ∧ r.failedIds = [[7]] ∧ r.ran.state.env.armed = [] := by
  exact ⟨_, rfl, ⟨rfl, rfl⟩, rfl, rfl⟩

end VerusExplorer
