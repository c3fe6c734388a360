import VerusExplorer.Verify.Probes
import VerusExplorer.Verify.Verdicts

/-!
# Recommends retries

After a failed body or spec-termination query `handle_op` (`verus.rs`) has the op retried for
failed recommends.

* `Call.failed`, `Call.retried` — an answer that is not valid, and a retry.
* `Finds` — what the checks of a program add to what has been found.
* `Retried` — the calls of an op have the retry they should.
* **`retried_runQueries`** — so it is for every op of a run.
-/

namespace VerusExplorer

open Segments

/-! ## Reading the trace -/

/-- The answer to a check or to a probe is not that the query is valid. -/
def Call.failed : Call → Bool
  | .command (.checkValid _) r => !r.isValid
  | .checkValidAgain _ r => !r.isValid
  | _ => false

/-- The op retried, and whether that is because of an error. -/
def Call.retried : Call → Option (Op × Bool)
  | .retryWithRecommends op fromError => some (op, fromError)
  | _ => none

/-- The ops handled. -/
def handled (calls : List Call) : List Op := calls.filterMap Call.startsOp

/-- The kind of a query op. -/
def Op.queryOp (op : Op) : Option QueryOp :=
  match op.kind with
  | .context _ => none
  | .query _ queryOp => some queryOp

/-- The ops that are retried if they fail. -/
def Op.retriable (op : Op) : Bool := retriesOnFailure op.queryOp

/-! ## What the checks of an op found -/

section Found

variable {σ F : Type} (W : World σ F)

/-- Where `x` returns, it has seen a failure exactly if there had been one or one of its calls is
one. -/
def Finds (found : Found) (x : Prog σ Found) : Prop :=
  ∀ s found', (x s).result = .ok found' →
    found'.anyInvalid = (found.anyInvalid || (x s).calls.any Call.failed)

lemma finds_pure (found : Found) : Finds found (pure found : Prog σ Found) := by
  intro s found' h
  rw [← Except.ok.inj h]
  exact (Bool.or_false _).symm

lemma finds_fold {α : Type} {f : Found → α → Prog σ Found}
    (hf : ∀ found a, Finds found (f found a)) : ∀ (as : List α) (found : Found),
    Finds found (Traced.fold f found as)
  | [], found => finds_pure found
  | a :: as, found => by
      intro s found' h
      have hrun : Traced.fold f found (a :: as) = f found a >>= fun b => Traced.fold f b as := rfl
      rw [hrun] at h ⊢
      obtain ⟨found₁, hr, hrest⟩ := Traced.exists_of_bind_ok h
      rw [Traced.bind_ok hr]
      rw [finds_fold hf as found₁ _ found' hrest, hf found a s found₁ hr, List.any_append,
        Bool.or_assoc]

lemma failed_resultCalls (c : Check) (isFirstCheck : Bool) (r : ValidityResult) :
    (resultCalls c isFirstCheck r).any Call.failed = false := by
  rw [List.any_eq_false]
  exact forall_mem_resultCalls (fun _ _ => by simp [Call.failed]) fun _ => by simp [Call.failed]

/-- The probe loop adds up the failures it sees; the first result is not one of its calls. -/
lemma probe_finds (c : Check) : ∀ (fuel : ℕ) (b : Budget) (first : Bool) (found : Found)
    (r : ValidityResult) (s : Session σ) (found' : Found),
    (probe W c fuel b first found r s).result = .ok found' →
      found'.anyInvalid = (found.anyInvalid || (!r.isValid
        || (probe W c fuel b first found r s).calls.any Call.failed))
  | 0, b, first, found, r, s, found', h => by
      cases hr : r.canProbe with
      | false =>
          rw [probe_last W c b first found hr] at h ⊢
          rw [← Except.ok.inj h, failed_resultCalls, Bool.or_false]
          rfl
      | true =>
          rw [probe_zero W c b first found hr] at h
          exact absurd h (by simp)
  | fuel + 1, b, first, found, r, s, found', h => by
      cases hr : r.canProbe with
      | false =>
          rw [probe_last W c b first found hr] at h ⊢
          rw [← Except.ok.inj h, failed_resultCalls, Bool.or_false]
          rfl
      | true =>
          rw [probe_succ W c b first found hr] at h ⊢
          rw [probe_finds c fuel _ _ _ _ _ found' h, List.any_append, failed_resultCalls]
          simp only [Found.add, Bool.false_or, List.any_cons, Call.failed, Bool.or_assoc]

lemma finds_runCommand (fuel : ℕ) (c : Check) (found : Found) (cmd : Command) :
    Finds found (runCommand W fuel c found cmd) := by
  intro s found' h
  cases cmd with
  | checkValid query =>
      obtain ⟨hresult, hcalls⟩ := runCommand_checkValid W fuel c found query s
      have hfinish : ∀ b : Bool,
          (if b then [Call.finishQuery] else []).any Call.failed = false := by
        intro b
        cases b <;> rfl
      rw [hresult] at h
      rw [probe_finds W c fuel _ _ _ _ _ found' h, hcalls, List.cons_append, List.any_cons,
        List.any_append, hfinish, Bool.or_false]
      rfl
  | push =>
      rw [← Except.ok.inj h]
      exact (Bool.or_false _).symm
  | pop =>
      rw [← Except.ok.inj h]
      exact (Bool.or_false _).symm
  | setOption key value =>
      rw [← Except.ok.inj h]
      exact (Bool.or_false _).symm
  | global decl =>
      rw [← Except.ok.inj h]
      exact (Bool.or_false _).symm

lemma finds_queries (fuel : ℕ) (op : Op) (queryOp : QueryOp) (list : List CommandsWithContext) :
    Finds {} (Traced.fold (runCommands W fuel queryOp op.funcName op.funcSpan) {} list) := by
  refine finds_fold ?_ list {}
  intro found cmds
  exact finds_fold (finds_runCommand W fuel _) cmds.commands found

end Found

/-! ## An op -/

/-- The calls of an op: it is retried once if all its checks are finished and one of them failed, if
it is of a kind that is retried, and otherwise it is not. -/
def Retried (op : Op) (calls : List Call) : Prop :=
  let due := AllFinished calls ∧ op.retriable = true ∧ ∃ x ∈ calls, x.failed = true
  (due → calls.filterMap Call.retried = [(op, true)])
    ∧ (¬due → calls.filterMap Call.retried = [])

section Op

variable {σ F : Type} (W : World σ F)

/-- No call of the checks of an op is a retry. -/
lemma retried_dispatch (fuel : ℕ) (op : Op) (s : Session σ) :
    (dispatch W fuel op s).calls.filterMap Call.retried = [] := by
  refine List.filterMap_eq_nil_iff.mpr ?_
  refine (respects_callsIn fun c => c.retried = none).dispatch ?_ fuel op s
  intro c hc
  cases c with
  | retryWithRecommends op fromError => exact absurd hc (by simp [Call.inChecks])
  | _ => rfl

/-- What is told to the expansion is no retry and no failure. -/
def Call.aside (c : Call) : Prop := c.plain ∧ c.retried = none ∧ c.failed = false

lemma aside_reportExpanded (retryKind : Option QueryOp) (found : Found) (s : Session σ) :
    ∀ x ∈ (reportExpanded W retryKind found s).calls, x.aside := by
  intro x hx
  rw [reportExpanded] at hx
  split_ifs at hx
  · rw [List.mem_singleton.mp hx]
    exact ⟨⟨rfl, rfl, rfl⟩, rfl, rfl⟩
  · exact absurd hx List.not_mem_nil

/-- The retry of an op of a kind, if one of its checks failed. -/
def retryCalls (op : Op) (retryKind : Option QueryOp) (anyInvalid : Bool) : List Call :=
  if anyInvalid && retriesOnFailure retryKind then [.retryWithRecommends op true] else []

lemma eq_of_mem_retryCalls {op : Op} {retryKind : Option QueryOp} {anyInvalid : Bool} {x : Call}
    (hx : x ∈ retryCalls op retryKind anyInvalid) : x = .retryWithRecommends op true := by
  rw [retryCalls] at hx
  split_ifs at hx
  · exact List.mem_singleton.mp hx
  · exact absurd hx List.not_mem_nil

lemma autoRecommends_calls (op : Op) (retryKind : Option QueryOp) (found : Found)
    (s : Session σ) :
    (autoRecommends W op retryKind found s).calls = retryCalls op retryKind found.anyInvalid := by
  rw [autoRecommends, retryCalls]
  split_ifs
  · rw [Traced.bind_ok rfl, orStop, Traced.ofExcept_calls]
    rfl
  · rfl

/-- The calls after the checks of an op: the retry that is due, and what does not matter. -/
lemma followUp_calls (op : Op) (retryKind : Option QueryOp) (found : Found) (s : Session σ) :
    ∃ rest, (∀ x ∈ rest, x.aside)
      ∧ ((do
          autoRecommends W op retryKind found
          reportExpanded W retryKind found : Prog σ Unit) s).calls
        = retryCalls op retryKind found.anyInvalid ++ rest := by
  cases hr : (autoRecommends W op retryKind found s).result with
  | error e =>
      refine ⟨[], fun x hx => absurd hx List.not_mem_nil, ?_⟩
      rw [Traced.bind_error hr, autoRecommends_calls, List.append_nil]
  | ok u =>
      refine ⟨_, aside_reportExpanded W retryKind found (autoRecommends W op retryKind found
        s).state, ?_⟩
      rw [Traced.bind_ok hr, autoRecommends_calls]

/-- The calls of an op whose checks have all ended. -/
lemma retried_of_finished {op : Op} {checks rest : List Call} {anyInvalid : Bool}
    (hfinished : AllFinished checks) (hinvalid : anyInvalid = checks.any Call.failed)
    (hchecks : checks.filterMap Call.retried = []) (hrest : ∀ x ∈ rest, x.aside) :
    Retried op (checks ++ (retryCalls op op.queryOp anyInvalid ++ rest)) := by
  have hrestRetried : rest.filterMap Call.retried = [] :=
    List.filterMap_eq_nil_iff.mpr fun x hx => (hrest x hx).2.1
  have htail : ∀ x ∈ retryCalls op op.queryOp anyInvalid ++ rest,
      x.startsCheck = none ∧ x.failed = false := by
    intro x hx
    rcases List.mem_append.mp hx with hx | hx
    · rw [eq_of_mem_retryCalls hx]
      exact ⟨rfl, rfl⟩
    · exact ⟨(hrest x hx).1.1, (hrest x hx).2.2⟩
  have hall : AllFinished (checks ++ (retryCalls op op.queryOp anyInvalid ++ rest)) :=
    hfinished.append (closed_of_no_start fun x hx => (htail x hx).1)
  have hfailed : (∃ x ∈ checks ++ (retryCalls op op.queryOp anyInvalid ++ rest), x.failed = true)
      ↔ anyInvalid = true := by
    rw [hinvalid, List.any_eq_true]
    constructor
    · rintro ⟨x, hx, hfailed⟩
      rcases List.mem_append.mp hx with hx | hx
      · exact ⟨x, hx, hfailed⟩
      · exact absurd ((htail x (hinvalid ▸ hx)).2.symm.trans hfailed) (by simp)
    · rintro ⟨x, hx, hfailed⟩
      exact ⟨x, List.mem_append_left _ hx, hfailed⟩
  have hretried : (checks ++ (retryCalls op op.queryOp anyInvalid ++ rest)).filterMap Call.retried
      = if anyInvalid && op.retriable then [(op, true)] else [] := by
    rw [List.filterMap_append, List.filterMap_append, hchecks, hrestRetried, List.nil_append,
      List.append_nil, retryCalls, Op.retriable]
    split_ifs <;> rfl
  rw [Retried]
  simp only [hall, hfailed, true_and, hretried]
  constructor
  · rintro ⟨hretriable, hinvalid⟩
    rw [hretriable, hinvalid]
    rfl
  · intro hnot
    rw [if_neg fun hboth => hnot ?_]
    rw [Bool.and_eq_true] at hboth
    exact ⟨hboth.2, hboth.1⟩

lemma retried_handleOpBody (fuel : ℕ) (op : Op) (s : Session σ) :
    Retried op (handleOpBody W fuel op s).calls := by
  have hdispatched := retried_dispatch W fuel op s
  cases hk : op.kind with
  | context commands =>
      have hcalls : (dispatch W fuel op s).calls = (feedAll W commands s).calls := by
        rw [dispatch_context W fuel hk]
      have hnot : op.retriable = false := by
        rw [Op.retriable, Op.queryOp, hk]
        rfl
      obtain ⟨rest, hrest, hfollow⟩ := followUp_calls W op none {} (feedAll W commands s).state
      rw [handleOpBody, Traced.bind_ok (by rw [dispatch_context W fuel hk]),
        dispatch_context W fuel hk]
      refine ⟨fun hdue => absurd hdue.2.1 (by simp [hnot]), fun _ => ?_⟩
      rw [hcalls] at hdispatched
      rw [List.filterMap_append, hdispatched, List.nil_append, hfollow]
      exact List.filterMap_eq_nil_iff.mpr fun x hx => (hrest x hx).2.1
  | query list queryOp =>
      have hqueries : Checked _ _ _ _ := checked_queries W fuel op queryOp list s
      have hdispatch := dispatch_query W fuel hk s
      rw [hdispatch] at hdispatched
      cases hr : (Traced.fold (runCommands W fuel queryOp op.funcName op.funcSpan) {} list
          s).result with
      | error e =>
          rw [hr] at hqueries
          rw [handleOpBody, Traced.bind_error (by rw [hdispatch, hr]; rfl), hdispatch]
          exact ⟨fun hdue => absurd hdue.1 (hqueries.cutShort rfl), fun _ => hdispatched⟩
      | ok found =>
          have hinvalid := finds_queries W fuel op queryOp list s found hr
          rw [hr] at hqueries
          rw [handleOpBody, Traced.bind_ok (by rw [hdispatch, hr]; rfl), hdispatch]
          obtain ⟨rest, hrest, hfollow⟩ := followUp_calls W op (some queryOp) found
            (Traced.fold (runCommands W fuel queryOp op.funcName op.funcSpan) {} list s).state
          have hkind : op.queryOp = some queryOp := by
            rw [Op.queryOp, hk]
          simp only [hfollow]
          rw [← hkind]
          exact retried_of_finished (hqueries.complete rfl).2 hinvalid hdispatched hrest

end Op

/-! ## A run -/

section Run

variable {σ F : Type} (W : World σ F)

/-- Each op of a stretch of a run has the retry it should. -/
def retries : Traced.Rel (Session σ) Call := fun _ _ _ calls =>
  Closed Call.startsOp Call.endsOp calls ∧ ∀ p ∈ opSegments calls, Retried p.1 p.2

lemma retries_of_outside {calls : List Call} (h : ∀ x ∈ calls, x.outside) (b : Bool)
    (s t : Session σ) : retries b s t calls := by
  have hstart : ∀ x ∈ calls, x.startsOp = none := fun x hx => (h x hx).1
  refine ⟨closed_of_no_start hstart, fun p hp => ?_⟩
  rw [opSegments, segments_of_no_start hstart] at hp
  exact absurd hp List.not_mem_nil

lemma composes_retries : Traced.Composes (retries (σ := σ)) where
  nil s := retries_of_outside (fun _ hx => absurd hx List.not_mem_nil) true s s
  append h₁ h₂ := by
    refine ⟨h₁.1.append h₂.1, fun p hp => ?_⟩
    rw [opSegments, segments_append _ h₁.1] at hp
    exact (List.mem_append.mp hp).elim (h₁.2 p) (h₂.2 p)
  stop h := h

lemma retries_inSection (fuel : ℕ) (op : Op) : Traced.Keeps retries (inSection W fuel op) := by
  intro s
  obtain ⟨opened, hcalls, hsegments, hclosed⟩ := segments_inSection W fuel op s
  rw [hcalls]
  refine composes_retries.append (s := s) (t := s) (retries_of_outside (fun x hx => ?_) true s s) ?_
  · rw [List.mem_singleton.mp hx]
    exact ⟨rfl, rfl⟩
  · refine ⟨hclosed, fun p hp => ?_⟩
    rw [hsegments] at hp
    rw [List.mem_singleton.mp hp]
    exact retried_handleOpBody W fuel op opened

/-- **Each op has the retry it should**, however the run ends. -/
theorem retried_runQueries (fuel : Fuel) (krateSst : KrateSst F) (s : Session σ) :
    ∀ p ∈ opSegments (runQueries W fuel krateSst s).calls, Retried p.1 p.2 :=
  (keeps_runQueries W composes_retries (fun h => h) (fun h s => retries_of_outside (h s) _ _ _)
    fuel (retries_inSection W fuel.probes) krateSst s).2

end Run

end VerusExplorer
