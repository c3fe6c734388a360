import VerusExplorer.Verify.Build
import VerusExplorer.Verify.Protocol

/-!
# What a green page means

The headline of the panel counts the verdicts a run has streamed.  `verify` (`lib.rs`) drops the
result of the modules, so a run that was cut short is not told apart by its end: what a reader has
is the headline and the diagnostics.

* `told_verify` — the verdicts and reports of such a run of `verify` are those of its modules.
* **`green_page`** — the headline is green exactly when there were queries and each was valid at
  once; without an error below it the modules have been verified to the last one.
* **`panel_verdicts`** — in any case, what the block of the verdicts has, op by op and check by
  check.
-/

namespace VerusExplorer

open Utf16

variable {σ F : Type} (C : Compiler σ F) (W : World σ F) (fuel : Fuel)

/-! ## The run over the modules -/

/-- The verdicts and the reports. -/
def told (calls : List StageCall) : List StageCall := calls.filter StageCall.told

lemma told_append (c d : List StageCall) : told (c ++ d) = told c ++ told d :=
  List.filter_append ..

lemma Makes.told_calls {α : Type} {x : Pipeline σ α} (h : Makes (fun c => c.told = false) x)
    (s : Pipe σ) : told (x s).calls = [] :=
  List.filter_eq_nil_iff.mpr fun c hc => by simp [h s c hc]

lemma admits_told : Admits fun c => c.told = false := ⟨fun _ => rfl, fun _ _ => rfl⟩

lemma makes_dumpVir : Makes (fun c => c.told = false) C.dumpVir := by
  have hdump : ∀ label name (f : σ → List WalkItem),
      Makes (fun c => c.told = false) (C.time label do
        let items ← look f
        dumpSection name (WalkBuilder.mk items).finish) := fun _ _ _ =>
    Makes.time admits_told ((makes_look _).bind fun _ => makes_emit rfl) _
  exact (hdump _ _ _).bind fun _ => hdump _ _ _

lemma makes_write : Makes (fun c => c.told = false) (write : Pipeline σ Unit) := by
  refine Makes.bind (makes_of_quiet fun _ => rfl) fun s => ?_
  refine Traced.keeps_each (Traced.composes_callsIn _) _ fun x _ => ?_
  rw [writeSection]
  split_ifs
  · exact makes_pure ()
  · exact makes_emit rfl

/-- Once VIR has been built the page is told what the session of AIR tells it. -/
lemma told_verifyVir (s : Pipe σ) :
    let t := (freshOutput (C.dumpVir s).state).state
    told (C.verifyVir W fuel s).calls
      = (verifySimplifiedKrate W C.lowerModule fuel (C.modules t.env) t.session).calls.flatMap
          Call.stageCalls := by
  intro t
  obtain ⟨⟨u, hok⟩, -⟩ := C.emits_dumpVir s
  have hfollows : Traced.Follows (Pipe.sessionView σ)
      (C.verifySimplifiedKrate W fuel (C.modules t.env))
      (verifySimplifiedKrate W C.lowerModule fuel (C.modules t.env)) :=
    verify_follows (C.modules t.env)
  have hmodules := (follows_time (C := C) hfollows "verify" t).calls
  have hfresh : (freshOutput (C.dumpVir s).state).result = .ok () := rfl
  have hlook : (look C.modules t).result = .ok (C.modules t.env) := rfl
  have hattempt : (Traced.attempt (C.time "verify" (C.verifySimplifiedKrate W fuel
      (C.modules t.env))) (look C.modules t).state).result = .ok _ := rfl
  rw [Compiler.verifyVir, Traced.bind_ok hok, Traced.bind_ok hfresh, Traced.bind_ok hlook,
    Traced.bind_ok hattempt]
  simp only [told_append, (makes_dumpVir C).told_calls, makes_write.told_calls, List.append_nil]
  exact hmodules

/-- The verdict of a call. -/
def StageCall.line : StageCall → Option Str
  | .verdict line => some line
  | _ => none

/-- What is told by a stage that reports nothing and has no verdicts. -/
lemma told_eq_nil {calls : List StageCall} (hreport : reported calls = [])
    (hline : ∀ c ∈ calls, c.line = none) : told calls = [] := by
  refine List.filter_eq_nil_iff.mpr fun c hc => ?_
  have hnone := List.filterMap_eq_nil_iff.mp hreport c hc
  cases c with
  | report msg level => cases hnone
  | verdict line => cases hline _ hc
  | _ => exact Bool.false_ne_true

/-- **A run of `verify` tells the page what the run over the modules does.** -/
lemma told_verify {s : Pipe σ} (h : C.Built s) :
    told (C.verify W fuel s).calls = (C.modulesRun W fuel s).calls.flatMap Call.stageCalls := by
  obtain ⟨⟨u, hrust⟩, -⟩ := C.emits_dumpRust s
  obtain ⟨hresult, ms, hcalls⟩ := time_buildVir C s
  obtain ⟨v, hv, hout⟩ := builds_buildVir C (C.beforeBuild s)
  obtain rfl := Except.ok.inj (h.symm.trans hv)
  have hline : Admits fun c => c.line = none := ⟨fun _ => rfl, fun _ _ => rfl⟩
  have hsilent : told (C.time "build_vir" C.buildVir (C.dumpRust s).state).calls = [] := by
    rw [hcalls, told_append, told_eq_nil hout (makes_buildVir C hline (fun _ _ => rfl) _)]
    rfl
  rw [Compiler.verify, Traced.bind_ok hrust, Traced.bind_ok (hresult.trans h)]
  rw [told_append, told_append, (makes_dumpRust C admits_told fun _ _ => rfl).told_calls, hsilent]
  dsimp only
  rw [told_verifyVir, C.time_run]
  rfl

/-! ## The panel -/

/-- What is read off the calls that are told only. -/
lemma filterMap_told {γ : Type} {f : StageCall → Option γ}
    (hf : ∀ c, c.told = false → f c = none) (calls : List StageCall) :
    (told calls).filterMap f = calls.filterMap f := by
  induction calls with
  | nil => rfl
  | cons c calls ih =>
      rw [told, List.filter_cons]
      split_ifs with hc
      · rw [List.filterMap_cons, List.filterMap_cons, ← ih, told]
      · rw [List.filterMap_cons_none (hf c (by simpa using hc))]
        exact ih

/-- The verdicts of the page are those of the run over the modules. -/
lemma entries_verify {s : Pipe σ} (h : C.Built s) :
    (C.verify W fuel s).calls.filterMap StageCall.entry
      = entries (C.modulesRun W fuel s).calls := by
  have hentry : ∀ c : StageCall, c.told = false → c.entry = none := by
    intro c hc
    cases c with
    | verdict line => cases hc
    | _ => rfl
  rw [← filterMap_told hentry, told_verify C W fuel h]
  generalize (C.modulesRun W fuel s).calls = calls
  induction calls with
  | nil => rfl
  | cons c calls ih =>
      show _ = (c :: calls).filterMap Call.entry
      rw [List.flatMap_cons, List.filterMap_append, ih, filterMap_cons_toList]
      refine congrArg (· ++ _) ?_
      cases c with
      | verusVerdict line =>
          show [StageCall.verdict line].filterMap StageCall.entry = _
          cases hline : parseVerdict (encode line) <;>
            simp [StageCall.entry, Call.entry, hline]
      | _ => rfl

/-- Without VIR there are no verdicts. -/
lemma entries_of_not_built {s : Pipe σ} (h : ¬C.Built s) :
    (C.verify W fuel s).calls.filterMap StageCall.entry = [] := by
  obtain ⟨v, hv, -⟩ := builds_buildVir C (C.beforeBuild s)
  cases v with
  | ok u => exact absurd hv h
  | error errs => exact (reports_of_buildError C W fuel hv).1

/-- What the session reports is reported to the page. -/
lemma mem_reported_verify {s : Pipe σ} (h : C.Built s) {msg : Message} {level : MessageLevel}
    (hmem : .reportAs msg level ∈ (C.modulesRun W fuel s).calls) :
    (msg, some level) ∈ reported (C.verify W fuel s).calls := by
  have hcall : StageCall.report msg (some level) ∈ told (C.verify W fuel s).calls := by
    rw [told_verify C W fuel h]
    exact List.mem_flatMap.mpr ⟨_, hmem, List.mem_singleton.mpr rfl⟩
  exact List.mem_filterMap.mpr ⟨_, (List.mem_filter.mp hcall).1, rfl⟩

/-- The panel after a run of `verify` that returns. -/
def Compiler.panel (s : Pipe σ) (docLines : ℕ) : Panel :=
  renderMeta docLines
    (finishRun .verify ((C.verify W fuel s).calls.flatMap C.callbacks) none {})

/-- The headline depends on the verdicts only. -/
lemma saysAllVerified_panel {s : Pipe σ} {docLines : ℕ} {verdicts : List VerdictEntry}
    (h : (C.verify W fuel s).calls.filterMap StageCall.entry = verdicts) :
    (C.panel W fuel s docLines).saysAllVerified
      ↔ verdicts ≠ [] ∧ ∀ v ∈ verdicts, v.proved = true := by
  rw [Compiler.panel, panel_of_trace, h]
  exact saysAllVerified_renderMeta docLines { ({} : RunCaches) with verdicts := verdicts }

/-- rustc's emitter makes an error with its text of an error it is told to report. -/
def Compiler.EmitsErrors : Prop :=
  ∀ e, ∃ d, some d ∈ C.emitted e (some .error) ∧ d.message = some (encode e) ∧ d.level = js "error"

/-- The text of an error that the page takes for rustc's footer. -/
def readsAsFooter (e : VirErr) : Prop := (js "aborting due to").isPrefixOf (encode e) = true

/-- Any other error that is reported is a failure on the panel. -/
lemma showsFailure_of_reported {s : Pipe σ} {e : VirErr} {docLines : ℕ} (hemit : C.EmitsErrors)
    (hmem : (e, some .error) ∈ reported (C.verify W fuel s).calls) (hfooter : ¬readsAsFooter e) :
    (C.panel W fuel s docLines).showsFailure := by
  obtain ⟨d, hd, hmessage, hlevel⟩ := hemit e
  have hx : ⟨(d.rendered.or d.message).getD [], d.loc, severityOf d.level⟩ ∈ d.consolidate := by
    have hplain : d.isFooter = false := by
      rw [DiagJson.isFooter, hmessage]
      exact eq_false_of_ne_true hfooter
    rw [DiagJson.consolidate, hplain]
    rfl
  have hseverity : severityOf d.level = .error := by
    rw [hlevel]
    decide
  right
  rw [Compiler.panel, panel_of_trace]
  exact ⟨_, mem_panel_of_reported C hmem hd _ hx, hseverity⟩

/-! ## How the run over the modules ends -/

lemma reported_of_verifyOrReport
    {lowerModule : Module → σ → Except VirErr (KrateSst F) × σ} {m : Module} {s : Session σ}
    {e : VirErr} (h : (verifyOrReport W lowerModule fuel m s).result = .error (.err e)) :
    .reportAs e .error ∈ (verifyOrReport W lowerModule fuel m s).calls := by
  have hattempt : ∀ (x : Prog σ Unit) t, (Traced.attempt x t).result = .ok (x t).result :=
    fun _ _ => rfl
  have hbegun : (Traced.emit (.verifyModule m.path) s : Ran (Session σ) Call Stop Unit).result
      = .ok () := rfl
  rw [verifyOrReport, Traced.bind_ok hbegun] at h ⊢
  refine List.mem_append_right _ ?_
  revert h
  generalize (Traced.emit (.verifyModule m.path) s : Ran (Session σ) Call Stop Unit).state = t
  dsimp only
  rw [Traced.bind_ok (hattempt _ t)]
  generalize ((askVir (lowerModule m) fun _ => []) >>= fun lowered => orStop lowered >>=
    verifyModule W fuel : Prog σ Unit) = x
  intro h
  cases hr : (x t).result with
  | ok u =>
      rw [hr] at h
      cases h
  | error e' =>
      rw [hr] at h
      cases e' with
      | outOfFuel => cases h
      | err e' =>
          obtain rfl : e' = e := by
            injection h with h
            injection h
          exact List.mem_append_right _ List.mem_cons_self

lemma reported_of_stop {lowerModule : Module → σ → Except VirErr (KrateSst F) × σ}
    {modules : List Module} {s : Session σ} {e : VirErr}
    (h : (verifySimplifiedKrate W lowerModule fuel modules s).result = .error (.err e)) :
    .reportAs e .error ∈ (verifySimplifiedKrate W lowerModule fuel modules s).calls := by
  obtain ⟨m, -, t, hstop, hcalls⟩ := Traced.exists_of_each_error h
  exact hcalls _ (reported_of_verifyOrReport W fuel hstop)

/-! ## The theorem -/

/-- Where no failure is on the panel, the run over the modules has come to its end. -/
lemma Compiler.modulesRun_result {s : Pipe σ} {docLines : ℕ} (hemit : C.EmitsErrors)
    (hbuilt : C.Built s) (hclean : ¬(C.panel W fuel s docLines).showsFailure)
    (hfuel : (C.modulesRun W fuel s).result ≠ .error .outOfFuel) :
    (C.modulesRun W fuel s).result = .ok ()
      ∨ ∃ e, readsAsFooter e ∧ (C.modulesRun W fuel s).result = .error (.err e) := by
  cases hr : (C.modulesRun W fuel s).result with
  | ok u => exact .inl rfl
  | error e =>
      cases e with
      | outOfFuel => exact absurd hr hfuel
      | err e =>
          have hreported := mem_reported_verify C W fuel hbuilt (reported_of_stop W fuel hr)
          refine .inr ⟨e, by_contra fun hfooter => hclean ?_, rfl⟩
          exact showsFailure_of_reported C W fuel hemit hreported hfooter

/-- A run that is not out of fuel has fed every op all its commands. -/
lemma Compiler.modulesRun_fed {s : Pipe σ}
    (hfuel : (C.modulesRun W fuel s).result ≠ .error .outOfFuel) :
    ∀ p ∈ opSegments (C.modulesRun W fuel s).calls, p.2.filterMap Call.fed = p.1.commands := by
  obtain ⟨q, hafter, hq⟩ := speaks_verifySimplifiedKrate W C.lowerModule fuel
    (C.modules (C.beforeModules s).env) (C.beforeModules s).session
  have hend : Traced.Leaves Phase.Between LeftModule (C.modulesRun W fuel s).result q := hq
  refine fed_of_between hafter ?_
  revert hend hfuel
  rcases (C.modulesRun W fuel s).result with (e | _) | u
  · exact fun _ h => h
  · exact fun hfuel => absurd rfl hfuel
  · exact fun _ h => h

/-- Where all checks that count are valid at once, so is the answer to each check fed. -/
lemma answered_valid {calls : List Call}
    (hvalid : ∀ seg ∈ errorChecks calls, seg.1.isValid = true) {p : Op × List Call}
    (hp : p ∈ opSegments calls) (herr : p.1.isErrorQuery = true) {query : Str}
    (hquery : .checkValid query ∈ p.2.filterMap Call.fed) :
    .command (.checkValid query) .valid ∈ p.2 := by
  obtain ⟨c, hc, hcmd⟩ := List.mem_filterMap.mp hquery
  cases c with
  | command cmd r =>
      obtain rfl := Option.some.inj hcmd
      obtain ⟨seg, hseg, rfl⟩ : ∃ seg ∈ checkSegments p.2, seg.1 = r :=
        Segments.exists_segment hc rfl
      have hmem : seg ∈ errorChecks calls :=
        List.mem_flatMap.mpr ⟨p, hp, by simpa [herr] using hseg⟩
      have hseg := hvalid seg hmem
      cases hr : seg.1 with
      | valid =>
          rw [hr] at hc
          exact hc
      | _ =>
          rw [hr] at hseg
          cases hseg
  | _ => cases hcmd

/-- **What a green page means.**  The headline says that all is verified exactly when VIR has been
built, there was a query whose failure is an error, and each such query was valid at once.  If there
is no failure on the panel either then, unless the run was out of fuel, it has gone through all
modules, or has been stopped by an error that the page takes for rustc's footer; every op that was
begun has been fed all its commands, and each check of an op that counts was answered `Valid`. -/
theorem green_page (hemit : C.EmitsErrors) (s : Pipe σ) (docLines : ℕ) :
    let panel := C.panel W fuel s docLines
    let run := C.modulesRun W fuel s
    (panel.saysAllVerified ↔ C.Built s ∧ errorChecks run.calls ≠ []
        ∧ ∀ seg ∈ errorChecks run.calls, seg.1.isValid = true)
      ∧ (panel.saysAllVerified → ¬panel.showsFailure → run.result ≠ .error .outOfFuel →
        (run.result = .ok () ∨ ∃ e, readsAsFooter e ∧ run.result = .error (.err e))
          ∧ ∀ p ∈ opSegments run.calls, p.2.filterMap Call.fed = p.1.commands
            ∧ (p.1.isErrorQuery = true → ∀ query, .checkValid query ∈ p.1.commands →
              .command (.checkValid query) .valid ∈ p.2)) := by
  intro panel run
  have htallied : Tallied run.calls := tallied_verifySimplifiedKrate W _ fuel _ _
  have hgreen : panel.saysAllVerified ↔ C.Built s ∧ errorChecks run.calls ≠ []
      ∧ ∀ seg ∈ errorChecks run.calls, seg.1.isValid = true := by
    by_cases hbuilt : C.Built s
    · rw [saysAllVerified_panel C W fuel (entries_verify C W fuel hbuilt), allProved_iff htallied]
      exact (and_iff_right hbuilt).symm
    · rw [saysAllVerified_panel C W fuel (entries_of_not_built C W fuel hbuilt)]
      exact iff_of_false (fun h => h.1 rfl) fun h => hbuilt h.1
  refine ⟨hgreen, fun hsays hclean hfuel => ?_⟩
  obtain ⟨hbuilt, -, hvalid⟩ := hgreen.mp hsays
  refine ⟨C.modulesRun_result W fuel hemit hbuilt hclean hfuel, fun p hp => ?_⟩
  have hfed := C.modulesRun_fed W fuel hfuel p hp
  exact ⟨hfed, fun herr query hquery => answered_valid hvalid hp herr (hfed ▸ hquery)⟩

/-- A crate of one module, and an emitter that hands messages on. -/
def oneModule : Compiler Bool Unit where
  perfNow n := n
  emitted msg _ := [some ⟨some (encode msg), none, js "error", []⟩]
  parse s := (((), []), s)
  astPre _ := []
  resolverForLowering s := (((), []), s)
  ast _ := []
  hirItems _ := []
  hirTypedItems s := (([], []), s)
  deserializes := true
  constructVirCrate s := ((.ok true, []), s)
  globalCtx s := (.ok (), s)
  checkTraits s := (.ok (), s)
  simplifyKrate s := (.ok (), s)
  rawWalk _ := []
  simpleWalk _ := []
  modules _ := [⟨none, "m".toList⟩]
  prune _ s := ([], s)
  ctxNew _ s := (.ok (), s)
  astToSst _ s := ((.ok ⟨[]⟩, []), s)
  poly krateSst s := (krateSst, s)
  sstWalk _ := []

/-- The world of `brokenPrelude` without a prelude. -/
def oneQuery : World Bool Unit := { brokenPrelude with prelude := [] }

/-- Its only query is valid. -/
theorem green_page_oneQuery :
    (oneModule.panel oneQuery ⟨1, 2, 2⟩ ⟨newSession, {}, false, 0⟩ 1).saysAllVerified := by
  refine (green_page oneModule oneQuery ⟨1, 2, 2⟩ (fun e => ⟨_, List.mem_cons_self, rfl, rfl⟩)
    ⟨newSession, {}, false, 0⟩ 1).1.mpr ⟨rfl, ?_, ?_⟩
  · decide
  · decide

/-! ## The block of the verdicts -/

/-- The verdicts of an op: of each check its first result and then those that are not valid, with
the name and the place of the function, if the failures of the op are errors. -/
def opVerdicts (p : Op × List Call) : List VerdictEntry :=
  match p.1.kind with
  | .context _ => []
  | .query _ queryOp =>
      if queryOp.level = .error then
        (checkSegments p.2).flatMap fun seg =>
          (counted true seg.1 (probeResults seg)).map (p.1.tally queryOp).entry
      else []

lemma entries_op {p : Op × List Call} (h : OpTrace p.1 p.2) : entries p.2 = opVerdicts p := by
  rw [OpTrace] at h
  rw [opVerdicts]
  cases hkind : p.1.kind with
  | context commands =>
      rw [hkind] at h
      exact h.2
  | query list queryOp =>
      rw [hkind] at h
      obtain ⟨returned, hchecked⟩ := h
      have hisError : (p.1.tally queryOp).isError = decide (queryOp.level = .error) :=
        beq_eq_decide ..
      dsimp only
      rw [hchecked.entries]
      split_ifs with hlevel
      · refine List.flatMap_congr fun seg hseg => ?_
        rw [(hchecked.checks seg hseg).entries, hisError, if_pos (decide_eq_true hlevel)]
      · refine List.flatMap_eq_nil_iff.mpr fun seg hseg => ?_
        rw [(hchecked.checks seg hseg).entries, hisError, decide_eq_false hlevel,
          if_neg Bool.false_ne_true]

/-- A run over the modules has no verdicts exactly if it has no check that counts. -/
lemma entries_nil_iff {calls : List Call} (h : Tallied calls) :
    entries calls = [] ↔ errorChecks calls = [] := by
  rw [← List.map_eq_nil_iff, outcomes_of_tallied h, List.flatMap_eq_nil_iff]
  refine ⟨fun hall => List.eq_nil_iff_forall_not_mem.mpr fun seg hseg => ?_, fun hnil => ?_⟩
  · have hfirst : seg.1.isValid ∈ outcomes seg := by simp [outcomes, counted]
    exact absurd (hall seg hseg ▸ hfirst) List.not_mem_nil
  · rw [hnil]
    exact fun seg hseg => absurd hseg List.not_mem_nil

lemma verdictBlock_eq_none {docLines : ℕ} {verdicts : List VerdictEntry} :
    verdictBlock docLines verdicts = none ↔ verdicts = [] := by
  rw [verdictBlock, ite_eq_right_iff, ← List.length_eq_zero_iff]
  constructor
  · intro h
    by_contra hlen
    exact absurd (h (Nat.pos_of_ne_zero hlen)) (by simp)
  · exact fun h hlen => absurd hlen (by omega)

lemma of_mem_verdictBlock {docLines : ℕ} {verdicts : List VerdictEntry} {b : VerdictBlock}
    (h : b ∈ verdictBlock docLines verdicts) :
    b.rows = verdicts.map (verdictRow docLines) ∧ b.parts = headline verdicts := by
  obtain ⟨-, h⟩ := Option.ite_none_right_eq_some.mp h
  obtain rfl := Option.some.inj h
  exact ⟨rfl, rfl⟩

/-- **What the block of the verdicts has.**  It is there exactly if VIR has been built and there was
a query whose failure is an error.  Then it has a row for each verdict of the ops, in the order in
which they were handled, and sums them up, for whatever reason the run over the modules has
ended. -/
theorem panel_verdicts (s : Pipe σ) (docLines : ℕ) :
    let run := C.modulesRun W fuel s
    let verdicts := (opSegments run.calls).flatMap opVerdicts
    ((C.panel W fuel s docLines).verdict = none ↔ (C.Built s → errorChecks run.calls = []))
      ∧ ∀ b ∈ (C.panel W fuel s docLines).verdict,
        b.rows = verdicts.map (verdictRow docLines) ∧ b.parts = headline verdicts := by
  intro run verdicts
  have htallied : Tallied run.calls := tallied_verifySimplifiedKrate W _ fuel _ _
  have hverdicts : entries run.calls = verdicts :=
    htallied.entries.trans (List.flatMap_congr fun p hp => entries_op (htallied.ops p hp))
  have hblock : ∀ {vs : List VerdictEntry},
      (C.verify W fuel s).calls.filterMap StageCall.entry = vs →
        (C.panel W fuel s docLines).verdict = verdictBlock docLines vs := by
    rintro vs rfl
    rw [Compiler.panel, panel_of_trace]
    rfl
  by_cases hbuilt : C.Built s
  · rw [hblock (entries_verify C W fuel hbuilt), imp_iff_right hbuilt, ← entries_nil_iff htallied,
      hverdicts]
    exact ⟨verdictBlock_eq_none, fun b => of_mem_verdictBlock⟩
  · rw [hblock (entries_of_not_built C W fuel hbuilt)]
    exact ⟨iff_of_true rfl fun h => absurd h hbuilt, fun b hb => absurd hb (by simp [verdictBlock])⟩

end VerusExplorer
