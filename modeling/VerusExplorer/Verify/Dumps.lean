import VerusExplorer.Verify.Queries

/-!
# The dumps of a run that fails

AIR writes the commands it is given to four log buffers, and `run_queries` drains these into the
bodies of the output.  The dumps of a module should survive whatever stops its verification.

* `respects_accounts` — no step of the op loop loses text.
* `isOk_feedModuleDecls` — feeding the declarations fails exactly when the name of a function
  cannot be lowered to AIR; nothing else in it can fail.
* **`verifyModule_dumps`** — everything AIR wrote since the logs were attached has reached the
  bodies when `run_queries` returns, in order and once, if and only if the declarations could be
  fed.  An error there leaves `run_queries` before the first drain.
-/

namespace VerusExplorer

variable {σ F : Type} (W : World σ F) {base : LogBodies}

/-! ## Every other step keeps account of the text -/

lemma respects_accounts : Respects (fun _ => True) (accounts (σ := σ) base) where
  composes := composes_accounts
  askAir f calls _ := keeps_accounts_askAir f calls
  askVir f calls _ := keeps_accounts_askVir f calls
  emit c _ := keeps_accounts_emit c

lemma accounts_inSection (fuel : ℕ) (op : Op) :
    Traced.Keeps (accounts base) (inSection W fuel op) := by
  have hop : Traced.Keeps (accounts base) (handleOp W fuel op) :=
    Traced.keeps_bind composes_accounts (keeps_accounts_emit _) fun _ =>
      respects_accounts.handleOpBody (fun _ _ => trivial) fuel op
  refine Traced.keeps_bind composes_accounts (Traced.keeps_get composes_accounts) ?_
  intro s
  refine Traced.keeps_bind composes_accounts (keeps_accounts_askAir _ _) ?_
  intro _
  refine Traced.keeps_bind composes_accounts (Traced.keeps_attempt (fun h => h) hop) ?_
  intro r
  refine Traced.keeps_bind composes_accounts (keeps_accounts_askAir _ _) ?_
  intro _
  exact Traced.keeps_ofExcept composes_accounts r

lemma accounts_stepOp (fuel : ℕ) (op : Op) : Traced.Keeps (accounts base) (stepOp W fuel op) := by
  have hrotate : Traced.Keeps (accounts base) (rotateWrapper W op.krate) :=
    respects_accounts.rotateWrapper (fun _ _ => trivial) trivial (fun _ _ h => h) op.krate
  exact Traced.keeps_bind composes_accounts hrotate fun _ => accounts_inSection W fuel op

lemma accounts_opLoop (probeFuel opFuel fuel : ℕ) :
    Traced.Keeps (accounts base) (opLoop W probeFuel opFuel fuel) :=
  keeps_opLoop composes_accounts (respects_accounts.nextOp fun _ => trivial)
    (accounts_stepOp W probeFuel) (keeps_accounts_askVir _ _) opFuel fuel

/-- The op loop ends with a drain, however it ends. -/
lemma runOps_drained (fuel : Fuel) (krateSst : KrateSst F) {s : Session σ}
    (h : Accounted base s) (log : Log) :
    (runOps W fuel krateSst s).state.output log
      = base log ++ (runOps W fuel krateSst s).state.written log := by
  let loop := opLoop W fuel.probes fuel.ops fuel.functions
    { s with env := W.opgenNew krateSst s.env, wrapperKrate := none }
  have hloop : Accounted base loop.state :=
    accounts_opLoop W fuel.probes fuel.ops fuel.functions _ h
  have hclosed : Accounted base (closeWrapper W loop.state).state :=
    respects_accounts.closeWrapper trivial loop.state hloop
  obtain ⟨hout, hwritten⟩ := drainTo_accounted hclosed
  rw [runOps_run]
  simp only [hout, hwritten, loop]

/-! ## Feeding the declarations -/

/-- AIR writes, and nothing is drained. -/
def undrained : Traced.Rel (Session σ) Call := fun _ s t _ =>
  t.output = s.output ∧ ∀ log, s.written log <+: t.written log

lemma composes_undrained : Traced.Composes (undrained (σ := σ)) where
  nil _ := ⟨rfl, fun _ => List.prefix_refl _⟩
  append h₁ h₂ := ⟨h₂.1.trans h₁.1, fun log => (h₁.2 log).trans (h₂.2 log)⟩
  stop h := h

lemma respects_undrained : Respects (fun _ => True) (undrained (σ := σ)) where
  composes := composes_undrained
  askAir _ _ _ _ := ⟨rfl, fun _ => List.prefix_append _ _⟩
  askVir _ _ _ _ := ⟨rfl, fun _ => List.prefix_refl _⟩
  emit _ _ _ := ⟨rfl, fun _ => List.prefix_refl _⟩

lemma isOk_feedAll (cmds : List Command) (s : Session σ) :
    (feedAll W cmds s).result.isOk = true ↔ True := by
  have hfeed : ∀ (cmd : Command) (s : Session σ),
      (((do let _ ← feed W cmd) : Prog σ Unit) s).result.isOk = true ↔ True := by
    intro cmd s
    rw [Traced.bind_ok rfl]
    exact iff_of_true rfl trivial
  rw [feedAll, Traced.isOk_each hfeed]
  exact iff_of_true (fun _ _ => trivial) trivial

lemma isOk_feedFunctionName (f : F) (s : Session σ) :
    (feedFunctionName W f s).result.isOk = true ↔ (W.funcNameToAir f).isOk = true := by
  rw [feedFunctionName, Traced.isOk_bind]
  cases hf : W.funcNameToAir f with
  | error e =>
      constructor
      · rintro ⟨cmds, hcmds, -⟩
        exact absurd hcmds (by simp [orStop, Traced.ofExcept, Traced.stop, Except.mapError])
      · intro h
        exact absurd h (by simp [Except.isOk, Except.toBool])
  | ok cmds =>
      constructor
      · intro _
        rfl
      · intro _
        exact ⟨cmds, rfl, (isOk_feedAll W cmds _).mpr trivial⟩

/-- Feeding the declarations fails exactly when a function's name cannot be lowered. -/
lemma isOk_feedModuleDecls (krateSst : KrateSst F) (s : Session σ) :
    (feedModuleDecls W krateSst s).result.isOk = true
      ↔ ∀ f ∈ krateSst.functions, (W.funcNameToAir f).isOk = true := by
  have hbatches : ∀ (batches : List (List Command)) (s : Session σ),
      (Traced.each (feedAll W) batches s).result.isOk = true := fun batches s =>
    (Traced.isOk_each (isOk_feedAll W) batches s).mpr fun _ _ => trivial
  constructor
  · intro hok
    obtain ⟨_, -, hok⟩ := Traced.isOk_bind.mp hok
    obtain ⟨_, -, hok⟩ := Traced.isOk_bind.mp hok
    obtain ⟨_, -, hok⟩ := Traced.isOk_bind.mp hok
    exact (Traced.isOk_each (isOk_feedFunctionName W) _ _).mp hok
  · intro hall
    have hprelude := (isOk_feedAll W W.prelude s).mpr trivial
    refine Traced.isOk_bind.mpr ⟨(), Traced.result_of_isOk hprelude, ?_⟩
    refine Traced.isOk_bind.mpr ⟨_, rfl, ?_⟩
    refine Traced.isOk_bind.mpr ⟨(), Traced.result_of_isOk (hbatches _ _), ?_⟩
    exact (Traced.isOk_each (isOk_feedFunctionName W) _ _).mpr hall

/-! ## Dumps survive, or not -/

/-- The session when `run_queries` is entered: the logs are attached and the two settings sent. -/
def atQueries (s : Session σ) : Session σ :=
  (tellAir (W.setRlimit (60 * 3000000)) (.setRlimit (60 * 3000000)) : Prog σ Unit)
    ((tellAir (W.setZ3Param "air_recommended_options".toList "true".toList)
      (.setZ3Param "air_recommended_options".toList "true".toList) : Prog σ Unit)
        ((attach : Prog σ Unit) s).state).state |>.state

lemma verifyModule_state (fuel : Fuel) (krateSst : KrateSst F) (s : Session σ) :
    (verifyModule W fuel krateSst s).state
      = (runQueries W fuel krateSst (atQueries W s)).state := by
  rw [verifyModule, Traced.bind_ok rfl, Traced.bind_ok rfl, Traced.bind_ok rfl]
  rfl

lemma atQueries_accounted (s : Session σ) : Accounted s.output (atQueries W s) := by
  have h : Accounted s.output ((attach : Prog σ Unit) s).state := by
    intro log
    refine ⟨[], rfl, rfl⟩
  exact Accounted.write (Accounted.write h _) _

lemma prefix_atQueries (s : Session σ) (log : Log) :
    (W.setZ3Param "air_recommended_options".toList "true".toList s.env).1 log
      <+: (atQueries W s).written log := List.prefix_append _ _

/-- **Dumps survive exactly when the declarations can be fed.**  `hoptions` is what the attachment
of the logs before the settings is for: AIR writes the options it sets. -/
theorem verifyModule_dumps (fuel : Fuel) (krateSst : KrateSst F) (s : Session σ)
    (hoptions : ∃ log,
      (W.setZ3Param "air_recommended_options".toList "true".toList s.env).1 log ≠ []) :
    (∀ log, (verifyModule W fuel krateSst s).state.output log
        = s.output log ++ (verifyModule W fuel krateSst s).state.written log)
      ↔ ∀ f ∈ krateSst.functions, (W.funcNameToAir f).isOk = true := by
  rw [verifyModule_state]
  have hfed := respects_accounts.feedModuleDecls (W := W) (fun _ _ => trivial) krateSst _
    (atQueries_accounted W s)
  have hok := isOk_feedModuleDecls W krateSst (atQueries W s)
  cases hr : (feedModuleDecls W krateSst (atQueries W s)).result with
  | ok u =>
      -- the declarations are fed: the logs are drained now and once more at the end
      rw [hr] at hok
      refine iff_of_true (fun log => ?_) (hok.mp rfl)
      let closed := (tellAir W.sectionClose .sectionClose : Prog σ Unit)
        (feedModuleDecls W krateSst (atQueries W s)).state
      have hclosed : Accounted s.output closed.state := keeps_accounts_askAir _ _ _ hfed
      have hdrained : Accounted s.output (drainTo closed.state).state :=
        keeps_accounts_drainTo _ hclosed
      have hrun : (runQueries W fuel krateSst (atQueries W s)).state
          = (runOps W fuel krateSst (drainTo closed.state).state).state := by
        rw [runQueries, Traced.bind_ok hr, Traced.bind_ok rfl, Traced.bind_ok rfl]
      rw [hrun]
      exact runOps_drained W fuel krateSst hdrained log
  | error e =>
      -- an error there leaves before any drain: the options at least are missing
      rw [hr] at hok
      refine iff_of_false (fun hall => ?_) fun hall => absurd (hok.mpr hall) (by
        simp [Except.isOk, Except.toBool])
      obtain ⟨hout, hgrow⟩ := respects_undrained.feedModuleDecls (W := W)
        (fun _ _ => trivial) krateSst (atQueries W s)
      have hrun : (runQueries W fuel krateSst (atQueries W s)).state
          = (feedModuleDecls W krateSst (atQueries W s)).state := by
        rw [runQueries, Traced.bind_error hr]
      obtain ⟨log, hlog⟩ := hoptions
      have heq := hall log
      rw [hrun, hout] at heq
      have hnil : (feedModuleDecls W krateSst (atQueries W s)).state.written log = [] :=
        List.append_right_eq_self.mp heq.symm
      have hpre := (prefix_atQueries W s log).trans (hgrow log)
      rw [hnil, List.prefix_nil] at hpre
      exact hlog hpre

/-! ## Both cases occur -/

/-- A text for the transcript only. -/
def smtText (t : Str) : LogText
  | .smt => t
  | _ => []

/-- AIR accepts every command and writes options and commands to the transcript; no generator
yields an op; the name of a function is lowered to the function itself, where that is possible. -/
def echoWorld : World Unit (Except VirErr (List Command)) where
  setZ3Param key value s :=
    (smtText ("(set-option :".toList ++ key ++ ' ' :: value ++ ")\n".toList), s)
  setRlimit _ s := (smtText "(set-option :rlimit)\n".toList, s)
  command cmd s := (.valid, smtText (match cmd with | .global decl => decl | _ => []), s)
  checkValidAgain _ s := (.valid, smtText [], s)
  finishQuery s := (smtText [], s)
  openSection marker label s := (smtText (";;".toList ++ marker :: ' ' :: label), s)
  sectionClose s := (smtText ";;<\n".toList, s)
  prelude := [.global "(declare-sort Fuel)\n".toList]
  buildBucketPreamble _ s := ([], s)
  funcNameToAir f := f
  opgenNew _ s := s
  opgenNext s := (.ok false, s)
  expandErrorsNext s := (none, s)
  functionOpgenNext s := (none, s)
  retryWithRecommends _ _ s := (.ok (), s)
  reportExpandErrorResult _ s := s

def freshSession : Session Unit where
  env := ()
  bufs _ := []
  output _ := []
  written _ := []
  wrapperKrate := none

/-- With every name lowered, the whole transcript is in the output. -/
theorem verifyModule_dumps_lowered :
    (verifyModule echoWorld ⟨1, 1, 1⟩ ⟨[.ok [.push]]⟩ freshSession).state.output .smt
      = freshSession.output .smt
        ++ (verifyModule echoWorld ⟨1, 1, 1⟩ ⟨[.ok [.push]]⟩ freshSession).state.written .smt := by
  have hnames : ∀ f ∈ [Except.ok [Command.push]], (echoWorld.funcNameToAir f).isOk = true := by
    intro f hf
    rw [List.mem_singleton.mp hf]
    rfl
  exact (verifyModule_dumps echoWorld ⟨1, 1, 1⟩ ⟨[.ok [.push]]⟩ freshSession
    ⟨.smt, by decide⟩).mpr hnames .smt

/-- One name that cannot be lowered, and the options and the prelude are in no body. -/
theorem verifyModule_dumps_lost :
    ¬ ∀ log,
      (verifyModule echoWorld ⟨1, 1, 1⟩ ⟨[.error "unsupported".toList]⟩
          freshSession).state.output log
        = freshSession.output log
          ++ (verifyModule echoWorld ⟨1, 1, 1⟩ ⟨[.error "unsupported".toList]⟩
            freshSession).state.written log := by
  intro h
  exact absurd (h .smt) (by decide)

end VerusExplorer
