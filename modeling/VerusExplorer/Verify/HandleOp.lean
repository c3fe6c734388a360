import VerusExplorer.Verify.Verdict

/-!
# One op

`handle_op` (`verus.rs`) feeds the commands of one op to AIR.  After each `CheckValid` command it
probes for further failures with `check_valid_again` and streams a verdict to the page for what
counts as a result.

* `feedAll`, `probe`, `handleOp` follow the source.
* `probe_last`, `probe_zero`, `probe_succ` — one round of the probe loop, for each way it can end.
* `Respects p R` — a relation that holds of single questions and of calls that satisfy `p` holds of
  what is made of them.
-/

namespace VerusExplorer

/-! ## The source -/

variable {σ F : Type} (W : World σ F)

/-- `Feeder::feed`. -/
def feed (cmd : Command) : Prog σ ValidityResult :=
  askAir (W.command cmd) fun r => [.command cmd r]

/-- `Feeder::feed_all`: the results are not looked at. -/
def feedAll (cmds : List Command) : Prog σ Unit :=
  Traced.each (fun cmd => do let _ ← feed W cmd) cmds

/-- The level at which the failures of an op are reported. -/
def QueryOp.level : QueryOp → MessageLevel
  | .specTermination => .error
  | .body .normal => .error
  | .body .expanded => .error
  | .body .checkApiSafety => .error
  | .body .recommendsFollowupFromError => .note
  | .body .recommendsChecked => .warning

/-- What the probe loop of a command reads of its surroundings. -/
structure Check where
  hint : Option Message
  proverChoice : ProverChoice
  queryOp : QueryOp
  funcName : Str
  funcSpan : Str
  deriving DecidableEq, Repr

/-- The variables that collect what the checks of an op found. -/
structure Found where
  anyInvalid : Bool := false
  anyTimedOut : Bool := false
  defaultProverFailedAssertIds : List AssertId := []
  deriving DecidableEq, Repr

def Found.add (c : Check) (found : Found) (result : ValidityResult) : Found where
  anyInvalid := found.anyInvalid || !result.isValid
  anyTimedOut := found.anyTimedOut || result == .canceled
  defaultProverFailedAssertIds :=
    match result with
    | .invalid _ _ (some id) =>
        if c.proverChoice = .defaultProver then found.defaultProverFailedAssertIds ++ [id]
        else found.defaultProverFailedAssertIds
    | _ => found.defaultProverFailedAssertIds

/-- The messages reported for one result. -/
def resultReports (c : Check) (isFirstCheck : Bool) : ValidityResult → List Call
  | .invalid _ (some err) _ =>
      .reportAs err c.queryOp.level ::
        if isFirstCheck then (c.hint.map fun h => .reportAs h .note).toList else []
  | _ => []

/-- The verdict pushed for one result, if it is to be pushed. -/
def resultVerdict (c : Check) (isFirstCheck : Bool) (result : ValidityResult) : List Call :=
  if c.queryOp.level = .error && (isFirstCheck || !result.isValid) then
    [.verusVerdict (Verdict.fromResult result c.funcName c.funcSpan c.queryOp).toJson]
  else []

/-- The calls made for one result, before the loop decides whether to probe on. -/
def resultCalls (c : Check) (isFirstCheck : Bool) (result : ValidityResult) : List Call :=
  resultReports c isFirstCheck result ++ resultVerdict c isFirstCheck result

/-- `check_valid_again` may only be called after such a result. -/
def ValidityResult.canProbe : ValidityResult → Bool
  | .invalid true (some _) _ => true
  | _ => false

/-- The budget of the probe loop: how many more failures it asks for before it asks for earlier
ones only. -/
structure Budget where
  checksRemaining : UInt32 := 8
  onlyCheckEarlier : Bool := false
  deriving DecidableEq, Repr

def Budget.spend (b : Budget) : Budget :=
  if b.onlyCheckEarlier then b
  else
    { checksRemaining := b.checksRemaining - 1
      onlyCheckEarlier := b.checksRemaining - 1 == 0 }

/-- The probe loop.  Fuel is spent on the calls of `check_valid_again`. -/
def probe (c : Check) (fuel : ℕ) (b : Budget) (isFirstCheck : Bool) (found : Found)
    (result : ValidityResult) : Prog σ Found := do
  Traced.each Traced.emit (resultCalls c isFirstCheck result)
  if result.canProbe then
    match fuel with
    | 0 => Traced.stop .outOfFuel
    | fuel + 1 => do
        let next ← askAir (W.checkValidAgain b.spend.onlyCheckEarlier) fun r =>
          [.checkValidAgain b.spend.onlyCheckEarlier r]
        probe c fuel b.spend false (found.add c result) next
  else pure (found.add c result)

/-- One command of a query op. -/
def runCommand (fuel : ℕ) (c : Check) (found : Found) (cmd : Command) : Prog σ Found := do
  let result ← feed W cmd
  match cmd with
  | .checkValid _ => do
      let found ← probe W c fuel {} true found result
      tellAir W.finishQuery .finishQuery
      pure found
  | _ => pure found

/-- The commands of a query op. -/
def runCommands (fuel : ℕ) (queryOp : QueryOp) (funcName funcSpan : Str) (found : Found)
    (cmds : CommandsWithContext) : Prog σ Found :=
  let c : Check :=
    { hint := cmds.hintUponFailure
      proverChoice := cmds.proverChoice
      queryOp, funcName, funcSpan }
  Traced.fold (runCommand W fuel c) found cmds.commands

/-- The friendly name of an op's function, without the `crate::` every local one starts with. -/
def Op.funcName (op : Op) : Str :=
  match op.function with
  | some f =>
      if "crate::".toList.isPrefixOf f.friendlyName then f.friendlyName.drop 7 else f.friendlyName
  | none => []

def Op.funcSpan (op : Op) : Str := (op.function.map OpFunction.span).getD []

/-- The ops whose failure enqueues a recommends retry. -/
def retriesOnFailure (retryKind : Option QueryOp) : Bool :=
  retryKind == some (.body .normal) || retryKind == some .specTermination

def autoRecommends (op : Op) (retryKind : Option QueryOp) (found : Found) : Prog σ Unit :=
  if found.anyInvalid && retriesOnFailure retryKind then do
    let r ← askVir (W.retryWithRecommends op true) fun _ => [.retryWithRecommends op true]
    orStop r
  else pure ()

def Found.expandErrorsResult (found : Found) : ExpandErrorsResult :=
  if found.anyTimedOut then .timeout else if found.anyInvalid then .fail else .pass

def reportExpanded (retryKind : Option QueryOp) (found : Found) : Prog σ Unit :=
  if retryKind = some (.body .expanded) then
    askVir (fun s => ((), W.reportExpandErrorResult found.expandErrorsResult s))
      fun _ => [.reportExpandErrorResult found.expandErrorsResult]
  else pure ()

/-- The match on the kind of the op: what its checks found and, for a query, its kind. -/
def dispatch (fuel : ℕ) (op : Op) : Prog σ (Option QueryOp × Found) :=
  match op.kind with
  | .context commands => do
      feedAll W commands
      pure (none, {})
  | .query commandsWithContextList queryOp => do
      let found ← Traced.fold (runCommands W fuel queryOp op.funcName op.funcSpan) {}
        commandsWithContextList
      pure (some queryOp, found)

/-- What `handle_op` does. -/
def handleOpBody (fuel : ℕ) (op : Op) : Prog σ Unit := do
  let r ← dispatch W fuel op
  autoRecommends W op r.1 r.2
  reportExpanded W r.1 r.2

def handleOp (fuel : ℕ) (op : Op) : Prog σ Unit := do
  Traced.emit (.handleOp op)
  handleOpBody W fuel op

/-! ## The calls for one result -/

/-- A valid answer ends the probe loop. -/
lemma canProbe_of_isValid {result : ValidityResult} (h : result.isValid = true) :
    result.canProbe = false := by
  cases result with
  | valid => rfl
  | _ => simp [ValidityResult.isValid] at h

lemma mem_resultReports {c : Check} {isFirstCheck : Bool} {result : ValidityResult} {x : Call}
    (hx : x ∈ resultReports c isFirstCheck result) : ∃ msg level, x = .reportAs msg level := by
  rw [resultReports.eq_def] at hx
  split at hx
  · rcases List.mem_cons.mp hx with rfl | hx
    · exact ⟨_, _, rfl⟩
    · split_ifs at hx
      · obtain ⟨h, -, rfl⟩ := Option.map_eq_some_iff.mp (Option.mem_toList.mp hx)
        exact ⟨_, _, rfl⟩
      · exact absurd hx List.not_mem_nil
  · exact absurd hx List.not_mem_nil

lemma mem_resultVerdict {c : Check} {isFirstCheck : Bool} {result : ValidityResult} {x : Call}
    (hx : x ∈ resultVerdict c isFirstCheck result) : ∃ line, x = .verusVerdict line := by
  rw [resultVerdict] at hx
  split_ifs at hx
  · exact ⟨_, List.mem_singleton.mp hx⟩
  · exact absurd hx List.not_mem_nil

/-- What holds of every message and every verdict holds of the calls made for a result. -/
lemma forall_mem_resultCalls {p : Call → Prop} {c : Check} {isFirstCheck : Bool}
    {result : ValidityResult} (hreport : ∀ msg level, p (.reportAs msg level))
    (hverdict : ∀ line, p (.verusVerdict line)) :
    ∀ x ∈ resultCalls c isFirstCheck result, p x := by
  intro x hx
  rcases List.mem_append.mp hx with hx | hx
  · obtain ⟨msg, level, rfl⟩ := mem_resultReports hx
    exact hreport msg level
  · obtain ⟨line, rfl⟩ := mem_resultVerdict hx
    exact hverdict line

/-! ## The probe loop -/

section Probe

variable (c : Check) (b : Budget) (first : Bool) (found : Found)

/-- A result that ends the probe loop. -/
lemma probe_last {result : ValidityResult} (h : result.canProbe = false) (fuel : ℕ)
    (s : Session σ) :
    probe W c fuel b first found result s
      = ⟨.ok (found.add c result), s, resultCalls c first result⟩ := by
  cases fuel with
  | zero =>
      rw [probe, Traced.bind_ok (by rw [Traced.each_emit]), Traced.each_emit, h]
      exact congrArg (Ran.mk _ _) (List.append_nil _)
  | succ fuel =>
      rw [probe, Traced.bind_ok (by rw [Traced.each_emit]), Traced.each_emit, h]
      exact congrArg (Ran.mk _ _) (List.append_nil _)

/-- Another probe would be due, but the fuel is spent. -/
lemma probe_zero {result : ValidityResult} (h : result.canProbe = true) (s : Session σ) :
    probe W c 0 b first found result s
      = ⟨.error .outOfFuel, s, resultCalls c first result⟩ := by
  rw [probe, Traced.bind_ok (by rw [Traced.each_emit]), Traced.each_emit, h]
  exact congrArg (Ran.mk _ _) (List.append_nil _)

/-- Another probe: its result is the next to be looked at. -/
lemma probe_succ {result : ValidityResult} (h : result.canProbe = true) (fuel : ℕ)
    (s : Session σ) :
    let asked := askAir (W.checkValidAgain b.spend.onlyCheckEarlier)
      (fun r => [Call.checkValidAgain b.spend.onlyCheckEarlier r]) s
    let next := (W.checkValidAgain b.spend.onlyCheckEarlier s.env).1
    let rest := probe W c fuel b.spend false (found.add c result) next asked.state
    probe W c (fuel + 1) b first found result s
      = ⟨rest.result, rest.state, resultCalls c first result
        ++ .checkValidAgain b.spend.onlyCheckEarlier next :: rest.calls⟩ := by
  intro asked next rest
  rw [probe, Traced.bind_ok (by rw [Traced.each_emit]), Traced.each_emit, h]
  rfl

end Probe

/-! ## Relations that hold of every op -/

/-- The calls made while an op is handled, its declarations are fed or the next one is fetched. -/
def Call.withinOp : Call → Bool
  | .command _ _ => true
  | .checkValidAgain _ _ => true
  | .finishQuery => true
  | .report _ => true
  | .reportAs _ _ => true
  | .verusVerdict _ => true
  | .retryWithRecommends _ _ => true
  | .reportExpandErrorResult _ => true
  | _ => false

/-- The calls made while the checks of an op run. -/
def Call.inChecks : Call → Bool
  | .command _ _ => true
  | .checkValidAgain _ _ => true
  | .finishQuery => true
  | .reportAs _ _ => true
  | .verusVerdict _ => true
  | _ => false

lemma withinOp_of_inChecks {c : Call} (h : c.inChecks = true) : c.withinOp = true := by
  cases c <;> first | rfl | exact absurd h (by simp [Call.inChecks])

/-- A relation that holds of every question and every call, as long as the calls satisfy `p`. -/
structure Respects (p : Call → Prop) (R : Traced.Rel (Session σ) Call) : Prop where
  composes : Traced.Composes R
  askAir : ∀ {α : Type} (f : σ → α × LogText × σ) (calls : α → List Call),
    (∀ a, ∀ c ∈ calls a, p c) → Traced.Keeps R (askAir f calls)
  askVir : ∀ {α : Type} (f : σ → α × σ) (calls : α → List Call),
    (∀ a, ∀ c ∈ calls a, p c) → Traced.Keeps R (askVir f calls)
  emit : ∀ c : Call, p c → Traced.Keeps R (Traced.emit c : Prog σ Unit)

lemma respects_callsIn (p : Call → Prop) :
    Respects p (Traced.callsIn p : Traced.Rel (Session σ) Call) where
  composes := Traced.composes_callsIn p
  askAir _ _ h _ := h _
  askVir _ _ h _ := h _
  emit c h _ x hx := by
    rw [List.mem_singleton.mp hx]
    exact h

namespace Respects

variable {W} {p : Call → Prop} {R : Traced.Rel (Session σ) Call} (h : Respects p R)

include h

lemma askAir_one {α : Type} (f : σ → α × LogText × σ) {call : α → Call} (hp : ∀ a, p (call a)) :
    Traced.Keeps R (VerusExplorer.askAir f fun a => [call a]) := by
  refine h.askAir _ _ ?_
  intro a c hc
  rw [List.mem_singleton.mp hc]
  exact hp a

lemma askVir_one {α : Type} (f : σ → α × σ) {call : α → Call} (hp : ∀ a, p (call a)) :
    Traced.Keeps R (VerusExplorer.askVir f fun a => [call a]) := by
  refine h.askVir _ _ ?_
  intro a c hc
  rw [List.mem_singleton.mp hc]
  exact hp a

/-- A question of which nothing is seen. -/
lemma silent {α : Type} (f : σ → α × σ) :
    Traced.Keeps R (VerusExplorer.askVir f fun _ => []) := by
  refine h.askVir _ _ ?_
  intro _ c hc
  exact absurd hc List.not_mem_nil

lemma tellAir (f : σ → LogText × σ) {c : Call} (hp : p c) : Traced.Keeps R (tellAir f c) :=
  h.askAir_one _ fun _ => hp

lemma orStop {α : Type} (r : Except VirErr α) : Traced.Keeps R (orStop r : Prog σ α) :=
  Traced.keeps_ofExcept h.composes _

lemma feed (hp : ∀ cmd r, p (.command cmd r)) (cmd : Command) : Traced.Keeps R (feed W cmd) :=
  h.askAir_one _ (hp cmd)

lemma feedAll (hp : ∀ cmd r, p (.command cmd r)) (cmds : List Command) :
    Traced.Keeps R (feedAll W cmds) := by
  refine Traced.keeps_each h.composes cmds ?_
  intro cmd _
  exact Traced.keeps_bind h.composes (h.feed hp cmd) fun _ => Traced.keeps_pure h.composes ()

lemma autoRecommends (hp : ∀ op fromError, p (.retryWithRecommends op fromError)) (op : Op)
    (retryKind : Option QueryOp) (found : Found) :
    Traced.Keeps R (autoRecommends W op retryKind found) := by
  rw [VerusExplorer.autoRecommends]
  split_ifs
  · exact Traced.keeps_bind h.composes (h.askVir_one _ fun _ => hp op true) fun r => h.orStop r
  · exact Traced.keeps_pure h.composes ()

lemma reportExpanded (hp : ∀ res, p (.reportExpandErrorResult res)) (retryKind : Option QueryOp)
    (found : Found) : Traced.Keeps R (reportExpanded W retryKind found) := by
  rw [VerusExplorer.reportExpanded]
  split_ifs
  · exact h.askVir_one _ fun _ => hp _
  · exact Traced.keeps_pure h.composes ()

section Within

variable (hp : ∀ c : Call, c.inChecks = true → p c)

include hp

lemma emitAll {c : Check} {isFirstCheck : Bool} {result : ValidityResult} :
    Traced.Keeps R (Traced.each Traced.emit (resultCalls c isFirstCheck result) : Prog σ Unit) := by
  refine Traced.keeps_each h.composes _ ?_
  intro x hx
  exact h.emit x (forall_mem_resultCalls (fun _ _ => hp _ rfl) (fun _ => hp _ rfl) x hx)

lemma probe (c : Check) :
    ∀ (fuel : ℕ) (b : Budget) (first : Bool) (found : Found) (result : ValidityResult),
      Traced.Keeps R (probe W c fuel b first found result)
  | 0, b, first, found, result => by
      rw [VerusExplorer.probe]
      refine Traced.keeps_bind h.composes (h.emitAll hp) ?_
      intro _
      split_ifs
      · exact Traced.keeps_stop h.composes _
      · exact Traced.keeps_pure h.composes _
  | fuel + 1, b, first, found, result => by
      rw [VerusExplorer.probe]
      refine Traced.keeps_bind h.composes (h.emitAll hp) ?_
      intro _
      split_ifs
      · refine Traced.keeps_bind h.composes (h.askAir_one _ fun _ => hp _ rfl) ?_
        intro next
        exact probe c fuel _ _ _ next
      · exact Traced.keeps_pure h.composes _

lemma runCommand (fuel : ℕ) (c : Check) (found : Found) (cmd : Command) :
    Traced.Keeps R (runCommand W fuel c found cmd) := by
  refine Traced.keeps_bind h.composes (h.feed (fun _ _ => hp _ rfl) cmd) ?_
  intro result
  cases cmd with
  | checkValid query =>
      refine Traced.keeps_bind h.composes (h.probe hp c fuel {} true found result) ?_
      intro found
      exact Traced.keeps_bind h.composes (h.tellAir _ (hp _ rfl)) fun _ =>
        Traced.keeps_pure h.composes found
  | _ => exact Traced.keeps_pure h.composes found

lemma dispatch (fuel : ℕ) (op : Op) : Traced.Keeps R (dispatch W fuel op) := by
  rw [VerusExplorer.dispatch]
  split
  · exact Traced.keeps_bind h.composes (h.feedAll (fun _ _ => hp _ rfl) _) fun _ =>
      Traced.keeps_pure h.composes _
  · refine Traced.keeps_bind h.composes ?_ fun _ => Traced.keeps_pure h.composes _
    refine Traced.keeps_fold h.composes ?_ _ _
    intro found cmds
    exact Traced.keeps_fold h.composes (fun found cmd => h.runCommand hp fuel _ found cmd) _ _

end Within

/-- What holds of the single steps holds of handling an op. -/
lemma handleOpBody (hp : ∀ c : Call, c.withinOp = true → p c) (fuel : ℕ) (op : Op) :
    Traced.Keeps R (handleOpBody W fuel op) := by
  refine Traced.keeps_bind h.composes
    (h.dispatch (fun c hc => hp c (withinOp_of_inChecks hc)) fuel op) ?_
  intro r
  refine Traced.keeps_bind h.composes (h.autoRecommends (fun _ _ => hp _ rfl) op r.1 r.2) ?_
  intro _
  exact h.reportExpanded (fun _ => hp _ rfl) r.1 r.2

end Respects

end VerusExplorer
