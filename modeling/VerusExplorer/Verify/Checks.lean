import VerusExplorer.Lib.Segments
import VerusExplorer.Verify.Queries

/-!
# The checks of an op

Verdicts are streamed from a loop inside a loop inside a loop (`handle_op`, `verus.rs`).  A reader
of the trace of a run can tell the ops apart, and in an op the checks: a `CheckValid` command with
the probes that follow it.

* `opSegments`, `checkSegments` cut the trace, `errorChecks` are the checks of the ops whose
  failures are errors.
* `ProbeCalls`, `Checked`, `OpTrace` — what the calls of a probe loop, of some commands and of an
  op look like, whichever way they end.
* **`opTrace_handleOpBody`** — the calls made for an op are of that form.
-/

namespace VerusExplorer

open Utf16 Segments

/-! ## Reading the trace -/

/-- The op a call starts the handling of. -/
def Call.startsOp : Call → Option Op
  | .handleOp op => some op
  | _ => none

def Call.endsOp : Call → Bool
  | .sectionClose => true
  | _ => false

/-- The first result of a check. -/
def Call.startsCheck : Call → Option ValidityResult
  | .command (.checkValid _) r => some r
  | _ => none

def Call.endsCheck : Call → Bool
  | .finishQuery => true
  | _ => false

/-- The result of a probe. -/
def Call.probed : Call → Option ValidityResult
  | .checkValidAgain _ r => some r
  | _ => none

/-- The command fed. -/
def Call.fed : Call → Option Command
  | .command cmd _ => some cmd
  | _ => none

/-- The entry the page makes of a streamed verdict. -/
def Call.entry : Call → Option VerdictEntry
  | .verusVerdict line => parseVerdict (encode line)
  | _ => none

/-- The verdicts on the page. -/
def entries (calls : List Call) : List VerdictEntry := calls.filterMap Call.entry

/-- The ops handled, each with the calls made until its section is closed. -/
def opSegments (calls : List Call) : List (Op × List Call) :=
  segments Call.startsOp Call.endsOp calls

/-- The checks, each with its first result and the calls made until the query is finished. -/
def checkSegments (calls : List Call) : List (ValidityResult × List Call) :=
  segments Call.startsCheck Call.endsCheck calls

/-- The results of the probes of a check. -/
def probeResults (seg : ValidityResult × List Call) : List ValidityResult :=
  seg.2.filterMap Call.probed

/-- All the results of a check. -/
def checkResults (seg : ValidityResult × List Call) : List ValidityResult :=
  seg.1 :: probeResults seg

/-- Every check is finished. -/
def AllFinished (calls : List Call) : Prop := Closed Call.startsCheck Call.endsCheck calls

/-- The query ops whose failures are errors. -/
def Op.isErrorQuery (op : Op) : Bool :=
  match op.kind with
  | .query _ .specTermination => true
  | .query _ (.body .normal) => true
  | .query _ (.body .expanded) => true
  | .query _ (.body .checkApiSafety) => true
  | _ => false

/-- The commands of an op, in order. -/
def Op.commands (op : Op) : List Command :=
  match op.kind with
  | .context commands => commands
  | .query commandsWithContextList _ => commandsWithContextList.flatMap (·.commands)

/-- The checks of the ops whose failures are errors. -/
def errorChecks (calls : List Call) : List (ValidityResult × List Call) :=
  (opSegments calls).flatMap fun p => if p.1.isErrorQuery then checkSegments p.2 else []

/-! ## Calls that do not matter -/

/-- A call that is no part of a check. -/
def Call.plain (c : Call) : Prop := c.startsCheck = none ∧ c.endsCheck = false ∧ c.fed = none

/-- A call that neither starts an op nor brings a verdict. -/
def Call.outside (c : Call) : Prop := c.startsOp = none ∧ c.entry = none

lemma entries_append (c d : List Call) : entries (c ++ d) = entries c ++ entries d :=
  List.filterMap_append

lemma entries_eq_nil {calls : List Call} (h : ∀ x ∈ calls, x.entry = none) : entries calls = [] :=
  List.filterMap_eq_nil_iff.mpr h

/-! ## A check -/

/-- The entry for a result. -/
def Check.entry (c : Check) (r : ValidityResult) : VerdictEntry :=
  (Verdict.fromResult r c.funcName c.funcSpan c.queryOp).entry

/-- The results that get a verdict: the first one, and then those that are not valid. -/
def counted (isFirstCheck : Bool) (r : ValidityResult) (rs : List ValidityResult) :
    List ValidityResult :=
  (if isFirstCheck || !r.isValid then [r] else []) ++ rs.filter fun r => !r.isValid

lemma entries_resultReports (c : Check) (isFirstCheck : Bool) (r : ValidityResult) :
    entries (resultReports c isFirstCheck r) = [] := by
  refine entries_eq_nil ?_
  intro x hx
  obtain ⟨msg, level, rfl⟩ := mem_resultReports hx
  rfl

/-- One result has a verdict if the op counts and the result does. -/
lemma entries_resultCalls (c : Check) (isFirstCheck : Bool) (r : ValidityResult) :
    entries (resultCalls c isFirstCheck r)
      = if c.queryOp.level = .error then (counted isFirstCheck r []).map c.entry else [] := by
  rw [resultCalls, entries_append, entries_resultReports, List.nil_append, resultVerdict]
  by_cases hlevel : c.queryOp.level = .error
  · by_cases hpush : (isFirstCheck || !r.isValid) = true
    · simp [hlevel, hpush, counted, entries, Call.entry, parseVerdict_toJson, Check.entry]
    · simp [hlevel, hpush, counted, entries]
  · simp [hlevel, entries]

/-- The calls of a probe loop that starts with the result `r`. -/
structure ProbeCalls (c : Check) (isFirstCheck : Bool) (r : ValidityResult) (calls : List Call) :
    Prop where
  plain : ∀ x ∈ calls, x.plain
  entries : entries calls
    = if c.queryOp.level = .error then
        (counted isFirstCheck r (calls.filterMap Call.probed)).map c.entry
      else []
  last : r.canProbe = false → calls.filterMap Call.probed = []

lemma plain_resultCalls (c : Check) (isFirstCheck : Bool) (r : ValidityResult) :
    ∀ x ∈ resultCalls c isFirstCheck r, x.plain :=
  forall_mem_resultCalls (fun _ _ => ⟨rfl, rfl, rfl⟩) fun _ => ⟨rfl, rfl, rfl⟩

lemma probed_resultCalls (c : Check) (isFirstCheck : Bool) (r : ValidityResult) :
    (resultCalls c isFirstCheck r).filterMap Call.probed = [] :=
  List.filterMap_eq_nil_iff.mpr (forall_mem_resultCalls (fun _ _ => rfl) fun _ => rfl)

lemma probeCalls_resultCalls (c : Check) (isFirstCheck : Bool) (r : ValidityResult) :
    ProbeCalls c isFirstCheck r (resultCalls c isFirstCheck r) where
  plain := plain_resultCalls c isFirstCheck r
  entries := by rw [probed_resultCalls, entries_resultCalls]
  last _ := probed_resultCalls c isFirstCheck r

/-- One more probe in front. -/
lemma ProbeCalls.cons {c : Check} {r next : ValidityResult} {rest : List Call}
    (h : ProbeCalls c false next rest) (hr : r.canProbe = true) (isFirstCheck only : Bool) :
    ProbeCalls c isFirstCheck r
      (resultCalls c isFirstCheck r ++ .checkValidAgain only next :: rest) := by
  have hprobed : (resultCalls c isFirstCheck r ++ .checkValidAgain only next :: rest).filterMap
      Call.probed = next :: rest.filterMap Call.probed := by
    rw [List.filterMap_append, probed_resultCalls]
    rfl
  refine ⟨fun x hx => ?_, ?_, fun hlast => absurd hlast (by simp [hr])⟩
  · rcases List.mem_append.mp hx with hx | hx
    · exact plain_resultCalls c isFirstCheck r x hx
    · rcases List.mem_cons.mp hx with rfl | hx
      · exact ⟨rfl, rfl, rfl⟩
      · exact h.plain x hx
  · have hrest : VerusExplorer.entries (.checkValidAgain only next :: rest)
        = VerusExplorer.entries rest := rfl
    rw [hprobed, entries_append, entries_resultCalls, hrest, h.entries]
    split_ifs with hlevel
    · rw [← List.map_append]
      simp only [counted, List.filter_nil, List.append_nil, Bool.false_or, List.filter_cons]
      cases next.isValid <;> rfl
    · rfl

/-- Whatever the solver answers and however often the loop goes round. -/
lemma probeCalls_probe {σ F : Type} (W : World σ F) (c : Check) :
    ∀ (fuel : ℕ) (b : Budget) (first : Bool) (found : Found) (r : ValidityResult) (s : Session σ),
      ProbeCalls c first r (probe W c fuel b first found r s).calls
  | 0, b, first, found, r, s => by
      cases hr : r.canProbe with
      | false =>
          rw [probe_last W c b first found hr]
          exact probeCalls_resultCalls c first r
      | true =>
          rw [probe_zero W c b first found hr]
          exact probeCalls_resultCalls c first r
  | fuel + 1, b, first, found, r, s => by
      cases hr : r.canProbe with
      | false =>
          rw [probe_last W c b first found hr]
          exact probeCalls_resultCalls c first r
      | true =>
          rw [probe_succ W c b first found hr]
          exact (probeCalls_probe W c fuel _ false _ _ _).cons hr first _

/-! ## The commands of a query op -/

/-- What the verdicts of a query op are made of: the entry for a result, if the op's failures are
errors. -/
structure Tally where
  isError : Bool
  entry : ValidityResult → VerdictEntry

def Op.tally (op : Op) (queryOp : QueryOp) : Tally where
  isError := queryOp.level == .error
  entry r := (Verdict.fromResult r op.funcName op.funcSpan queryOp).entry

/-- A check that got the verdicts it should: all it counts, and no probe after a pass. -/
structure Tally.CheckOk (t : Tally) (seg : ValidityResult × List Call) : Prop where
  entries : entries seg.2
    = if t.isError then (counted true seg.1 (probeResults seg)).map t.entry else []
  last : seg.1.canProbe = false → probeResults seg = []

/-- The calls made for the commands `cmds`, or for the first of them if a check did not finish. -/
structure Checked (t : Tally) (cmds : List Command) (returned : Bool) (calls : List Call) :
    Prop where
  fed : calls.filterMap Call.fed <+: cmds
  complete : returned = true → calls.filterMap Call.fed = cmds ∧ AllFinished calls
  cutShort : returned = false → ¬AllFinished calls
  entries : entries calls = (checkSegments calls).flatMap fun seg => entries seg.2
  checks : ∀ seg ∈ checkSegments calls, t.CheckOk seg

variable {σ F : Type} (W : World σ F) {t : Tally}

/-- Calls that are no part of a check, and bring no verdict, go with no command. -/
lemma checked_of_plain {calls : List Call} (h : ∀ x ∈ calls, x.plain ∧ x.entry = none) :
    Checked t [] true calls := by
  have hfed : calls.filterMap Call.fed = [] :=
    List.filterMap_eq_nil_iff.mpr fun x hx => (h x hx).1.2.2
  have hstart : ∀ x ∈ calls, x.startsCheck = none := fun x hx => (h x hx).1.1
  have hnone : checkSegments calls = [] := segments_of_no_start hstart
  refine ⟨hfed ▸ List.prefix_refl _, fun _ => ⟨hfed, closed_of_no_start hstart⟩, ?_, ?_, ?_⟩
  · intro hfalse
    exact absurd hfalse (by simp)
  · rw [hnone, entries_eq_nil fun x hx => (h x hx).2]
    rfl
  · rw [hnone]
    intro seg hseg
    exact absurd hseg List.not_mem_nil

lemma Checked.append {xs ys : List Command} {b : Bool} {c d : List Call}
    (hc : Checked t xs true c) (hd : Checked t ys b d) : Checked t (xs ++ ys) b (c ++ d) := by
  obtain ⟨hfed, hfin⟩ := hc.complete rfl
  have hsegs : checkSegments (c ++ d) = checkSegments c ++ checkSegments d :=
    segments_append d hfin
  refine ⟨?_, fun hb => ⟨?_, ?_⟩, fun hb hall => ?_, ?_, fun seg hseg => ?_⟩
  · rw [List.filterMap_append, hfed]
    exact (List.prefix_append_right_inj xs).mpr hd.fed
  · rw [List.filterMap_append, hfed, (hd.complete hb).1]
  · exact Closed.append hfin (hd.complete hb).2
  · exact hd.cutShort hb hall.of_append_right
  · rw [entries_append, hsegs, List.flatMap_append, hc.entries, hd.entries]
  · rw [hsegs] at hseg
    exact (List.mem_append.mp hseg).elim (hc.checks seg) (hd.checks seg)

/-- The same as a relation between the states before and after a program. -/
def checked (t : Tally) (cmds : List Command) : Traced.Rel (Session σ) Call :=
  fun b _ _ calls => Checked t cmds b calls

lemma collects_checked : Traced.Collects (checked (σ := σ) t) where
  nil _ := checked_of_plain fun _ hx => absurd hx List.not_mem_nil
  append h₁ h₂ := h₁.append h₂
  stop ys h :=
    { fed := h.fed.trans (List.prefix_append _ ys)
      complete := fun hb => absurd hb (by simp)
      cutShort := h.cutShort
      entries := h.entries
      checks := h.checks }

/-- A command that is no check. -/
lemma checked_command {cmd : Command} {r : ValidityResult}
    (h : (Call.command cmd r).startsCheck = none) : Checked t [cmd] true [.command cmd r] := by
  have hstart : ∀ x ∈ [Call.command cmd r], x.startsCheck = none := by
    intro x hx
    rw [List.mem_singleton.mp hx]
    exact h
  have hnone : checkSegments [.command cmd r] = [] := segments_of_no_start hstart
  refine ⟨List.prefix_refl _, fun _ => ⟨rfl, closed_of_no_start hstart⟩, ?_, ?_, ?_⟩
  · intro hfalse
    exact absurd hfalse (by simp)
  · rw [hnone]
    rfl
  · rw [hnone]
    intro seg hseg
    exact absurd hseg List.not_mem_nil

lemma takeWhile_eq_self_of_plain {calls : List Call} (h : ∀ x ∈ calls, x.plain) :
    calls.takeWhile (fun x => !x.endsCheck) = calls := by
  rw [List.takeWhile_eq_self_iff]
  intro x hx
  simp [(h x hx).2.1]

lemma fed_of_plain {calls : List Call} (h : ∀ x ∈ calls, x.plain) :
    calls.filterMap Call.fed = [] := List.filterMap_eq_nil_iff.mpr fun x hx => (h x hx).2.2

section CheckCommand

variable {c : Check} {r : ValidityResult} {calls : List Call} (h : ProbeCalls c true r calls)
  (ht : t.isError = (c.queryOp.level == .error)) (hentry : t.entry = c.entry) (query : Str)

include h

lemma ProbeCalls.fed : (Call.command (.checkValid query) r :: calls).filterMap Call.fed
    = [.checkValid query] := by
  rw [List.filterMap_cons, fed_of_plain h.plain]
  rfl

include ht hentry

lemma ProbeCalls.checkOk : t.CheckOk (r, calls) := by
  refine ⟨?_, h.last⟩
  rw [h.entries, ht, hentry]
  simp [probeResults]

/-- A check that ran to its end. -/
lemma checked_finished :
    Checked t [.checkValid query] true
      (.command (.checkValid query) r :: calls ++ [.finishQuery]) := by
  have hpiece : checkSegments (.command (.checkValid query) r :: calls ++ [.finishQuery])
        = [(r, calls)]
      ∧ AllFinished (.command (.checkValid query) r :: calls ++ [.finishQuery]) :=
    segments_piece rfl (fun y hy => ⟨(h.plain y hy).1, (h.plain y hy).2.1⟩) rfl rfl
  have hfed : (Call.command (.checkValid query) r :: calls ++ [Call.finishQuery]).filterMap
      Call.fed = [.checkValid query] := by
    rw [List.filterMap_append, h.fed]
    rfl
  refine ⟨hfed ▸ List.prefix_refl _, fun _ => ⟨hfed, hpiece.2⟩, ?_, ?_, ?_⟩
  · intro hfalse
    exact absurd hfalse (by simp)
  · rw [hpiece.1, entries_append]
    show VerusExplorer.entries calls ++ [] = VerusExplorer.entries calls ++ []
    rfl
  · rw [hpiece.1]
    intro seg hseg
    rw [List.mem_singleton.mp hseg]
    exact h.checkOk ht hentry

/-- A check that was cut short in its probe loop. -/
lemma checked_cut :
    Checked t [.checkValid query] false (.command (.checkValid query) r :: calls) := by
  have hstart : ∀ x ∈ calls, x.startsCheck = none := fun x hx => (h.plain x hx).1
  have hopen : checkSegments (.command (.checkValid query) r :: calls) = [(r, calls)] := by
    show (r, calls.takeWhile fun x => !x.endsCheck) :: checkSegments calls = _
    rw [takeWhile_eq_self_of_plain h.plain, checkSegments, segments_of_no_start hstart]
  refine ⟨h.fed query ▸ List.prefix_refl _, ?_, ?_, ?_, ?_⟩
  · intro htrue
    exact absurd htrue (by simp)
  · intro _ hall
    obtain ⟨y, hy, hends⟩ := hall.1 rfl
    rw [(h.plain y hy).2.1] at hends
    exact absurd hends (by simp)
  · rw [hopen]
    show VerusExplorer.entries calls = VerusExplorer.entries calls ++ []
    rw [List.append_nil]
  · rw [hopen]
    intro seg hseg
    rw [List.mem_singleton.mp hseg]
    exact h.checkOk ht hentry

end CheckCommand

/-- One command of a query op. -/
lemma checked_runCommand (fuel : ℕ) {c : Check} (ht : t.isError = (c.queryOp.level == .error))
    (hentry : t.entry = c.entry) (found : Found) (cmd : Command) :
    Traced.Keeps (checked t [cmd]) (runCommand W fuel c found cmd) := by
  intro s
  cases cmd with
  | checkValid query =>
      let r := (W.command (.checkValid query) s.env).1
      have hprobe := probeCalls_probe W c fuel {} true found r (feed W (.checkValid query) s).state
      have hfeed : (feed W (.checkValid query) s).result = .ok r := rfl
      rw [runCommand, Traced.bind_ok hfeed]
      cases hp : (probe W c fuel {} true found r (feed W (.checkValid query) s).state).result with
      | error e =>
          simp only [Traced.bind_error hp]
          exact checked_cut hprobe ht hentry query
      | ok found' =>
          simp only [Traced.bind_ok hp]
          exact checked_finished hprobe ht hentry query
  | push => exact checked_command rfl
  | pop => exact checked_command rfl
  | setOption key value => exact checked_command rfl
  | global decl => exact checked_command rfl

/-- All the commands of a query op. -/
lemma checked_queries (fuel : ℕ) (op : Op) (queryOp : QueryOp) (list : List CommandsWithContext) :
    Traced.Keeps (checked (op.tally queryOp) (list.flatMap (·.commands)))
      (Traced.fold (runCommands W fuel queryOp op.funcName op.funcSpan) ({} : Found) list) := by
  refine Traced.keeps_fold_flatMap collects_checked _ (fun found cmds => ?_) list _
  have hfold := Traced.keeps_fold_flatMap (collects_checked (σ := σ) (t := op.tally queryOp))
    (fun cmd => [cmd]) (fun found cmd => checked_runCommand W fuel
      (c := ⟨cmds.hintUponFailure, cmds.proverChoice, queryOp, op.funcName, op.funcSpan⟩)
      rfl rfl found cmd) cmds.commands found
  rwa [List.flatMap_singleton'] at hfold

/-! ## An op -/

/-- The calls made for an op. -/
def OpTrace (op : Op) (calls : List Call) : Prop :=
  match op.kind with
  | .context commands => calls.filterMap Call.fed = commands ∧ entries calls = []
  | .query list queryOp =>
      ∃ returned, Checked (op.tally queryOp) (list.flatMap (·.commands)) returned calls

/-- A call that is made once the commands of an op are through. -/
def Call.after (c : Call) : Prop := c.plain ∧ c.entry = none

lemma feedAll_run : ∀ (cmds : List Command) (s : Session σ),
    (feedAll W cmds s).result = .ok ()
      ∧ (feedAll W cmds s).calls.filterMap Call.fed = cmds
      ∧ ∀ x ∈ (feedAll W cmds s).calls, x.outside
  | [], s => ⟨rfl, rfl, fun _ hx => absurd hx List.not_mem_nil⟩
  | cmd :: cmds, s => by
      obtain ⟨hresult, hfed, houtside⟩ := feedAll_run cmds (feed W cmd s).state
      have hrun : feedAll W (cmd :: cmds) s
          = ⟨(feedAll W cmds (feed W cmd s).state).result,
            (feedAll W cmds (feed W cmd s).state).state,
            .command cmd (W.command cmd s.env).1 :: (feedAll W cmds (feed W cmd s).state).calls⟩ :=
        rfl
      rw [hrun]
      refine ⟨hresult, ?_, fun x hx => ?_⟩
      · rw [List.filterMap_cons]
        show cmd :: _ = _
        rw [hfed]
      · rcases List.mem_cons.mp hx with rfl | hx
        · exact ⟨rfl, rfl⟩
        · exact houtside x hx

lemma dispatch_context (fuel : ℕ) {op : Op} {commands : List Command}
    (h : op.kind = .context commands) (s : Session σ) :
    dispatch W fuel op s
      = ⟨.ok (none, {}), (feedAll W commands s).state, (feedAll W commands s).calls⟩ := by
  rw [dispatch, h]
  exact (Traced.bind_ok (feedAll_run W commands s).1).trans
    (congrArg (Ran.mk _ _) (List.append_nil _))

lemma dispatch_query (fuel : ℕ) {op : Op} {list : List CommandsWithContext} {queryOp : QueryOp}
    (h : op.kind = .query list queryOp) (s : Session σ) :
    let ran := Traced.fold (runCommands W fuel queryOp op.funcName op.funcSpan) {} list s
    dispatch W fuel op s
      = ⟨ran.result.map fun found => (some queryOp, found), ran.state, ran.calls⟩ := by
  intro ran
  rw [dispatch, h]
  cases hr : ran.result with
  | error e => exact Traced.bind_error hr
  | ok found => exact (Traced.bind_ok hr).trans (congrArg (Ran.mk _ _) (List.append_nil _))

/-- Whatever happens in an op, its calls are as they should be. -/
lemma opTrace_handleOpBody (fuel : ℕ) (op : Op) (s : Session σ) :
    OpTrace op (handleOpBody W fuel op s).calls := by
  have hafter := respects_callsIn (σ := σ) Call.after
  have htail : ∀ r : Option QueryOp × Found, Traced.Keeps (Traced.callsIn Call.after)
      (do
        autoRecommends W op r.1 r.2
        reportExpanded W r.1 r.2 : Prog σ Unit) := by
    intro r
    refine Traced.keeps_bind hafter.composes ?_ ?_
    · exact hafter.autoRecommends (fun _ _ => ⟨⟨rfl, rfl, rfl⟩, rfl⟩) op r.1 r.2
    · intro _
      exact hafter.reportExpanded (fun _ => ⟨⟨rfl, rfl, rfl⟩, rfl⟩) r.1 r.2
  rw [OpTrace]
  cases hk : op.kind with
  | context commands =>
      obtain ⟨-, hfed, houtside⟩ := feedAll_run W commands s
      have hrest := htail (none, {}) (feedAll W commands s).state
      rw [handleOpBody, Traced.bind_ok (by rw [dispatch_context W fuel hk]),
        dispatch_context W fuel hk]
      constructor
      · rw [List.filterMap_append, hfed, fed_of_plain fun x hx => (hrest x hx).1,
          List.append_nil]
      · rw [entries_append, entries_eq_nil fun x hx => (houtside x hx).2,
          entries_eq_nil fun x hx => (hrest x hx).2]
        rfl
  | query list queryOp =>
      have hqueries : Checked _ _ _ _ := checked_queries W fuel op queryOp list s
      have hdispatch := dispatch_query W fuel hk s
      cases hr : (Traced.fold (runCommands W fuel queryOp op.funcName op.funcSpan) {} list
          s).result with
      | error e =>
          rw [hr] at hqueries
          rw [handleOpBody, Traced.bind_error (by rw [hdispatch, hr]; rfl), hdispatch]
          exact ⟨false, hqueries⟩
      | ok found =>
          rw [hr] at hqueries
          rw [handleOpBody, Traced.bind_ok (by rw [hdispatch, hr]; rfl), hdispatch]
          refine ⟨true, ?_⟩
          rw [← List.append_nil (list.flatMap _)]
          exact hqueries.append (checked_of_plain (htail (some queryOp, found) _))

end VerusExplorer
