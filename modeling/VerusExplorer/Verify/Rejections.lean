import VerusExplorer.Verify.Verdicts

/-!
# Rejected commands

AIR answers every command.  `Feeder::feed_all` (`verus.rs`) looks at none of the answers, and of a
query op's commands `handle_op` looks at those to `CheckValid` only; the others are dropped.

* `Dropped` — the commands of a run whose answer is dropped, `Watched` — those that a reader would
  want to hear of if they are rejected.
* `runQueries_answering` — a run is the same whatever the answers that are dropped.
* **`rejected_surfaces`** — with no dropped command rejected, every rejection comes out.
-/

namespace VerusExplorer

open Segments

variable {σ F : Type} (W : World σ F)

/-- AIR did not accept the command. -/
def Call.rejected : Call → Bool
  | .command _ r => !r.isValid
  | _ => false

def Call.isReport : Call → Bool
  | .report _ => true
  | .reportAs _ _ => true
  | _ => false

def Op.isContext (op : Op) : Bool :=
  match op.kind with
  | .context _ => true
  | .query _ _ => false

/-- The commands of the preamble, of the Context ops and of the ops whose failures are errors. -/
def Watched (fuel : Fuel) (krateSst : KrateSst F) (s : Session σ) (c : Call) : Prop :=
  c ∈ (feedModuleDecls W krateSst s).calls
    ∨ ∃ p ∈ opSegments (runQueries W fuel krateSst s).calls,
      (p.1.isContext = true ∨ p.1.isErrorQuery = true) ∧ c ∈ p.2

/-- Those of them whose answer is not looked at. -/
def Dropped (fuel : Fuel) (krateSst : KrateSst F) (s : Session σ) (c : Call) : Prop :=
  c ∈ (feedModuleDecls W krateSst s).calls
    ∨ ∃ p ∈ opSegments (runQueries W fuel krateSst s).calls,
      (p.1.isContext = true ∨ p.1.isErrorQuery = true ∧ c.startsCheck = none) ∧ c ∈ p.2

/-- A failing verdict, a diagnostic or an error comes of the run. -/
def Surfaces (ran : Ran (Session σ) Call Stop Unit) : Prop :=
  (∃ v ∈ entries ran.calls, v.proved = false) ∨ (∃ c ∈ ran.calls, c.isReport = true)
    ∨ ∃ e, ran.result = .error (.err e)

/-! ## Answers that are looked at -/

/-- A rejected check of an op whose failures are errors has a failing verdict. -/
lemma exists_failing_of_tallied {calls : List Call} (h : Tallied calls) {p : Op × List Call}
    (hp : p ∈ opSegments calls) (herr : p.1.isErrorQuery = true) {c : Call} (hc : c ∈ p.2)
    {r : ValidityResult} (hstart : c.startsCheck = some r) (hr : r.isValid = false) :
    ∃ v ∈ entries calls, v.proved = false := by
  obtain ⟨seg, hseg, rfl⟩ : ∃ seg ∈ checkSegments p.2, seg.1 = r := exists_segment hc hstart
  have hout : false ∈ (entries p.2).map VerdictEntry.proved := by
    rw [((h.ops p hp).of_error herr).1]
    exact List.mem_flatMap.mpr ⟨seg, hseg, by simp [outcomes, counted, hr]⟩
  obtain ⟨v, hv, hproved⟩ := List.mem_map.mp hout
  refine ⟨v, ?_, hproved⟩
  rw [h.entries]
  exact List.mem_flatMap.mpr ⟨p, hp, hv⟩

/-- What is watched and not dropped is a check. -/
lemma Watched.check {fuel : Fuel} {krateSst : KrateSst F} {s : Session σ} {c : Call}
    (h : Watched W fuel krateSst s c) (hd : ¬ Dropped W fuel krateSst s c) :
    ∃ p ∈ opSegments (runQueries W fuel krateSst s).calls,
      p.1.isErrorQuery = true ∧ c ∈ p.2 ∧ c.startsCheck ≠ none := by
  rcases h with hpre | ⟨p, hp, hkind, hc⟩
  · exact absurd (Or.inl hpre) hd
  · rcases hkind with hcontext | herr
    · exact absurd (Or.inr ⟨p, hp, .inl hcontext, hc⟩) hd
    · refine ⟨p, hp, herr, hc, fun hnone => hd (.inr ⟨p, hp, .inr ⟨herr, hnone⟩, hc⟩)⟩

lemma rejected_of_startsCheck {c : Call} {r : ValidityResult} (h : c.startsCheck = some r)
    (hc : c.rejected = true) : r.isValid = false := by
  rw [Call.startsCheck.eq_def] at h
  split at h
  · obtain rfl := Option.some.inj h
    simpa [Call.rejected] using hc
  · cases h

/-! ## Answers that are not -/

/-- The command is a check. -/
def Command.isCheck : Command → Bool
  | .checkValid _ => true
  | _ => false

/-- The same crates, except that AIR answers as `answer` says where it is not asked for a check. -/
def World.answering (answer : Command → σ → ValidityResult) : World σ F :=
  { W with
    command := fun cmd s =>
      (if cmd.isCheck then (W.command cmd s).1 else answer cmd s, (W.command cmd s).2) }

/-- A call without the answer to a command that is no check. -/
def Call.unanswered : Call → Call
  | .command cmd r => .command cmd (if cmd.isCheck then r else .valid)
  | c => c

section Answering

variable (answer : Command → σ → ValidityResult)

lemma alike_feed (cmd : Command) :
    Traced.Alike Call.unanswered (do let _ ← feed (W.answering answer) cmd : Prog σ Unit)
      (do let _ ← feed W cmd) := by
  intro s
  refine ⟨rfl, rfl, ?_⟩
  show [Call.unanswered _] = [Call.unanswered _]
  cases cmd <;> rfl

lemma alike_feedAll (cmds : List Command) :
    Traced.Alike Call.unanswered (feedAll (W.answering answer) cmds) (feedAll W cmds) :=
  Traced.Alike.each (alike_feed W answer) cmds

lemma probe_answering (c : Check) : ∀ (fuel : ℕ) (b : Budget) (first : Bool) (found : Found)
    (r : ValidityResult),
    probe (W.answering answer) c fuel b first found r = probe W c fuel b first found r
  | 0, b, first, found, r => rfl
  | fuel + 1, b, first, found, r => by
      rw [probe, probe]
      simp only [probe_answering c fuel]
      rfl

/-- One command of a query op. -/
lemma alike_runCommand (fuel : ℕ) (c : Check) (found : Found) (cmd : Command) :
    Traced.Alike Call.unanswered (runCommand (W.answering answer) fuel c found cmd)
      (runCommand W fuel c found cmd) := by
  intro s
  cases cmd with
  | checkValid query =>
      have hprobe := fun r => probe_answering W answer c fuel {} true found r
      have hsame : runCommand (W.answering answer) fuel c found (.checkValid query) s
          = runCommand W fuel c found (.checkValid query) s := by
        rw [runCommand, runCommand]
        simp only [hprobe]
        rfl
      rw [hsame]
      exact ⟨rfl, rfl, rfl⟩
  | _ => exact ⟨rfl, rfl, rfl⟩

lemma alike_dispatch (fuel : ℕ) (op : Op) :
    Traced.Alike Call.unanswered (dispatch (W.answering answer) fuel op) (dispatch W fuel op) := by
  rw [dispatch, dispatch]
  cases op.kind with
  | context commands => exact (alike_feedAll W answer commands).bind fun _ => .refl _
  | query list queryOp =>
      refine Traced.Alike.bind ?_ fun _ => .refl _
      refine Traced.Alike.fold ?_ _ _
      intro found cmds
      exact Traced.Alike.fold (fun found cmd => alike_runCommand W answer fuel _ found cmd) _ _

lemma alike_handleOp (fuel : ℕ) (op : Op) :
    Traced.Alike Call.unanswered (handleOp (W.answering answer) fuel op) (handleOp W fuel op) :=
  (Traced.Alike.refl _).bind fun _ => (alike_dispatch W answer fuel op).bind fun _ => .refl _

lemma alike_stepOp (fuel : ℕ) (op : Op) :
    Traced.Alike Call.unanswered (stepOp (W.answering answer) fuel op) (stepOp W fuel op) := by
  refine (Traced.Alike.refl _).bind fun _ => (Traced.Alike.refl _).bind fun s => ?_
  refine (Traced.Alike.refl _).bind fun _ => ?_
  exact (alike_handleOp W answer fuel op).attempt.bind fun _ => .refl _

lemma alike_functionLoop (probeFuel : ℕ) : ∀ fuel : ℕ,
    Traced.Alike Call.unanswered (functionLoop (W.answering answer) probeFuel fuel)
      (functionLoop W probeFuel fuel)
  | 0 => .refl _
  | fuel + 1 => by
      rw [functionLoop, functionLoop]
      refine (Traced.Alike.refl (nextOp W)).bind ?_
      intro op
      cases op with
      | none => exact .refl (pure ())
      | some op =>
          exact (alike_stepOp W answer probeFuel op).bind fun _ => alike_functionLoop probeFuel fuel

lemma alike_opLoop (probeFuel opFuel : ℕ) : ∀ fuel : ℕ,
    Traced.Alike Call.unanswered (opLoop (W.answering answer) probeFuel opFuel fuel)
      (opLoop W probeFuel opFuel fuel)
  | 0 => .refl _
  | fuel + 1 => by
      rw [opLoop, opLoop]
      refine (Traced.Alike.refl (askVir W.opgenNext fun _ => [])).bind ?_
      intro r
      refine (Traced.Alike.refl (orStop r)).bind ?_
      intro more
      split_ifs
      · exact (alike_functionLoop W answer probeFuel opFuel).bind fun _ =>
          alike_opLoop probeFuel opFuel fuel
      · exact .refl _

lemma alike_feedModuleDecls (krateSst : KrateSst F) :
    Traced.Alike Call.unanswered (feedModuleDecls (W.answering answer) krateSst)
      (feedModuleDecls W krateSst) := by
  refine (alike_feedAll W answer W.prelude).bind fun _ => ?_
  refine (Traced.Alike.refl (askVir (W.buildBucketPreamble krateSst) fun _ => [])).bind ?_
  intro batches
  refine (Traced.Alike.each (alike_feedAll W answer) batches).bind fun _ => ?_
  refine Traced.Alike.each ?_ krateSst.functions
  intro f
  exact (Traced.Alike.refl (orStop (W.funcNameToAir f))).bind fun cmds =>
    alike_feedAll W answer cmds

/-- **A run does not depend on the answers to what is no check**: it ends the same way in the same
state, and makes the same calls but for these answers. -/
theorem runQueries_answering (fuel : Fuel) (krateSst : KrateSst F) :
    Traced.Alike Call.unanswered (runQueries (W.answering answer) fuel krateSst)
      (runQueries W fuel krateSst) := by
  refine (alike_feedModuleDecls W answer krateSst).bind fun _ => ?_
  refine (Traced.Alike.refl _).bind fun _ => (Traced.Alike.refl _).bind fun _ => ?_
  refine (Traced.Alike.refl _).bind fun _ => (Traced.Alike.refl _).bind fun _ => ?_
  refine (alike_opLoop W answer _ _ _).attempt.bind fun result => .refl _

end Answering

lemma entry_unanswered (c : Call) : c.unanswered.entry = c.entry := by
  cases c <;> rfl

lemma isReport_unanswered (c : Call) : c.unanswered.isReport = c.isReport := by
  cases c <;> rfl

lemma surfaces_of_alike {x y : Ran (Session σ) Call Stop Unit} (hresult : x.result = y.result)
    (hcalls : x.calls.map Call.unanswered = y.calls.map Call.unanswered) (h : Surfaces x) :
    Surfaces y := by
  have hentries : ∀ calls : List Call, entries (calls.map Call.unanswered) = entries calls := by
    intro calls
    rw [entries, List.filterMap_map]
    exact List.filterMap_congr fun c _ => entry_unanswered c
  have hreports : ∀ calls : List Call, (∃ c ∈ calls.map Call.unanswered, c.isReport = true)
      ↔ ∃ c ∈ calls, c.isReport = true := by
    intro calls
    simp only [List.mem_map, exists_exists_and_eq_and, isReport_unanswered]
  rcases h with hverdict | hreport | herr
  · rw [← hentries, hcalls, hentries] at hverdict
    exact .inl hverdict
  · rw [← hreports, hcalls, hreports] at hreport
    exact .inr (.inl hreport)
  · rw [hresult] at herr
    exact .inr (.inr herr)

/-- **Every rejection comes out, as long as no dropped answer is one**; and whatever the answers
to what is no check, they make no difference to whether anything comes out. -/
theorem rejected_surfaces (fuel : Fuel) (krateSst : KrateSst F) (s : Session σ) :
    ((∀ c, Dropped W fuel krateSst s c → c.rejected = false) →
        (∃ c, Watched W fuel krateSst s c ∧ c.rejected = true) →
          Surfaces (runQueries W fuel krateSst s))
      ∧ ∀ answer, Surfaces (runQueries (W.answering answer) fuel krateSst s)
        ↔ Surfaces (runQueries W fuel krateSst s) := by
  constructor
  · rintro hdropped ⟨c, hwatched, hrejected⟩
    have hd : ¬ Dropped W fuel krateSst s c := by
      intro hd
      rw [hdropped c hd] at hrejected
      cases hrejected
    obtain ⟨p, hp, herr, hc, hcheck⟩ := hwatched.check W hd
    obtain ⟨r, hr⟩ := Option.ne_none_iff_exists'.mp hcheck
    exact .inl (exists_failing_of_tallied (tallied_runQueries W fuel krateSst s) hp herr hc hr
      (rejected_of_startsCheck hr hrejected))
  · intro answer
    obtain ⟨hresult, -, hcalls⟩ := runQueries_answering W answer fuel krateSst s
    exact ⟨surfaces_of_alike hresult hcalls, surfaces_of_alike hresult.symm hcalls.symm⟩

/-! ## A prelude that is not accepted -/

/-- AIR does not accept the prelude and finds the only query valid.  The state says whether that
query has been handed out. -/
def brokenPrelude : World Bool Unit where
  setZ3Param _ _ s := (fun _ => [], s)
  setRlimit _ s := (fun _ => [], s)
  command cmd s :=
    (if cmd.isCheck then .valid else .typeError "unknown sort".toList, fun _ => [], s)
  checkValidAgain _ s := (.valid, fun _ => [], s)
  finishQuery s := (fun _ => [], s)
  openSection _ _ s := (fun _ => [], s)
  sectionClose s := (fun _ => [], s)
  prelude := [.global "(axiom (fuel_defaults))".toList]
  buildBucketPreamble _ s := ([], s)
  funcNameToAir _ := .ok []
  opgenNew _ s := s
  opgenNext s := (.ok !s, s)
  expandErrorsNext s := (none, s)
  functionOpgenNext s :=
    (if s then none else
      some ⟨some ⟨none, "crate::f".toList, "<input.rs>:1:1: 1:8 (#0)".toList⟩,
        .query [⟨none, .defaultProver, [.checkValid "f".toList]⟩] (.body .normal), "f".toList⟩,
      true)
  retryWithRecommends _ _ s := (.ok (), s)
  reportExpandErrorResult _ s := s

def newSession : Session Bool where
  env := false
  bufs _ := []
  output _ := []
  written _ := []
  wrapperKrate := none

/-- The axioms are rejected, and all there is to see is a query that is proved. -/
theorem rejected_surfaces_prelude :
    (∃ c, Watched brokenPrelude ⟨1, 2, 2⟩ ⟨[]⟩ newSession c ∧ c.rejected = true)
      ∧ (entries (runQueries brokenPrelude ⟨1, 2, 2⟩ ⟨[]⟩ newSession).calls).map
        VerdictEntry.proved = [true]
      ∧ ¬ Surfaces (runQueries brokenPrelude ⟨1, 2, 2⟩ ⟨[]⟩ newSession) := by
  have hproved : (entries (runQueries brokenPrelude ⟨1, 2, 2⟩ ⟨[]⟩ newSession).calls).map
      VerdictEntry.proved = [true] := by
    rw [outcomes_of_tallied (tallied_runQueries brokenPrelude ⟨1, 2, 2⟩ ⟨[]⟩ newSession)]
    decide
  have hreports : ∀ c ∈ (runQueries brokenPrelude ⟨1, 2, 2⟩ ⟨[]⟩ newSession).calls,
      c.isReport = false := by
    decide
  have hresult : (runQueries brokenPrelude ⟨1, 2, 2⟩ ⟨[]⟩ newSession).result.isOk = true := by
    decide
  have hprelude : Call.command (.global "(axiom (fuel_defaults))".toList)
      (.typeError "unknown sort".toList)
        ∈ (feedModuleDecls brokenPrelude ⟨[]⟩ newSession).calls := by
    decide
  refine ⟨⟨_, .inl hprelude, rfl⟩, hproved, ?_⟩
  rintro (⟨v, hv, hfail⟩ | ⟨c, hc, hreport⟩ | ⟨e, he⟩)
  · have hmem := List.mem_map_of_mem (f := VerdictEntry.proved) hv
    rw [hproved, hfail] at hmem
    exact absurd hmem (by decide)
  · rw [hreports c hc] at hreport
    cases hreport
  · rw [he] at hresult
    cases hresult

/-- AIR accepts the prelude and does not take the query. -/
def brokenQuery : World Bool Unit where
  __ := brokenPrelude
  command cmd s :=
    (if cmd.isCheck then .typeError "unknown sort".toList else .valid, fun _ => [], s)

/-- Nothing that is dropped is rejected, the query is, and its verdict says so. -/
theorem rejected_surfaces_query :
    (∀ c, Dropped brokenQuery ⟨1, 2, 2⟩ ⟨[]⟩ newSession c → c.rejected = false)
      ∧ (∃ c, Watched brokenQuery ⟨1, 2, 2⟩ ⟨[]⟩ newSession c ∧ c.rejected = true)
      ∧ Surfaces (runQueries brokenQuery ⟨1, 2, 2⟩ ⟨[]⟩ newSession) := by
  have hdecls : ∀ c ∈ (feedModuleDecls brokenQuery ⟨[]⟩ newSession).calls, c.rejected = false := by
    decide
  have hops : ∀ p ∈ opSegments (runQueries brokenQuery ⟨1, 2, 2⟩ ⟨[]⟩ newSession).calls,
      ∀ c ∈ p.2, p.1.isContext = true ∨ p.1.isErrorQuery = true ∧ c.startsCheck = none →
        c.rejected = false := by
    decide
  have hdropped : ∀ c, Dropped brokenQuery ⟨1, 2, 2⟩ ⟨[]⟩ newSession c → c.rejected = false := by
    rintro c (hc | ⟨p, hp, hunseen, hc⟩)
    · exact hdecls c hc
    · exact hops p hp c hc hunseen
  have hquery : ∃ p ∈ opSegments (runQueries brokenQuery ⟨1, 2, 2⟩ ⟨[]⟩ newSession).calls,
      p.1.isErrorQuery = true ∧ ∃ c ∈ p.2, c.rejected = true := by
    decide
  obtain ⟨p, hp, herr, c, hc, hrejected⟩ := hquery
  have hwatched : ∃ c, Watched brokenQuery ⟨1, 2, 2⟩ ⟨[]⟩ newSession c ∧ c.rejected = true :=
    ⟨c, .inr ⟨p, hp, .inr herr, hc⟩, hrejected⟩
  exact ⟨hdropped, hwatched,
    (rejected_surfaces brokenQuery ⟨1, 2, 2⟩ ⟨[]⟩ newSession).1 hdropped hwatched⟩

end VerusExplorer
