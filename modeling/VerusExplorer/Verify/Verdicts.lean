import VerusExplorer.Page.Panel
import VerusExplorer.Verify.Checks

/-!
# What the verdicts say

The verdicts of a run come from the checks of its ops and are counted by the page (`renderMeta`,
`public/app.js`).

* `Tallied` — in a stretch of a run, verdicts come from ops only, and each op is as it should be.
* **`verifySimplifiedKrate_verdicts`** — over a whole run each such check has a verdict, the failing
  verdicts are the results that are not valid, the others are the checks that pass at once, and the
  headline is green exactly when there are checks and all of them do.
-/

namespace VerusExplorer

open Utf16 Segments

variable {σ F : Type} (W : World σ F)

/-! ## A run -/

/-- The calls of a stretch of a run: verdicts come from ops only, and each op is as it should be. -/
structure Tallied (calls : List Call) : Prop where
  closed : Closed Call.startsOp Call.endsOp calls
  entries : entries calls = (opSegments calls).flatMap fun p => entries p.2
  ops : ∀ p ∈ opSegments calls, OpTrace p.1 p.2

lemma tallied_of_outside {calls : List Call} (h : ∀ x ∈ calls, x.outside) : Tallied calls := by
  have hnone : opSegments calls = [] := segments_of_no_start fun x hx => (h x hx).1
  refine ⟨closed_of_no_start fun x hx => (h x hx).1, ?_, ?_⟩
  · rw [hnone, entries_eq_nil fun x hx => (h x hx).2]
    rfl
  · rw [hnone]
    intro p hp
    exact absurd hp List.not_mem_nil

lemma Tallied.append {c d : List Call} (hc : Tallied c) (hd : Tallied d) : Tallied (c ++ d) := by
  have hsegs : opSegments (c ++ d) = opSegments c ++ opSegments d := segments_append d hc.closed
  refine ⟨hc.closed.append hd.closed, ?_, fun p hp => ?_⟩
  · rw [entries_append, hsegs, List.flatMap_append, hc.entries, hd.entries]
  · rw [hsegs] at hp
    exact (List.mem_append.mp hp).elim (hc.ops p) (hd.ops p)

/-- The same as a relation. -/
def tallies : Traced.Rel (Session σ) Call := fun _ _ _ calls => Tallied calls

lemma composes_tallies : Traced.Composes (tallies (σ := σ)) where
  nil _ := tallied_of_outside fun _ hx => absurd hx List.not_mem_nil
  append h₁ h₂ := h₁.append h₂
  stop h := h

lemma tallies_of_outside {α : Type} {x : Prog σ α}
    (h : Traced.Keeps (Traced.callsIn Call.outside) x) : Traced.Keeps tallies x :=
  fun s => tallied_of_outside (h s)

/-! ### Between the ops -/

lemma respects_outside :
    Respects Call.outside (Traced.callsIn Call.outside : Traced.Rel (Session σ) Call) :=
  respects_callsIn Call.outside

/-- A change of the session that nobody sees. -/
lemma outside_modify (f : Session σ → Session σ) :
    Traced.Keeps (Traced.callsIn Call.outside) (Traced.modify f : Prog σ Unit) :=
  fun _ _ hx => absurd hx List.not_mem_nil

/-- What holds of what goes on outside the ops, and of an op in its section, holds of a run. -/
lemma keeps_runQueries {R : Traced.Rel (Session σ) Call} (hc : Traced.Composes R)
    (hstopped : ∀ {s t c}, R false s t c → R true s t c)
    (houtside : ∀ {α : Type} {x : Prog σ α},
      Traced.Keeps (Traced.callsIn Call.outside) x → Traced.Keeps R x) (fuel : Fuel)
    (hsection : ∀ op, Traced.Keeps R (inSection W fuel.probes op)) (krateSst : KrateSst F) :
    Traced.Keeps R (runQueries W fuel krateSst) := by
  have hdecls : Traced.Keeps R (feedModuleDecls W krateSst) :=
    houtside (respects_outside.feedModuleDecls (fun _ _ => ⟨rfl, rfl⟩) krateSst)
  have hnext : Traced.Keeps R (nextOp W) :=
    houtside (respects_outside.nextOp fun _ => ⟨rfl, rfl⟩)
  have hstep : ∀ op, Traced.Keeps R (stepOp W fuel.probes op) := fun op =>
    Traced.keeps_bind hc (houtside (respects_outside.rotateWrapper (fun _ _ => ⟨rfl, rfl⟩)
      ⟨rfl, rfl⟩ (fun _ => outside_modify _) op.krate)) fun _ => hsection op
  have hloop : Traced.Keeps R (opLoop W fuel.probes fuel.ops fuel.functions) :=
    keeps_opLoop hc hnext hstep (houtside (respects_outside.silent _)) _ _
  refine Traced.keeps_bind hc hdecls ?_
  intro _
  refine Traced.keeps_bind hc (houtside (respects_outside.tellAir _ ⟨rfl, rfl⟩)) ?_
  intro _
  refine Traced.keeps_bind hc (houtside (outside_modify _)) ?_
  intro _
  refine Traced.keeps_bind hc (houtside (respects_outside.silent _)) ?_
  intro _
  refine Traced.keeps_bind hc (houtside (outside_modify _)) ?_
  intro _
  refine Traced.keeps_bind hc (Traced.keeps_attempt hstopped hloop) fun result => ?_
  refine Traced.keeps_bind hc (houtside (respects_outside.closeWrapper ⟨rfl, rfl⟩)) ?_
  intro _
  refine Traced.keeps_bind hc (houtside (outside_modify _)) ?_
  intro _
  exact Traced.keeps_ofExcept hc result

/-! ### The ops -/

/-- An op in its section is one segment. -/
lemma segments_inSection (fuel : ℕ) (op : Op) (s : Session σ) :
    ∃ opened : Session σ,
      let body := (handleOpBody W fuel op opened).calls
      let piece := .handleOp op :: body ++ [.sectionClose]
      (inSection W fuel op s).calls
          = [.openSection (opMarker op s.wrapperKrate) op.airComment] ++ piece
        ∧ opSegments piece = [(op, body)] ∧ Closed Call.startsOp Call.endsOp piece := by
  refine ⟨_, congrArg Ran.calls (inSection_run W fuel op s), segments_piece rfl ?_ rfl rfl⟩
  intro x hx
  have hwithin : x.withinOp = true :=
    (respects_callsIn fun x => x.withinOp = true).handleOpBody (fun _ h => h) fuel op _ x hx
  cases x <;> first | exact ⟨rfl, rfl⟩ | exact absurd hwithin (by simp [Call.withinOp])

lemma tallied_inSection (fuel : ℕ) (op : Op) : Traced.Keeps tallies (inSection W fuel op) := by
  intro s
  obtain ⟨opened, hcalls, hsegments, hclosed⟩ := segments_inSection W fuel op s
  rw [hcalls]
  refine Tallied.append (tallied_of_outside fun x hx => ?_) ⟨hclosed, ?_, ?_⟩
  · rw [List.mem_singleton.mp hx]
    exact ⟨rfl, rfl⟩
  · rw [hsegments, entries_append]
    show entries (handleOpBody W fuel op opened).calls ++ [] = _ ++ []
    rfl
  · rw [hsegments]
    intro p hp
    rw [List.mem_singleton.mp hp]
    exact opTrace_handleOpBody W fuel op opened

lemma tallied_runQueries (fuel : Fuel) (krateSst : KrateSst F) :
    Traced.Keeps tallies (runQueries W fuel krateSst) :=
  keeps_runQueries W composes_tallies (fun h => h) tallies_of_outside fuel
    (tallied_inSection W fuel.probes) krateSst

lemma tallied_verifyModule (fuel : Fuel) (krateSst : KrateSst F) :
    Traced.Keeps tallies (verifyModule W fuel krateSst) := by
  have hc := composes_tallies (σ := σ)
  refine Traced.keeps_bind hc (tallies_of_outside (outside_modify _)) ?_
  intro _
  refine Traced.keeps_bind hc (tallies_of_outside (respects_outside.tellAir _ ⟨rfl, rfl⟩)) ?_
  intro _
  refine Traced.keeps_bind hc (tallies_of_outside (respects_outside.tellAir _ ⟨rfl, rfl⟩)) ?_
  intro _
  exact tallied_runQueries W fuel krateSst

/-- A whole run, over all modules. -/
lemma tallied_verifySimplifiedKrate
    (lowerModule : Module → σ → Except VirErr (KrateSst F) × σ) (fuel : Fuel)
    (modules : List Module) :
    Traced.Keeps tallies (verifySimplifiedKrate W lowerModule fuel modules) := by
  have hc := composes_tallies (σ := σ)
  refine Traced.keeps_each hc _ ?_
  intro m _
  have hbegun : Traced.Keeps (Traced.callsIn Call.outside)
      (Traced.emit (.verifyModule m.path) : Prog σ Unit) := respects_outside.emit _ ⟨rfl, rfl⟩
  refine Traced.keeps_bind hc (tallies_of_outside hbegun) fun _ => ?_
  refine Traced.keeps_bind hc (Traced.keeps_attempt (fun h => h) ?_) ?_
  · refine Traced.keeps_bind hc (tallies_of_outside (respects_outside.silent _)) ?_
    intro lowered
    refine Traced.keeps_bind hc (Traced.keeps_ofExcept hc _) ?_
    intro krateSst
    exact tallied_verifyModule W fuel krateSst
  · rintro ((e | _) | u)
    · refine Traced.keeps_bind hc ?_ fun _ => Traced.keeps_stop hc _
      exact tallies_of_outside (respects_outside.emit (.reportAs e .error) ⟨rfl, rfl⟩)
    · exact Traced.keeps_ofExcept hc _
    · exact Traced.keeps_ofExcept hc _

/-! ## Counting -/

/-- What a check contributes to the count. -/
def outcomes (seg : ValidityResult × List Call) : List Bool :=
  (counted true seg.1 (probeResults seg)).map ValidityResult.isValid

lemma isErrorQuery_query {op : Op} {list : List CommandsWithContext} {queryOp : QueryOp}
    (h : op.kind = .query list queryOp) : op.isErrorQuery = (queryOp.level == .error) := by
  rw [Op.isErrorQuery, h]
  cases queryOp with
  | specTermination => rfl
  | body style => cases style <;> rfl

lemma isErrorQuery_context {op : Op} {commands : List Command} (h : op.kind = .context commands) :
    op.isErrorQuery = false := by
  rw [Op.isErrorQuery, h]

/-- The verdicts of an op whose failures are errors, and of each of its checks. -/
lemma OpTrace.of_error {op : Op} {calls : List Call} (h : OpTrace op calls)
    (herr : op.isErrorQuery = true) :
    (entries calls).map VerdictEntry.proved = (checkSegments calls).flatMap outcomes
      ∧ ∀ seg ∈ checkSegments calls,
        entries seg.2 ≠ [] ∧ (seg.1.isValid = true → probeResults seg = []) := by
  cases hk : op.kind with
  | context commands => exact absurd herr (by simp [isErrorQuery_context hk])
  | query list queryOp =>
      rw [OpTrace, hk] at h
      obtain ⟨returned, hchecked⟩ := h
      have hisError : (op.tally queryOp).isError = true :=
        (isErrorQuery_query hk).symm.trans herr
      have hentries : ∀ seg ∈ checkSegments calls,
          entries seg.2 = (counted true seg.1 (probeResults seg)).map (op.tally queryOp).entry := by
        intro seg hseg
        rw [(hchecked.checks seg hseg).entries, if_pos hisError]
      have hproved : ∀ r, ((op.tally queryOp).entry r).proved = r.isValid := fun _ => rfl
      constructor
      · rw [hchecked.entries, List.map_flatMap]
        refine List.flatMap_congr ?_
        intro seg hseg
        rw [hentries seg hseg, List.map_map, outcomes]
        exact List.map_congr_left fun r _ => hproved r
      · intro seg hseg
        refine ⟨?_, fun hvalid => (hchecked.checks seg hseg).last ?_⟩
        · rw [hentries seg hseg]
          simp [counted]
        · exact canProbe_of_isValid hvalid

/-- Other ops have none. -/
lemma OpTrace.of_not_error {op : Op} {calls : List Call} (h : OpTrace op calls)
    (herr : op.isErrorQuery = false) : entries calls = [] := by
  cases hk : op.kind with
  | context commands =>
      rw [OpTrace, hk] at h
      exact h.2
  | query list queryOp =>
      rw [OpTrace, hk] at h
      obtain ⟨returned, hchecked⟩ := h
      have hisError : (op.tally queryOp).isError = false :=
        (isErrorQuery_query hk).symm.trans herr
      rw [hchecked.entries, List.flatMap_eq_nil_iff]
      intro seg hseg
      rw [(hchecked.checks seg hseg).entries, if_neg (by simp [hisError])]

/-- The commands fed for an op are its own; some are missing only if a check was cut short. -/
lemma OpTrace.fed {op : Op} {calls : List Call} (h : OpTrace op calls) :
    calls.filterMap Call.fed <+: op.commands
      ∧ (calls.filterMap Call.fed ≠ op.commands → ¬AllFinished calls) := by
  cases hk : op.kind with
  | context commands =>
      rw [OpTrace, hk] at h
      rw [Op.commands, hk, h.1]
      exact ⟨List.prefix_refl _, fun hne => absurd rfl hne⟩
  | query list queryOp =>
      rw [OpTrace, hk] at h
      obtain ⟨returned, hchecked⟩ := h
      rw [Op.commands, hk]
      refine ⟨hchecked.fed, fun hne => ?_⟩
      cases hb : returned with
      | true => exact absurd (hchecked.complete hb).1 hne
      | false => exact hchecked.cutShort hb

/-- All the verdicts of a run, check by check. -/
lemma outcomes_of_tallied {calls : List Call} (h : Tallied calls) :
    (entries calls).map VerdictEntry.proved = (errorChecks calls).flatMap outcomes := by
  rw [h.entries, List.map_flatMap, errorChecks, List.flatMap_assoc]
  refine List.flatMap_congr ?_
  intro p hp
  cases herr : p.1.isErrorQuery with
  | true => simpa using ((h.ops p hp).of_error herr).1
  | false => simp [(h.ops p hp).of_not_error herr]

lemma mem_errorChecks {calls : List Call} {seg : ValidityResult × List Call}
    (h : seg ∈ errorChecks calls) :
    ∃ p ∈ opSegments calls, p.1.isErrorQuery = true ∧ seg ∈ checkSegments p.2 := by
  obtain ⟨p, hp, hseg⟩ := List.mem_flatMap.mp h
  cases herr : p.1.isErrorQuery with
  | true => exact ⟨p, hp, herr, by simpa [herr] using hseg⟩
  | false => simp [herr] at hseg

/-- The failures of a check are its results that are not valid. -/
lemma countP_not_outcomes (seg : ValidityResult × List Call) :
    (outcomes seg).countP (fun b => !b) = (checkResults seg).countP fun r => !r.isValid := by
  rw [outcomes, counted, checkResults, List.countP_map, List.countP_append, List.countP_cons]
  cases hr : seg.1.isValid <;> simp [List.countP_filter, hr, Function.comp_def, Nat.add_comm]

/-- A check passes when its first result is valid; no probe ever passes. -/
lemma countP_outcomes (seg : ValidityResult × List Call) :
    (outcomes seg).countP (fun b => b) = if seg.1.isValid then 1 else 0 := by
  rw [outcomes, counted, List.countP_map, List.countP_append]
  cases hr : seg.1.isValid <;> simp [List.countP_filter, hr, Function.comp_def]

lemma sum_ite_eq_countP {α : Type*} (p : α → Bool) (xs : List α) :
    (xs.map fun x => if p x then 1 else 0).sum = xs.countP p := by
  induction xs with
  | nil => rfl
  | cons x xs ih => rw [List.map_cons, List.sum_cons, ih, List.countP_cons, Nat.add_comm]

/-- All verdicts are proofs exactly when every check is valid at once: then nothing is probed. -/
lemma allProved_iff {calls : List Call} (h : Tallied calls) :
    (entries calls ≠ [] ∧ ∀ v ∈ entries calls, v.proved = true)
      ↔ errorChecks calls ≠ [] ∧ ∀ seg ∈ errorChecks calls, seg.1.isValid = true := by
  have hout := outcomes_of_tallied h
  have hfirst : ∀ seg : ValidityResult × List Call, seg.1.isValid ∈ outcomes seg := by
    intro seg
    simp [outcomes, counted]
  have hlast : ∀ seg ∈ errorChecks calls, seg.1.isValid = true → outcomes seg = [true] := by
    intro seg hseg hvalid
    obtain ⟨p, hp, herr, hmem⟩ := mem_errorChecks hseg
    have hnone := (((h.ops p hp).of_error herr).2 seg hmem).2 hvalid
    simp [outcomes, counted, hnone, hvalid]
  have hempty : entries calls = [] ↔ errorChecks calls = [] := by
    rw [← List.map_eq_nil_iff, hout, List.flatMap_eq_nil_iff]
    constructor
    · intro hall
      refine List.eq_nil_iff_forall_not_mem.mpr ?_
      intro seg hseg
      exact absurd (hall seg hseg ▸ hfirst seg) List.not_mem_nil
    · intro hnil seg hseg
      rw [hnil] at hseg
      exact absurd hseg List.not_mem_nil
  refine and_congr (not_congr hempty) ?_
  have hmap : (∀ v ∈ entries calls, v.proved = true)
      ↔ ∀ b ∈ (errorChecks calls).flatMap outcomes, b = true := by
    rw [← hout, List.forall_mem_map]
  rw [hmap]
  constructor
  · intro hall seg hseg
    exact hall _ (List.mem_flatMap.mpr ⟨seg, hseg, hfirst seg⟩)
  · intro hall b hb
    obtain ⟨seg, hseg, hb⟩ := List.mem_flatMap.mp hb
    rw [hlast seg hseg (hall seg hseg)] at hb
    exact List.mem_singleton.mp hb

/-- **The verdicts of a whole run.**  Each check of an op whose failures are errors has a verdict
and no other op has any; the commands checked are the op's, unless the solver was asked more often
than the run has fuel for; failing verdicts are the results that are not valid, over all probes, and
the others the checks whose first result is valid; and the headline is that every query is verified
exactly when there was such a check and each was valid at once. -/
theorem verifySimplifiedKrate_verdicts
    (lowerModule : Module → σ → Except VirErr (KrateSst F) × σ) (fuel : Fuel)
    (modules : List Module) (s : Session σ) (docLines : ℕ) (caches : RunCaches) :
    let calls := (verifySimplifiedKrate W lowerModule fuel modules s).calls
    (∀ p ∈ opSegments calls,
        (p.1.isErrorQuery = true → ∀ seg ∈ checkSegments p.2, entries seg.2 ≠ [])
        ∧ (p.1.isErrorQuery = false → entries p.2 = [])
        ∧ p.2.filterMap Call.fed <+: p.1.commands
        ∧ (p.2.filterMap Call.fed ≠ p.1.commands → ¬AllFinished p.2))
      ∧ entries calls = (opSegments calls).flatMap (fun p => entries p.2)
      ∧ (entries calls).countP (fun v => !v.proved)
        = ((errorChecks calls).flatMap checkResults).countP (fun r => !r.isValid)
      ∧ (entries calls).countP (fun v => v.proved)
        = (errorChecks calls).countP (fun seg => seg.1.isValid)
      ∧ ((renderMeta docLines { caches with verdicts := entries calls }).saysAllVerified
        ↔ errorChecks calls ≠ [] ∧ ∀ seg ∈ errorChecks calls, seg.1.isValid = true) := by
  intro calls
  have h : Tallied calls := tallied_verifySimplifiedKrate W lowerModule fuel modules s
  have hcount : ∀ q : Bool → Bool, (entries calls).countP (fun v => q v.proved)
      = ((errorChecks calls).map fun seg => (outcomes seg).countP q).sum := by
    intro q
    have hflat := List.countP_flatMap (p := q) (l := errorChecks calls) (f := outcomes)
    rw [← outcomes_of_tallied h, List.countP_map] at hflat
    exact hflat
  refine ⟨fun p hp => ?_, h.entries, ?_, ?_, ?_⟩
  · refine ⟨fun herr seg hseg => ?_, (h.ops p hp).of_not_error, (h.ops p hp).fed.1,
      (h.ops p hp).fed.2⟩
    exact (((h.ops p hp).of_error herr).2 seg hseg).1
  · rw [hcount fun b => !b, List.countP_flatMap]
    simp only [countP_not_outcomes, Function.comp_def]
  · rw [hcount fun b => b]
    simp only [countP_outcomes]
    exact sum_ite_eq_countP _ _
  · rw [saysAllVerified_renderMeta]
    exact allProved_iff h

end VerusExplorer
