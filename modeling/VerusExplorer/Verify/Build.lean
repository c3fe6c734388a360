import VerusExplorer.Page.Sections

/-!
# What becomes of the errors of `build_vir`

`verify` (`lib.rs`) drops what `build_vir` fails with: its errors have been reported, says the
comment.  The stage around `construct_vir_crate` does report them; the other stages
(`verus.rs`) only return theirs.

* `Told`, `Lost` — the errors have been reported, or not one of them.
* `builds_buildVir` — every failure of `build_vir` is one or the other, by the stage it stops in.
* **`verify_buildErrors`** — a failure that is told is on the panel; after one that is lost the
  panel has what rustc itself has raised, and without that it is blank.
-/

namespace VerusExplorer

open Utf16

variable {σ F : Type}

/-! ## Reports and stages -/

def StageCall.label : StageCall → Option JsString
  | .bench label _ => some label
  | _ => none

/-- The stage that has ended last. -/
def lastStage (calls : List StageCall) : Option JsString :=
  (calls.filterMap StageCall.label).getLast?

lemma reported_append (c d : List StageCall) : reported (c ++ d) = reported c ++ reported d :=
  List.filterMap_append

lemma lastStage_append {c d : List StageCall} {label : JsString}
    (h : lastStage d = some label) : lastStage (c ++ d) = some label := by
  rw [lastStage, List.filterMap_append, List.getLast?_append]
  rw [lastStage] at h
  rw [h]
  rfl

/-- The errors have been reported, after the diagnostics that came with them. -/
def Told (calls : List StageCall) (errs : List VirErr) : Prop :=
  lastStage calls = some (js "build_vir.construct_vir_crate")
    ∧ ∃ others, reported calls = others ++ errs.map fun e => (e, some .error)

/-- The stages whose errors are returned only. -/
def lostStages : List JsString :=
  ["build_vir.vstd_deserialize", "build_vir.global_ctx", "build_vir.check_traits",
    "build_vir.simplify_krate"].map js

/-- There is an error, and nothing has been reported. -/
def Lost (calls : List StageCall) (errs : List VirErr) : Prop :=
  (∃ stage ∈ lostStages, lastStage calls = some stage) ∧ reported calls = [] ∧ ∃ e, errs = [e]

/-- What is known of a stage of `build_vir` that has ended with `v`. -/
def Outcome (calls : List StageCall) : Except (List VirErr) Unit → Prop
  | .ok _ => reported calls = []
  | .error errs => Told calls errs ∨ Lost calls errs

def Builds (x : Pipeline σ (Except (List VirErr) Unit)) : Prop :=
  ∀ s, ∃ v, (x s).result = .ok v ∧ Outcome (x s).calls v

/-! ## The stages of `build_vir` -/

/-- Calls before that report nothing change no outcome. -/
lemma Outcome.append {c d : List StageCall} (hc : reported c = []) :
    ∀ {v : Except (List VirErr) Unit}, Outcome d v → Outcome (c ++ d) v
  | .ok _, h => (reported_append c d).trans (by rw [hc, show reported d = [] from h]; rfl)
  | .error errs, h => by
      have hreported : reported (c ++ d) = reported d := by
        rw [reported_append, hc, List.nil_append]
      rcases h with ⟨hlast, htold⟩ | ⟨⟨stage, hstage, hlast⟩, hnone, hone⟩
      · exact Or.inl ⟨lastStage_append hlast, hreported ▸ htold⟩
      · exact Or.inr ⟨⟨stage, hstage, lastStage_append hlast⟩, hreported.trans hnone, hone⟩

lemma builds_andThen {x y : Pipeline σ (Except (List VirErr) Unit)} (hx : Builds x)
    (hy : Builds y) : Builds (Compiler.andThen x y) := by
  intro s
  obtain ⟨v, hv, hout⟩ := hx s
  rw [Compiler.andThen, Traced.bind_ok hv]
  cases v with
  | error errs =>
      refine ⟨.error errs, rfl, ?_⟩
      show Outcome ((x s).calls ++ []) (.error errs)
      rw [List.append_nil]
      exact hout
  | ok u =>
      obtain ⟨w, hw, hout'⟩ := hy (x s).state
      exact ⟨w, hw, hout'.append hout⟩

variable (C : Compiler σ F)

/-- A stage that reports nothing, under its timer, and fails with one error. -/
lemma outcome_of_quiet {calls : List StageCall} {label : String} {ms : ℚ}
    (hlabel : js label ∈ lostStages) (hcalls : calls = [.bench (js label) ms]) :
    Outcome calls (.ok ()) ∧ ∀ e, Outcome calls (.error [e]) := by
  subst hcalls
  exact ⟨rfl, fun e => Or.inr ⟨⟨js label, hlabel, rfl⟩, rfl, e, rfl⟩⟩

lemma builds_pass {label : String} (hlabel : js label ∈ lostStages)
    (f : σ → Except VirErr Unit × σ) : Builds (C.pass label f) := by
  intro s
  have hcalls : (C.pass label f s).calls
      = [.bench (js label) (C.perfNow (s.readings + 1) - C.perfNow s.readings)] := rfl
  obtain ⟨hok, herror⟩ := outcome_of_quiet hlabel hcalls
  have hresult : (C.pass label f s).result
      = .ok ((f s.session.env).1.mapError fun e => [e]) := rfl
  cases hf : (f s.session.env).1 with
  | ok u => exact ⟨.ok (), by rw [hresult, hf]; rfl, hok⟩
  | error e => exact ⟨.error [e], by rw [hresult, hf]; rfl, herror e⟩

lemma builds_vstdKrate : Builds (C.time "build_vir.vstd_deserialize" C.vstdKrate) := by
  intro s
  have hlabel : js "build_vir.vstd_deserialize" ∈ lostStages := List.mem_cons_self
  rw [C.time_run]
  have hrun : ∀ s : Pipe σ, (C.vstdKrate s).calls = []
      ∧ ((C.vstdKrate s).result = .ok (.ok ())
        ∨ ∃ e, (C.vstdKrate s).result = .ok (.error [e])) := by
    intro s
    rw [Compiler.vstdKrate, Traced.bind_ok rfl]
    dsimp only
    split_ifs
    · exact ⟨rfl, Or.inl rfl⟩
    · exact ⟨rfl, Or.inl rfl⟩
    · exact ⟨rfl, Or.inr ⟨_, rfl⟩⟩
  obtain ⟨hcalls, hresult⟩ := hrun { s with readings := s.readings + 1 }
  dsimp only
  rw [hcalls, List.nil_append]
  obtain ⟨hok, herror⟩ := outcome_of_quiet hlabel rfl
  rcases hresult with hresult | ⟨e, hresult⟩
  · exact ⟨_, hresult, hok⟩
  · exact ⟨_, hresult, herror e⟩

/-- The reports of a list. -/
lemma reported_map {γ : Type} {f : γ → StageCall} {g : γ → Message × Option MessageLevel}
    (h : ∀ c, (f c).reported = some (g c)) (cs : List γ) : reported (cs.map f) = cs.map g := by
  rw [reported, List.filterMap_map, ← List.filterMap_eq_map]
  exact List.filterMap_congr fun c _ => h c

/-- Asking rustc reports nothing. -/
lemma askRustc_run {α : Type} (f : σ → Raised α × σ) (s : Pipe σ) :
    (askRustc f s).result = .ok (f s.session.env).1.1 ∧ reported (askRustc f s).calls = [] := by
  have hfirst : (ask f s).result = .ok (f s.session.env).1 := rfl
  have hloop : (Traced.each Traced.emit ((f s.session.env).1.2.map StageCall.rustc) :
      Pipeline σ Unit) (ask f s).state = ⟨.ok (), _, _⟩ := Traced.each_emit _ _
  rw [askRustc, Traced.bind_ok hfirst, Traced.bind_ok (by rw [hloop]), hloop]
  refine ⟨rfl, ?_⟩
  show reported ([] ++ ((f s.session.env).1.2.map StageCall.rustc ++ [])) = []
  rw [List.nil_append, List.append_nil]
  rw [reported, List.filterMap_map]
  exact List.filterMap_eq_nil_iff.mpr fun _ _ => rfl

lemma builds_construct :
    Builds (C.time "build_vir.construct_vir_crate" C.constructAndReport) := by
  intro s
  rw [C.time_run]
  generalize { s with readings := s.readings + 1 } = s₁
  obtain ⟨hasked, hquiet⟩ := askRustc_run C.constructVirCrate s₁
  rw [Compiler.constructAndReport, Traced.bind_ok hasked]
  generalize (askRustc C.constructVirCrate s₁).calls = calls at hquiet ⊢
  generalize (askRustc C.constructVirCrate s₁).state = s₂
  -- whatever the stage has reported, its timer comes last
  have hend : ∀ (inner : List StageCall) (ms : ℚ) (errs : List VirErr),
      (∃ others, reported inner = others ++ errs.map fun e => (e, some .error)) →
        Told (calls ++ inner ++ [.bench (js "build_vir.construct_vir_crate") ms]) errs := by
    rintro inner ms errs ⟨others, hothers⟩
    refine ⟨lastStage_append rfl, others, ?_⟩
    rw [reported_append, reported_append, hquiet, List.nil_append, hothers]
    exact List.append_nil _
  cases (C.constructVirCrate s₁.session.env).1.1 with
  | ok built =>
      cases built with
      | true =>
          refine ⟨.ok (), rfl, ?_⟩
          show reported ((calls ++ []) ++ [_]) = []
          rw [List.append_nil, reported_append, hquiet]
          rfl
      | false => exact ⟨.error [], rfl, Or.inl (hend [] _ [] ⟨[], rfl⟩)⟩
  | error failed =>
      obtain ⟨errs, diagnostics⟩ := failed
      have hfirst := Traced.each_emit_map (ε := Stop)
        (fun d : VirErr × MessageLevel => StageCall.report d.1 (some d.2))
        (diagnostics.map VirErrAs.reported) s₂
      have hsecond := Traced.each_emit_map (ε := Stop)
        (fun e : VirErr => StageCall.report e (some .error)) errs s₂
      dsimp only
      rw [Traced.bind_ok (by rw [hfirst]), hfirst, Traced.bind_ok (by rw [hsecond]), hsecond]
      refine ⟨.error errs, rfl, Or.inl (hend _ _ errs
        ⟨(diagnostics.map VirErrAs.reported).map fun d => (d.1, some d.2), ?_⟩)⟩
      rw [reported_append, reported_append,
        reported_map (g := fun d => (d.1, some d.2)) fun _ => rfl,
        reported_map (g := fun e => (e, some .error)) fun _ => rfl]
      exact congrArg _ (List.append_nil _)

/-- **A failure of `build_vir` has been reported, or not at all.** -/
lemma builds_buildVir : Builds C.buildVir := by
  intro s
  obtain ⟨hresult, hquiet⟩ := askRustc_run C.resolverForLowering s
  have hctx : js "build_vir.global_ctx" ∈ lostStages := by decide
  have htraits : js "build_vir.check_traits" ∈ lostStages := by decide
  have hsimplify : js "build_vir.simplify_krate" ∈ lostStages := by decide
  obtain ⟨v, hv, hout⟩ := builds_andThen (builds_vstdKrate C)
    (builds_andThen (builds_construct C)
      (builds_andThen (builds_pass C hctx C.globalCtx)
        (builds_andThen (builds_pass C htraits C.checkTraits)
          (builds_pass C hsimplify C.simplifyKrate)))) (askRustc C.resolverForLowering s).state
  rw [Compiler.buildVir, Traced.bind_ok hresult]
  exact ⟨v, hv, hout.append hquiet⟩

/-! ## What the page is told -/

lemma makes_dumpRust {p : StageCall → Prop} (hp : Admits p)
    (hdump : ∀ name body, p (.dump name body)) : Makes p C.dumpRust := by
  refine (Makes.time hp (makes_askRustc hp _) _).bind fun _ => ?_
  refine (makes_dumpAstPreExpansion hp hdump).bind fun _ => ?_
  exact (makes_dumpAst hp hdump).bind fun _ => makes_dumpHir hp hdump

lemma makes_buildVir {p : StageCall → Prop} (hp : Admits p)
    (hreport : ∀ msg level, p (.report msg level)) : Makes p C.buildVir := by
  have hthen : ∀ {x y : Pipeline σ (Except (List VirErr) Unit)}, Makes p x → Makes p y →
      Makes p (Compiler.andThen x y) := by
    intro x y hx hy
    refine hx.bind fun r => ?_
    cases r with
    | error errs => exact makes_pure _
    | ok u => exact hy
  have hpass : ∀ label f, Makes p (C.pass label f) := fun _ _ =>
    (Makes.time hp (makes_ask _) _).bind fun _ => makes_pure _
  have hvstd : Makes p C.vstdKrate := makes_of_quiet fun s => by
    rw [Compiler.vstdKrate, Traced.bind_ok rfl]
    dsimp only
    split_ifs <;> rfl
  have hconstruct : Makes p C.constructAndReport := by
    refine (makes_askRustc hp _).bind fun r => ?_
    rcases r with ⟨errs, diagnostics⟩ | built
    · have hreports : ∀ {γ : Type} (f : γ → Message × Option MessageLevel) (cs : List γ),
          Makes p (Traced.each (fun c => Traced.emit (.report (f c).1 (f c).2)) cs :
            Pipeline σ Unit) := fun f cs =>
        Traced.keeps_each (Traced.composes_callsIn _) _ fun _ _ => makes_emit (hreport _ _)
      refine (hreports (fun d : VirErr × MessageLevel => (d.1, some d.2)) _).bind fun _ => ?_
      exact (hreports (fun e : VirErr => (e, some .error)) _).bind fun _ => makes_pure _
    · cases built <;> exact makes_pure _
  refine (makes_askRustc hp _).bind fun _ => hthen (Makes.time hp hvstd _) ?_
  exact hthen (Makes.time hp hconstruct _) (hthen (hpass _ _) (hthen (hpass _ _) (hpass _ _)))

/-! ## The panel -/

variable (W : World σ F) (fuel : Fuel)

/-- The calls of a run whose `build_vir` fails. -/
lemma calls_of_buildError {s : Pipe σ} {errs : List VirErr}
    (h : (C.buildVir (C.beforeBuild s)).result = .ok (.error errs)) :
    ∃ ms, (C.verify W fuel s).calls
      = (C.dumpRust s).calls ++ ((C.buildVir (C.beforeBuild s)).calls
        ++ [.bench (js "build_vir") ms]) := by
  obtain ⟨⟨u, hrust⟩, -⟩ := C.emits_dumpRust s
  obtain ⟨hbuilt, ms, hms⟩ := time_buildVir C s
  refine ⟨ms, ?_⟩
  rw [Compiler.verify, Traced.bind_ok hrust, Traced.bind_ok (hbuilt.trans h), ← hms]
  exact congrArg _ (List.append_nil _)

/-- Such a run has no verdicts and no output, and its reports are those of `build_vir`. -/
lemma reports_of_buildError {s : Pipe σ} {errs : List VirErr}
    (h : (C.buildVir (C.beforeBuild s)).result = .ok (.error errs)) :
    let calls := (C.verify W fuel s).calls
    calls.filterMap StageCall.entry = [] ∧ calls.filterMap StageCall.chunk = []
      ∧ reported calls = reported (C.buildVir (C.beforeBuild s)).calls := by
  intro calls
  obtain ⟨ms, hcalls⟩ := calls_of_buildError C W fuel h
  have hsplit : ∀ {γ : Type} (f : StageCall → Option γ), f (.bench (js "build_vir") ms) = none →
      calls.filterMap f = (C.dumpRust s).calls.filterMap f
        ++ (C.buildVir (C.beforeBuild s)).calls.filterMap f := by
    intro γ f hf
    have hlast : [StageCall.bench (js "build_vir") ms].filterMap f = [] :=
      List.filterMap_eq_nil_iff.mpr fun c hc => List.mem_singleton.mp hc ▸ hf
    rw [show calls = _ from hcalls, List.filterMap_append, List.filterMap_append, hlast,
      List.append_nil]
  have hentry : Admits fun c => c.entry = none := ⟨fun _ => rfl, fun _ _ => rfl⟩
  have hchunk : Admits fun c => c.chunk = none := ⟨fun _ => rfl, fun _ _ => rfl⟩
  have hreport : Admits fun c => c.reported = none := ⟨fun _ => rfl, fun _ _ => rfl⟩
  refine ⟨?_, ?_, ?_⟩
  · rw [hsplit _ rfl, (makes_dumpRust C hentry fun _ _ => rfl).filterMap_calls,
      (makes_buildVir C hentry fun _ _ => rfl).filterMap_calls]
    rfl
  · rw [hsplit _ rfl, (makes_dumpRust C hchunk fun _ _ => rfl).filterMap_calls,
      (makes_buildVir C hchunk fun _ _ => rfl).filterMap_calls]
    rfl
  · rw [reported, hsplit _ rfl, (makes_dumpRust C hreport fun _ _ => rfl).filterMap_calls]
    rfl

/-- What has been reported is on the panel. -/
lemma mem_panel_of_reported {calls : List StageCall} {msg : Message} {level : Option MessageLevel}
    (hmem : (msg, level) ∈ reported calls) {d : DiagJson} (hd : some d ∈ C.emitted msg level)
    {docLines : ℕ} {verdicts : List VerdictEntry} {chunks : List RunChunk} :
    ∀ x ∈ d.consolidate, diagnosticBlock docLines x
      ∈ (panelOf docLines (calls.flatMap C.diags) verdicts chunks).diagnostics := by
  intro x hx
  obtain ⟨call, hcall, hreported⟩ := List.mem_filterMap.mp hmem
  have hdiag : d ∈ calls.flatMap C.diags := by
    refine List.mem_flatMap.mpr ⟨call, hcall, ?_⟩
    cases call with
    | report msg' level' =>
        obtain ⟨rfl, rfl⟩ := Prod.mk.inj (Option.some_inj.mp hreported)
        exact List.mem_filterMap.mpr ⟨some d, hd, rfl⟩
    | _ => exact absurd hreported (by simp [StageCall.reported])
  exact List.mem_map_of_mem (List.mem_filterMap.mpr ⟨d, hdiag, hx⟩)

/-- **The errors of `build_vir` are on the panel, or none of them is.**  If they come from
`construct_vir_crate` the panel has all that rustc's emitter makes of them; if they come from
another stage it has what rustc itself has raised, and nothing else. -/
theorem verify_buildErrors (s : Pipe σ) (errs : List VirErr) (docLines : ℕ)
    (h : (C.buildVir (C.beforeBuild s)).result = .ok (.error errs)) :
    let stage := lastStage (C.buildVir (C.beforeBuild s)).calls
    let r := C.verify W fuel s
    let panel := renderMeta docLines (finishRun .verify (r.calls.flatMap C.callbacks) none {})
    (stage = some (js "build_vir.construct_vir_crate")
        ∧ ∀ e ∈ errs, ∀ d, some d ∈ C.emitted e (some .error) → ∀ x ∈ d.consolidate,
          diagnosticBlock docLines x ∈ panel.diagnostics)
      ∨ (∃ lost ∈ lostStages, stage = some lost) ∧ (∃ e, errs = [e])
        ∧ panel = panelOf docLines (raised r.calls) [] [] := by
  intro stage r panel
  obtain ⟨hentries, hchunks, hreported⟩ := reports_of_buildError C W fuel h
  have hpanel : panel = panelOf docLines (r.calls.flatMap C.diags) [] [] := by
    have htrace := panel_of_trace C docLines .verify r.calls
    rw [hentries, hchunks] at htrace
    exact htrace
  obtain ⟨v, hv, hout⟩ := builds_buildVir C (C.beforeBuild s)
  obtain rfl := Except.ok.inj (h.symm.trans hv)
  rcases hout with ⟨hstage, others, htold⟩ | ⟨⟨lost, hlost, hstage⟩, hnone, hone⟩
  · refine Or.inl ⟨hstage, fun e he d hd => ?_⟩
    rw [hpanel]
    refine mem_panel_of_reported C (show (e, some MessageLevel.error) ∈ _ from ?_) hd
    rw [hreported, htold]
    exact List.mem_append_right _ (List.mem_map_of_mem he)
  · refine Or.inr ⟨⟨lost, hlost, hstage⟩, hone, ?_⟩
    rw [hpanel, diags_of_unreported C (hreported.trans hnone)]

/-- The empty crate, with a trait that `check_traits` rejects. -/
def cyclicTraits : Compiler Unit (Except VirErr (List Command)) :=
  { emptyCrate with checkTraits := fun s => (.error "cycle".toList, s) }

/-- The panel after the error is blank. -/
theorem verify_buildErrors_lost :
    let s : Pipe Unit := ⟨freshSession, {}, false, 0⟩
    let r := cyclicTraits.verify echoWorld ⟨1, 1, 1⟩ s
    renderMeta 1 (finishRun .verify (r.calls.flatMap cyclicTraits.callbacks) none {})
      = ⟨none, [], []⟩ := by
  intro s r
  rcases verify_buildErrors cyclicTraits echoWorld ⟨1, 1, 1⟩ s ["cycle".toList] 1 rfl with
    ⟨hstage, -⟩ | ⟨-, -, hpanel⟩
  · exact absurd hstage (by decide)
  · have hsilent : raised r.calls = [] := by decide
    exact hpanel.trans (by rw [hsilent]; rfl)

end VerusExplorer
