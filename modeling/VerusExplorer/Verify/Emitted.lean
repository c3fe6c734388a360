import VerusExplorer.Verify.Pipeline

/-!
# Which sections the pipeline dumps

A run of `verify` (`lib.rs`) hands over its sections as it goes, and the bodies of `VerifyOutput` at
its end; a section is never taken back.

* `dumps` — the sections of a run, in order; `Emits` — a stage that returns and dumps certain ones.
* `Compiler.Built`, `Compiler.modulesRun` — VIR has been built; the run over the modules then.
* **`dumps_verify`** — whatever rustc, VIR and the solver answer, a run dumps the Rust trees, then
  VIR if it has been built, and then the bodies that are not blank, each once.
-/

namespace VerusExplorer

open Utf16

variable {σ F α β : Type}

/-! ## Sections -/

def StageCall.dumped : StageCall → Option (JsString × Str)
  | .dump name body => some (name, body)
  | _ => none

/-- The sections that have been dumped, in order. -/
def dumps (calls : List StageCall) : List (JsString × Str) := calls.filterMap StageCall.dumped

lemma dumps_append (c d : List StageCall) : dumps (c ++ d) = dumps c ++ dumps d :=
  List.filterMap_append

/-- The stage returns, and has dumped sections of these names. -/
def Emits (names : List JsString) (x : Pipeline σ α) : Prop :=
  ∀ s, (∃ a, (x s).result = .ok a) ∧ (dumps (x s).calls).map Prod.fst = names

section Emits

variable {C : Compiler σ F} {names names' : List JsString}

lemma emits_pure (a : α) : Emits [] (pure a : Pipeline σ α) := fun _ => ⟨⟨a, rfl⟩, rfl⟩

lemma Emits.bind {x : Pipeline σ α} {f : α → Pipeline σ β} (hx : Emits names x)
    (hf : ∀ a, Emits names' (f a)) : Emits (names ++ names') (x >>= f) := by
  intro s
  obtain ⟨⟨a, hresult⟩, hnames⟩ := hx s
  obtain ⟨hresult', hnames'⟩ := hf a (x s).state
  rw [Traced.bind_ok hresult]
  refine ⟨hresult', ?_⟩
  rw [dumps_append, List.map_append, hnames, hnames']

lemma Emits.time {x : Pipeline σ α} (hx : Emits names x) (label : String) :
    Emits names (C.time label x) := by
  intro s
  obtain ⟨hresult, hnames⟩ := hx { s with readings := s.readings + 1 }
  rw [C.time_run]
  refine ⟨hresult, ?_⟩
  rw [dumps_append]
  exact (congrArg _ (List.append_nil _)).trans hnames

lemma emits_ask (f : σ → α × σ) : Emits [] (ask f) := fun _ => ⟨⟨_, rfl⟩, rfl⟩

lemma emits_look (f : σ → α) : Emits [] (look f) := fun _ => ⟨⟨_, rfl⟩, rfl⟩

lemma emits_dumpSection (name : String) (body : Str) :
    Emits [js name] (dumpSection name body : Pipeline σ Unit) := fun _ => ⟨⟨(), rfl⟩, rfl⟩

/-- Calls that are not dumps. -/
lemma emits_each_emit {calls : List StageCall} (h : ∀ c ∈ calls, c.dumped = none) :
    Emits [] (Traced.each Traced.emit calls : Pipeline σ Unit) := by
  intro s
  rw [Traced.each_emit]
  refine ⟨⟨(), rfl⟩, ?_⟩
  rw [dumps, List.filterMap_eq_nil_iff.mpr h]
  rfl

lemma emits_askRustc (f : σ → Raised α × σ) : Emits [] (askRustc f) := by
  refine (emits_ask f).bind fun r => ?_
  refine (emits_each_emit ?_).bind fun _ => emits_pure _
  intro c hc
  obtain ⟨d, -, rfl⟩ := List.mem_map.mp hc
  rfl

end Emits

/-! ## The stages before the modules -/

namespace Compiler

variable (C : Compiler σ F)

/-- The sections of the Rust trees. -/
def rustSections : List JsString := ["AST_PRE", "AST", "HIR", "HIR_TYPED"].map js

/-- The sections of VIR. -/
def virSections : List JsString := ["VIR_RAW", "VIR_SIMPLE"].map js

lemma emits_dumpAstPreExpansion : Emits [js "AST_PRE"] C.dumpAstPreExpansion :=
  Emits.time ((emits_look _).bind fun _ => emits_dumpSection _ _) _

lemma emits_dumpAst : Emits [js "AST"] C.dumpAst :=
  Emits.time ((emits_askRustc _).bind fun _ =>
    (emits_look _).bind fun _ => emits_dumpSection _ _) _

lemma emits_dumpHir : Emits [js "HIR", js "HIR_TYPED"] C.dumpHir := by
  refine (emits_askRustc _).bind fun _ => ?_
  have hhir : Emits [js "HIR"] (C.time "dump.hir" do
      let items ← look C.hirItems
      dumpSection "HIR" (itemLinesBody items)) :=
    Emits.time ((emits_look _).bind fun _ => emits_dumpSection _ _) _
  exact hhir.bind fun _ =>
    Emits.time ((emits_askRustc _).bind fun _ => emits_dumpSection _ _) _

lemma emits_dumpRust : Emits rustSections C.dumpRust := by
  refine (Emits.time (emits_askRustc _) _).bind fun _ => ?_
  refine C.emits_dumpAstPreExpansion.bind fun _ => ?_
  exact C.emits_dumpAst.bind fun _ => C.emits_dumpHir

lemma emits_dumpVir : Emits virSections C.dumpVir := by
  have hraw : Emits [js "VIR_RAW"] (C.time "dump.vir_raw" do
      let items ← look C.rawWalk
      dumpSection "VIR_RAW" (WalkBuilder.mk items).finish) :=
    Emits.time ((emits_look _).bind fun _ => emits_dumpSection _ _) _
  exact hraw.bind fun _ => Emits.time ((emits_look _).bind fun _ => emits_dumpSection _ _) _

/-! ### Building VIR -/

lemma emits_vstdKrate : Emits [] C.vstdKrate := by
  intro s
  rw [vstdKrate, Traced.bind_ok rfl]
  dsimp only
  split_ifs
  · exact ⟨⟨_, rfl⟩, rfl⟩
  · exact ⟨⟨_, rfl⟩, rfl⟩
  · exact ⟨⟨_, rfl⟩, rfl⟩

/-- Reports are no sections. -/
lemma emits_reports {γ : Type} (f : γ → StageCall) (hf : ∀ c, (f c).dumped = none) (cs : List γ) :
    Emits [] (Traced.each (fun c => Traced.emit (f c)) cs : Pipeline σ Unit) := by
  intro s
  rw [Traced.each_emit_map]
  refine ⟨⟨(), rfl⟩, ?_⟩
  rw [dumps, List.filterMap_eq_nil_iff.mpr]
  · rfl
  · intro c hc
    obtain ⟨d, -, rfl⟩ := List.mem_map.mp hc
    exact hf d

lemma emits_constructAndReport : Emits [] C.constructAndReport := by
  refine (emits_askRustc _).bind fun r => ?_
  rcases r with ⟨errs, diagnostics⟩ | ok
  · refine (emits_reports _ (fun _ => rfl) _).bind fun _ => ?_
    exact (emits_reports _ (fun _ => rfl) _).bind fun _ => emits_pure _
  · cases ok with
    | true => exact emits_pure _
    | false => exact emits_pure _

lemma emits_pass (label : String) (f : σ → Except VirErr Unit × σ) : Emits [] (C.pass label f) :=
  (Emits.time (emits_ask f) _).bind fun _ => emits_pure _

lemma emits_andThen {x y : Pipeline σ (Except (List VirErr) Unit)} (hx : Emits [] x)
    (hy : Emits [] y) : Emits [] (andThen x y) := by
  refine hx.bind fun r => ?_
  cases r with
  | error errs => exact emits_pure _
  | ok u => exact hy

lemma emits_buildVir : Emits [] C.buildVir := by
  refine (emits_askRustc _).bind fun _ => ?_
  refine emits_andThen (Emits.time C.emits_vstdKrate _) ?_
  refine emits_andThen (Emits.time C.emits_constructAndReport _) ?_
  refine emits_andThen (C.emits_pass _ _) ?_
  exact emits_andThen (C.emits_pass _ _) (C.emits_pass _ _)

end Compiler

/-! ## The calls of a stage -/

/-- All calls of the stage satisfy `p`. -/
abbrev Makes (p : StageCall → Prop) (x : Pipeline σ α) : Prop :=
  Traced.Keeps (Traced.callsIn p) x

/-- What every stage may call satisfies `p`: diagnostics of rustc, and timings. -/
structure Admits (p : StageCall → Prop) : Prop where
  rustc : ∀ d, p (.rustc d)
  bench : ∀ label ms, p (.bench label ms)

section Makes

variable {C : Compiler σ F} {W : World σ F} {fuel : Fuel} {p : StageCall → Prop}

lemma makes_pure (a : α) : Makes p (pure a : Pipeline σ α) :=
  Traced.keeps_pure (Traced.composes_callsIn _) a

lemma Makes.bind {x : Pipeline σ α} {f : α → Pipeline σ β} (hx : Makes p x)
    (hf : ∀ a, Makes p (f a)) : Makes p (x >>= f) :=
  Traced.keeps_bind (Traced.composes_callsIn _) hx hf

lemma makes_of_quiet {x : Pipeline σ α} (h : ∀ s, (x s).calls = []) : Makes p x := by
  intro s c hc
  rw [h s] at hc
  exact absurd hc List.not_mem_nil

lemma makes_ask (f : σ → α × σ) : Makes p (ask f) := makes_of_quiet fun _ => rfl

lemma makes_look (f : σ → α) : Makes p (look f) := makes_of_quiet fun _ => rfl

lemma makes_emit {c : StageCall} (hc : p c) : Makes p (Traced.emit c : Pipeline σ Unit) :=
  fun _ _ hmem => List.mem_singleton.mp hmem ▸ hc

variable (hp : Admits p)

include hp

lemma Makes.time {x : Pipeline σ α} (hx : Makes p x) (label : String) :
    Makes p (C.time label x) := by
  intro s c hc
  rw [C.time_run] at hc
  rcases List.mem_append.mp hc with hc | hc
  · exact hx _ c hc
  · rw [List.mem_singleton.mp hc]
    exact hp.bench _ _

lemma makes_askRustc (f : σ → Raised α × σ) : Makes p (askRustc f) := by
  refine (makes_ask _).bind fun r => Makes.bind (fun s c hc => ?_) fun _ => makes_pure _
  rw [Traced.each_emit] at hc
  obtain ⟨d, -, rfl⟩ := List.mem_map.mp hc
  exact hp.rustc d

/-! ### The Rust trees -/

section Trees

variable (hdump : ∀ name body, p (.dump name body))

include hdump

lemma makes_dumpAstPreExpansion : Makes p C.dumpAstPreExpansion :=
  Makes.time hp ((makes_look _).bind fun _ => makes_emit (hdump _ _)) _

lemma makes_dumpAst : Makes p C.dumpAst :=
  Makes.time hp ((makes_askRustc hp _).bind fun _ =>
    (makes_look _).bind fun _ => makes_emit (hdump _ _)) _

lemma makes_dumpHir : Makes p C.dumpHir := by
  refine (makes_askRustc hp _).bind fun _ => ?_
  refine (Makes.time hp ((makes_look _).bind fun _ => makes_emit (hdump _ _)) _).bind fun _ => ?_
  exact Makes.time hp ((makes_askRustc hp _).bind fun _ => makes_emit (hdump _ _)) _

end Trees

/-! ### The modules -/

lemma makes_lower (m : Module) : Makes p (C.lower m) := by
  have hstop : ∀ {β : Type} (r : Except VirErr β), Makes p (onSession (orStop r) : Pipeline σ β) :=
    fun r => makes_of_quiet fun _ => by cases r <;> rfl
  have hpush : ∀ (f : Walks → Str → Walks) (items : List WalkItem),
      Makes p (Compiler.pushWalk f items : Pipeline σ Unit) :=
    fun _ _ => makes_of_quiet fun _ => rfl
  refine (Makes.time hp (makes_ask _) _).bind fun _ => ?_
  refine (Makes.time hp (hpush _ _) _).bind fun _ => ?_
  refine (Makes.time hp ((makes_ask _).bind fun _ => hstop _) _).bind fun _ => ?_
  refine (Makes.time hp ((makes_askRustc hp _).bind fun _ => hstop _) _).bind fun _ => ?_
  refine (Makes.time hp (hpush _ _) _).bind fun _ => ?_
  refine (Makes.time hp (makes_ask _) _).bind fun _ => ?_
  exact (Makes.time hp (hpush _ _) _).bind fun _ => makes_pure _

variable (hsession : ∀ call : Call, ∀ c ∈ call.stageCalls, p c)

include hsession

lemma makes_verifyModule (m : Module) : Makes p (C.verifyModule W fuel m) := by
  have hzoom : ∀ x : Prog σ Unit, Makes p (onSession x) := fun x => Traced.callsIn_zoom _ hsession x
  have hqueries : ∀ krateSst, Makes p (C.runQueries W fuel krateSst) := fun _ =>
    (Makes.time hp (hzoom _) _).bind fun _ =>
      (hzoom _).bind fun _ => (hzoom _).bind fun _ => hzoom _
  refine (makes_lower hp m).bind fun _ => ?_
  refine (Makes.time hp (makes_pure _) _).bind fun _ => ?_
  refine (hzoom _).bind fun _ => (hzoom _).bind fun _ => (hzoom _).bind fun _ => ?_
  exact (Makes.time hp (hqueries _) _).bind fun _ => Makes.time hp (makes_pure _) _

/-- What the verification of the modules calls. -/
lemma makes_verifySimplifiedKrate (modules : List Module) :
    Makes p (C.verifySimplifiedKrate W fuel modules) := by
  refine (Makes.time hp (makes_pure _) _).bind fun _ => ?_
  refine Traced.keeps_each (Traced.composes_callsIn _) _ fun m _ => ?_
  have hzoom : ∀ x : Prog σ Unit, Makes p (onSession x) :=
    fun x => Traced.callsIn_zoom _ hsession x
  refine (hzoom _).bind fun _ => Makes.bind ?_ fun r => ?_
  · exact Traced.keeps_attempt (fun h => h) (Makes.time hp (makes_verifyModule hp hsession m) _)
  · rcases r with (e | _) | u
    · exact (hzoom _).bind fun _ => hzoom _
    · exact hzoom _
    · exact hzoom _

end Makes

/-- Nothing of this is a section. -/
lemma silent_verifySimplifiedKrate (C : Compiler σ F) (W : World σ F) (fuel : Fuel)
    (modules : List Module) :
    Makes (fun c => c.dumped = none)
      (C.time "verify" (C.verifySimplifiedKrate W fuel modules)) := by
  have hp : Admits fun c => c.dumped = none := ⟨fun _ => rfl, fun _ _ => rfl⟩
  refine Makes.time hp (makes_verifySimplifiedKrate hp (fun call c hc => ?_) modules) _
  cases call <;> simp only [Call.stageCalls, List.mem_singleton, List.not_mem_nil] at hc
  all_goals
    rw [hc]
    rfl

lemma Makes.filterMap_calls {x : Pipeline σ α} {γ : Type} {f : StageCall → Option γ}
    (h : Makes (fun c => f c = none) x) (s : Pipe σ) : (x s).calls.filterMap f = [] :=
  List.filterMap_eq_nil_iff.mpr (h s)

/-! ## The whole -/

/-- What `write` dumps of a section. -/
def writtenSection (x : String × Str) : List (JsString × Str) :=
  if (trim x.2).isEmpty then [] else [(js x.1, x.2)]

/-- The sections that are not blank. -/
def Pipe.written (s : Pipe σ) : List (JsString × Str) := s.sections.flatMap writtenSection

/-- All sections of `verify`, in the order of the pipeline. -/
def verifySections : List JsString :=
  Compiler.rustSections ++ (Compiler.virSections
    ++ ["VIR_PRUNED", "SST_AST", "SST_POLY", "AIR_INITIAL", "AIR_MIDDLE", "AIR_FINAL", "SMT_QUERY",
      "SMT_RESPONSE", "SMT_TRANSCRIPT"].map js)

/-- `write` dumps what is not blank and changes nothing. -/
lemma write_run (s : Pipe σ) :
    (write s).result = .ok () ∧ (write s).state = s ∧ dumps (write s).calls = s.written := by
  have hround : ∀ (x : String × Str) (s : Pipe σ), writeSection x s
      = ⟨.ok (), s, (writtenSection x).map fun y => .dump y.1 y.2⟩ := by
    intro x s
    rw [writeSection, writtenSection]
    split_ifs
    · rfl
    · rfl
  have hloop := Traced.each_calls hround s.sections s
  have hwrite : write s = Traced.each writeSection s.sections s := Traced.bind_ok rfl
  rw [hwrite, hloop]
  refine ⟨rfl, rfl, ?_⟩
  rw [dumps, ← List.map_flatMap, List.filterMap_map]
  exact List.filterMap_some

/-- The names `write` dumps are some of its names. -/
lemma sublist_written (s : Pipe σ) :
    (s.written.map Prod.fst).Sublist (s.sections.map fun x => js x.1) := by
  have hround : ∀ x : String × Str,
      ((writtenSection x).map Prod.fst).Sublist [js x.1] := by
    intro x
    rw [writtenSection]
    split_ifs
    · exact List.nil_sublist _
    · exact List.Sublist.refl _
  rw [Pipe.written]
  generalize s.sections = sections
  induction sections with
  | nil => exact List.nil_sublist _
  | cons x sections ih =>
      rw [List.flatMap_cons, List.map_append, List.map_cons]
      exact (hround x).append ih

section Verify

variable (C : Compiler σ F) (W : World σ F) (fuel : Fuel)

namespace Compiler

/-- The state in which `verify` calls `build_vir`. -/
def beforeBuild (s : Pipe σ) : Pipe σ :=
  let t := (C.dumpRust s).state
  { t with readings := t.readings + 1 }

/-- VIR is built. -/
def Built (s : Pipe σ) : Prop := (C.buildVir (C.beforeBuild s)).result = .ok (.ok ())

/-- The state in which the modules are verified. -/
def beforeModules (s : Pipe σ) : Pipe σ :=
  let built := (C.buildVir (C.beforeBuild s)).state
  (freshOutput (C.dumpVir { built with readings := built.readings + 1 }).state).state

/-- The run over the modules. -/
def modulesRun (s : Pipe σ) : Ran (Session σ) Call Stop Unit :=
  VerusExplorer.verifySimplifiedKrate W C.lowerModule fuel (C.modules (C.beforeModules s).env)
    (C.beforeModules s).session

end Compiler

/-- `build_vir` under its timer. -/
lemma time_buildVir (s : Pipe σ) :
    (C.time "build_vir" C.buildVir (C.dumpRust s).state).result
        = (C.buildVir (C.beforeBuild s)).result
      ∧ ∃ ms, (C.time "build_vir" C.buildVir (C.dumpRust s).state).calls
        = (C.buildVir (C.beforeBuild s)).calls ++ [.bench (js "build_vir") ms] := by
  rw [C.time_run]
  exact ⟨rfl, _, rfl⟩

/-- After the modules all that is left is `write`. -/
lemma dumps_attempt_write {x : Pipeline σ Unit} (hx : Makes (fun c => c.dumped = none) x)
    (s : Pipe σ) :
    let r := (do let _ ← Traced.attempt x; write : Pipeline σ Unit) s
    r.result = .ok () ∧ dumps r.calls = r.state.written := by
  intro r
  obtain ⟨hresult, hstate, hcalls⟩ := write_run (x s).state
  have hr : r = ⟨(write (x s).state).result, (write (x s).state).state,
      (x s).calls ++ (write (x s).state).calls⟩ := Traced.bind_ok rfl
  rw [hr, hstate]
  refine ⟨hresult, ?_⟩
  rw [dumps_append, (show dumps (x s).calls = [] from hx.filterMap_calls s), List.nil_append,
    hcalls]

/-- The dumps once VIR has been built. -/
lemma dumps_verifyVir (s : Pipe σ) :
    (C.verifyVir W fuel s).result = .ok () ∧ ∃ vir : List (JsString × Str),
      vir.map Prod.fst = Compiler.virSections
        ∧ dumps (C.verifyVir W fuel s).calls = vir ++ (C.verifyVir W fuel s).state.written := by
  obtain ⟨⟨u, hok⟩, hvir⟩ := C.emits_dumpVir s
  have hfresh : (freshOutput (C.dumpVir s).state).result = .ok () := rfl
  rw [Compiler.verifyVir, Traced.bind_ok hok, Traced.bind_ok hfresh]
  generalize (freshOutput (C.dumpVir s).state).state = s'
  have hlook : (look C.modules s').result = .ok (C.modules s'.env) := rfl
  rw [Traced.bind_ok hlook]
  have htail := dumps_attempt_write
    (silent_verifySimplifiedKrate C W fuel (C.modules s'.env))
    (look C.modules s').state
  have hquiet : dumps (freshOutput (C.dumpVir s).state).calls = [] := rfl
  have hquiet' : dumps (look C.modules s').calls = [] := rfl
  generalize (Traced.attempt (C.time "verify" (C.verifySimplifiedKrate W fuel (C.modules s'.env)))
    >>= fun _ => write) (look C.modules s').state = r at htail ⊢
  obtain ⟨hresult, hdumps⟩ := htail
  refine ⟨hresult, _, hvir, ?_⟩
  rw [dumps_append, dumps_append, dumps_append, hdumps, hquiet, hquiet', List.nil_append,
    List.nil_append]

/-- Once VIR has been built the session ends as the run over the modules leaves it. -/
lemma session_verifyVir (s : Pipe σ) :
    let t := (freshOutput (C.dumpVir s).state).state
    (C.verifyVir W fuel s).state.session
      = (verifySimplifiedKrate W C.lowerModule fuel (C.modules t.env) t.session).state := by
  intro t
  obtain ⟨⟨u, hok⟩, -⟩ := C.emits_dumpVir s
  have hfollows : Traced.Follows (Pipe.sessionView σ)
      (C.verifySimplifiedKrate W fuel (C.modules t.env))
      (verifySimplifiedKrate W C.lowerModule fuel (C.modules t.env)) :=
    verify_follows (C.modules t.env)
  have hfresh : (freshOutput (C.dumpVir s).state).result = .ok () := rfl
  have hlook : (look C.modules t).result = .ok (C.modules t.env) := rfl
  have hattempt : (Traced.attempt (C.time "verify" (C.verifySimplifiedKrate W fuel
      (C.modules t.env))) (look C.modules t).state).result = .ok _ := rfl
  rw [Compiler.verifyVir, Traced.bind_ok hok, Traced.bind_ok hfresh, Traced.bind_ok hlook,
    Traced.bind_ok hattempt]
  dsimp only
  rw [(write_run _).2.1]
  exact (follows_time (C := C) hfollows "verify" t).state

/-- **The dumps of a run.**  A run comes to its end.  It dumps the Rust trees, and if VIR is built
also VIR and then what is not blank of the bodies the modules leave. -/
lemma dumps_verify (s : Pipe σ) :
    (C.verify W fuel s).result = .ok ()
      ∧ ∃ rust : List (JsString × Str), rust.map Prod.fst = Compiler.rustSections
        ∧ (¬C.Built s → dumps (C.verify W fuel s).calls = rust)
        ∧ (C.Built s → (C.verify W fuel s).state.session = (C.modulesRun W fuel s).state
          ∧ ∃ vir : List (JsString × Str), vir.map Prod.fst = Compiler.virSections
            ∧ dumps (C.verify W fuel s).calls
              = rust ++ (vir ++ (C.verify W fuel s).state.written)) := by
  obtain ⟨⟨u, hrust⟩, hnames⟩ := C.emits_dumpRust s
  obtain ⟨hresult, -⟩ := time_buildVir C s
  obtain ⟨⟨v, hbuilt⟩, hsilent⟩ :=
    (C.emits_buildVir.time (C := C) "build_vir") (C.dumpRust s).state
  have hnone := List.map_eq_nil_iff.mp hsilent
  have hiff : C.Built s ↔ v = .ok () := by
    rw [Compiler.Built, ← hresult, hbuilt, Except.ok.injEq]
  rw [Compiler.verify, Traced.bind_ok hrust, Traced.bind_ok hbuilt, hiff]
  cases v with
  | error errs =>
      refine ⟨rfl, _, hnames, fun _ => ?_, fun h => absurd h (by simp)⟩
      rw [dumps_append, dumps_append, hnone]
      exact List.append_nil _
  | ok v =>
      obtain ⟨hend, vir, hvir, hdumps⟩ := dumps_verifyVir C W fuel
        (C.time "build_vir" C.buildVir (C.dumpRust s).state).state
      have hsession := session_verifyVir C W fuel
        (C.time "build_vir" C.buildVir (C.dumpRust s).state).state
      refine ⟨hend, _, hnames, fun h => absurd rfl h, fun _ => ⟨?_, vir, hvir, ?_⟩⟩
      · refine Eq.trans hsession ?_
        rw [C.time_run]
        rfl
      · rw [dumps_append, dumps_append, hnone, hdumps, List.nil_append]

/-- The names of the dumps are some of the sections, in their order. -/
lemma sublist_verify (s : Pipe σ) :
    ((dumps (C.verify W fuel s).calls).map Prod.fst).Sublist verifySections := by
  obtain ⟨-, rust, hrust, hnot, hbuilt⟩ := dumps_verify C W fuel s
  by_cases h : C.Built s
  · obtain ⟨-, vir, hvir, hdumps⟩ := hbuilt h
    rw [hdumps, List.map_append, List.map_append, hrust, hvir]
    exact (List.Sublist.refl _).append ((List.Sublist.refl _).append (sublist_written _))
  · rw [hnot h, hrust]
    exact List.sublist_append_left _ _

end Verify

end VerusExplorer
