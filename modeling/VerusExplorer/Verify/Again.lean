import VerusExplorer.Lib.Paired
import VerusExplorer.Verify.Execute

/-!
# Runs one after another

The wasm module is loaded once and serves every click on the action button.  What stays from one
run to the next is the static `VSTD_KRATE` (`verus.rs`), which spares a later run the
deserialization of vstd, and the clock.

* `SameRun` — two states that differ in nothing else; `Oblivious` — a stage that neither shows what
  is in the cache nor what the clock reads, but in the times it reports.
* `Compiler.runClicks` — the runs of a page, each from the session rustc opens for it.
* **`again_shown`** — but for its times each run ends as it does on a page that has just been
  loaded, and the page shows the same of it.
-/

namespace VerusExplorer

open Utf16
open Traced (Paired)

variable {σ F α β : Type}

/-! ## What stays -/

/-- A call without the time it reports. -/
def StageCall.timeless : StageCall → StageCall
  | .bench label _ => .bench label 0
  | c => c

/-- Nothing but the cache and the clock tells the states apart, and what is cached has been
deserialized. -/
structure SameRun (C : Compiler σ F) (s t : Pipe σ) : Prop where
  session : s.session = t.session
  walks : s.walks = t.walks
  left : s.vstdCached = true → C.deserializes = true
  right : t.vstdCached = true → C.deserializes = true

/-- The cache and the clock do not show, but for the times. -/
abbrev Oblivious (C : Compiler σ F) (x : Pipeline σ α) : Prop :=
  Paired (SameRun C) StageCall.timeless x x

section Oblivious

variable {C : Compiler σ F} {W : World σ F} {fuel : Fuel}

lemma oblivious_onSession (x : Prog σ α) : Oblivious C (onSession x) :=
  Traced.paired_zoom (fun _ _ h => h.session) (fun _ _ _ h => ⟨rfl, h.walks, h.left, h.right⟩) x

lemma oblivious_ask (f : σ → α × σ) : Oblivious C (ask f) := oblivious_onSession _

lemma oblivious_look (f : σ → α) : Oblivious C (look f) := by
  refine Paired.get_bind fun s t h => ?_
  rw [Pipe.env, Pipe.env, h.session]
  exact Traced.paired_pure _

lemma oblivious_askRustc (f : σ → Raised α × σ) : Oblivious C (askRustc f) :=
  (oblivious_ask f).bind fun _ =>
    (Paired.each (fun c => Traced.paired_emit c) _).bind fun _ => Traced.paired_pure _

lemma oblivious_dumpSection (name : String) (body : Str) :
    Oblivious C (dumpSection name body : Pipeline σ Unit) := Traced.paired_emit _

/-- A timer reports the same label. -/
lemma Oblivious.time {x : Pipeline σ α} (hx : Oblivious C x) (label : String) :
    Oblivious C (C.time label x) := by
  intro s t h
  obtain ⟨hresult, hcalls, hstate⟩ := hx { s with readings := s.readings + 1 }
    { t with readings := t.readings + 1 } ⟨h.session, h.walks, h.left, h.right⟩
  rw [C.time_run, C.time_run]
  refine ⟨hresult, ?_, hstate.session, hstate.walks, hstate.left, hstate.right⟩
  rw [List.map_append, List.map_append, hcalls]
  rfl

/-! ### The stages before the modules -/

/-- What is in the cache makes no difference to what `vstd_krate` returns. -/
lemma vstdKrate_run (s : Pipe σ) (hs : s.vstdCached = true → C.deserializes = true) :
    C.vstdKrate s
      = ⟨.ok (if C.deserializes then .ok ()
          else .error ["failed to deserialize embedded VIR crate — version mismatch?".toList]),
        { s with vstdCached := C.deserializes }, []⟩ := by
  obtain ⟨session, walks, cached, readings⟩ := s
  rw [Compiler.vstdKrate, Traced.bind_ok rfl]
  dsimp only
  cases cached with
  | true =>
      rw [hs rfl]
      rfl
  | false =>
      cases C.deserializes with
      | true => rfl
      | false => rfl

lemma oblivious_vstdKrate : Oblivious C C.vstdKrate := by
  intro s t h
  rw [vstdKrate_run s h.left, vstdKrate_run t h.right]
  exact ⟨rfl, rfl, h.session, h.walks, fun hcached => hcached, fun hcached => hcached⟩

lemma oblivious_dumpAstPreExpansion : Oblivious C C.dumpAstPreExpansion :=
  Oblivious.time ((oblivious_look _).bind fun _ => oblivious_dumpSection _ _) _

lemma oblivious_dumpAst : Oblivious C C.dumpAst :=
  Oblivious.time ((oblivious_askRustc _).bind fun _ =>
    (oblivious_look _).bind fun _ => oblivious_dumpSection _ _) _

lemma oblivious_dumpHir : Oblivious C C.dumpHir := by
  refine (oblivious_askRustc _).bind fun _ => ?_
  refine (Oblivious.time ((oblivious_look _).bind fun _ => oblivious_dumpSection _ _) _).bind
    fun _ => ?_
  exact Oblivious.time ((oblivious_askRustc _).bind fun _ => oblivious_dumpSection _ _) _

lemma oblivious_constructAndReport : Oblivious C C.constructAndReport := by
  refine (oblivious_askRustc _).bind fun r => ?_
  rcases r with ⟨errs, diagnostics⟩ | ok
  · refine (Paired.each (fun _ => Traced.paired_emit _) _).bind fun _ => ?_
    exact (Paired.each (fun _ => Traced.paired_emit _) _).bind fun _ => Traced.paired_pure _
  · cases ok with
    | true => exact Traced.paired_pure _
    | false => exact Traced.paired_pure _

lemma oblivious_pass (label : String) (f : σ → Except VirErr Unit × σ) :
    Oblivious C (C.pass label f) :=
  (Oblivious.time (oblivious_ask f) _).bind fun _ => Traced.paired_pure _

lemma oblivious_andThen {x y : Pipeline σ (Except (List VirErr) Unit)} (hx : Oblivious C x)
    (hy : Oblivious C y) : Oblivious C (Compiler.andThen x y) := by
  refine hx.bind fun r => ?_
  cases r with
  | error errs => exact Traced.paired_pure _
  | ok u => exact hy

lemma oblivious_buildVir : Oblivious C C.buildVir := by
  refine (oblivious_askRustc _).bind fun _ => ?_
  refine oblivious_andThen (oblivious_vstdKrate.time _) ?_
  refine oblivious_andThen (oblivious_constructAndReport.time _) ?_
  refine oblivious_andThen (oblivious_pass _ _) ?_
  exact oblivious_andThen (oblivious_pass _ _) (oblivious_pass _ _)

lemma oblivious_dumpVir : Oblivious C C.dumpVir :=
  (Oblivious.time ((oblivious_look _).bind fun _ => oblivious_dumpSection _ _) _).bind fun _ =>
    Oblivious.time ((oblivious_look _).bind fun _ => oblivious_dumpSection _ _) _

/-! ### The modules -/

lemma oblivious_pushWalk (f : Walks → Str → Walks) (items : List WalkItem) :
    Oblivious C (Compiler.pushWalk f items : Pipeline σ Unit) := by
  refine Traced.paired_modify fun s t h => ⟨h.session, ?_, h.left, h.right⟩
  dsimp only
  rw [h.walks]

lemma oblivious_lower (m : Module) : Oblivious C (C.lower m) := by
  refine (Oblivious.time (oblivious_ask _) _).bind fun _ => ?_
  refine (Oblivious.time (oblivious_pushWalk _ _) _).bind fun _ => ?_
  refine (Oblivious.time ((oblivious_ask _).bind fun _ => oblivious_onSession _) _).bind
    fun _ => ?_
  refine (Oblivious.time ((oblivious_askRustc _).bind fun _ => oblivious_onSession _) _).bind
    fun _ => ?_
  refine (Oblivious.time (oblivious_pushWalk _ _) _).bind fun _ => ?_
  refine (Oblivious.time (oblivious_ask _) _).bind fun _ => ?_
  exact (Oblivious.time (oblivious_pushWalk _ _) _).bind fun _ => Traced.paired_pure _

lemma oblivious_verifyModule (m : Module) : Oblivious C (C.verifyModule W fuel m) := by
  have hqueries : ∀ krateSst, Oblivious C (C.runQueries W fuel krateSst) := fun _ =>
    (Oblivious.time (oblivious_onSession _) _).bind fun _ =>
      (oblivious_onSession _).bind fun _ =>
        (oblivious_onSession _).bind fun _ => oblivious_onSession _
  refine (oblivious_lower m).bind fun krateSst => ?_
  refine (Oblivious.time (Traced.paired_pure _) _).bind fun _ => ?_
  refine (oblivious_onSession _).bind fun _ => (oblivious_onSession _).bind fun _ => ?_
  refine (oblivious_onSession _).bind fun _ => ?_
  exact ((hqueries krateSst).time _).bind fun _ => Oblivious.time (Traced.paired_pure _) _

lemma oblivious_verifySimplifiedKrate (modules : List Module) :
    Oblivious C (C.verifySimplifiedKrate W fuel modules) := by
  refine (Oblivious.time (Traced.paired_pure _) _).bind fun _ => Paired.each (fun m => ?_) _
  refine (oblivious_onSession _).bind fun _ => ?_
  refine (((oblivious_verifyModule m).time _).attempt).bind fun r => ?_
  rcases r with (e | _) | u
  · exact (oblivious_onSession _).bind fun _ => oblivious_onSession _
  · exact oblivious_onSession _
  · exact oblivious_onSession _

/-! ### The entry points -/

lemma oblivious_write : Oblivious C (write : Pipeline σ Unit) := by
  refine Paired.get_bind fun s t h => ?_
  rw [Pipe.sections, Pipe.sections, h.session, h.walks]
  refine Paired.each (fun x => ?_) _
  rw [writeSection]
  split_ifs
  · exact Traced.paired_pure _
  · exact oblivious_dumpSection _ _

lemma oblivious_freshOutput : Oblivious C (freshOutput : Pipeline σ Unit) := by
  refine Traced.paired_modify fun s t h => ⟨?_, rfl, h.left, h.right⟩
  dsimp only
  rw [h.session]

lemma oblivious_dumpRust : Oblivious C C.dumpRust :=
  (Oblivious.time (oblivious_askRustc _) _).bind fun _ =>
    oblivious_dumpAstPreExpansion.bind fun _ => oblivious_dumpAst.bind fun _ => oblivious_dumpHir

lemma oblivious_verify : Oblivious C (C.verify W fuel) := by
  refine oblivious_dumpRust.bind fun _ => (oblivious_buildVir.time _).bind fun r => ?_
  cases r with
  | error errs => exact Traced.paired_pure _
  | ok u =>
      refine oblivious_dumpVir.bind fun _ => oblivious_freshOutput.bind fun _ => ?_
      refine (oblivious_look _).bind fun modules => ?_
      exact (((oblivious_verifySimplifiedKrate modules).time _).attempt).bind fun _ =>
        oblivious_write

lemma oblivious_run (I : Interp σ) : Oblivious C (I.run C) := by
  have hstage : ∀ (name : String) (f : ℕ → σ → Raised (List UInt8) × σ) (defIds : List ℕ),
      Oblivious C (Interp.emitStage name f defIds) := fun _ _ _ =>
    (Paired.fold (fun _ _ => (oblivious_askRustc _).bind fun _ => Traced.paired_pure _) _ _).bind
      fun _ => oblivious_dumpSection _ _
  have hmir : Oblivious C (I.dumpMir C) :=
    Oblivious.time ((oblivious_look _).bind fun _ => (hstage _ _ _).bind fun _ =>
      (hstage _ _ _).bind fun _ => hstage _ _ _) _
  have heval : Oblivious C I.eval :=
    (oblivious_ask _).bind fun _ =>
      (Paired.each (fun _ => Traced.paired_emit _) _).bind fun _ => Traced.paired_pure _
  have hentry : Oblivious C (I.runEntry C) := by
    refine (oblivious_look _).bind fun started => ?_
    cases started with
    | false => exact Traced.paired_pure ()
    | true =>
        refine (oblivious_askRustc _).bind fun entry => ?_
        cases entry with
        | false => exact Traced.paired_pure ()
        | true => exact (heval.time _).bind fun _ => Traced.paired_emit _
  -- the Rust trees are dumped as in `verify`, but for the label of the first timer
  have htrees : Oblivious C (I.dumpTrees C) :=
    (Oblivious.time (oblivious_askRustc _) _).bind fun _ =>
      oblivious_dumpAstPreExpansion.bind fun _ => oblivious_dumpAst.bind fun _ =>
        oblivious_dumpHir.bind fun _ => hmir
  exact htrees.bind fun _ => hentry

end Oblivious

/-! ## What the page makes of the calls -/

/-- A call of the page without the time it reports. -/
def Callback.timeless : Callback → Callback
  | .bench label _ => .bench label 0
  | k => k

/-- The caches of a run without the times; the labels stay. -/
def RunCaches.untimed (c : RunCaches) : RunCaches :=
  { c with benchCache := c.benchCache.map fun x => (x.1, 0) }

lemma callbacks_timeless (C : Compiler σ F) (c : StageCall) :
    C.callbacks c.timeless = (C.callbacks c).map Callback.timeless := by
  cases c with
  | report msg level =>
      show (C.emitted msg level).map _ = ((C.emitted msg level).map _).map _
      rw [List.map_map]
      rfl
  | write w =>
      obtain ⟨stream, bytes⟩ := w
      cases stream <;> rfl
  | _ => rfl

lemma Callback.untimed_run (k : Callback) (c : RunCaches) :
    (k.run c).untimed = (k.timeless.run c.untimed).untimed := by
  cases k with
  | bench label ms =>
      simp only [Callback.run, Callback.timeless, RunCaches.untimed]
      rw [OrderedMap.map_set (fun _ => (0 : ℚ)), OrderedMap.map_set (fun _ => (0 : ℚ)),
        List.map_map]
      rfl
  | dump name blocks =>
      simp only [Callback.run, Callback.timeless, RunCaches.dump, RunCaches.untimed]
      split_ifs <;> simp
  | _ => simp [Callback.run, Callback.timeless, RunCaches.untimed]

/-- Calls that differ in their times only leave caches that do. -/
lemma untimed_foldl : ∀ {calls calls' : List Callback} {c c' : RunCaches},
    calls.map Callback.timeless = calls'.map Callback.timeless → c.untimed = c'.untimed →
      (calls.foldl Callback.run c).untimed = (calls'.foldl Callback.run c').untimed
  | [], [], _, _, _, hc => hc
  | [], _ :: _, _, _, hcalls, _ => absurd hcalls (by simp)
  | _ :: _, [], _, _, hcalls, _ => absurd hcalls (by simp)
  | k :: calls, k' :: calls', c, c', hcalls, hc => by
      rw [List.map_cons, List.map_cons, List.cons.injEq] at hcalls
      have hhead : (k.run c).untimed = (k'.run c').untimed := by
        rw [k.untimed_run, k'.untimed_run, hcalls.1, hc]
      rw [List.foldl_cons, List.foldl_cons]
      exact untimed_foldl hcalls.2 hhead

/-- What is done after the wasm call does not look at the times. -/
lemma finalizeBannerSection_untimed (c : RunCaches) (tab : JsString) :
    (finalizeBannerSection c tab).untimed = finalizeBannerSection c.untimed tab := by
  simp only [finalizeBannerSection, RunCaches.untimed]
  cases c.sectionCache.get? tab with
  | none => rfl
  | some raw =>
      dsimp only
      split_ifs <;> rfl

lemma finalizeBannerSections_untimed (c : RunCaches) :
    (finalizeBannerSections c).untimed = finalizeBannerSections c.untimed := by
  have hfold : ∀ (tabs : List JsString) (c : RunCaches),
      (tabs.foldl finalizeBannerSection c).untimed
        = tabs.foldl finalizeBannerSection c.untimed := by
    intro tabs
    induction tabs with
    | nil => exact fun _ => rfl
    | cons tab tabs ih =>
        exact fun c => (ih _).trans (by rw [finalizeBannerSection_untimed, List.foldl_cons])
  exact hfold bannerFoldTabs c

/-- `onError`, if the wasm call has thrown. -/
def abortRun (mode : ActionMode) (threw : Option JsString) (c : RunCaches) : RunCaches :=
  match threw, mode with
  | none, _ => c
  | some message, .verify => runVerifyOnError message c
  | some message, .execute => runProgramOnError message c

lemma abortRun_untimed (mode : ActionMode) (threw : Option JsString) (c : RunCaches) :
    (abortRun mode threw c).untimed = abortRun mode threw c.untimed := by
  cases threw with
  | none => rfl
  | some message =>
      cases mode with
      | execute => rfl
      | verify =>
          simp only [abortRun, runVerifyOnError]
          rw [apply_ite RunCaches.untimed]
          rfl

lemma consolidateDiags_untimed (c : RunCaches) :
    (if c.diags.isEmpty then c else consolidateDiags c).untimed
      = if c.untimed.diags.isEmpty then c.untimed else consolidateDiags c.untimed := by
  rw [apply_ite RunCaches.untimed]
  rfl

/-- **Runs that differ in their times leave what differs in the times.** -/
lemma finishRun_untimed (mode : ActionMode) {calls calls' : List Callback}
    (hcalls : calls.map Callback.timeless = calls'.map Callback.timeless)
    (threw : Option JsString) :
    (finishRun mode calls threw {}).untimed = (finishRun mode calls' threw {}).untimed := by
  have hrun : ∀ calls : List Callback, finishRun mode calls threw {}
      = let c := abortRun mode threw (calls.foldl Callback.run {})
        let c := if mode = .verify then finalizeBannerSections c else c
        if c.diags.isEmpty then c else consolidateDiags c := fun _ => rfl
  have hfinal : ∀ c : RunCaches, (if mode = .verify then finalizeBannerSections c else c).untimed
      = if mode = .verify then finalizeBannerSections c.untimed else c.untimed := by
    intro c
    split_ifs
    · exact finalizeBannerSections_untimed c
    · rfl
  rw [hrun, hrun]
  dsimp only
  rw [consolidateDiags_untimed, consolidateDiags_untimed, hfinal, hfinal, abortRun_untimed,
    abortRun_untimed, untimed_foldl hcalls rfl]

/-! ## The runs of a page -/

/-- A click on the action button: what it starts, and the session rustc opens for the text. -/
structure Click (σ : Type) where
  mode : ActionMode
  session : Session σ

section Runs

variable (I : Interp σ) (C : Compiler σ F) (W : World σ F) (fuel : Fuel)

/-- The run a click starts. -/
def Click.run (k : Click σ) (vstdCached : Bool) (readings : ℕ) :
    Ran (Pipe σ) StageCall Stop Unit :=
  let s : Pipe σ := ⟨k.session, {}, vstdCached, readings⟩
  match k.mode with
  | .verify => C.verify W fuel s
  | .execute => I.run C s

/-- The runs of a page, one after another. -/
def runClicks : Bool → ℕ → List (Click σ) → List (Ran (Pipe σ) StageCall Stop Unit)
  | _, _, [] => []
  | vstdCached, readings, k :: clicks =>
      let ran := k.run I C W fuel vstdCached readings
      ran :: runClicks ran.state.vstdCached ran.state.readings clicks

/-- What the page has of a run: the first `n` calls, and what it threw. -/
def Click.shown (k : Click σ) (n : ℕ) (threw : Option JsString)
    (ran : Ran (Pipe σ) StageCall Stop Unit) : RunCaches :=
  (finishRun k.mode ((ran.calls.flatMap C.callbacks).take n) threw {}).untimed

lemma Click.run_paired (k : Click σ) {cached cached' : Bool}
    (hcached : cached = true → C.deserializes = true)
    (hcached' : cached' = true → C.deserializes = true) (readings readings' : ℕ) :
    let ran := k.run I C W fuel cached readings
    let ran' := k.run I C W fuel cached' readings'
    ran.result = ran'.result
      ∧ ran.calls.map StageCall.timeless = ran'.calls.map StageCall.timeless
      ∧ SameRun C ran.state ran'.state := by
  obtain ⟨mode, session⟩ := k
  have hstart : SameRun C (⟨session, {}, cached, readings⟩ : Pipe σ)
      ⟨session, {}, cached', readings'⟩ := ⟨rfl, rfl, hcached, hcached'⟩
  cases mode with
  | verify => exact oblivious_verify _ _ hstart
  | execute => exact oblivious_run I _ _ hstart

lemma Click.shown_eq (k : Click σ) (n : ℕ) (threw : Option JsString)
    {ran ran' : Ran (Pipe σ) StageCall Stop Unit}
    (h : ran.calls.map StageCall.timeless = ran'.calls.map StageCall.timeless) :
    k.shown C n threw ran = k.shown C n threw ran' := by
  have hcalls : ∀ calls : List StageCall, (calls.flatMap C.callbacks).map Callback.timeless
      = (calls.map StageCall.timeless).flatMap C.callbacks := by
    intro calls
    rw [List.map_flatMap, List.flatMap_map]
    exact List.flatMap_congr fun c _ => (callbacks_timeless C c).symm
  refine finishRun_untimed _ ?_ threw
  rw [List.map_take, List.map_take, hcalls, hcalls, h]

/-- **Whatever has been run before, a run does and shows what it does and shows on a page that has
just been loaded.**  In any sequence of runs of `verify` and of programs on one instance of the wasm
module, each ends as it does there and leaves the session as it does there, and however many of its
calls have been made, and with whatever it throws, what the page caches of it differs in the times
only. -/
theorem again_shown (readings : ℕ) (clicks : List (Click σ)) :
    List.Forall₂ (fun k ran =>
        let fresh := k.run I C W fuel false 0
        ran.result = fresh.result ∧ ran.state.session = fresh.state.session
          ∧ ∀ n threw, k.shown C n threw ran = k.shown C n threw fresh)
      clicks (runClicks I C W fuel false readings clicks) := by
  -- the runs so far have left the clock anywhere, and in the cache only what can be deserialized
  have hruns : ∀ (clicks : List (Click σ)) (cached : Bool) (readings : ℕ),
      (cached = true → C.deserializes = true) →
        List.Forall₂ (fun k ran =>
            let fresh := k.run I C W fuel false 0
            ran.result = fresh.result ∧ ran.state.session = fresh.state.session
              ∧ ∀ n threw, k.shown C n threw ran = k.shown C n threw fresh)
          clicks (runClicks I C W fuel cached readings clicks) := by
    intro clicks
    induction clicks with
    | nil => exact fun _ _ _ => .nil
    | cons k clicks ih =>
        intro cached readings hcached
        have hfresh : false = true → C.deserializes = true := fun h => absurd h Bool.false_ne_true
        obtain ⟨hresult, hcalls, hstate⟩ := k.run_paired I C W fuel hcached hfresh readings 0
        exact .cons ⟨hresult, hstate.session, fun n threw => k.shown_eq C n threw hcalls⟩
          (ih _ _ hstate.left)
  exact hruns clicks false readings (by simp)

end Runs

end VerusExplorer
