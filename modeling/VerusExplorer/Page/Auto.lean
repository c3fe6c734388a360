import VerusExplorer.Page.Runs

/-!
# Auto-verify does not go stale

With the checkbox on, an edit arms a timer, the timer starts a run, and a run that has yielded reads
the document when it resumes (`public/app.js`).  Every start of a run disarms the timer, and a run
that is not the last one leaves without reading anything.

* `App.Current` — a run is due, a run is waiting, or the last one has read the document as it is.
* `App.Awake` — the invariant; `awake_moves`: whatever an event does keeps it.
* **`autoVerify_current`** — once a run has been started, auto-verify is never stale, and when
  nothing is due and nothing waits, the panel is about the document in the editor.
-/

namespace VerusExplorer

open Utf16

/-! ## The invariant -/

namespace Runs

/-- The run started last has not read the document yet. -/
def Waiting (r : Runs) : Prop := ∃ x ∈ r.suspended, x.myRun = r.runId

/-- The last call was made on `doc`. -/
def Read (r : Runs) (doc : Doc) : Prop := ∃ call, r.executed.getLast? = some call ∧ call.src = doc

/-- The panel shows what the last call made of its source. -/
def Shown (r : Runs) : Prop :=
  ∀ call ∈ r.executed.getLast?,
    r.panel = renderMeta call.src.lines (finishRun call.mode call.calls call.threw call.before)

lemma Step.shown {doc : Doc} {r r' : Runs} (hstep : r.Step doc r') (h : r.Shown) : r'.Shown := by
  cases hstep with
  | stay => exact h
  | ready => exact h
  | start mode => exact h
  | stale i hx hstale => exact h
  | execute i hx hlast calls threw =>
      intro call hcall
      have hlast : _ = call := Option.some_inj.mp (List.getLast?_concat.symm.trans hcall)
      subst hlast
      rfl

end Runs

namespace App

def Current (s : App) : Prop := s.timer = true ∨ s.runs.Waiting ∨ s.runs.Read s.editor.doc

/-- A run that has been started found the module loaded; from then on auto-verify is current. -/
structure Awake (s : App) : Prop where
  verus : s.runs.runId ≠ 0 → s.runs.verus = true
  current : s.runs.runId ≠ 0 → s.auto = true → s.Current

end App

/-! ## Every event -/

section Steps

variable {site : Site} {s t : App}

/-- With the box and the timer left alone, it is enough that the runs stay current. -/
lemma awake_rest {r : Runs} (h : s.Awake) (hrest : s.Rests t) (hruns : t.runs = r)
    (hid : r.runId = s.runs.runId) (hverus : s.runs.verus = true → r.verus = true)
    (hcurrent : s.Current → s.timer = true ∨ r.Waiting ∨ r.Read s.editor.doc) : t.Awake := by
  subst hruns
  refine ⟨fun hstarted => ?_, fun hstarted hauto => ?_⟩
  · rw [hid] at hstarted
    exact hverus (h.verus hstarted)
  · rw [hid] at hstarted
    rw [hrest.auto] at hauto
    rw [App.Current, hrest.editor, hrest.timer]
    exact hcurrent (h.current hstarted hauto)

/-- A stale run that resumes leaves the one that waits. -/
lemma waiting_stale {r : Runs} {i : ℕ} {x : Suspended} (hx : r.suspended[i]? = some x)
    (hstale : x.myRun ≠ r.runId) (hwaiting : r.Waiting) :
    Runs.Waiting { r with suspended := r.suspended.eraseIdx i } := by
  obtain ⟨y, hy, hlast⟩ := hwaiting
  have hne : y ≠ x := by
    rintro rfl
    exact hstale hlast
  obtain ⟨j, hj⟩ := List.getElem?_of_mem hy
  refine ⟨y, List.mem_eraseIdx_iff_getElem?.mpr ⟨j, ?_, hj⟩, hlast⟩
  rintro rfl
  exact hne (Option.some_inj.mp (hj.symm.trans hx))

/-- An edit arms the timer, a run that is started waits, and the last one to resume reads the
document; without the module no run has ever been started. -/
lemma awake_moves {e : Event} (h : s.Awake) (hmoves : s.Moves site t e) : t.Awake := by
  cases hmoves with
  | stay hrest hruns => exact awake_rest h hrest hruns rfl id id
  | ready hrest hruns => exact awake_rest h hrest hruns rfl (fun _ => rfl) id
  | edit doc userEvent ht =>
      subst ht
      exact ⟨h.verus, fun _ hauto => Or.inl hauto⟩
  | uncheck he hauto ht =>
      subst ht
      exact ⟨h.verus, fun _ hoff => absurd hoff (by simp)⟩
  | deaf heditor hverus hruns hauto htimer =>
      have hnone : t.runs.runId = 0 := by
        by_contra hid
        rw [hruns] at hid
        exact absurd (hverus.symm.trans (h.verus hid)) (by simp)
      exact ⟨fun hid => absurd hnone hid, fun hid => absurd hnone hid⟩
  | start mode heditor hverus hruns htimer =>
      refine ⟨fun _ => by rw [hruns]; exact hverus, fun _ _ => Or.inr (Or.inl ?_)⟩
      rw [hruns]
      exact ⟨⟨s.runs.runId + 1, mode⟩, List.mem_append_right _ List.mem_cons_self, rfl⟩
  | stale hrest i hx hstale hruns =>
      refine awake_rest h hrest hruns rfl id ?_
      rintro (hdue | hwaiting | hread)
      · exact Or.inl hdue
      · exact Or.inr (Or.inl (waiting_stale hx hstale hwaiting))
      · exact Or.inr (Or.inr hread)
  | execute hrest i hx hlast calls threw he hruns =>
      refine awake_rest h hrest hruns rfl id fun _ => Or.inr (Or.inr ?_)
      exact ⟨_, List.getLast?_concat, rfl⟩

end Steps

/-! ## Whole runs -/

variable (site : Site)

lemma awake_after {s : App} (h : s.Awake) (events : List Event) : (s.after site events).Awake :=
  Machine.run_invariant (P := App.Awake) (fun s e h => awake_moves h (moves_step site s e)) events h

lemma shown_after {s : App} (h : s.runs.Shown) (events : List Event) :
    (s.after site events).runs.Shown :=
  Machine.run_invariant (P := fun s : App => s.runs.Shown)
    (fun s e h => (acts_step site s e).runs.shown h) events h

/-- **Auto-verify does not go stale.**  Whatever happens once a run has been started, while the box
is checked a run is due, the last run has yet to read the document, or the last call was made on the
document that is in the editor; and when no run is due or waiting, the panel shows what that call
made of this document. -/
theorem autoVerify_current (storage : JsString → Option Doc) (hash : JsString) (mode : ActionMode)
    (auto : Bool) (events : List Event) :
    let s := (App.boot site storage hash mode auto).after site events
    s.runs.runId ≠ 0 → s.auto = true →
      (s.timer = true ∨ (∃ x ∈ s.runs.suspended, x.myRun = s.runs.runId)
          ∨ ∃ call, s.runs.executed.getLast? = some call ∧ call.src = s.editor.doc)
        ∧ (s.timer = false → s.runs.suspended = [] →
          ∃ call, s.runs.executed.getLast? = some call ∧ call.src = s.editor.doc
            ∧ (∃ i, Event.resume i call.calls call.threw ∈ events)
            ∧ s.runs.panel
              = renderMeta s.editor.doc.lines (finishRun call.mode call.calls call.threw {})) := by
  intro s hid hauto
  have hawake : s.Awake :=
    awake_after site ⟨fun hid => absurd rfl hid, fun hid => absurd rfl hid⟩ events
  have hshown : s.runs.Shown :=
    shown_after site (fun _ hcall => absurd hcall (by simp [App.boot])) events
  have hcurrent : s.Current := hawake.current hid hauto
  refine ⟨hcurrent, fun htimer hnone => ?_⟩
  rcases hcurrent with hdue | ⟨x, hx, -⟩ | ⟨call, hcall, hsrc⟩
  · exact absurd (htimer.symm.trans hdue) (by simp)
  · exact absurd (hnone ▸ hx) List.not_mem_nil
  · have hpanel := hshown call hcall
    obtain ⟨hbefore, hevent⟩ :=
      executed_after site storage hash mode auto events call (List.mem_of_getLast? hcall)
    rw [hsrc, hbefore] at hpanel
    exact ⟨call, hcall, hsrc, hevent, hpanel⟩

/-- The first run of the page, on the first example, and an edit after it. -/
theorem autoVerify_current_edited :
    let s := (App.boot smallSite (fun _ => none) [] .verify true).after smallSite
      [.wasmReady, .start, .resume 0 [] none, .edit (Doc.ofText (js "fn g() {}")) .input]
    s.timer = true ∨ (∃ x ∈ s.runs.suspended, x.myRun = s.runs.runId)
      ∨ ∃ call, s.runs.executed.getLast? = some call ∧ call.src = s.editor.doc := by
  exact (autoVerify_current smallSite (fun _ => none) [] .verify true
    [.wasmReady, .start, .resume 0 [] none, .edit (Doc.ofText (js "fn g() {}")) .input]
    (by decide) rfl).1

end VerusExplorer
