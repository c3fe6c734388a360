import VerusExplorer.Lib.Latest
import VerusExplorer.Page.Steps

/-!
# Runs are isolated

Any number of runs may have yielded at once (`runWith`, `public/app.js`): each has cleared the
shared caches and disabled the shared button, and all but the last leave by an early return.

* `Runs.Isolated` — the invariant that relates the counter, the runs that have yielded, the caches
  and the button.
* **`runs_isolated`** — only the run started last calls the wasm module, it finds all caches empty,
  and when no run is waiting the last one has been made and the button is back.
-/

namespace VerusExplorer

open Utf16

/-! ## The invariant -/

namespace Runs

/-- The last run was executed, and the button is back. -/
structure Done (r : Runs) : Prop where
  executed : ∃ call, r.executed.getLast? = some call ∧ call.run = r.runId
  enabled : r.disabled = false
  idle : r.busy = false

/-- The runs that have yielded are different runs, none of them later than the last one started.
While that one waits, nothing has been written to the caches; once it does not, it is done. -/
structure Isolated (r : Runs) : Prop where
  nodup : (r.suspended.map Suspended.myRun).Nodup
  le : ∀ x ∈ r.suspended, x.myRun ≤ r.runId
  fresh : (∃ x ∈ r.suspended, x.myRun = r.runId) → r.caches = {}
  done : (∀ x ∈ r.suspended, x.myRun ≠ r.runId) → r.runId ≠ 0 → r.Done

namespace Isolated

variable {r : Runs} (h : r.Isolated)

include h

lemma ready : Isolated { r with verus := true } where
  nodup := h.nodup
  le := h.le
  fresh := h.fresh
  done hx hid :=
    have hdone : r.Done := h.done hx hid
    { executed := hdone.executed, enabled := hdone.enabled, idle := hdone.idle }

/-- A new run is later than all that wait. -/
lemma start (mode : ActionMode) : (r.start mode).Isolated where
  nodup := by
    show ((r.suspended ++ [(⟨r.runId + 1, mode⟩ : Suspended)]).map Suspended.myRun).Nodup
    rw [List.map_append, List.nodup_append]
    refine ⟨h.nodup, by simp, ?_⟩
    rintro _ ha _ hb rfl
    obtain ⟨x, hx, rfl⟩ := List.mem_map.mp ha
    have hle := h.le x hx
    have heq : x.myRun = r.runId + 1 := List.mem_singleton.mp hb
    omega
  le := by
    intro x hx
    show x.myRun ≤ r.runId + 1
    rcases List.mem_append.mp hx with hx | hx
    · exact Nat.le_succ_of_le (h.le x hx)
    · rw [List.mem_singleton.mp hx]
  fresh _ := rfl
  done hx _ := absurd rfl (hx ⟨r.runId + 1, mode⟩ (List.mem_append_right _ List.mem_cons_self))

/-- A run that is not the last one leaves everything to that one. -/
lemma stale {i : ℕ} {x : Suspended} (hx : r.suspended[i]? = some x) (hstale : x.myRun ≠ r.runId) :
    Isolated { r with suspended := r.suspended.eraseIdx i } where
  nodup := h.nodup.sublist ((List.eraseIdx_sublist r.suspended i).map Suspended.myRun)
  le y hy := h.le y (List.mem_of_mem_eraseIdx hy)
  fresh := by
    rintro ⟨y, hy, heq⟩
    exact h.fresh ⟨y, List.mem_of_mem_eraseIdx hy, heq⟩
  done := by
    intro hall hid
    have hothers : ∀ y ∈ r.suspended, y.myRun ≠ r.runId := by
      intro y hy
      rcases List.mem_cons.mp ((Latest.perm_eraseIdx hx).symm.subset hy) with rfl | hy
      · exact hstale
      · exact hall y hy
    have hdone := h.done hothers hid
    exact ⟨hdone.executed, hdone.enabled, hdone.idle⟩

/-- The last run: no other one has its number. -/
lemma execute {i : ℕ} {x : Suspended} (hx : r.suspended[i]? = some x) (hlast : x.myRun = r.runId)
    (doc : Doc) (calls : List Callback) (threw : Option JsString) :
    Isolated (Runs.execute { r with suspended := r.suspended.eraseIdx i } x.mode doc calls
      threw) where
  nodup := h.nodup.sublist ((List.eraseIdx_sublist r.suspended i).map Suspended.myRun)
  le y hy := h.le y (List.mem_of_mem_eraseIdx hy)
  fresh := by
    rintro ⟨y, hy, heq⟩
    have hperm := (Latest.perm_eraseIdx hx).map Suspended.myRun
    have hnot := (List.nodup_cons.mp (hperm.nodup_iff.mpr h.nodup)).1
    exact absurd (List.mem_map.mpr ⟨y, hy, heq.trans hlast.symm⟩) hnot
  done _ _ := ⟨⟨_, List.getLast?_concat, rfl⟩, rfl, rfl⟩

lemma step {doc : Doc} {r' : Runs} (hstep : r.Step doc r') : r'.Isolated := by
  cases hstep with
  | stay => exact h
  | ready => exact h.ready
  | start mode => exact h.start mode
  | stale i hx hstale => exact h.stale hx hstale
  | execute i hx hlast calls threw => exact h.execute hx hlast doc calls threw

end Isolated

end Runs

variable (site : Site)

lemma isolated_boot (storage : JsString → Option Doc) (hash : JsString) (mode : ActionMode)
    (auto : Bool) : (App.boot site storage hash mode auto).runs.Isolated where
  nodup := List.nodup_nil
  le _ hx := absurd hx List.not_mem_nil
  fresh _ := rfl
  done _ hid := absurd rfl hid

lemma isolated_after {s : App} (h : s.runs.Isolated) (events : List Event) :
    (s.after site events).runs.Isolated :=
  Machine.run_invariant (fun s e h => Runs.Isolated.step h (acts_step site s e).runs) events h

/-- An event makes no call, or it is the end of the last run, which makes one on empty caches. -/
lemma executed_step {s : App} (h : s.runs.Isolated) (e : Event) :
    let t := s.step site e
    (¬s.Finishes e ∧ t.runs.executed = s.runs.executed ∧ t.runs.panel = s.runs.panel)
      ∨ ∃ i x calls threw, e = .resume i calls threw ∧ s.runs.suspended[i]? = some x
        ∧ x.myRun = s.runs.runId ∧ s.runs.caches = {}
        ∧ t.runs.executed = s.runs.executed
          ++ [⟨s.runs.runId, x.mode, s.editor.doc, {}, calls, threw⟩]
        ∧ t.runs.panel = renderMeta s.editor.doc.lines (finishRun x.mode calls threw {}) := by
  intro t
  by_cases hfinishes : s.Finishes e
  · obtain ⟨i, calls, threw, x, rfl, hx, hlast⟩ := hfinishes
    have hempty : s.runs.caches = {} := h.fresh ⟨x, List.mem_of_getElem? hx, hlast⟩
    have hruns : t.runs = _ := (resume_of_last site s hx hlast calls threw).1
    refine Or.inr ⟨i, x, calls, threw, rfl, hx, hlast, hempty, ?_, ?_⟩
    · rw [hruns, ← hempty]
      rfl
    · rw [hruns, ← hempty]
      rfl
  · refine Or.inl ⟨hfinishes, ?_⟩
    have hmoves := moves_step site s e
    change s.Moves site t e at hmoves
    generalize t = t at hmoves ⊢
    cases hmoves with
    | stay hrest hruns => simp [hruns]
    | ready hrest hruns => simp [hruns]
    | edit doc userEvent ht => exact ⟨by rw [ht]; rfl, by rw [ht]; rfl⟩
    | uncheck he hauto ht => simp [ht]
    | deaf heditor hverus hruns hauto htimer => simp [hruns]
    | start mode heditor hverus hruns htimer => exact ⟨by rw [hruns]; rfl, by rw [hruns]; rfl⟩
    | stale hrest i hx hstale hruns => simp [hruns]
    | execute hrest i hx hlast calls threw he hruns =>
        exact absurd ⟨i, calls, threw, _, he, hx, hlast⟩ hfinishes

/-- Every call found empty caches, and called back what its run resumed with. -/
lemma executed_after (storage : JsString → Option Doc) (hash : JsString) (mode : ActionMode)
    (auto : Bool) (events : List Event) :
    ∀ call ∈ ((App.boot site storage hash mode auto).after site events).runs.executed,
      call.before = {} ∧ ∃ i, Event.resume i call.calls call.threw ∈ events := by
  induction events using List.reverseRecOn with
  | nil => exact fun _ hcall => absurd hcall List.not_mem_nil
  | append_singleton events e ih =>
      intro call hcall
      have h := isolated_after site (isolated_boot site storage hash mode auto) events
      have hold : call ∈ ((App.boot site storage hash mode auto).after site events).runs.executed →
          call.before = {} ∧ ∃ i, Event.resume i call.calls call.threw ∈ events ++ [e] := by
        intro hcall
        obtain ⟨hbefore, i, hi⟩ := ih call hcall
        exact ⟨hbefore, i, List.mem_append_left _ hi⟩
      rw [App.after, Machine.run_concat] at hcall
      rcases executed_step site h e with ⟨-, hsame, -⟩ | ⟨i, x, calls, threw, rfl, -, -, -, hnew, -⟩
      · exact hold (hsame ▸ hcall)
      · rcases List.mem_append.mp (hnew ▸ hcall) with hcall | hcall
        · exact hold hcall
        · obtain rfl := List.mem_singleton.mp hcall
          exact ⟨rfl, i, List.mem_append_right _ List.mem_cons_self⟩

/-- **Runs are isolated.**  Whatever happens and in whatever order runs resume: an event leaves the
calls made and the panel alone, or it is the resumption of the run started last, which finds all
caches empty and whose call alone is what the panel then shows; and when no run is waiting, the
last one has been made and the action button is enabled and not busy. -/
theorem runs_isolated (storage : JsString → Option Doc) (hash : JsString) (mode : ActionMode)
    (auto : Bool) (events : List Event) :
    let s := (App.boot site storage hash mode auto).after site events
    (∀ e, let t := s.step site e
      (¬s.Finishes e ∧ t.runs.executed = s.runs.executed ∧ t.runs.panel = s.runs.panel)
      ∨ ∃ i x calls threw, e = .resume i calls threw ∧ s.runs.suspended[i]? = some x
        ∧ x.myRun = s.runs.runId ∧ s.runs.caches = {}
        ∧ t.runs.executed = s.runs.executed
          ++ [⟨s.runs.runId, x.mode, s.editor.doc, {}, calls, threw⟩]
        ∧ t.runs.panel = renderMeta s.editor.doc.lines (finishRun x.mode calls threw {}))
      ∧ (s.runs.suspended = [] → s.runs.runId ≠ 0 →
        (∃ call, s.runs.executed.getLast? = some call ∧ call.run = s.runs.runId)
        ∧ s.runs.disabled = false ∧ s.runs.busy = false) := by
  intro s
  have h : s.runs.Isolated :=
    isolated_after site (isolated_boot site storage hash mode auto) events
  refine ⟨executed_step site h, fun hnone hid => ?_⟩
  have hdone := h.done (fun x hx => absurd (hnone ▸ hx) List.not_mem_nil) hid
  exact ⟨hdone.executed, hdone.enabled, hdone.idle⟩

end VerusExplorer
