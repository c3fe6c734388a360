import VerusExplorer.Page.Steps

/-!
# Turning auto-verify off

The debounce timer is armed by a change of the document while the box is checked, disarmed by the
next change and by the start of a run, and asks nobody when it fires (`public/app.js`).  Unchecking
the box leaves it alone, although the listener is said to cancel pending work.

* `App.TimerStarts` — the timer fires and a run is started; `App.LeavesArmed` — the box is unchecked
  while the timer is armed.
* `App.Consented` — the invariant: an armed timer has its box checked (`consented_step`).
* **`timerStarts_auto_iff`** — the timer starts no run while the box is unchecked, now or later,
  exactly when the box has never been unchecked while the timer was armed.
-/

namespace VerusExplorer

open Utf16

namespace App

/-- The debounce timer starts a run. -/
def TimerStarts (s : App) (e : Event) : Prop :=
  e = .timer ∧ s.fireTimer.runs.runId ≠ s.runs.runId

/-- The box is unchecked, and a timer that was armed stays armed. -/
def LeavesArmed (s : App) (e : Event) : Prop :=
  e = .toggleAuto ∧ s.auto = true ∧ s.timer = true

/-- An armed timer has its box checked. -/
def Consented (s : App) : Prop := s.timer = true → s.auto = true

end App

/-! ## Every event -/

section Steps

variable (site : Site) {s : App} (h : s.Consented) (e : Event)

include h

/-- Every event that does not leave the timer armed behind an unchecked box keeps the invariant. -/
lemma consented_step (hoff : ¬s.LeavesArmed e) : (s.step site e).Consented := by
  have hmoves := moves_step site s e
  generalize s.step site e = t at hmoves ⊢
  have hrests : s.Rests t → t.Consented := by
    intro hrest
    rw [App.Consented, hrest.timer, hrest.auto]
    exact h
  cases hmoves with
  | stay hrest _ => exact hrests hrest
  | ready hrest _ => exact hrests hrest
  | edit doc userEvent ht =>
      -- the edit takes the timer from the box
      subst ht
      exact fun harmed => harmed
  | uncheck he hauto ht =>
      subst ht
      exact fun harmed => absurd ⟨he, hauto, harmed⟩ hoff
  | deaf _ _ _ hauto htimer =>
      intro harmed
      rcases htimer harmed with hbefore | hon
      · exact hauto (h hbefore)
      · exact hon
  | start _ _ _ _ htimer => exact fun harmed => absurd (htimer.symm.trans harmed) (by simp)
  | stale hrest _ _ _ _ => exact hrests hrest
  | execute hrest _ _ _ _ _ _ => exact hrests hrest

/-- With the invariant the timer only starts runs the user wants. -/
lemma auto_of_timerStarts (hstarts : s.TimerStarts e) : s.auto = true := by
  refine h ?_
  by_contra hnot
  refine hstarts.2 ?_
  rw [App.fireTimer, if_neg hnot]

end Steps

/-! ## Whole runs -/

variable (site : Site)

/-- After the box has been unchecked over an armed timer, the timer starts a run as soon as the
module is there. -/
lemma exists_timerStarts {s : App} {e : Event} (h : s.LeavesArmed e) :
    let t := s.step site e
    t.auto = false ∧ t.timer = true ∧ (t.step site .wasmReady).TimerStarts .timer := by
  obtain ⟨rfl, hauto, htimer⟩ := h
  have hoff : s.toggleAuto = { s with auto := false } := by
    rw [App.toggleAuto, if_neg (by simp [hauto]), hauto]
    rfl
  intro t
  have ht : t = { s with auto := false } := hoff
  refine ⟨by rw [ht], by rw [ht]; exact htimer, rfl, ?_⟩
  rw [ht, App.fireTimer]
  simp [App.step, htimer, App.runAction, App.runWith, Runs.start]

/-- **The timer stops with the box exactly when the box is not unchecked over an armed timer.**  In
a run of the page the box is never unchecked while the timer is armed if and only if from no moment
of it on, with the box no more unchecked so, the timer starts a run while the box is unchecked. -/
theorem timerStarts_auto_iff (storage : JsString → Option Doc) (hash : JsString)
    (mode : ActionMode) (auto : Bool) (events : List Event) :
    let s := App.boot site storage hash mode auto
    let Quiet := Machine.Along (App.step site) fun s e => ¬s.LeavesArmed e
    (∀ fs, fs <+: events → ∀ rest, Quiet (s.after site fs) rest →
        ∀ gs e, gs ++ [e] <+: fs ++ rest →
          (s.after site gs).TimerStarts e → (s.after site gs).auto = true)
      ↔ Quiet s events := by
  intro s Quiet
  have hboot : s.Consented := fun htimer => absurd htimer (by simp [s, App.boot])
  refine Machine.safe_iff (P := fun s e => App.TimerStarts s e → App.auto s = true)
    (fun s e h hoff => consented_step site h e hoff) (fun s e h => auto_of_timerStarts h e) ?_
    hboot events
  intro s e _ hbreach
  obtain ⟨hoff, -, hstarts⟩ := exists_timerStarts site (not_not.mp hbreach)
  refine ⟨[.wasmReady, .timer], ?_, ?_⟩
  · refine Machine.along_cons.mpr ⟨?_, Machine.along_cons.mpr ⟨?_, Machine.along_nil _⟩⟩
    · rintro ⟨hne, -⟩
      exact absurd hne (by simp)
    · rintro ⟨hne, -⟩
      exact absurd hne (by simp)
  · intro hall
    have hlast := (Machine.along_cons.mp (Machine.along_cons.mp hall).2).1 hstarts
    exact absurd (hoff.symm.trans hlast) (by simp)

/-- The first run of the page is over, an edit arms the timer, the box is unchecked, and the timer
starts another run. -/
theorem timerStarts_unchecked :
    let s := (App.boot smallSite (fun _ => none) [] .verify true).after smallSite
      [.wasmReady, .start, .resume 0 [] none, .edit (Doc.ofText (js "fn g() {}")) .input,
        .toggleAuto]
    s.auto = false ∧ s.TimerStarts .timer := by
  exact ⟨rfl, rfl, by decide⟩

end VerusExplorer
