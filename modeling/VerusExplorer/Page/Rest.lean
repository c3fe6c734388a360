import VerusExplorer.Lib.Quiescence
import VerusExplorer.Page.Auto
import VerusExplorer.Page.KeptTab
import VerusExplorer.Page.Runs
import VerusExplorer.Page.Survivors

/-!
# The page at rest

A handler leaves things under way behind it: a timer, a run that has yielded, a fetch, a decoding,
an encoding, an event that has not been delivered (`public/app.js`).  Each of these ends in another
handler, which may leave something under way in turn.

* `App.Due` — the events that happen without the user; `App.underWay` prices what is under way.
* **`comes_to_rest`** — left alone, the page comes to rest, however its events are ordered, and the
  action button is then back.
* **`rest_agrees`** — with auto-verify the panel, the address and the editor then agree.
-/

namespace VerusExplorer

open Utf16

/-! ## What happens by itself -/

namespace App

/-- The event is possible and nobody has to bring it about. -/
def Due (s : App) : Event → Prop
  | .timer => s.timer = true
  | .wasmReady => s.runs.verus = false
  | .start => s.runs.verus = true ∧ s.started = false
  | .resume i _ _ => i < s.runs.suspended.length
  | .fetched i => i < s.loads.length
  | .fetchFailed i => i < s.loads.length
  | .encoded i => i < s.url.saves.length
  | .hashchange => s.url.hashchanges ≠ 0
  | .decoded i => i < s.parses.length
  | _ => False

/-- What is under way, each thing with more than the handler at its end can leave behind: a run
ends in a save, the timer in a run, a fetch in a save and a run or a timer, and a hash is decoded
and then fetched or saved and run. -/
def underWay (s : App) : ℕ :=
  (!s.runs.verus).toNat + 3 * (!s.started).toNat + s.url.saves.length
    + 2 * s.runs.suspended.length + 3 * s.timer.toNat + 5 * s.loads.length + 6 * s.parses.length
    + 7 * s.url.hashchanges

end App

section Pending

variable {site : Site} {s : App}

lemma length_eraseIdx_add_one {α : Type} {l : List α} {i : ℕ} (h : i < l.length) :
    (l.eraseIdx i).length + 1 = l.length := by
  rw [List.length_eraseIdx_of_lt h]
  omega

/-- A run that is started disarms the timer. -/
lemma underWay_runAction : s.runAction.underWay ≤ s.underWay + 2 := by
  rw [App.runAction, App.runWith]
  split_ifs
  · exact Nat.le_add_right _ 2
  · simp only [App.underWay, Runs.start, List.length_append, List.length_singleton,
      Bool.toNat_false]
    omega

/-- A handler that changes the document, saves it and asks for a run: the run disarms the timer
that the change has armed, or there is no run. -/
lemma underWay_changed (ed : Editor) (armed : Bool) :
    (({ s with editor := ed, timer := armed } : App).saveHashNow false).runAction.underWay
      ≤ s.underWay + 4 := by
  have hone : armed.toNat ≤ 1 := Bool.toNat_le armed
  rw [App.runAction, App.runWith]
  split_ifs
  · simp only [App.underWay, App.saveHashNow, Url.saveHashNow, List.length_append,
      List.length_singleton]
    omega
  · simp only [App.underWay, App.saveHashNow, Url.saveHashNow, Runs.start, List.length_append,
      List.length_singleton, Bool.toNat_false]
    omega

lemma underWay_loadSource (file : JsString) : (s.loadSource file).underWay ≤ s.underWay + 5 := by
  rw [App.loadSource]
  split_ifs
  · simp only [App.underWay, List.length_append, List.length_singleton]
    omega
  · exact Nat.le_add_right _ 5

lemma underWay_takeTab (parsed : Option ParsedHash) : (s.takeTab parsed).underWay = s.underWay := by
  rw [App.takeTab]
  split
  · rfl
  · rfl

/-- A hash that has been decoded is opened, or an example fetched. -/
lemma underWay_hashParsed (parsed : Option ParsedHash) :
    (s.hashParsed parsed).underWay ≤ s.underWay + 5 := by
  have hload : ∀ file, ((s.takeTab parsed).loadSource file).underWay ≤ s.underWay + 5 := by
    intro file
    rw [← underWay_takeTab (s := s) parsed]
    exact underWay_loadSource file
  rcases parsed with _ | ⟨_ | file, _ | src, tab⟩
  · exact hload _
  · exact hload _
  · have hopen := underWay_changed (s := s.takeTab (some ⟨none, some src, tab⟩))
      ((s.takeTab (some ⟨none, some src, tab⟩)).editor.openSource (Doc.ofText src))
      ((s.takeTab (some ⟨none, some src, tab⟩)).timerAfter
        ((s.takeTab (some ⟨none, some src, tab⟩)).editor.replaces (Doc.ofText src)))
    rw [underWay_takeTab] at hopen
    exact hopen.trans (Nat.le_succ _)
  · exact hload file
  · exact hload file

lemma writeTab_saves (u : Url) (tab : Option JsString) :
    (u.writeTab tab).saves = u.saves ∧ (u.writeTab tab).hashchanges = u.hashchanges := by
  rw [Url.writeTab]
  split
  · exact ⟨rfl, rfl⟩
  · exact ⟨rfl, rfl⟩

/-- The end of a run takes the run away and leaves a save. -/
lemma underWay_resume_lt {i : ℕ} (hi : i < s.runs.suspended.length) (calls : List Callback)
    (threw : Option JsString) : (s.resume site i calls threw).underWay < s.underWay := by
  have hlen := length_eraseIdx_add_one hi
  rw [App.resume, List.getElem?_eq_getElem hi]
  dsimp only
  split_ifs
  · simp only [App.underWay]
    omega
  · simp only [App.underWay, App.saveHashNow, Url.saveHashNow, App.writeTabToUrl, App.rerender,
      Runs.execute, writeTab_saves, List.length_append, List.length_singleton]
    omega

lemma underWay_fetched_lt {i : ℕ} (hi : i < s.loads.length) :
    (s.fetched site i).underWay < s.underWay := by
  have hlen := length_eraseIdx_add_one hi
  have hchanged := underWay_changed (s := { s with loads := s.loads.eraseIdx i })
    (s.editor.loadSource s.loads[i] (site.shipped s.loads[i]))
    (s.timerAfter (s.editor.replaces
      ((s.editor.storage s.loads[i]).getD (site.shipped s.loads[i]))))
  rw [App.fetched, List.getElem?_eq_getElem hi]
  refine lt_of_le_of_lt hchanged ?_
  simp only [App.underWay]
  omega

lemma underWay_hashchange_lt (hqueue : s.url.hashchanges ≠ 0) :
    (s.hashchange site).underWay < s.underWay := by
  have hparsed := underWay_hashParsed
    (s := { s with url := { s.url with hashchanges := s.url.hashchanges - 1 } })
    (parseHash site.codec site.execMode (s.url.hash.drop 1))
  have hless : App.underWay { s with url := { s.url with hashchanges := s.url.hashchanges - 1 } }
      + 5 < s.underWay := by
    simp only [App.underWay]
    omega
  rw [App.hashchange, if_neg hqueue]
  dsimp only
  split_ifs
  · exact lt_of_le_of_lt (Nat.le_add_right _ 5) hless
  · simp only [App.underWay, List.length_append, List.length_singleton]
    omega
  · exact lt_of_le_of_lt hparsed hless

lemma underWay_decoded_lt {i : ℕ} (hi : i < s.parses.length) :
    (s.decoded site i).underWay < s.underWay := by
  have hlen := length_eraseIdx_add_one hi
  have hparsed := underWay_hashParsed (s := { s with parses := s.parses.eraseIdx i })
    (parseHash site.codec site.execMode s.parses[i])
  rw [App.decoded, List.getElem?_eq_getElem hi]
  refine lt_of_le_of_lt hparsed ?_
  simp only [App.underWay]
  omega

/-- **Whatever happens by itself leaves less under way.** -/
lemma underWay_due (s : App) (e : Event) (h : s.Due e) : (s.step site e).underWay < s.underWay := by
  cases e with
  | timer =>
      have harmed : s.timer = true := h
      have hrun := underWay_runAction (s := { s with timer := false })
      show s.fireTimer.underWay < s.underWay
      rw [App.fireTimer, if_pos harmed]
      refine lt_of_le_of_lt hrun ?_
      simp only [App.underWay, harmed, Bool.toNat_false, Bool.toNat_true]
      omega
  | wasmReady =>
      have hverus : s.runs.verus = false := h
      simp only [App.step, App.underWay, hverus, Bool.not_true, Bool.not_false, Bool.toNat_false,
        Bool.toNat_true]
      omega
  | start =>
      obtain ⟨hverus, hstarted⟩ : s.runs.verus = true ∧ s.started = false := h
      have hrun := underWay_runAction
        (s := { s with started := true, runs := { s.runs with disabled := false } })
      show s.start.underWay < s.underWay
      rw [App.start, if_pos (by simp [hverus, hstarted])]
      refine lt_of_le_of_lt hrun ?_
      simp only [App.underWay, hstarted, Bool.not_true, Bool.not_false, Bool.toNat_false,
        Bool.toNat_true]
      omega
  | resume i calls threw => exact underWay_resume_lt h calls threw
  | fetched i => exact underWay_fetched_lt h
  | fetchFailed i =>
      have hlen := length_eraseIdx_add_one (l := s.loads) h
      simp only [App.step, App.fetchFailed, App.underWay]
      omega
  | encoded i =>
      have hlen := length_eraseIdx_add_one (l := s.url.saves) h
      have hsaves : ∀ (u : Url) (save : Save) (tab : Option JsString),
          (u.encoded site.codec save tab).saves = u.saves
            ∧ (u.encoded site.codec save tab).hashchanges = u.hashchanges := by
        intro u save tab
        simp only [Url.encoded, Url.writeHash]
        split_ifs <;> exact ⟨rfl, rfl⟩
      show (s.encoded site i).underWay < s.underWay
      rw [App.encoded, List.getElem?_eq_getElem h]
      simp only [App.underWay, hsaves]
      omega
  | hashchange => exact underWay_hashchange_lt h
  | decoded i => exact underWay_decoded_lt h
  | _ => exact absurd h (by simp [App.Due])

end Pending

/-! ## Between the ends of runs -/

/-- The tabs after a click: one that has been produced is selected, or one whose button says so. -/
inductive Tabs.Step (execMode : Bool) (cache : OrderedMap JsString JsString) (t : Tabs) :
    Tabs → Prop
  | stay : Step execMode cache t t
  | select (g : Option JsString) (tab : JsString)
      (htab : cache.has tab = true ∨ ∃ b ∈ t.subtabButtons, b.disabled = false ∧ b.variant = tab) :
      Step execMode cache t ((t.select g tab).rerender execMode cache)

/-- What an event does that does not end the last run: the wasm module is not called, the script
starts only with a run, and without a hash to be opened only the user turns to another tab. -/
structure App.Idles (site : Site) (s t : App) : Prop where
  started : t.started = s.started ∨ t.runs.runId ≠ 0
  executed : t.runs.executed = s.runs.executed
  tabs : s.url.hashchanges = 0 → s.parses = [] →
    s.tabs.Step site.execMode s.runs.caches.sectionCache t.tabs

section Idles

variable {site : Site} {s t : App}

lemma idles_refl (s : App) : s.Idles site s := ⟨Or.inl rfl, rfl, fun _ _ => .stay⟩

lemma App.Idles.runAction (h : s.Idles site t) : s.Idles site t.runAction := by
  rw [App.runAction, App.runWith]
  split_ifs
  · exact h
  · exact ⟨Or.inr (Nat.succ_ne_zero _), h.executed, h.tabs⟩

lemma App.Idles.loadSource (h : s.Idles site t) (file : JsString) :
    s.Idles site (t.loadSource file) := by
  rw [App.loadSource]
  split_ifs
  · exact ⟨h.started, h.executed, h.tabs⟩
  · exact h

/-- A hash that is opened was waiting for it. -/
lemma App.Idles.hashParsed (h : s.Idles site t)
    (hwaits : ¬(s.url.hashchanges = 0 ∧ s.parses = [])) (parsed : Option ParsedHash) :
    s.Idles site (t.hashParsed parsed) := by
  have htab : s.Idles site (t.takeTab parsed) := by
    rw [App.takeTab]
    split
    · exact ⟨h.started, h.executed, fun hqueue hparses => absurd ⟨hqueue, hparses⟩ hwaits⟩
    · exact h
  rcases parsed with _ | ⟨_ | file, _ | src, tab⟩
  · exact htab.loadSource _
  · exact htab.loadSource _
  · exact App.Idles.runAction ⟨htab.started, htab.executed, htab.tabs⟩
  · exact htab.loadSource file
  · exact htab.loadSource file

/-- The tab a click on a group leads to has been produced. -/
lemma has_of_chosen {t : Tabs} {cache : OrderedMap JsString JsString} {g : TabGroup}
    {tab : JsString} (h : t.chosen cache g = some tab) : cache.has tab = true := by
  rw [Tabs.chosen] at h
  split at h
  · split_ifs at h with hhas
    · rw [← Option.some_inj.mp h]
      exact hhas
    · exact List.find?_some h
  · exact List.find?_some h

lemma idles_clickTab (i : ℕ) : s.Idles site (s.clickTab site i) := by
  rw [App.clickTab]
  split
  · exact idles_refl s
  · split_ifs
    · exact idles_refl s
    · split
      · exact idles_refl s
      · next tab htab =>
          exact ⟨Or.inl rfl, rfl, fun _ _ => .select _ tab (Or.inl (has_of_chosen htab))⟩

lemma idles_clickSubtab (i : ℕ) : s.Idles site (s.clickSubtab site i) := by
  rw [App.clickSubtab]
  split
  · exact idles_refl s
  · next b hb =>
      split_ifs with hdisabled
      · exact idles_refl s
      · refine ⟨Or.inl rfl, rfl, fun _ _ => .select _ b.variant (Or.inr ⟨b, ?_, ?_, rfl⟩)⟩
        · exact List.mem_of_getElem? hb
        · simpa using hdisabled

variable (site) in
/-- **Everything that can happen between the ends of runs.** -/
lemma idles_step (e : Event) (hnot : ¬s.Finishes e) : s.Idles site (s.step site e) := by
  cases e with
  | edit doc userEvent => exact ⟨Or.inl rfl, rfl, fun _ _ => .stay⟩
  | toggleAuto =>
      show s.Idles site s.toggleAuto
      rw [App.toggleAuto]
      split_ifs
      · exact App.Idles.runAction ⟨Or.inl rfl, rfl, fun _ _ => .stay⟩
      · exact ⟨Or.inl rfl, rfl, fun _ _ => .stay⟩
  | timer =>
      show s.Idles site s.fireTimer
      rw [App.fireTimer]
      split_ifs
      · exact App.Idles.runAction ⟨Or.inl rfl, rfl, fun _ _ => .stay⟩
      · exact idles_refl s
  | clickRun =>
      show s.Idles site s.clickRun
      rw [App.clickRun]
      split_ifs
      · exact idles_refl s
      · exact App.Idles.runAction (idles_refl s)
  | switchMode mode => exact ⟨Or.inl rfl, rfl, fun _ _ => .stay⟩
  | wasmReady => exact ⟨Or.inl rfl, rfl, fun _ _ => .stay⟩
  | start =>
      show s.Idles site s.start
      rw [App.start]
      split_ifs with hready
      · have hverus : s.runs.verus = true := by simp_all
        rw [App.runAction, App.runWith, if_neg (by simp [hverus])]
        exact ⟨Or.inr (Nat.succ_ne_zero _), rfl, fun _ _ => .stay⟩
      · exact idles_refl s
  | resume i calls threw =>
      show s.Idles site (s.resume site i calls threw)
      rw [App.resume]
      cases hx : s.runs.suspended[i]? with
      | none => exact idles_refl s
      | some x =>
          dsimp only
          rw [if_pos fun hlast => hnot ⟨i, calls, threw, x, rfl, hx, hlast⟩]
          exact ⟨Or.inl rfl, rfl, fun _ _ => .stay⟩
  | selectSource file => exact (idles_refl s).loadSource file
  | navSource forward =>
      show s.Idles site (s.navSource forward)
      rw [App.navSource]
      split
      · exact (idles_refl s).loadSource _
      · exact idles_refl s
  | fetched i =>
      show s.Idles site (s.fetched site i)
      rw [App.fetched]
      split
      · exact idles_refl s
      · exact App.Idles.runAction ⟨Or.inl rfl, rfl, fun _ _ => .stay⟩
  | fetchFailed i => exact ⟨Or.inl rfl, rfl, fun _ _ => .stay⟩
  | clickReset =>
      show s.Idles site s.clickReset
      rw [App.clickReset]
      split_ifs
      · exact idles_refl s
      · split
        · exact App.Idles.runAction ⟨Or.inl rfl, rfl, fun _ _ => .stay⟩
        · exact idles_refl s
  | clickTab i => exact idles_clickTab i
  | clickSubtab i => exact idles_clickSubtab i
  | copyLink => exact ⟨Or.inl rfl, rfl, fun _ _ => .stay⟩
  | encoded i =>
      show s.Idles site (s.encoded site i)
      rw [App.encoded]
      split
      · exact idles_refl s
      · exact ⟨Or.inl rfl, rfl, fun _ _ => .stay⟩
  | navigate hash =>
      show s.Idles site (s.navigate hash)
      rw [App.navigate]
      split_ifs
      · exact idles_refl s
      · exact ⟨Or.inl rfl, rfl, fun _ _ => .stay⟩
  | hashchange =>
      show s.Idles site (s.hashchange site)
      rw [App.hashchange]
      dsimp only
      split_ifs with hqueue
      · exact idles_refl s
      · exact ⟨Or.inl rfl, rfl, fun _ _ => .stay⟩
      · exact ⟨Or.inl rfl, rfl, fun _ _ => .stay⟩
      · refine App.Idles.hashParsed ?_ (fun h => hqueue h.1) _
        exact ⟨Or.inl rfl, rfl, fun _ _ => .stay⟩
  | decoded i =>
      show s.Idles site (s.decoded site i)
      rw [App.decoded]
      cases hx : s.parses[i]? with
      | none => exact idles_refl s
      | some hash =>
          refine App.Idles.hashParsed ?_ (fun h => ?_) _
          · exact ⟨Or.inl rfl, rfl, fun _ _ => .stay⟩
          · rw [h.2] at hx
            exact absurd hx (by simp)

variable (site) in
/-- The number of the last run only grows. -/
lemma runId_le_step (e : Event) : s.runs.runId ≤ (s.step site e).runs.runId := by
  have hruns := (acts_step site s e).runs
  generalize (s.step site e).runs = r at hruns ⊢
  cases hruns with
  | stay => exact le_rfl
  | ready => exact le_rfl
  | start mode => exact Nat.le_succ _
  | stale i hx hstale => exact le_rfl
  | execute i hx hlast calls threw => exact le_rfl

/-- The script starts a run when it starts. -/
lemma begun_step (e : Event) (h : s.started = true → s.runs.runId ≠ 0) :
    (s.step site e).started = true → (s.step site e).runs.runId ≠ 0 := by
  have hle := runId_le_step site (s := s) e
  have hkeep : (s.step site e).started = s.started →
      (s.step site e).started = true → (s.step site e).runs.runId ≠ 0 := by
    intro hsame hstarted
    have hid := h (hsame.symm.trans hstarted)
    omega
  by_cases hfinishes : s.Finishes e
  · obtain ⟨i, calls, threw, x, rfl, hx, hlast⟩ := hfinishes
    refine hkeep ?_
    show (s.resume site i calls threw).started = s.started
    rw [App.resume, hx]
    dsimp only
    rw [if_neg (not_not.mpr hlast)]
    rfl
  · rcases (idles_step site e hfinishes).started with hsame | hid
    · exact hkeep hsame
    · exact fun _ => hid

end Idles

/-! ## At rest -/

/-- Nothing is under way, and the script has started. -/
structure App.Quiet (s : App) : Prop where
  verus : s.runs.verus = true
  started : s.started = true
  timer : s.timer = false
  suspended : s.runs.suspended = []
  loads : s.loads = []
  saves : s.url.saves = []
  hashchanges : s.url.hashchanges = 0
  parses : s.parses = []

/-- When nothing is due nothing is under way. -/
lemma App.Quiet.of_atRest {s : App} (h : Machine.AtRest App.Due s) : s.Quiet := by
  have hverus : s.runs.verus = true := by simpa [App.Due] using h .wasmReady
  refine ⟨hverus, ?_, ?_, ?_, ?_, ?_, ?_, ?_⟩
  · simpa [App.Due, hverus] using h .start
  · simpa [App.Due] using h .timer
  · simpa [App.Due] using h (.resume 0 [] none)
  · simpa [App.Due] using h (.fetched 0)
  · simpa [App.Due] using h (.encoded 0)
  · simpa [App.Due] using h .hashchange
  · simpa [App.Due] using h (.decoded 0)

/-- And conversely. -/
lemma App.Quiet.atRest {s : App} (h : s.Quiet) : Machine.AtRest App.Due s := by
  intro e hdue
  cases e with
  | timer => exact absurd (h.timer.symm.trans hdue) (by simp)
  | wasmReady => exact absurd (h.verus.symm.trans hdue) (by simp)
  | start => exact absurd (h.started.symm.trans hdue.2) (by simp)
  | resume i calls threw => exact absurd hdue (by simp [App.Due, h.suspended])
  | fetched i => exact absurd hdue (by simp [App.Due, h.loads])
  | fetchFailed i => exact absurd hdue (by simp [App.Due, h.loads])
  | encoded i => exact absurd hdue (by simp [App.Due, h.saves])
  | hashchange => exact absurd h.hashchanges hdue
  | decoded i => exact absurd hdue (by simp [App.Due, h.parses])
  | _ => exact hdue

variable (site : Site)

lemma begun_after {s : App} (h : s.started = true → s.runs.runId ≠ 0) (events : List Event) :
    (s.after site events).started = true → (s.after site events).runs.runId ≠ 0 :=
  Machine.run_invariant (P := fun s : App => s.started = true → s.runs.runId ≠ 0)
    (fun _ e h => begun_step e h) events h

/-- At rest the last run has been made. -/
lemma done_of_quiet (storage : JsString → Option Doc) (hash : JsString) (mode : ActionMode)
    (auto : Bool) (events : List Event)
    (hquiet : ((App.boot site storage hash mode auto).after site events).Quiet) :
    ((App.boot site storage hash mode auto).after site events).runs.runId ≠ 0
      ∧ ((App.boot site storage hash mode auto).after site events).runs.Done := by
  have hid := begun_after site (s := App.boot site storage hash mode auto)
    (fun h => absurd h (by simp [App.boot])) events hquiet.started
  have hisolated := isolated_after site (isolated_boot site storage hash mode auto) events
  refine ⟨hid, hisolated.done (fun x hx => ?_) hid⟩
  rw [hquiet.suspended] at hx
  exact absurd hx List.not_mem_nil

/-- **Left alone, the page comes to rest.**  Whatever has happened: what happens by itself from then
on is bounded by what is under way; in whatever order it begins, it can be continued until nothing
is due; and when nothing is due, the module is there, the run started last has been made, and the
action button is enabled and not busy. -/
theorem comes_to_rest (storage : JsString → Option Doc) (hash : JsString) (mode : ActionMode)
    (auto : Bool) (events : List Event) :
    let s := (App.boot site storage hash mode auto).after site events
    (∀ fs, Machine.Along (App.step site) App.Due s fs →
        fs.length ≤ s.underWay
        ∧ ∃ gs, Machine.Along (App.step site) App.Due s (fs ++ gs)
          ∧ Machine.AtRest App.Due (s.after site (fs ++ gs)))
      ∧ (Machine.AtRest App.Due s →
        s.runs.verus = true
        ∧ (∃ call, s.runs.executed.getLast? = some call ∧ call.run = s.runs.runId)
        ∧ s.runs.disabled = false ∧ s.runs.busy = false) := by
  intro s
  refine ⟨fun fs hdue => ⟨?_, Machine.exists_continuation underWay_due hdue⟩, fun hrest => ?_⟩
  · exact (Nat.le_add_right _ _).trans (Machine.length_add_le underWay_due fs hdue)
  · have hquiet := App.Quiet.of_atRest hrest
    have hdone := (done_of_quiet site storage hash mode auto events hquiet).2
    exact ⟨hquiet.verus, hdone.executed, hdone.enabled, hdone.idle⟩

/-! ## Agreement -/

/-- Once a run has been started and while the box is checked: a run is due or waiting, or the
document of the last save is the one in the editor. -/
def App.Saved (last : Option Doc) (s : App) : Prop :=
  s.runs.runId ≠ 0 → s.auto = true →
    s.timer = true ∨ s.runs.Waiting ∨ last = some s.editor.doc

section Saved

variable {site : Site} {s t : App}

variable (site) in
/-- An event that saves saves the document it leaves in the editor. -/
lemma captured_urlOps (e : Event) : captured (s.urlOps site e) = []
    ∨ captured (s.urlOps site e) = [(s.step site e).editor.doc] := by
  have hstep := addressed_step site s e
  generalize s.urlOps site e = ops at hstep ⊢
  generalize s.step site e = t at hstep ⊢
  cases hstep with
  | quiet hurl htab => exact Or.inl rfl
  | save copy hurl htab => exact Or.inr rfl
  | tab hurl hparses => exact Or.inl rfl
  | tabSave hurl hparses => exact Or.inr rfl
  | encoded i hurl htab => exact Or.inl rfl
  | navigate hash hurl => exact Or.inl rfl
  | deliver hqueue hurl => exact Or.inl rfl
  | deliverSave hqueue hurl => exact Or.inr rfl

/-- The end of the last run saves. -/
lemma captured_of_finishes {e : Event} (h : s.Finishes e) :
    captured (s.urlOps site e) = [(s.step site e).editor.doc] := by
  obtain ⟨i, calls, threw, x, rfl, hx, hlast⟩ := h
  have hops : s.urlOps site (.resume i calls threw)
      = [.tab (s.step site (.resume i calls threw)).tabs.currentTab,
        .save (s.step site (.resume i calls threw)).editor.doc false] :=
    if_pos (by simpa [hx] using hlast)
  rw [hops]
  rfl

/-- An edit arms the timer, a load or a reset starts a run, and the end of the last run saves what
it has read. -/
lemma saved_step {last : Option Doc} (hawake : s.Awake) (h : s.Saved last) (e : Event) :
    (s.step site e).Saved ((captured (s.urlOps site e)).getLast?.or last) := by
  by_cases hfinishes : s.Finishes e
  · intro _ _
    rw [captured_of_finishes hfinishes]
    exact Or.inr (Or.inr rfl)
  have hexecuted := (idles_step site e hfinishes).executed
  have hcaptured := captured_urlOps site (s := s) e
  have hmoves := moves_step site s e
  generalize s.urlOps site e = ops at hcaptured ⊢
  generalize s.step site e = t at hexecuted hcaptured hmoves ⊢
  have hlast : last = some t.editor.doc →
      (captured ops).getLast?.or last = some t.editor.doc := by
    intro hsaved
    rcases hcaptured with hnone | hsave
    · rw [hnone]
      exact hsaved
    · rw [hsave]
      rfl
  have hkeep : s.Rests t → t.runs.runId = s.runs.runId →
      (s.runs.Waiting → t.runs.Waiting) → t.Saved ((captured ops).getLast?.or last) := by
    intro hrest hid hwaiting hstarted hauto
    rw [hrest.editor] at hlast
    rw [hrest.editor, hrest.timer]
    rcases h (hid ▸ hstarted) (hrest.auto ▸ hauto) with hdue | hwaits | hsaved
    · exact Or.inl hdue
    · exact Or.inr (Or.inl (hwaiting hwaits))
    · exact Or.inr (Or.inr (hlast hsaved))
  cases hmoves with
  | stay hrest hruns => exact hkeep hrest (congrArg Runs.runId hruns) fun hw => hruns ▸ hw
  | ready hrest hruns => exact hkeep hrest (by rw [hruns]) fun hw => hruns ▸ hw
  | edit doc userEvent ht =>
      subst ht
      exact fun _ hauto => Or.inl hauto
  | uncheck he hauto ht =>
      subst ht
      exact fun _ hoff => absurd hoff (by simp)
  | deaf heditor hverus hruns hauto htimer =>
      intro hid
      rw [hruns] at hid
      exact absurd (hverus.symm.trans (hawake.verus hid)) (by simp)
  | start mode heditor hverus hruns htimer =>
      intro _ _
      refine Or.inr (Or.inl ?_)
      rw [hruns]
      exact ⟨⟨s.runs.runId + 1, mode⟩, List.mem_append_right _ List.mem_cons_self, rfl⟩
  | stale hrest i hx hstale hruns =>
      exact hkeep hrest (by rw [hruns]) fun hw => hruns ▸ waiting_stale hx hstale hw
  | execute hrest i hx hlast' calls threw he hruns =>
      rw [hruns] at hexecuted
      exact absurd hexecuted (by simp [Runs.execute])

end Saved

lemma saved_after {s : App} (hawake : s.Awake) (h : s.Saved none) (events : List Event) :
    (s.after site events).Saved (captured (s.urlTrace site events)).getLast? := by
  induction events using List.reverseRecOn with
  | nil => exact h
  | append_singleton events e ih =>
      have htrace : s.urlTrace site (events ++ [e])
          = s.urlTrace site events ++ (s.after site events).urlOps site e :=
        Machine.outputs_concat (App.step site) (App.urlOps site) s events e
      have hrun : s.after site (events ++ [e]) = (s.after site events).step site e :=
        Machine.run_concat s events e
      rw [htrace, hrun, captured_append, List.getLast?_append]
      exact saved_step (awake_after site hawake events) ih e

/-- At rest the last save has ended, and it was of the document in the editor. -/
lemma hash_of_quiet (storage : JsString → Option Doc) (hash : JsString) (mode : ActionMode)
    (auto : Bool) (events : List Event) (hstay : ∀ h, Event.navigate h ∉ events)
    (hquiet : ((App.boot site storage hash mode auto).after site events).Quiet)
    (hauto : ((App.boot site storage hash mode auto).after site events).auto = true) :
    ((App.boot site storage hash mode auto).after site events).url.hash
      = buildHash site.codec
        ((App.boot site storage hash mode auto).after site events).editor.doc.text
        ((App.boot site storage hash mode auto).after site events).tabs.currentTab := by
  have hid := (done_of_quiet site storage hash mode auto events hquiet).1
  have hlinked := linked_after site (linked_boot site storage hash mode auto) events hstay
  have hsaved := saved_after site (s := App.boot site storage hash mode auto)
    ⟨fun hid => absurd rfl hid, fun hid => absurd rfl hid⟩ (fun hid => absurd rfl hid) events
    hid hauto
  have hnone : Latest.current ((App.boot site storage hash mode auto).after site events).url.latest
      = none := by
    rw [Latest.current, Url.latest, hquiet.saves]
    rfl
  rcases hsaved with hdue | ⟨x, hx, -⟩ | hlast
  · exact absurd (hquiet.timer.symm.trans hdue) (by simp)
  · rw [hquiet.suspended] at hx
    exact absurd hx List.not_mem_nil
  · exact hlinked.link hnone _ hlast

/-- **At rest everything agrees.**  With auto-verify, when nothing is due the panel shows what the
call of the run started last made of the document in the editor; and if nobody has navigated, the
address is the link of this document, with the tab that is on show. -/
theorem rest_agrees (storage : JsString → Option Doc) (hash : JsString) (mode : ActionMode)
    (auto : Bool) (events : List Event) :
    let s := (App.boot site storage hash mode auto).after site events
    Machine.AtRest App.Due s → s.auto = true →
      (∃ call, s.runs.executed.getLast? = some call ∧ call.run = s.runs.runId
        ∧ call.src = s.editor.doc ∧ (∃ i, Event.resume i call.calls call.threw ∈ events)
        ∧ s.runs.panel
          = renderMeta s.editor.doc.lines (finishRun call.mode call.calls call.threw {}))
      ∧ ((∀ h, Event.navigate h ∉ events) →
        s.url.hash = buildHash site.codec s.editor.doc.text s.tabs.currentTab) := by
  intro s hrest hauto
  have hquiet := App.Quiet.of_atRest hrest
  obtain ⟨hid, hdone⟩ := done_of_quiet site storage hash mode auto events hquiet
  have hawake : s.Awake :=
    awake_after site ⟨fun hid => absurd rfl hid, fun hid => absurd rfl hid⟩ events
  have hshown : s.runs.Shown :=
    shown_after site (fun _ hcall => absurd hcall (by simp [App.boot])) events
  refine ⟨?_, fun hstay => hash_of_quiet site storage hash mode auto events hstay hquiet hauto⟩
  rcases hawake.current hid hauto with hdue | ⟨x, hx, -⟩ | ⟨call, hcall, hsrc⟩
  · exact absurd (hquiet.timer.symm.trans hdue) (by simp)
  · exact absurd (hquiet.suspended ▸ hx) List.not_mem_nil
  · have hpanel := hshown call hcall
    obtain ⟨hbefore, hevent⟩ :=
      executed_after site storage hash mode auto events call (List.mem_of_getLast? hcall)
    obtain ⟨last, hlast, hrun⟩ := hdone.executed
    rw [hsrc, hbefore] at hpanel
    refine ⟨call, hcall, ?_, hsrc, hevent, hpanel⟩
    rw [Option.some_inj.mp (hcall.symm.trans hlast)]
    exact hrun

/-- The first run of the page, left alone. -/
theorem rest_agrees_first :
    let s := (App.boot smallSite (fun _ => none) [] .verify true).after smallSite
      [.wasmReady, .start, .resume 0 smallCalls none, .encoded 0]
    s.runs.panel = renderMeta s.editor.doc.lines (finishRun .verify smallCalls none {})
      ∧ s.runs.panel.verdict.map VerdictBlock.parts = some [⟨.ok, js "✓ verified · 1 query"⟩]
      ∧ s.url.hash
        = buildHash smallSite.codec (js "fn f() {}") (some (js "SMT_TRANSCRIPT")) := by
  intro s
  have hquiet : s.Quiet := by constructor <;> decide +kernel
  obtain ⟨⟨call, hcall, -, -, ⟨i, hevent⟩, hpanel⟩, hhash⟩ :=
    rest_agrees smallSite (fun _ => none) [] .verify true
      [.wasmReady, .start, .resume 0 smallCalls none, .encoded 0] (App.Quiet.atRest hquiet)
      (by decide +kernel)
  have hmode : s.runs.executed.getLast?.map WasmCall.mode = some .verify := by decide +kernel
  have hmode : call.mode = .verify := by
    rw [hcall] at hmode
    exact Option.some_inj.mp hmode
  obtain ⟨-, hcalls, hthrew⟩ : i = 0 ∧ call.calls = smallCalls ∧ call.threw = none := by
    simpa using hevent
  rw [hmode, hcalls, hthrew] at hpanel
  refine ⟨hpanel, by decide +kernel, (hhash (by simp)).trans ?_⟩
  decide +kernel

end VerusExplorer
