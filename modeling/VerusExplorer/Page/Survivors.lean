import VerusExplorer.Page.Controls
import VerusExplorer.Page.CopyLink

/-!
# Which sources get into the address by themselves

While the user neither loads, resets, navigates nor copies a link, only the runs save
(`public/app.js`): the end of `runWith` calls `saveHashNow`, and it is reached whether or not the
wasm call threw.

* `Event.byItself` — the other events; `App.Alone` — all that they do to the address and the calls.
* `Unasked` — the invariant: every save that is under way is that of a call.
* `App.ending` — the call whose source an event writes.
* **`survivors_run`** — exactly when the address carries nothing but the initial source and those
  of the runs that have returned, and a run that throws leaves it as it was.
-/

namespace VerusExplorer

open Utf16

/-! ## What happens without being asked for -/

/-- No load, no reset, no change of the hash and no copy of the link. -/
def Event.byItself : Event → Bool
  | .selectSource _ | .navSource _ | .clickReset | .copyLink | .navigate _ => false
  | _ => true

/-- The encoding of a save ends. -/
def Event.isEncoded : Event → Bool
  | .encoded _ => true
  | _ => false

/-- The address and the calls after an event of the page alone. -/
inductive App.Alone (codec : Codec) (s t : App) (e : Event) : Prop
  | quiet (he : e.isEncoded = false) (hurl : t.url = s.url)
      (hcalls : t.runs.executed = s.runs.executed)
  | tab (he : e.isEncoded = false) (hurl : t.url = s.url.writeTab t.tabs.currentTab)
      (hcalls : t.runs.executed = s.runs.executed)
  | call (he : e.isEncoded = false) (call : WasmCall)
      (hurl : t.url = (s.url.writeTab t.tabs.currentTab).saveHashNow call.src false)
      (hcalls : t.runs.executed = s.runs.executed ++ [call])
  | encoded (i : ℕ) (he : e = .encoded i)
      (hurl : t.url = s.url.exec codec (.encoded i t.tabs.currentTab))
      (hcalls : t.runs.executed = s.runs.executed)

/-- Nothing is being loaded, and every save that is under way is that of a call. -/
structure Unasked (s : App) : Prop where
  loads : s.loads = []
  parses : s.parses = []
  hashchanges : s.url.hashchanges = 0
  gen : s.url.hashSaveGen = s.runs.executed.length
  saves : ∀ save ∈ s.url.saves, ∃ call,
    s.runs.executed[save.myGen - 1]? = some call ∧ call.src = save.src

section Alone

variable (site : Site) (s : App)

lemma executed_runAction : s.runAction.runs.executed = s.runs.executed := by
  rw [App.runAction, App.runWith]
  split_ifs
  · rfl
  · rfl

/-- A handler that does nothing but run. -/
lemma alone_runAction {t : App} {e : Event} (he : e.isEncoded = false) (hurl : t.url = s.url)
    (hcalls : t.runs.executed = s.runs.executed) : s.Alone site.codec t.runAction e :=
  .quiet he ((runAction_url t).1.trans hurl) ((executed_runAction t).trans hcalls)

/-- The end of `runWith` saves the source it has run. -/
lemma alone_resume (i : ℕ) (calls : List Callback) (threw : Option JsString) :
    s.Alone site.codec (s.resume site i calls threw) (.resume i calls threw) := by
  rw [App.resume]
  cases hx : s.runs.suspended[i]? with
  | none => exact .quiet rfl rfl rfl
  | some x =>
      dsimp only
      split_ifs
      · exact .quiet rfl rfl rfl
      · exact .call rfl _ rfl rfl

lemma alone_clickTab (i : ℕ) : s.Alone site.codec (s.clickTab site i) (.clickTab i) := by
  rw [App.clickTab]
  split
  · exact .quiet rfl rfl rfl
  · split_ifs
    · exact .quiet rfl rfl rfl
    · split
      · exact .quiet rfl rfl rfl
      · exact .tab rfl rfl rfl

lemma alone_clickSubtab (i : ℕ) : s.Alone site.codec (s.clickSubtab site i) (.clickSubtab i) := by
  rw [App.clickSubtab]
  split
  · exact .quiet rfl rfl rfl
  · split_ifs
    · exact .quiet rfl rfl rfl
    · exact .tab rfl rfl rfl

lemma alone_encoded (i : ℕ) : s.Alone site.codec (s.encoded site i) (.encoded i) := by
  have hcalls : (s.encoded site i).runs = s.runs := by
    rw [App.encoded]
    split
    · rfl
    · rfl
  have hstep := addressed_encoded site s i
  rw [App.urlOps, App.step] at hstep
  cases hstep with
  | encoded i hurl htab => exact .encoded i rfl hurl (congrArg Runs.executed hcalls)

variable {s}

/-- **Everything that happens by itself**: a tab is written, a call is made and saved, or a save
ends. -/
lemma alone_step (h : Unasked s) {e : Event} (he : e.byItself = true) :
    s.Alone site.codec (s.step site e) e := by
  cases e with
  | edit doc userEvent => exact .quiet rfl rfl rfl
  | toggleAuto =>
      show s.Alone site.codec s.toggleAuto _
      rw [App.toggleAuto]
      split_ifs
      · exact alone_runAction site s rfl rfl rfl
      · exact .quiet rfl rfl rfl
  | timer =>
      show s.Alone site.codec s.fireTimer _
      rw [App.fireTimer]
      split_ifs
      · exact alone_runAction site s rfl rfl rfl
      · exact .quiet rfl rfl rfl
  | clickRun =>
      show s.Alone site.codec s.clickRun _
      rw [App.clickRun]
      split_ifs
      · exact .quiet rfl rfl rfl
      · exact alone_runAction site s rfl rfl rfl
  | switchMode mode => exact .quiet rfl rfl rfl
  | wasmReady => exact .quiet rfl rfl rfl
  | start =>
      show s.Alone site.codec s.start _
      rw [App.start]
      split_ifs
      · exact alone_runAction site s rfl rfl rfl
      · exact .quiet rfl rfl rfl
  | resume i calls threw => exact alone_resume site s i calls threw
  | fetched i =>
      show s.Alone site.codec (s.fetched site i) _
      rw [App.fetched, h.loads]
      exact .quiet rfl rfl rfl
  | fetchFailed i => exact .quiet rfl rfl rfl
  | clickTab i => exact alone_clickTab site s i
  | clickSubtab i => exact alone_clickSubtab site s i
  | encoded i => exact alone_encoded site s i
  | hashchange =>
      show s.Alone site.codec (s.hashchange site) _
      rw [App.hashchange, if_pos h.hashchanges]
      exact .quiet rfl rfl rfl
  | decoded i =>
      show s.Alone site.codec (s.decoded site i) _
      rw [App.decoded, h.parses]
      exact .quiet rfl rfl rfl
  | _ => exact absurd he (by simp [Event.byItself])

/-- Nothing begins to be loaded. -/
lemma loads_step (h : Unasked s) {e : Event} (he : e.byItself = true) :
    (s.step site e).loads = [] ∧ (s.step site e).parses = [] := by
  by_cases hquiet : e.quiet = true
  · have hsame := sameDocs_quiet site s hquiet
    exact ⟨hsame.loads.trans h.loads, hsame.parses.trans h.parses⟩
  cases e with
  | edit doc userEvent => exact ⟨h.loads, h.parses⟩
  | fetched i =>
      show (s.fetched site i).loads = [] ∧ (s.fetched site i).parses = []
      rw [App.fetched, h.loads]
      exact ⟨h.loads, h.parses⟩
  | fetchFailed i =>
      show s.loads.eraseIdx i = [] ∧ s.parses = []
      rw [h.loads]
      exact ⟨rfl, h.parses⟩
  | hashchange =>
      show (s.hashchange site).loads = [] ∧ (s.hashchange site).parses = []
      rw [App.hashchange, if_pos h.hashchanges]
      exact ⟨h.loads, h.parses⟩
  | decoded i =>
      show (s.decoded site i).loads = [] ∧ (s.decoded site i).parses = []
      rw [App.decoded, h.parses]
      exact ⟨h.loads, h.parses⟩
  | _ => first | exact absurd rfl hquiet | exact absurd he (by simp [Event.byItself])

/-- A save that is taken out of those under way. -/
lemma saves_exec_encoded {codec : Codec} {u : Url} {i : ℕ} {tab : Option JsString} {save : Save}
    (h : save ∈ (u.exec codec (.encoded i tab)).saves) : save ∈ u.saves := by
  rw [Url.exec] at h
  cases hi : u.saves[i]? with
  | none =>
      rw [hi] at h
      exact h
  | some other =>
      rw [hi] at h
      simp only [Url.encoded, Url.writeHash] at h
      split_ifs at h
      all_goals exact List.mem_of_mem_eraseIdx h

lemma gen_exec_encoded (codec : Codec) (u : Url) (i : ℕ) (tab : Option JsString) :
    (u.exec codec (.encoded i tab)).hashSaveGen = u.hashSaveGen
      ∧ (u.exec codec (.encoded i tab)).hashchanges = u.hashchanges := by
  rw [Url.exec]
  cases u.saves[i]? with
  | none => exact ⟨rfl, rfl⟩
  | some save =>
      simp only [Url.encoded, Url.writeHash]
      split_ifs
      all_goals exact ⟨rfl, rfl⟩

lemma gen_writeTab (u : Url) (tab : Option JsString) :
    (u.writeTab tab).hashSaveGen = u.hashSaveGen ∧ (u.writeTab tab).saves = u.saves
      ∧ (u.writeTab tab).hashchanges = u.hashchanges := by
  rw [Url.writeTab]
  split
  · exact ⟨rfl, rfl, rfl⟩
  · exact ⟨rfl, rfl, rfl⟩

/-- The saves stay those of the calls. -/
lemma Unasked.step (h : Unasked s) {e : Event} (he : e.byItself = true) :
    Unasked (s.step site e) := by
  obtain ⟨hloads, hparses⟩ := loads_step site h he
  have halone := alone_step site h he
  generalize s.step site e = t at hloads hparses halone
  cases halone with
  | quiet _ hurl hcalls =>
      refine ⟨hloads, hparses, ?_, ?_, ?_⟩
      · rw [hurl]
        exact h.hashchanges
      · rw [hurl, hcalls]
        exact h.gen
      · rw [hurl, hcalls]
        exact h.saves
  | tab _ hurl hcalls =>
      obtain ⟨hgen, hsaves, hqueue⟩ := gen_writeTab s.url t.tabs.currentTab
      refine ⟨hloads, hparses, ?_, ?_, ?_⟩
      · rw [hurl, hqueue]
        exact h.hashchanges
      · rw [hurl, hcalls, hgen]
        exact h.gen
      · rw [hurl, hcalls, hsaves]
        exact h.saves
  | call _ call hurl hcalls =>
      obtain ⟨hgen, hsaves, hqueue⟩ := gen_writeTab s.url t.tabs.currentTab
      have hnumber : (s.url.writeTab t.tabs.currentTab).hashSaveGen + 1
          = s.runs.executed.length + 1 := by rw [hgen, h.gen]
      refine ⟨hloads, hparses, ?_, ?_, ?_⟩
      · rw [hurl]
        exact hqueue.trans h.hashchanges
      · rw [hurl, hcalls, List.length_append]
        exact hnumber
      · intro save hsave
        rw [hurl] at hsave
        rw [hcalls]
        rcases List.mem_append.mp hsave with hold | hnew
        · rw [hsaves] at hold
          obtain ⟨earlier, hearlier, hsrc⟩ := h.saves save hold
          have hlt := (List.getElem?_eq_some_iff.mp hearlier).1
          exact ⟨earlier, by rw [List.getElem?_append_left hlt, hearlier], hsrc⟩
        · obtain rfl := List.mem_singleton.mp hnew
          refine ⟨call, ?_, rfl⟩
          show (s.runs.executed ++ [call])[(s.url.writeTab t.tabs.currentTab).hashSaveGen + 1 - 1]?
            = some call
          rw [hnumber, Nat.add_sub_cancel, List.getElem?_concat_length]
  | encoded i _ hurl hcalls =>
      obtain ⟨hgen, hqueue⟩ := gen_exec_encoded site.codec s.url i t.tabs.currentTab
      refine ⟨hloads, hparses, ?_, ?_, ?_⟩
      · rw [hurl, hqueue]
        exact h.hashchanges
      · rw [hurl, hcalls, hgen]
        exact h.gen
      · intro save hsave
        rw [hurl] at hsave
        rw [hcalls]
        exact h.saves save (saves_exec_encoded hsave)

lemma unasked_boot (storage : JsString → Option Doc) (hash : JsString) (mode : ActionMode)
    (auto : Bool) : Unasked (App.boot site storage hash mode auto) where
  loads := rfl
  parses := rfl
  hashchanges := rfl
  gen := rfl
  saves _ hsave := absurd hsave List.not_mem_nil

end Alone

/-! ## The source in the address -/

/-- The call whose source an event writes into the hash: the last one, where its encoding ends. -/
def App.ending (s : App) : Event → Option WasmCall
  | .encoded i =>
      if s.url.saves[i]?.any fun save => save.myGen = s.url.hashSaveGen then
        s.runs.executed.getLast?
      else none
  | _ => none

section Source

variable (site : Site) {s : App}

/-- The source in the address is written where the encoding of the last call ends, and only
there. -/
lemma linked_step (h : Unasked s) {e : Event} (he : e.byItself = true) :
    site.linked (s.step site e).url.hash
        = match s.ending e with
          | some call => site.linked (buildHash site.codec call.src.text none)
          | none => site.linked s.url.hash := by
  have halone := alone_step site h he
  have htab : ∀ tab, site.linked (s.url.writeTab tab).hash = site.linked s.url.hash := by
    intro tab
    rw [Url.writeTab]
    cases hwrite : writeTabToUrl s.url.hash tab with
    | none => rfl
    | some hash => exact linked_writeTabToUrl site hwrite
  have hnone : e.isEncoded = false → s.ending e = none := by
    intro hnot
    cases e with
    | encoded i => exact absurd hnot (by simp [Event.isEncoded])
    | _ => rfl
  cases halone with
  | quiet hnot hurl hcalls => rw [hnone hnot, hurl]
  | tab hnot hurl hcalls =>
      rw [hnone hnot, hurl]
      exact htab _
  | call hnot call hurl hcalls =>
      rw [hnone hnot, hurl]
      exact htab _
  | encoded i hi hurl hcalls =>
      subst hi
      rw [hurl]
      have hends := exec_encoded site.codec s.url i (s.step site (.encoded i)).tabs.currentTab
      cases hsave : s.url.saves[i]? with
      | none =>
          rw [App.ending, hsave, Url.exec, hsave]
          rfl
      | some save =>
          by_cases hgen : save.myGen = s.url.hashSaveGen
          · have hwrote : s.url.wrote (.encoded i (s.step site (.encoded i)).tabs.currentTab)
                = [save.src] := by
              rw [Url.wrote, hsave]
              exact if_pos hgen
            obtain ⟨call, hcall, hsrc⟩ := h.saves save (List.mem_of_getElem? hsave)
            have hending : s.ending (.encoded i) = some call := by
              rw [App.ending, hsave, if_pos (by simpa using hgen), List.getLast?_eq_getElem?,
                ← h.gen, ← hgen, hcall]
            rw [hending]
            rcases hends with ⟨hnil, -⟩ | ⟨src, hsrc', hlink⟩
            · exact absurd (hwrote.symm.trans hnil) (by simp)
            · obtain rfl := List.singleton_inj.mp (hsrc'.symm.trans hwrote)
              rw [hlink, ← hsrc]
              exact linked_buildHash_tab site call.src.text _
          · have hending : s.ending (.encoded i) = none := by
              rw [App.ending, hsave]
              exact if_neg (by simpa using hgen)
            rw [hending]
            rcases hends with ⟨-, hsame⟩ | ⟨src, hwrote, -⟩
            · exact congrArg site.linked hsame
            · have hnil := (wrote_encoded_eq_nil hsave
                (s.step site (.encoded i)).tabs.currentTab).mpr hgen
              exact absurd (hwrote.symm.trans hnil) (by simp)

/-- A source that the page started with, or that a run has returned from. -/
def App.Survives (init : JsString) (s : App) (src : Option JsString) : Prop :=
  src = site.linked init
    ∨ ∃ call ∈ s.runs.executed, call.threw = none
      ∧ src = site.linked (buildHash site.codec call.src.text none)

/-- A run whose call threw comes to its end, or the encoding that it started does. -/
def App.EndsThrown (s : App) (e : Event) : Prop :=
  (∃ i calls message, e = .resume i calls (some message))
    ∨ ∃ call, s.ending e = some call ∧ call.threw ≠ none

/-- An event does not write the source of a call that threw, unless the address leads there
already. -/
def App.Spares (s : App) (e : Event) : Prop :=
  ∀ call, s.ending e = some call → call.threw ≠ none →
    site.linked (buildHash site.codec call.src.text none) = site.linked s.url.hash

/-- What has survived stays so. -/
lemma survives_step (h : Unasked s) {e : Event} (he : e.byItself = true) {init : JsString}
    {src : Option JsString} (hsrc : s.Survives site init src) :
    (s.step site e).Survives site init src := by
  have hgrows : ∀ call ∈ s.runs.executed, call ∈ (s.step site e).runs.executed := by
    intro call hcall
    cases alone_step site h he with
    | quiet _ _ hcalls => rwa [hcalls]
    | tab _ _ hcalls => rwa [hcalls]
    | call _ _ _ hcalls =>
        rw [hcalls]
        exact List.mem_append_left _ hcall
    | encoded _ _ _ hcalls => rwa [hcalls]
  rcases hsrc with hinit | ⟨call, hcall, hreturned, hsrc⟩
  · exact Or.inl hinit
  · exact Or.inr ⟨call, hgrows call hcall, hreturned, hsrc⟩

/-- Where the encoding of a call ends, no call is made. -/
lemma executed_of_ending (h : Unasked s) {e : Event} (he : e.byItself = true) {call : WasmCall}
    (hcall : s.ending e = some call) :
    (s.step site e).runs.executed = s.runs.executed ∧ call ∈ s.runs.executed := by
  cases e with
  | encoded i =>
      constructor
      · cases alone_step site h he with
        | quiet hnot _ _ => exact absurd hnot (by simp [Event.isEncoded])
        | tab hnot _ _ => exact absurd hnot (by simp [Event.isEncoded])
        | call hnot _ _ _ => exact absurd hnot (by simp [Event.isEncoded])
        | encoded _ _ _ hcalls => exact hcalls
      · rw [App.ending] at hcall
        split_ifs at hcall
        exact List.mem_of_getLast? hcall
  | _ => exact absurd hcall (by simp [App.ending])

/-- An event that spares the address: what is in it still survives. -/
lemma survives_of_spares (h : Unasked s) {e : Event} (he : e.byItself = true) {init : JsString}
    (hs : s.Survives site init (site.linked s.url.hash)) (hspares : s.Spares site e) :
    (s.step site e).Survives site init (site.linked (s.step site e).url.hash) := by
  have hlinked := linked_step site h he
  cases hcall : s.ending e with
  | none =>
      rw [hcall] at hlinked
      rw [hlinked]
      exact survives_step site h he hs
  | some call =>
      obtain ⟨hexecuted, hmem⟩ := executed_of_ending site h he hcall
      rw [hcall] at hlinked
      by_cases hthrew : call.threw = none
      · rw [hlinked, App.Survives, hexecuted]
        exact Or.inr ⟨call, hmem, hthrew, rfl⟩
      · rw [hlinked.trans (hspares call hcall hthrew)]
        exact survives_step site h he hs

/-- An event spares the address exactly if, where it ends a run that threw, it leaves the source in
the address as it was. -/
lemma spares_iff (h : Unasked s) {e : Event} (he : e.byItself = true) :
    s.Spares site e
      ↔ (s.EndsThrown e → site.linked (s.step site e).url.hash = site.linked s.url.hash) := by
  have hlinked := linked_step site h he
  constructor
  · rintro hspares (⟨i, calls, message, rfl⟩ | ⟨call, hcall, hthrew⟩)
    · exact hlinked
    · rw [hcall] at hlinked
      exact hlinked.trans (hspares call hcall hthrew)
  · intro hleaves call hcall hthrew
    rw [hcall] at hlinked
    exact hlinked.symm.trans (hleaves (Or.inr ⟨call, hcall, hthrew⟩))

/-- **What gets into the address by itself.**  Whatever happens without being asked for: all along
the run the address carries the initial source or that of a run that has returned, and a run whose
call threw leaves the source in the address as it was, if and only if the encoding of such a call
ends as that of the last call only where the address leads to its source already.  The source in the
address changes only where the encoding of the last call ends, and there it is that of this call. -/
theorem survivors_run (storage : JsString → Option Doc) (hash : JsString) (mode : ActionMode)
    (auto : Bool) (events : List Event) (hitself : ∀ e ∈ events, e.byItself = true) :
    let start := App.boot site storage hash mode auto
    (((∀ fs, fs <+: events →
          (start.after site fs).Survives site hash (site.linked (start.after site fs).url.hash))
        ∧ ∀ fs e, fs ++ [e] <+: events →
          let s := start.after site fs
          s.EndsThrown e → site.linked (s.step site e).url.hash = site.linked s.url.hash)
      ↔ ∀ fs e, fs ++ [e] <+: events → (start.after site fs).Spares site e)
    ∧ ∀ fs e, fs ++ [e] <+: events →
      let s := start.after site fs
      site.linked (s.step site e).url.hash
        = match s.ending e with
          | some call => site.linked (buildHash site.codec call.src.text none)
          | none => site.linked s.url.hash := by
  intro start
  have hboot : Unasked start := unasked_boot site storage hash mode auto
  have hunasked : ∀ fs, fs <+: events → Unasked (start.after site fs) := fun fs hfs =>
    Machine.run_invariant_of_mem (fun s f hf h => h.step site (hitself f (hfs.subset hf))) hboot
  have hbefore : ∀ {fs e}, fs ++ [e] <+: events → fs <+: events ∧ e.byItself = true :=
    fun hfs => ⟨(List.prefix_append _ _).trans hfs, hitself _ (hfs.subset (by simp))⟩
  refine ⟨⟨fun h fs e hfs => ?_, fun h => ⟨fun fs hfs => ?_, fun fs e hfs => ?_⟩⟩, ?_⟩
  · obtain ⟨hfront, he⟩ := hbefore hfs
    exact (spares_iff site (hunasked fs hfront) he).mpr (h.2 fs e hfs)
  · refine (Machine.run_invariant_of_along
      (I := fun s : App => Unasked s ∧ s.Survives site hash (site.linked s.url.hash))
      (C := fun s e => e.byItself = true ∧ s.Spares site e) ?_ ⟨hboot, Or.inl rfl⟩
      fun gs e hgs => ⟨(hbefore (hgs.trans hfs)).2, h gs e (hgs.trans hfs)⟩).2
    rintro s e ⟨hs, hsurvives⟩ ⟨he, hspares⟩
    exact ⟨hs.step site he, survives_of_spares site hs he hsurvives hspares⟩
  · obtain ⟨hfront, he⟩ := hbefore hfs
    exact (spares_iff site (hunasked fs hfront) he).mp (h fs e hfs)
  · intro fs e hfs
    obtain ⟨hfront, he⟩ := hbefore hfs
    exact linked_step site (hunasked fs hfront) he

/-- A run that returns, and the end of its encoding. -/
theorem survivors_run_returned :
    let t := (App.boot smallSite (fun _ => none) [] .verify true).after smallSite
      [.wasmReady, .start, .resume 0 [] none, .encoded 0]
    smallSite.linked t.url.hash = some (js "fn f() {}") := by
  have hlinked := (survivors_run smallSite (fun _ => none) [] .verify true
    [.wasmReady, .start, .resume 0 [] none, .encoded 0] (by simp [Event.byItself])).2
    [.wasmReady, .start, .resume 0 [] none] (.encoded 0) (List.prefix_refl _)
  exact hlinked.trans (linked_buildHash smallSite rfl)

/-- Then the user types, and the run of the new source throws: it takes the place of the other. -/
theorem survivors_run_threw :
    let events : List Event := [.wasmReady, .start, .resume 0 [] none, .encoded 0,
      .edit (Doc.ofText (js "fn g() {}")) .input, .timer,
      .resume 0 [] (some (js "unreachable")), .encoded 0]
    let t := (App.boot smallSite (fun _ => none) [] .verify true).after smallSite events
    (∀ e ∈ events, e.byItself = true)
      ∧ smallSite.linked t.url.hash = some (js "fn g() {}")
      ∧ ¬t.Survives smallSite [] (smallSite.linked t.url.hash) := by
  intro events t
  have hhash : t.url.hash = buildHash smallSite.codec (js "fn g() {}") none := by
    decide +kernel
  have hlinked : smallSite.linked t.url.hash = some (js "fn g() {}") := by
    rw [hhash]
    exact linked_buildHash smallSite rfl
  have hcalls : ∀ call ∈ t.runs.executed, call.threw ≠ none ∨ call.src.text = js "fn f() {}" := by
    decide +kernel
  refine ⟨by simp [events, Event.byItself], hlinked, ?_⟩
  rw [hlinked]
  rintro (hinit | ⟨call, hcall, hreturned, hsrc⟩)
  · exact absurd hinit (by decide)
  · rcases hcalls call hcall with hthrew | htext
    · exact absurd hreturned hthrew
    · rw [htext, linked_buildHash smallSite rfl] at hsrc
      exact absurd hsrc (by decide)

end Source

end VerusExplorer
