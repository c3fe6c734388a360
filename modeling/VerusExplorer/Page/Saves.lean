import VerusExplorer.Page.Address

/-!
# Overlapping saves

Saves of the document into the address start at many places and their encodings end in any order
(`saveHashNow`, `public/app.js`); in between, `writeTabToUrl` edits the same hash.

* `Linked` — once the last save has ended, the hash is the link of its source with the tab that is
  selected.
* **`saves_lastCallWins`** — the sources are written in the order of the calls, a switch of the tab
  never changes the source, and when no save is under way the hash is the link of the last one.
-/

namespace VerusExplorer

open Utf16

section Hash

variable (codec : Codec)

/-- An encoding that ends writes the link of its source, or nothing. -/
lemma exec_encoded (u : Url) (i : ℕ) (tab : Option JsString) :
    (u.wrote (.encoded i tab) = [] ∧ (u.exec codec (.encoded i tab)).hash = u.hash)
      ∨ ∃ src, u.wrote (.encoded i tab) = [src]
        ∧ (u.exec codec (.encoded i tab)).hash = buildHash codec src.text tab := by
  rw [Url.wrote, Url.exec]
  cases hi : u.saves[i]? with
  | none => exact Or.inl ⟨rfl, rfl⟩
  | some save =>
      by_cases hgen : save.myGen = u.hashSaveGen
      · refine Or.inr ⟨save.src, if_pos hgen, ?_⟩
        simp only [Url.encoded, hgen, ne_eq, not_true_eq_false, if_false]
        split_ifs
        · rfl
        · rfl
      · refine Or.inl ⟨if_neg hgen, ?_⟩
        simp only [Url.encoded, ne_eq, hgen, not_false_eq_true, if_true]
        split_ifs
        · rfl
        · rfl

end Hash

/-! ## The invariant -/

/-- `last` is the source of the last save: it is under way, or the hash is its link with the
selected tab.  Nobody has navigated. -/
structure Linked (codec : Codec) (last : Option Doc) (s : App) : Prop where
  numbered : Latest.Numbered s.url.latest
  noEvents : s.url.hashchanges = 0
  noParses : s.parses = []
  underWay : ∀ src ∈ Latest.current s.url.latest, last = some src
  link : Latest.current s.url.latest = none → ∀ src ∈ last,
    s.url.hash = buildHash codec src.text s.tabs.currentTab

section Steps

variable {codec : Codec} {last : Option Doc} {s t : App}

/-- What no access touches. -/
lemma Linked.quiet (h : Linked codec last s) (hurl : t.url = s.url) (htab : s.Settled t) :
    Linked codec last t := by
  obtain ⟨hparses, hsame⟩ := htab h.noParses
  refine ⟨?_, ?_, hparses, ?_, ?_⟩
  · rw [hurl]
    exact h.numbered
  · rw [hurl]
    exact h.noEvents
  · rw [hurl]
    exact h.underWay
  · rw [hurl, hsame]
    exact h.link

/-- A new save is the last one and under way. -/
lemma linked_save {u : Url} (hnumbered : Latest.Numbered u.latest) (hevents : u.hashchanges = 0)
    (hparses : t.parses = []) {copy : Bool} (hurl : t.url = u.saveHashNow t.editor.doc copy) :
    Linked codec (some t.editor.doc) t := by
  have hexec : t.url.latest = Latest.step u.latest (.call t.editor.doc) := by
    rw [hurl]
    exact latest_exec codec u (.save t.editor.doc copy)
  have hcurrent : Latest.current t.url.latest = some t.editor.doc := by
    rw [hexec]
    exact Latest.current_call hnumbered _
  refine ⟨?_, ?_, hparses, ?_, ?_⟩
  · rw [hexec]
    exact hnumbered.step _
  · rw [hurl]
    exact hevents
  · intro src hsrc
    exact hcurrent.symm.trans hsrc
  · intro hnone
    exact absurd (hcurrent.symm.trans hnone) (by simp)

lemma writeTab_latest (u : Url) (tab : Option JsString) :
    (u.writeTab tab).latest = u.latest ∧ (u.writeTab tab).hashchanges = u.hashchanges := by
  rw [Url.writeTab]
  split
  · exact ⟨rfl, rfl⟩
  · exact ⟨rfl, rfl⟩

/-- A switch of the tab keeps the source of the link. -/
lemma Linked.tab (h : Linked codec last s) (hurl : t.url = s.url.writeTab t.tabs.currentTab)
    (hparses : t.parses = s.parses) : Linked codec last t := by
  obtain ⟨hlatest, hevents⟩ := writeTab_latest s.url t.tabs.currentTab
  refine ⟨?_, ?_, hparses.trans h.noParses, ?_, ?_⟩
  · rw [hurl, hlatest]
    exact h.numbered
  · rw [hurl, hevents]
    exact h.noEvents
  · rw [hurl, hlatest]
    exact h.underWay
  · rw [hurl, hlatest]
    intro hnone src hsrc
    rw [Url.writeTab, h.link hnone src hsrc, writeTabToUrl_buildHash]
    rfl

/-- The end of an encoding: it is the last save and writes the link, or nothing changes. -/
lemma Linked.encoded (h : Linked codec last s) {i : ℕ}
    (hurl : t.url = s.url.exec codec (.encoded i t.tabs.currentTab)) (htab : s.Settled t) :
    Linked codec last t := by
  obtain ⟨hparses, hsame⟩ := htab h.noParses
  have hexec : t.url.latest = Latest.step s.url.latest (.finish i) := by
    rw [hurl]
    exact latest_exec codec s.url _
  have hwrote : s.url.wrote (.encoded i t.tabs.currentTab)
      = Latest.writes s.url.latest (.finish i) :=
    (wrote_eq _ _).trans (List.append_nil _)
  have hevents : t.url.hashchanges = 0 := by
    rw [hurl, Url.exec, ← h.noEvents]
    split
    · rfl
    · simp only [Url.encoded, Url.writeHash]
      split_ifs <;> rfl
  have hcases := Latest.finish_cases h.numbered i
  refine ⟨by rw [hexec]; exact h.numbered.step _, hevents, hparses, ?_, ?_⟩
  · rw [hexec]
    intro src hsrc
    rcases hcases with ⟨-, hcur⟩ | ⟨a, -, -, hnext⟩
    · exact h.underWay src (hcur ▸ hsrc)
    · exact absurd (hnext.symm.trans hsrc) (by simp)
  · rw [hexec]
    intro hnone src hsrc
    rw [hurl]
    rcases hcases with ⟨hw, hcur⟩ | ⟨a, hw, hcur, -⟩
    · rcases exec_encoded codec s.url i t.tabs.currentTab with ⟨-, hkeep⟩ | ⟨b, hb, -⟩
      · rw [hkeep, hsame]
        exact h.link (hcur ▸ hnone) src hsrc
      · exact absurd (hb.symm.trans (hwrote.trans hw)) (by simp)
    · obtain rfl : a = src := Option.some_inj.mp ((h.underWay a hcur).symm.trans hsrc)
      rcases exec_encoded codec s.url i t.tabs.currentTab with ⟨hb, -⟩ | ⟨b, hb, hlink⟩
      · exact absurd (hb.symm.trans (hwrote.trans hw)) (by simp)
      · obtain rfl : b = a := List.singleton_inj.mp (hb.symm.trans (hwrote.trans hw))
        exact hlink

/-- One event, that is not a navigation. -/
lemma Linked.step {ops : List Url.Op} (h : Linked codec last s) (hstep : s.Addressed codec t ops)
    (hstay : ∀ hash, Url.Op.navigate hash ∉ ops) :
    Linked codec ((captured ops).getLast?.or last) t := by
  cases hstep with
  | quiet hurl htab => exact h.quiet hurl htab
  | save copy hurl htab => exact linked_save h.numbered h.noEvents (htab h.noParses).1 hurl
  | tab hurl hparses => exact h.tab hurl hparses
  | tabSave hurl hparses =>
      obtain ⟨hlatest, hevents⟩ := writeTab_latest s.url t.tabs.currentTab
      have hnumbered := h.numbered
      rw [← hlatest] at hnumbered
      exact linked_save hnumbered (hevents.trans h.noEvents) (hparses.trans h.noParses) hurl
  | encoded i hurl htab => exact h.encoded hurl htab
  | navigate hash hurl => exact absurd List.mem_cons_self (hstay hash)
  | deliver hqueue hurl => exact absurd h.noEvents hqueue
  | deliverSave hqueue hurl => exact absurd h.noEvents hqueue

end Steps

/-! ## Whole runs -/

variable (site : Site)

lemma captured_append (ops ops' : List Url.Op) :
    captured (ops ++ ops') = captured ops ++ captured ops' := List.flatMap_append

/-- Only a navigation navigates. -/
lemma navigate_mem_urlOps {s : App} {e : Event} {hash : JsString}
    (h : Url.Op.navigate hash ∈ s.urlOps site e) : e = .navigate hash := by
  cases e with
  | navigate hash' =>
      obtain ⟨rfl⟩ : hash = hash' := by simpa [App.urlOps] using h
      rfl
  | _ =>
      simp only [App.urlOps] at h
      try split_ifs at h
      all_goals exact absurd h (by simp)

lemma linked_boot (storage : JsString → Option Doc) (hash : JsString) (mode : ActionMode)
    (auto : Bool) : Linked site.codec none (App.boot site storage hash mode auto) where
  numbered := ⟨List.nodup_nil, fun _ hp => absurd hp List.not_mem_nil⟩
  noEvents := rfl
  noParses := rfl
  underWay _ hsrc := absurd hsrc (by simp [App.boot, Url.latest, Latest.current])
  link _ _ hsrc := absurd hsrc (by simp)

lemma linked_after {s : App} (h : Linked site.codec none s) (events : List Event)
    (hstay : ∀ hash, Event.navigate hash ∉ events) :
    Linked site.codec (captured (s.urlTrace site events)).getLast? (s.after site events) := by
  induction events using List.reverseRecOn with
  | nil => exact h
  | append_singleton events e ih =>
      have ih' := ih fun hash hmem => hstay hash (List.mem_append_left _ hmem)
      have hstep := ih'.step (addressed_step site _ e) fun hash hmem =>
        hstay hash (List.mem_append_right _ (navigate_mem_urlOps site hmem ▸ List.mem_cons_self))
      have htrace : s.urlTrace site (events ++ [e])
          = s.urlTrace site events ++ (s.after site events).urlOps site e :=
        Machine.outputs_concat (App.step site) (App.urlOps site) s events e
      have hrun : s.after site (events ++ [e]) = (s.after site events).step site e :=
        Machine.run_concat s events e
      rw [htrace, hrun, captured_append, List.getLast?_append]
      exact hstep

/-- What an event can do to the hash. -/
lemma hash_step (s : App) (e : Event) :
    (s.step site e).url.hash = s.url.hash
      ∨ (∃ src, written site.codec s.url (s.urlOps site e) = [src]
        ∧ (s.step site e).url.hash = buildHash site.codec src.text (s.step site e).tabs.currentTab)
      ∨ writeTabToUrl s.url.hash (s.step site e).tabs.currentTab = some (s.step site e).url.hash
      ∨ e = .navigate (s.step site e).url.hash := by
  have hstep := addressed_step site s e
  have hnav : ∀ hash, Url.Op.navigate hash ∈ s.urlOps site e → e = .navigate hash :=
    fun hash hmem => navigate_mem_urlOps site hmem
  generalize s.urlOps site e = ops at hstep hnav ⊢
  generalize s.step site e = t at hstep ⊢
  have htab : ∀ u : Url, u = s.url.writeTab t.tabs.currentTab → u.hash = s.url.hash
      ∨ writeTabToUrl s.url.hash t.tabs.currentTab = some u.hash := by
    rintro u rfl
    rw [Url.writeTab]
    cases hwrite : writeTabToUrl s.url.hash t.tabs.currentTab with
    | none => exact Or.inl rfl
    | some h => exact Or.inr rfl
  cases hstep with
  | quiet hurl htab => exact Or.inl (congrArg Url.hash hurl)
  | save copy hurl htab =>
      rw [hurl]
      exact Or.inl rfl
  | tab hurl hparses =>
      rcases htab t.url hurl with hsame | hwrite
      · exact Or.inl hsame
      · exact Or.inr (Or.inr (Or.inl hwrite))
  | tabSave hurl hparses =>
      have hhash : t.url.hash = (s.url.writeTab t.tabs.currentTab).hash := by
        rw [hurl]
        rfl
      rcases htab _ rfl with hsame | hwrite
      · exact Or.inl (hhash.trans hsame)
      · exact Or.inr (Or.inr (Or.inl (hhash ▸ hwrite)))
  | encoded i hurl htab =>
      rcases exec_encoded site.codec s.url i t.tabs.currentTab with
        ⟨-, hsame⟩ | ⟨src, hwrote, hlink⟩
      · exact Or.inl (hurl ▸ hsame)
      · refine Or.inr (Or.inl ⟨src, ?_, hurl ▸ hlink⟩)
        exact (List.append_nil _).trans hwrote
  | navigate hash hurl =>
      have he := hnav hash List.mem_cons_self
      by_cases hsame : hash = s.url.hash
      · rw [hurl, Url.exec, if_pos hsame]
        exact Or.inl rfl
      · rw [hurl, Url.exec, if_neg hsame]
        exact Or.inr (Or.inr (Or.inr he))
  | deliver hqueue hurl =>
      rw [hurl]
      exact Or.inl rfl
  | deliverSave hqueue hurl =>
      rw [hurl]
      exact Or.inl rfl

/-- **The last save wins.**  Whatever overlaps: the sources written into the hash are those of the
saves, in the order of the calls, some left out; an event changes the hash only by writing such a
source with the selected tab, by a switch of the tab, which leaves all else in it alone, or because
the user navigates; and while nobody has navigated, when no save is under way the hash is the link
of the document at the last call, with the selected tab. -/
theorem saves_lastCallWins (storage : JsString → Option Doc) (hash : JsString) (mode : ActionMode)
    (auto : Bool) (events : List Event) :
    let start := App.boot site storage hash mode auto
    let s := start.after site events
    let ops := start.urlTrace site events
    (written site.codec start.url ops).Sublist (captured ops)
      ∧ (∀ e, let t := s.step site e
        t.url.hash = s.url.hash
          ∨ (∃ src, written site.codec s.url (s.urlOps site e) = [src]
            ∧ t.url.hash = buildHash site.codec src.text t.tabs.currentTab)
          ∨ writeTabToUrl s.url.hash t.tabs.currentTab = some t.url.hash
          ∨ e = .navigate t.url.hash)
      ∧ (∀ (h : JsString) (tab : Option JsString) (h' : JsString), writeTabToUrl h tab = some h' →
        hashHead h' = hashHead h
          ∧ (parseHash site.codec site.execMode (h'.drop 1)).map (fun p => (p.sourceFile, p.src))
            = (parseHash site.codec site.execMode (h.drop 1)).map fun p => (p.sourceFile, p.src))
      ∧ ((∀ h, Event.navigate h ∉ events) → s.url.saves = [] →
        ∀ src, (captured ops).getLast? = some src →
          s.url.hash = buildHash site.codec src.text s.tabs.currentTab) := by
  intro start s ops
  have hstart : Linked site.codec none start := linked_boot site storage hash mode auto
  refine ⟨?_, hash_step site s, fun h tab h' hwrite => ?_, fun hstay hidle src hsrc => ?_⟩
  · rw [written_eq, captured_eq]
    exact Latest.written_sublist _ hstart.numbered
  · exact writeTabToUrl_source site.codec site.execMode hwrite
  · have hlinked := linked_after site hstart events hstay
    have hnone : Latest.current s.url.latest = none := by
      rw [Latest.current, Url.latest, hidle]
      rfl
    exact hlinked.link hnone src hsrc

/-- Two saves that overlap: the first to end is the one called last. -/
theorem saves_lastCallWins_overlapping :
    let s := (App.boot smallSite (fun _ => none) [] .verify true).after smallSite
      [.copyLink, .edit (Doc.ofText (js "fn g() {}")) .input, .copyLink, .encoded 1, .encoded 0]
    s.url.hash = buildHash smallSite.codec (js "fn g() {}") s.tabs.currentTab := by
  exact (saves_lastCallWins smallSite (fun _ => none) [] .verify true
    [.copyLink, .edit (Doc.ofText (js "fn g() {}")) .input, .copyLink, .encoded 1,
      .encoded 0]).2.2.2 (by simp) rfl (Doc.ofText (js "fn g() {}")) rfl

end VerusExplorer
