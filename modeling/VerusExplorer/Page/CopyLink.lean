import VerusExplorer.Page.Saves

/-!
# What is copied

`copyLink` (`public/app.js`) saves the document, waits for its own save to end, and copies the
address it then finds.  Its save may leave the address alone in favour of one that is still under
way.

* `Site.linked` — the text that is found under a link; `linked_run` — between navigations it is that
  of the source written last.
* **`copyLink_links`** — exactly when a copied link leads to a document that the editor has held
  since the call.
-/

namespace VerusExplorer

open Utf16

/-! ## Links -/

/-- The text that is found under a link: the source it carries or what is shipped as the example it
names. -/
def Site.linked (site : Site) (hash : JsString) : Option JsString :=
  (parseHash site.codec site.execMode (hash.drop 1)).bind fun p =>
    match p.sourceFile, p.src with
    | some file, _ => some (site.shipped file).text
    | none, src => src

section Links

variable (site : Site)

/-- A tab that is written into a link does not change where it leads. -/
lemma linked_writeTabToUrl {hash result : JsString} {tab : Option JsString}
    (h : writeTabToUrl hash tab = some result) : site.linked result = site.linked hash := by
  have hlinked : ∀ s : JsString, site.linked s
      = ((parseHash site.codec site.execMode (s.drop 1)).map fun p => (p.sourceFile, p.src)).bind
          fun p => match p.1, p.2 with
            | some file, _ => some (site.shipped file).text
            | none, src => src := by
    intro s
    rw [Option.bind_map]
    rfl
  rw [hlinked, hlinked, (writeTabToUrl_source site.codec site.execMode h).2]

lemma linked_buildHash_tab (src : JsString) (tab : Option JsString) :
    site.linked (buildHash site.codec src tab) = site.linked (buildHash site.codec src none) :=
  linked_writeTabToUrl site (writeTabToUrl_buildHash site.codec src none tab)

/-- The link of a source that survives the compression leads to it. -/
lemma linked_buildHash {src : JsString}
    (hsrc : site.codec.gunzip (site.codec.gzip src) = some src) :
    site.linked (buildHash site.codec src none) = some src := by
  have hhead : parseHead site.codec
      ((((buildHash site.codec src none).drop 1).splitOn amp).headD [])
        = some ⟨none, some src, none⟩ := by
    rw [show (((buildHash site.codec src none).drop 1).splitOn amp).headD [] = _ from
      hashHead_buildHash site.codec src none]
    exact (parseHead_encodeSrc site.codec hsrc).1
  have hne : ((buildHash site.codec src none).drop 1).isEmpty = false := rfl
  rw [Site.linked, parseHash, hne]
  simp only [hhead]
  rfl

end Links

/-! ## The address between navigations -/

section Run

variable (site : Site)

/-- The address leads to the source written last; if none was, it leads where it did. -/
lemma linked_run (u : Url) (ops : List Url.Op) (hstay : ∀ hash, Url.Op.navigate hash ∉ ops) :
    site.linked (Machine.run (Url.exec site.codec) u ops).hash
      = match (written site.codec u ops).getLast? with
        | some src => site.linked (buildHash site.codec src.text none)
        | none => site.linked u.hash := by
  induction ops using List.reverseRecOn with
  | nil => rfl
  | append_singleton ops o ih =>
      have ih' := ih fun hash hmem => hstay hash (List.mem_append_left _ hmem)
      have hwritten : written site.codec u (ops ++ [o])
          = written site.codec u ops ++ (Machine.run (Url.exec site.codec) u ops).wrote o :=
        Machine.outputs_concat (Url.exec site.codec) Url.wrote u ops o
      rw [Machine.run_concat, hwritten]
      generalize Machine.run (Url.exec site.codec) u ops = v at ih' ⊢
      have hkeep : v.wrote o = [] → site.linked (v.exec site.codec o).hash = site.linked v.hash →
          site.linked (v.exec site.codec o).hash
            = match (written site.codec u ops ++ v.wrote o).getLast? with
              | some src => site.linked (buildHash site.codec src.text none)
              | none => site.linked u.hash := by
        intro hnone hsame
        rw [hnone, List.append_nil, hsame]
        exact ih'
      cases o with
      | encoded i tab =>
          rcases exec_encoded site.codec v i tab with ⟨hnone, hsame⟩ | ⟨src, hwrote, hlink⟩
          · exact hkeep hnone (congrArg site.linked hsame)
          · rw [hwrote, hlink, List.getLast?_concat]
            exact linked_buildHash_tab site src.text tab
      | tab tab =>
          refine hkeep rfl ?_
          rw [Url.exec, Url.writeTab]
          cases hwrite : writeTabToUrl v.hash tab with
          | none => rfl
          | some h => exact linked_writeTabToUrl site hwrite
      | navigate hash => exact absurd (List.mem_append_right _ List.mem_cons_self) (hstay hash)
      | save src copy => exact hkeep rfl rfl
      | deliver => exact hkeep rfl rfl

variable {u : Url} {i : ℕ} {save : Save} (hsave : u.saves[i]? = some save) (tab : Option JsString)

include hsave

/-- A copy takes the address as it is when its encoding ends. -/
lemma clipboard_encoded (hcopy : save.copy = true) :
    (u.exec site.codec (.encoded i tab)).clipboard
      = some (u.exec site.codec (.encoded i tab)).hash := by
  simp only [Url.exec, hsave, Url.encoded, hcopy, if_true]

/-- An encoding writes nothing exactly if its save is not the last one. -/
lemma wrote_encoded_eq_nil : u.wrote (.encoded i tab) = [] ↔ save.myGen ≠ u.hashSaveGen := by
  simp only [Url.wrote, hsave]
  split_ifs with hlast
  · simp [hlast]
  · simp [hlast]

end Run

/-! ## Sources and the editor -/

section Held

variable (site : Site)

/-- The editor has held the document, in the state `s` or after some of the events. -/
def Held (s : App) (events : List Event) (d : Doc) : Prop :=
  ∃ fs, fs <+: events ∧ (s.after site fs).editor.doc = d

/-- What a handler saves is in the editor at its end. -/
lemma mem_captured_urlOps {s : App} {e : Event} {src : Doc}
    (h : src ∈ captured (s.urlOps site e)) : src = (s.step site e).editor.doc := by
  have hstep := addressed_step site s e
  generalize s.urlOps site e = ops at hstep h
  cases hstep with
  | quiet hurl htab => exact absurd h List.not_mem_nil
  | tab hurl hparses => exact absurd h List.not_mem_nil
  | encoded i hurl htab => exact absurd h List.not_mem_nil
  | navigate hash hurl => exact absurd h List.not_mem_nil
  | deliver hqueue hurl => exact absurd h List.not_mem_nil
  | save copy hurl htab => exact List.mem_singleton.mp h
  | tabSave hurl hparses => exact List.mem_singleton.mp h
  | deliverSave hqueue hurl => exact List.mem_singleton.mp h

lemma held_of_captured {s : App} {events : List Event} {src : Doc}
    (h : src ∈ captured (s.urlTrace site events)) : Held site s events src := by
  obtain ⟨o, ho, hsrc⟩ := List.mem_flatMap.mp h
  obtain ⟨fs, e, hfs, hmem⟩ := Machine.mem_outputs ho
  refine ⟨fs ++ [e], hfs, ?_⟩
  have hrun : s.after site (fs ++ [e]) = (s.after site fs).step site e := Machine.run_concat s fs e
  rw [hrun]
  exact (mem_captured_urlOps site (List.mem_flatMap.mpr ⟨o, hmem, hsrc⟩)).symm

/-- The encoding of the last save ends at `e`. -/
def App.EndsLast (s : App) (e : Event) : Prop :=
  ∃ i save, e = .encoded i ∧ s.url.saves[i]? = some save ∧ save.myGen = s.url.hashSaveGen

/-- A source is written only where the encoding of the last save ends. -/
lemma written_urlOps {s : App} {e : Event} :
    written site.codec s.url (s.urlOps site e) ≠ [] ↔ s.EndsLast e := by
  constructor
  · intro hne
    cases e with
    | encoded i =>
        have hwrote : s.url.wrote (.encoded i (s.step site (.encoded i)).tabs.currentTab) ≠ [] := by
          intro hnone
          exact hne ((List.append_nil _).trans hnone)
        rw [Url.wrote] at hwrote
        cases hi : s.url.saves[i]? with
        | none =>
            rw [hi] at hwrote
            exact absurd rfl hwrote
        | some save =>
            refine ⟨i, save, rfl, hi, ?_⟩
            by_contra hgen
            rw [hi] at hwrote
            exact hwrote (if_neg hgen)
    | _ =>
        refine absurd ?_ hne
        simp only [App.urlOps]
        try split_ifs
        all_goals rfl
  · rintro ⟨i, save, rfl, hi, hgen⟩ hnone
    have hwrote : s.url.wrote (.encoded i (s.step site (.encoded i)).tabs.currentTab) = [] :=
      (List.append_nil _).symm.trans hnone
    rw [Url.wrote, hi] at hwrote
    exact absurd ((if_pos hgen).symm.trans hwrote) (by simp)

end Held

/-! ## Copied links -/

section Copy

variable (site : Site)

/-- The sources written in a run of the page, event by event. -/
lemma written_urlTrace_eq_nil {s : App} {events : List Event} :
    written site.codec s.url (s.urlTrace site events) = []
      ↔ ∀ fs e, fs ++ [e] <+: events → ¬(s.after site fs).EndsLast e := by
  have hpages : Machine.outputs (App.step site)
      (fun s e => written site.codec s.url (s.urlOps site e)) s events
        = written site.codec s.url (s.urlTrace site events) :=
    Machine.outputs_simulates App.url (fun s e => (addressed_step site s e).url)
      (fun _ _ => rfl) events s
  rw [← hpages, Machine.outputs_eq_nil]
  refine forall_congr' fun fs => forall_congr' fun e => imp_congr_right fun _ => ?_
  rw [← not_iff_not, not_not]
  exact written_urlOps site

lemma navigate_mem_urlTrace {s : App} {events : List Event} {hash : JsString}
    (h : Url.Op.navigate hash ∈ s.urlTrace site events) : Event.navigate hash ∈ events := by
  obtain ⟨fs, e, hfs, hmem⟩ := Machine.mem_outputs h
  have he := navigate_mem_urlOps site hmem
  exact hfs.subset (List.mem_append_right _ (he ▸ List.mem_cons_self))

lemma numbered_after (storage : JsString → Option Doc) (hash : JsString) (mode : ActionMode)
    (auto : Bool) (events : List Event) :
    Latest.Numbered ((App.boot site storage hash mode auto).after site events).url.latest := by
  rw [url_after]
  exact numbered_run site.codec (linked_boot site storage hash mode auto).numbered _

section Called

variable {s : App} {events : List Event} (hnumbered : Latest.Numbered s.url.latest)

include hnumbered

/-- What is written after a call has been in the editor since. -/
lemma held_of_written (ops : List Url.Op) {src : Doc}
    (hops : captured ops = captured ((s.step site .copyLink).urlTrace site events))
    (hsrc : src ∈ written site.codec (s.step site .copyLink).url ops) :
    Held site (s.step site .copyLink) events src := by
  let called := s.step site .copyLink
  have hcalled : called.url.latest = Latest.step s.url.latest (.call s.editor.doc) :=
    latest_exec site.codec s.url (.save s.editor.doc true)
  have hnumbered' : Latest.Numbered called.url.latest := by
    rw [hcalled]
    exact hnumbered.step _
  rw [written_eq] at hsrc
  have hmem := (Latest.written_sublist _ hnumbered').subset hsrc
  rw [← captured_eq, hops, hcalled, Latest.current_call hnumbered] at hmem
  rcases List.mem_cons.mp hmem with rfl | hmem
  · exact ⟨[], List.nil_prefix, rfl⟩
  · exact held_of_captured site hmem

end Called

/-- **Where a copied link leads.**  In a run of the page `copyLink` is called, other things happen,
none of them a navigation, and the encoding of its save ends.  The link that is then copied leads to
a document the editor has held since the call if and only if its save still is the last one, or a
save has been written since the call, or the address led to such a document before. -/
theorem copyLink_links (storage : JsString → Option Doc) (hash : JsString) (mode : ActionMode)
    (auto : Bool) (before events : List Event) (hstay : ∀ h, Event.navigate h ∉ events)
    (i : ℕ) (save : Save) :
    let s := (App.boot site storage hash mode auto).after site before
    let called := s.step site .copyLink
    let t := called.after site events
    (∀ d, Held site called events d → site.codec.gunzip (site.codec.gzip d.text) = some d.text) →
    t.url.saves[i]? = some save → save.copy = true → save.myGen = called.url.hashSaveGen →
      ∃ link, (t.step site (.encoded i)).url.clipboard = some link
        ∧ ((∃ d, site.linked link = some d.text ∧ Held site called events d)
          ↔ save.myGen = t.url.hashSaveGen
            ∨ (∃ fs e, fs ++ [e] <+: events ∧ (called.after site fs).EndsLast e)
            ∨ ∃ d, site.linked s.url.hash = some d.text ∧ Held site called events d) := by
  intro s called t hcodec hsave hcopy hgen
  have hnumbered : Latest.Numbered s.url.latest :=
    numbered_after site storage hash mode auto before
  let tab := (t.step site (.encoded i)).tabs.currentTab
  let ops := called.urlTrace site events ++ [.encoded i tab]
  have hstep : (t.step site (.encoded i)).url = t.url.exec site.codec (.encoded i tab) :=
    (addressed_step site t (.encoded i)).url
  have hurl : (t.step site (.encoded i)).url
      = Machine.run (Url.exec site.codec) called.url ops := by
    rw [hstep, Machine.run_concat, ← url_after]
  have hclip : (t.step site (.encoded i)).url.clipboard
      = some (t.step site (.encoded i)).url.hash := by
    rw [hstep]
    exact clipboard_encoded site hsave tab hcopy
  have hnav : ∀ h, Url.Op.navigate h ∉ ops := by
    intro h hmem
    rcases List.mem_append.mp hmem with hmem | hmem
    · exact hstay h (navigate_mem_urlTrace site hmem)
    · exact absurd (List.mem_singleton.mp hmem) (by simp)
  have hlinked := linked_run site called.url ops hnav
  rw [← hurl] at hlinked
  have hwritten : written site.codec called.url ops
      = written site.codec called.url (called.urlTrace site events)
        ++ t.url.wrote (.encoded i tab) := by
    rw [show t.url = _ from url_after site called events]
    exact Machine.outputs_concat (Url.exec site.codec) Url.wrote called.url _ (.encoded i tab)
  refine ⟨_, hclip, ?_⟩
  cases hlast : (written site.codec called.url ops).getLast? with
  | some src =>
      rw [hlast] at hlinked
      have hheld : Held site called events src := by
        refine held_of_written site hnumbered ops ?_ (List.mem_of_getLast? hlast)
        rw [captured_append]
        exact List.append_nil _
      refine iff_of_true ⟨src, hlinked.trans (linked_buildHash site (hcodec src hheld)), hheld⟩ ?_
      by_contra hnone
      have hearlier : written site.codec called.url (called.urlTrace site events) = [] :=
        (written_urlTrace_eq_nil site).mpr fun fs e hfs hends =>
          hnone (.inr (.inl ⟨fs, e, hfs, hends⟩))
      have hskipped : t.url.wrote (.encoded i tab) = [] :=
        (wrote_encoded_eq_nil hsave tab).mpr fun hgen' => hnone (.inl hgen')
      rw [hwritten, hearlier, hskipped] at hlast
      exact absurd hlast (by simp)
  | none =>
      rw [hlast] at hlinked
      have hnil : written site.codec called.url ops = [] := List.getLast?_eq_none_iff.mp hlast
      rw [hwritten, List.append_eq_nil_iff, wrote_encoded_eq_nil hsave,
        written_urlTrace_eq_nil] at hnil
      obtain ⟨hearlier, hgen'⟩ := hnil
      have hsame : site.linked (t.step site (.encoded i)).url.hash = site.linked s.url.hash :=
        hlinked
      constructor
      · rintro ⟨d, hleads, hheld⟩
        exact .inr (.inr ⟨d, hsame.symm.trans hleads, hheld⟩)
      · rintro (hlast' | ⟨fs, e, hfs, hends⟩ | ⟨d, hleads, hheld⟩)
        · exact absurd hlast' hgen'
        · exact absurd hends (hearlier fs e hfs)
        · exact ⟨d, hsame.trans hleads, hheld⟩

/-- A save that nothing overlaps. -/
theorem copyLink_links_alone :
    let s := (App.boot smallSite (fun _ => none) [] .verify true).after smallSite
      [.edit (Doc.ofText (js "fn g() {}")) .input]
    let called := s.step smallSite .copyLink
    ∃ link, (called.step smallSite (.encoded 0)).url.clipboard = some link
      ∧ ∃ d, smallSite.linked link = some d.text ∧ Held smallSite called [] d := by
  intro s called
  have hcodec : ∀ d, Held smallSite called [] d →
      smallSite.codec.gunzip (smallSite.codec.gzip d.text) = some d.text := by
    rintro d ⟨fs, hfs, rfl⟩
    obtain rfl := List.prefix_nil.mp hfs
    rfl
  obtain ⟨link, hclip, hiff⟩ := copyLink_links smallSite (fun _ => none) [] .verify true
    [.edit (Doc.ofText (js "fn g() {}")) .input] [] (by simp) 0
    ⟨1, Doc.ofText (js "fn g() {}"), true⟩ hcodec rfl rfl rfl
  exact ⟨link, hclip, hiff.mpr (Or.inl rfl)⟩

/-- A verification that ends while the link is being made: its save comes later and has not been
written when the address is copied, which still is the link of the document before. -/
theorem copyLink_links_stale :
    let s := (App.boot smallSite (fun _ => none) [] .verify true).after smallSite
      [.wasmReady, .start, .resume 0 [] none, .encoded 0,
        .edit (Doc.ofText (js "fn g() {}")) .input]
    let called := s.step smallSite .copyLink
    let events : List Event := [.timer, .resume 0 [] none]
    let t := called.after smallSite events
    t.url.saves[0]?.any (fun save => save.copy && save.myGen == called.url.hashSaveGen) = true
      ∧ ∃ link, (t.step smallSite (.encoded 0)).url.clipboard = some link
        ∧ smallSite.linked link = some (js "fn f() {}")
        ∧ ¬∃ d, smallSite.linked link = some d.text ∧ Held smallSite called events d := by
  intro s called events t
  have hlinked : smallSite.linked (buildHash smallSite.codec (js "fn f() {}") none)
      = some (js "fn f() {}") := linked_buildHash smallSite rfl
  refine ⟨rfl, buildHash smallSite.codec (js "fn f() {}") none, by decide +kernel, hlinked, ?_⟩
  rintro ⟨d, hd, fs, hfs, rfl⟩
  rw [hlinked] at hd
  have hfs' : fs = [] ∨ fs = [.timer] ∨ fs = events := by
    rcases List.prefix_cons_iff.mp hfs with rfl | ⟨fs', rfl, hfs'⟩
    · exact Or.inl rfl
    · rcases List.prefix_cons_iff.mp hfs' with rfl | ⟨fs'', rfl, hnil⟩
      · exact Or.inr (Or.inl rfl)
      · obtain rfl := List.prefix_nil.mp hnil
        exact Or.inr (Or.inr rfl)
  rcases hfs' with rfl | rfl | rfl
  · exact absurd hd (by decide)
  · exact absurd hd (by decide)
  · exact absurd hd (by decide)

end Copy

end VerusExplorer
