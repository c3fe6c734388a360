import VerusExplorer.Page.Address

/-!
# Navigations and the page's own writes

The user and the page both write the hash (`public/app.js`).  The browser reports a navigation by an
event that comes later, and the `hashchange` listener then compares the hash with the one the page
wrote last.

* `Url.Hears` — the listener would see a hash and go on to load it.
* `App.writesHash` — an event at which the page writes the hash.
* **`navigation_heard`** — a navigation is heard if and only if the page writes nothing before the
  event is delivered; if it does, nothing is heard until the next navigation.
-/

namespace VerusExplorer

open Utf16

/-! ## Hearing a hash -/

/-- An event is queued, and the listener will see `h` and not take it for the page's own. -/
def Url.Hears (u : Url) (h : JsString) : Prop :=
  u.hashchanges ≠ 0 ∧ u.hash = h ∧ h ≠ u.lastWrittenHash

/-- The `hashchange` listener from `parseHash` on. -/
def App.heed (site : Site) (s : App) (h : JsString) : App :=
  if awaitsDecode (h.drop 1) then { s with parses := s.parses ++ [h.drop 1] }
  else s.hashParsed (parseHash site.codec site.execMode (h.drop 1))

/-- An access that writes the hash: the last save ends, or a tab is written. -/
def Url.writes (u : Url) : Url.Op → Bool
  | .encoded i _ => u.saves[i]?.any fun save => save.myGen = u.hashSaveGen
  | .tab currentTab => (writeTabToUrl u.hash currentTab).isSome
  | _ => false

def App.writesHash (site : Site) (s : App) (e : Event) : Bool :=
  (s.urlOps site e).any s.url.writes

/-- Neither the user nor the listener. -/
def Event.calm : Event → Bool
  | .navigate _ => false
  | .hashchange => false
  | _ => true

/-- What is heard is loaded. -/
lemma hashchange_of_hears (site : Site) {s : App} {h : JsString} (hears : s.url.Hears h) :
    s.hashchange site
      = App.heed site { s with url := { s.url with hashchanges := s.url.hashchanges - 1 } } h := by
  obtain ⟨hqueue, rfl, hforeign⟩ := hears
  rw [App.hashchange, if_neg hqueue]
  exact if_neg hforeign

/-! ## Accesses -/

section Exec

variable (codec : Codec) (u : Url)

/-- What no access but a navigation and a delivery changes, unless it writes. -/
def Url.Same (u v : Url) : Prop :=
  v.hash = u.hash ∧ v.lastWrittenHash = u.lastWrittenHash ∧ v.hashchanges = u.hashchanges

lemma exec_encoded_writes (i : ℕ) (tab : Option JsString) :
    (u.writes (.encoded i tab) = true →
        (u.exec codec (.encoded i tab)).hash = (u.exec codec (.encoded i tab)).lastWrittenHash)
      ∧ (u.writes (.encoded i tab) = false → u.Same (u.exec codec (.encoded i tab))) := by
  rw [Url.writes, Url.exec]
  cases hi : u.saves[i]? with
  | none => exact ⟨fun hwrites => absurd hwrites (by simp), fun _ => ⟨rfl, rfl, rfl⟩⟩
  | some save =>
      by_cases hgen : save.myGen = u.hashSaveGen
      · refine ⟨fun _ => ?_, fun hnot => absurd hnot (by simp [hgen])⟩
        simp only [Url.encoded, hgen, ne_eq, not_true_eq_false, if_false]
        split_ifs
        · rfl
        · rfl
      · refine ⟨fun hwrites => absurd hwrites (by simp [hgen]), fun _ => ?_⟩
        simp only [Url.encoded, ne_eq, hgen, not_false_eq_true, if_true]
        split_ifs
        · exact ⟨rfl, rfl, rfl⟩
        · exact ⟨rfl, rfl, rfl⟩

lemma writeTab_writes (tab : Option JsString) :
    (u.writes (.tab tab) = true → (u.writeTab tab).hash = (u.writeTab tab).lastWrittenHash)
      ∧ (u.writes (.tab tab) = false → u.Same (u.writeTab tab)) := by
  rw [Url.writes, Url.writeTab]
  cases writeTabToUrl u.hash tab with
  | none => exact ⟨fun hwrites => absurd hwrites (by simp), fun _ => ⟨rfl, rfl, rfl⟩⟩
  | some h => exact ⟨fun _ => rfl, fun hnot => absurd hnot (by simp)⟩

end Exec

/-! ## Every event -/

section Steps

variable (site : Site) {s : App}

/-- An event that is neither a navigation nor a delivery makes the hash the page's own, or leaves
it. -/
lemma calm_step {e : Event} (hcalm : e.calm = true) :
    (s.writesHash site e = true →
        (s.step site e).url.hash = (s.step site e).url.lastWrittenHash)
      ∧ (s.writesHash site e = false → s.url.Same (s.step site e).url) := by
  have hstep := addressed_step site s e
  have hops : ∀ o ∈ s.urlOps site e, o ≠ .deliver ∧ ∀ h, o ≠ .navigate h := by
    cases e <;> simp only [Event.calm, Bool.false_eq_true] at hcalm
    all_goals
      simp only [App.urlOps]
      try split_ifs
      all_goals simp
  have hsilent : ∀ ops : List Url.Op, ops.any s.url.writes = false →
      (ops.any s.url.writes = true →
        (s.step site e).url.hash = (s.step site e).url.lastWrittenHash) :=
    fun ops hnone hwrites => absurd (hwrites.symm.trans hnone) (by simp)
  rw [App.writesHash]
  generalize s.urlOps site e = ops at hstep hops ⊢
  generalize s.step site e = t at hstep hsilent ⊢
  cases hstep with
  | quiet hurl htab =>
      refine ⟨hsilent _ rfl, fun _ => ?_⟩
      rw [hurl]
      exact ⟨rfl, rfl, rfl⟩
  | save copy hurl htab =>
      refine ⟨hsilent _ rfl, fun _ => ?_⟩
      rw [hurl]
      exact ⟨rfl, rfl, rfl⟩
  | tab hurl hparses =>
      rw [hurl, List.any_cons, List.any_nil, Bool.or_false]
      exact writeTab_writes s.url t.tabs.currentTab
  | tabSave hurl hparses =>
      have hsave : ∀ src, s.url.writes (.save src false) = false := fun _ => rfl
      rw [hurl, List.any_cons, List.any_cons, List.any_nil, hsave, Bool.or_false, Bool.or_false]
      exact writeTab_writes s.url t.tabs.currentTab
  | encoded i hurl htab =>
      rw [hurl, List.any_cons, List.any_nil, Bool.or_false]
      exact exec_encoded_writes site.codec s.url i t.tabs.currentTab
  | navigate hash hurl => exact absurd rfl ((hops _ List.mem_cons_self).2 hash)
  | deliver hqueue hurl => exact absurd rfl (hops _ List.mem_cons_self).1
  | deliverSave hqueue hurl => exact absurd rfl (hops _ List.mem_cons_self).1

/-- The page's own hash stays so until the user navigates. -/
lemma own_step (hown : s.url.hash = s.url.lastWrittenHash) {e : Event}
    (hstay : ∀ h, e ≠ .navigate h) :
    (s.step site e).url.hash = (s.step site e).url.lastWrittenHash := by
  by_cases hcalm : e.calm = true
  · obtain ⟨hwrites, hsame⟩ := calm_step site (s := s) hcalm
    cases hw : s.writesHash site e with
    | true => exact hwrites hw
    | false =>
        obtain ⟨hhash, hlast, -⟩ := hsame hw
        rw [hhash, hlast]
        exact hown
  · have he : e = .hashchange := by
      cases e <;> simp_all [Event.calm]
    subst he
    show (s.hashchange site).url.hash = (s.hashchange site).url.lastWrittenHash
    rw [App.hashchange]
    dsimp only
    rw [if_pos hown]
    split_ifs
    · exact hown
    · exact hown

end Steps

/-! ## Whole runs -/

variable (site : Site)

lemma own_after :
    ∀ (events : List Event) (s : App), s.url.hash = s.url.lastWrittenHash →
      (∀ h, Event.navigate h ∉ events) →
      (s.after site events).url.hash = (s.after site events).url.lastWrittenHash
  | [], _, hown, _ => hown
  | e :: events, s, hown, hstay => by
      have hnext := own_step site hown fun h he => hstay h (he ▸ List.mem_cons_self)
      exact own_after events (s.step site e) hnext fun h hmem =>
        hstay h (List.mem_cons_of_mem _ hmem)

/-- Before its event is delivered, a hash stays heard exactly as long as the page writes nothing. -/
lemma hears_after {h : JsString} :
    ∀ (events : List Event) (s : App), s.url.Hears h → (∀ e ∈ events, e.calm = true) →
      ((s.after site events).url.Hears h
          ↔ ∀ fs e, fs ++ [e] <+: events → (s.after site fs).writesHash site e = false)
        ∧ (¬(s.after site events).url.Hears h →
          (s.after site events).url.hash = (s.after site events).url.lastWrittenHash)
  | [], s, hears, _ => by
      refine ⟨iff_of_true hears ?_, fun hnot => absurd hears hnot⟩
      intro fs e hfs
      exact absurd (List.prefix_nil.mp hfs) (by simp)
  | e :: events, s, hears, hcalm => by
      obtain ⟨hwritten, hsame⟩ := calm_step site (s := s) (hcalm e List.mem_cons_self)
      have hrest : ∀ e ∈ events, e.calm = true := fun e he => hcalm e (List.mem_cons_of_mem _ he)
      have hrun : s.after site (e :: events) = (s.step site e).after site events := rfl
      rw [hrun, Machine.forall_event_cons
        (Q := fun fs f => (s.after site fs).writesHash site f = false)]
      cases hwrites : s.writesHash site e with
      | true =>
          have hown := own_after site events (s.step site e) (hwritten hwrites) fun g hmem =>
            absurd (hrest _ hmem) (by simp [Event.calm])
          refine ⟨iff_of_false ?_ ?_, fun _ => hown⟩
          · rintro ⟨-, hhash, hforeign⟩
            exact hforeign (hhash.symm.trans hown)
          · rintro ⟨hnone, -⟩
            exact absurd (hwrites.symm.trans hnone) (by simp)
      | false =>
          obtain ⟨hhash', hlast', hqueue'⟩ := hsame hwrites
          obtain ⟨hqueue, hhash, hforeign⟩ := hears
          have hnext : (s.step site e).url.Hears h :=
            ⟨hqueue' ▸ hqueue, hhash'.trans hhash, hlast' ▸ hforeign⟩
          obtain ⟨ih, ihown⟩ := hears_after events (s.step site e) hnext hrest
          exact ⟨ih.trans (and_iff_right hwrites).symm, ihown⟩

/-- **When a navigation is heard.**  The user goes to a hash that is neither the one the page is at
nor the one it wrote last; then other things happen, and the first event is delivered.  The listener
sees that hash and loads it if and only if the page has written none in between; if it has, nothing
is heard before the user navigates again. -/
theorem navigation_heard (s : App) (h : JsString) (hnew : h ≠ s.url.hash)
    (hforeign : h ≠ s.url.lastWrittenHash) (events : List Event)
    (hcalm : ∀ e ∈ events, e.calm = true) :
    let s := s.step site (.navigate h)
    let t := s.after site events
    (t.url.Hears h ↔ ∀ fs e, fs ++ [e] <+: events → (s.after site fs).writesHash site e = false)
      ∧ (t.url.Hears h → t.step site .hashchange
        = App.heed site { t with url := { t.url with hashchanges := t.url.hashchanges - 1 } } h)
      ∧ (¬t.url.Hears h → ∀ more, (∀ g, Event.navigate g ∉ more) →
        ∀ g, ¬(t.after site more).url.Hears g) := by
  intro s' t
  have hears : s'.url.Hears h := by
    show (s.navigate h).url.Hears h
    rw [App.navigate, if_neg hnew]
    exact ⟨Nat.succ_ne_zero _, rfl, hforeign⟩
  obtain ⟨hiff, hown⟩ := hears_after site events s' hears hcalm
  refine ⟨hiff, fun heard => hashchange_of_hears site heard, fun hnot more hstay g => ?_⟩
  have hlater := own_after site more t (hown hnot) hstay
  rintro ⟨-, hhash, hother⟩
  exact hother (hhash.symm.trans hlater)

/-- A link to an example, gone to while the user edits. -/
theorem navigation_heard_edited :
    let s := App.boot smallSite (fun _ => none) [] .verify true
    let t := (s.step smallSite (.navigate (js "#source=loop.rs"))).after smallSite
      [.edit (Doc.ofText (js "fn g() {}")) .input]
    t.url.Hears (js "#source=loop.rs") := by
  refine (navigation_heard smallSite (App.boot smallSite (fun _ => none) [] .verify true)
    (js "#source=loop.rs") (by decide) (by decide) [.edit (Doc.ofText (js "fn g() {}")) .input]
    (by simp [Event.calm])).1.mpr ?_
  refine (Machine.forall_event_cons _ _).mpr ⟨rfl, fun fs e hfs => ?_⟩
  exact absurd (List.prefix_nil.mp hfs) (by simp)

/-- The same link, gone to while a save is under way: the save ends first and takes its place, and
no example is loaded. -/
theorem navigation_heard_lost :
    let s := (App.boot smallSite (fun _ => none) [] .verify true).after smallSite [.copyLink]
    let t := (s.step smallSite (.navigate (js "#source=loop.rs"))).after smallSite [.encoded 0]
    js "#source=loop.rs" ≠ s.url.hash ∧ js "#source=loop.rs" ≠ s.url.lastWrittenHash
      ∧ t.url.hashchanges = 1 ∧ t.url.hash ≠ js "#source=loop.rs"
      ∧ (t.step smallSite .hashchange).url.hashchanges = 0
      ∧ (t.step smallSite .hashchange).loads = [] ∧ (t.step smallSite .hashchange).parses = [] := by
  refine ⟨by decide, by decide, rfl, by decide, rfl, rfl, rfl⟩

end VerusExplorer
