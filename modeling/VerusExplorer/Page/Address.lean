import VerusExplorer.Lib.Latest
import VerusExplorer.Page.App

/-!
# What an event can do to the address

The fragment of the address is written by saves, whose encodings end in any order, by switches of
the tab, and by the user (`public/app.js`).  Each handler makes a few of these accesses in order.

* `Url.Op`, `Url.exec` — the accesses; `App.urlOps` — those that an event makes.
* **`addressed_step`** — every event makes no other accesses, and the selected tab changes only
  where it is written or a hash is opened.  `url_after` is the same for runs.
* `Url.latest` — the saves are a writer in which the last call wins (`Latest`).
-/

namespace VerusExplorer

open Utf16

/-! ## Accesses -/

/-- An access to the address. -/
inductive Url.Op where
  | save (src : Doc) (copy : Bool)
  | encoded (i : ℕ) (currentTab : Option JsString)
  | tab (currentTab : Option JsString)
  | navigate (hash : JsString)
  | deliver

def Url.exec (codec : Codec) (u : Url) : Url.Op → Url
  | .save src copy => u.saveHashNow src copy
  | .encoded i currentTab =>
      match u.saves[i]? with
      | none => u
      | some save => Url.encoded { u with saves := u.saves.eraseIdx i } codec save currentTab
  | .tab currentTab => u.writeTab currentTab
  | .navigate hash =>
      if hash = u.hash then u else { u with hash := hash, hashchanges := u.hashchanges + 1 }
  | .deliver => { u with hashchanges := u.hashchanges - 1 }

/-- The source of a save. -/
def Url.Op.saved : Url.Op → List Doc
  | .save src _ => [src]
  | _ => []

/-- The source an access writes into the hash. -/
def Url.wrote (u : Url) : Url.Op → List Doc
  | .encoded i _ =>
      match u.saves[i]? with
      | some save => if save.myGen = u.hashSaveGen then [save.src] else []
      | none => []
  | _ => []

/-- The hash carries a source that has been decoded. -/
def opensSource : Option ParsedHash → Bool
  | some ⟨none, some _, _⟩ => true
  | _ => false

/-- The accesses an event makes, in order. -/
def App.urlOps (site : Site) (s : App) (e : Event) : List Url.Op :=
  let t := s.step site e
  match e with
  | .resume i _ _ =>
      if s.runs.suspended[i]?.any (·.myRun = s.runs.runId) then
        [.tab t.tabs.currentTab, .save t.editor.doc false]
      else []
  | .fetched i => if s.loads[i]?.isSome then [.save t.editor.doc false] else []
  | .clickReset =>
      if s.editor.resetHidden || s.editor.pristineSource.isNone then []
      else [.save t.editor.doc false]
  | .clickTab i =>
      if s.tabs.tabButtons[i]?.any fun b =>
          !b.disabled && (s.tabs.chosen s.runs.caches.sectionCache b.group).isSome then
        [.tab t.tabs.currentTab]
      else []
  | .clickSubtab i =>
      if s.tabs.subtabButtons[i]?.any fun b => !b.disabled then [.tab t.tabs.currentTab] else []
  | .copyLink => [.save t.editor.doc true]
  | .encoded i => [.encoded i t.tabs.currentTab]
  | .navigate hash => [.navigate hash]
  | .hashchange =>
      if s.url.hashchanges = 0 then []
      else if s.url.hash = s.url.lastWrittenHash then [.deliver]
      else if awaitsDecode (s.url.hash.drop 1) then [.deliver]
      else if opensSource (parseHash site.codec site.execMode (s.url.hash.drop 1)) then
        [.deliver, .save t.editor.doc false]
      else [.deliver]
  | .decoded i =>
      if s.parses[i]?.any fun hash => opensSource (parseHash site.codec site.execMode hash) then
        [.save t.editor.doc false]
      else []
  | _ => []

/-! ## Every event -/

/-- What an event leaves alone when no hash is being decoded. -/
def App.Settled (s t : App) : Prop :=
  s.parses = [] → t.parses = [] ∧ t.tabs.currentTab = s.tabs.currentTab

/-- The address and the selected tab after an event that makes the accesses of the list.  The tab of
a hash that is opened is selected without being written. -/
inductive App.Addressed (codec : Codec) (s t : App) : List Url.Op → Prop
  | quiet (hurl : t.url = s.url) (htab : s.Settled t) : Addressed codec s t []
  | save (copy : Bool) (hurl : t.url = s.url.saveHashNow t.editor.doc copy) (htab : s.Settled t) :
      Addressed codec s t [.save t.editor.doc copy]
  | tab (hurl : t.url = s.url.writeTab t.tabs.currentTab) (hparses : t.parses = s.parses) :
      Addressed codec s t [.tab t.tabs.currentTab]
  | tabSave (hurl : t.url = (s.url.writeTab t.tabs.currentTab).saveHashNow t.editor.doc false)
      (hparses : t.parses = s.parses) :
      Addressed codec s t [.tab t.tabs.currentTab, .save t.editor.doc false]
  | encoded (i : ℕ) (hurl : t.url = s.url.exec codec (.encoded i t.tabs.currentTab))
      (htab : s.Settled t) : Addressed codec s t [.encoded i t.tabs.currentTab]
  | navigate (hash : JsString) (hurl : t.url = s.url.exec codec (.navigate hash)) :
      Addressed codec s t [.navigate hash]
  | deliver (hqueue : s.url.hashchanges ≠ 0) (hurl : t.url = s.url.exec codec .deliver) :
      Addressed codec s t [.deliver]
  | deliverSave (hqueue : s.url.hashchanges ≠ 0)
      (hurl : t.url = (s.url.exec codec .deliver).saveHashNow t.editor.doc false) :
      Addressed codec s t [.deliver, .save t.editor.doc false]

section Ends

variable (codec : Codec) (s : App)

lemma runAction_url : s.runAction.url = s.url ∧ s.Settled s.runAction
    ∧ s.runAction.editor = s.editor := by
  rw [App.runAction, App.runWith]
  split_ifs
  · exact ⟨rfl, fun h => ⟨h, rfl⟩, rfl⟩
  · exact ⟨rfl, fun h => ⟨h, rfl⟩, rfl⟩

lemma loadSource_url (file : JsString) : (s.loadSource file).url = s.url
    ∧ s.Settled (s.loadSource file) := by
  rw [App.loadSource]
  split_ifs
  · exact ⟨rfl, fun h => ⟨h, rfl⟩⟩
  · exact ⟨rfl, fun h => ⟨h, rfl⟩⟩

lemma takeTab_url (parsed : Option ParsedHash) : (s.takeTab parsed).url = s.url := by
  rw [App.takeTab]
  split
  · rfl
  · rfl

/-- A handler that runs at its end and does not touch the address. -/
lemma addressed_runAction {s t : App} (hurl : t.url = s.url) (htab : s.Settled t) :
    s.Addressed codec t.runAction [] := by
  obtain ⟨hurl', htab', -⟩ := runAction_url t
  refine .quiet (hurl'.trans hurl) ?_
  intro h
  obtain ⟨hparses, hsame⟩ := htab' (htab h).1
  exact ⟨hparses, hsame.trans (htab h).2⟩

/-- The document that is saved is the one in the editor at the end of the handler. -/
lemma saveRun_url : (s.saveHashNow false).runAction.url
      = s.url.saveHashNow (s.saveHashNow false).runAction.editor.doc false
    ∧ s.Settled (s.saveHashNow false).runAction := by
  obtain ⟨hurl, htab, heditor⟩ := runAction_url (s.saveHashNow false)
  rw [hurl, heditor]
  exact ⟨rfl, htab⟩

/-- A handler that saves and runs at its end. -/
lemma addressed_saveRun {s t : App} (hurl : t.url = s.url) (htab : s.Settled t) :
    s.Addressed codec (t.saveHashNow false).runAction
      [.save (t.saveHashNow false).runAction.editor.doc false] := by
  obtain ⟨hurl', htab'⟩ := saveRun_url t
  refine .save false ?_ ?_
  · rw [← hurl]
    exact hurl'
  · intro h
    obtain ⟨hparses, hsame⟩ := htab' (htab h).1
    exact ⟨hparses, hsame.trans (htab h).2⟩

/-- What is opened at the end of the `hashchange` listener is saved; an example is only fetched. -/
lemma hashParsed_url (parsed : Option ParsedHash) :
    (s.hashParsed parsed).url
      = if opensSource parsed then s.url.saveHashNow (s.hashParsed parsed).editor.doc false
        else s.url := by
  have htab := takeTab_url s parsed
  rcases parsed with _ | ⟨_ | file, _ | src, tab⟩
  · exact (loadSource_url _ _).1.trans htab
  · exact (loadSource_url _ _).1.trans htab
  · have hopens : opensSource (some ⟨none, some src, tab⟩) = true := rfl
    rw [if_pos hopens, ← htab]
    exact (saveRun_url _).1
  · exact (loadSource_url _ _).1.trans htab
  · exact (loadSource_url _ _).1.trans htab

end Ends

section Handlers

variable (site : Site) (s : App)

lemma addressed_resume (i : ℕ) (calls : List Callback) (threw : Option JsString) :
    s.Addressed site.codec (s.resume site i calls threw)
      (s.urlOps site (.resume i calls threw)) := by
  cases hx : s.runs.suspended[i]? with
  | none =>
      have hops : s.urlOps site (.resume i calls threw) = [] := if_neg (by simp [hx])
      rw [hops, App.resume, hx]
      exact .quiet rfl fun h => ⟨h, rfl⟩
  | some x =>
      by_cases hlast : x.myRun = s.runs.runId
      · have hops : s.urlOps site (.resume i calls threw)
            = [.tab (s.resume site i calls threw).tabs.currentTab,
              .save (s.resume site i calls threw).editor.doc false] :=
          if_pos (by simpa [hx] using hlast)
        rw [hops, App.resume, hx]
        simp only [hlast, ne_eq, not_true_eq_false, if_false]
        exact .tabSave rfl rfl
      · have hops : s.urlOps site (.resume i calls threw) = [] :=
          if_neg (by simpa [hx] using hlast)
        rw [hops, App.resume, hx]
        simp only [ne_eq, hlast, not_false_eq_true, if_true]
        exact .quiet rfl fun h => ⟨h, rfl⟩

lemma addressed_fetched (i : ℕ) :
    s.Addressed site.codec (s.fetched site i) (s.urlOps site (.fetched i)) := by
  cases hx : s.loads[i]? with
  | none =>
      have hops : s.urlOps site (.fetched i) = [] := if_neg (by simp [hx])
      rw [hops, App.fetched, hx]
      exact .quiet rfl fun h => ⟨h, rfl⟩
  | some file =>
      have hops : s.urlOps site (.fetched i) = [.save (s.fetched site i).editor.doc false] :=
        if_pos (by simp [hx])
      rw [hops, App.fetched, hx]
      exact addressed_saveRun site.codec rfl fun h => ⟨h, rfl⟩

lemma addressed_clickReset :
    s.Addressed site.codec s.clickReset (s.urlOps site .clickReset) := by
  rw [App.clickReset]
  cases hhidden : s.editor.resetHidden with
  | true =>
      have hops : s.urlOps site .clickReset = [] := if_pos (by simp [hhidden])
      rw [hops]
      exact .quiet rfl fun h => ⟨h, rfl⟩
  | false =>
      have hloaded : s.editor.loadedSource.isSome = true := by
        cases h : s.editor.loadedSource with
        | none => exact absurd hhidden (by simp [Editor.resetHidden, h])
        | some file => rfl
      obtain ⟨file, hfile⟩ := Option.isSome_iff_exists.mp hloaded
      cases hpristine : s.editor.pristineSource with
      | none =>
          have hops : s.urlOps site .clickReset = [] := if_pos (by simp [hpristine])
          rw [hops]
          simp only [hfile]
          exact .quiet rfl fun h => ⟨h, rfl⟩
      | some pristine =>
          have hops : s.urlOps site .clickReset = [.save s.clickReset.editor.doc false] :=
            if_neg (by simp [hhidden, hpristine])
          rw [hops, App.clickReset]
          simp only [hhidden, hpristine, Bool.false_eq_true, if_false]
          simp only [hfile]
          exact addressed_saveRun site.codec rfl fun h => ⟨h, rfl⟩

lemma addressed_clickTab (i : ℕ) :
    s.Addressed site.codec (s.clickTab site i) (s.urlOps site (.clickTab i)) := by
  cases hb : s.tabs.tabButtons[i]? with
  | none =>
      have hops : s.urlOps site (.clickTab i) = [] := if_neg (by simp [hb])
      rw [hops, App.clickTab, hb]
      exact .quiet rfl fun h => ⟨h, rfl⟩
  | some b =>
      cases hdisabled : b.disabled with
      | true =>
          have hops : s.urlOps site (.clickTab i) = [] := if_neg (by simp [hb, hdisabled])
          rw [hops, App.clickTab, hb]
          simp only [hdisabled, if_true]
          exact .quiet rfl fun h => ⟨h, rfl⟩
      | false =>
          cases htab : s.tabs.chosen s.runs.caches.sectionCache b.group with
          | none =>
              have hops : s.urlOps site (.clickTab i) = [] := if_neg (by simp [hb, htab])
              rw [hops, App.clickTab, hb]
              simp only [hdisabled, htab, Bool.false_eq_true, if_false]
              exact .quiet rfl fun h => ⟨h, rfl⟩
          | some tab =>
              have hops : s.urlOps site (.clickTab i)
                  = [.tab (s.clickTab site i).tabs.currentTab] :=
                if_pos (by simp [hb, hdisabled, htab])
              rw [hops, App.clickTab, hb]
              simp only [hdisabled, htab, Bool.false_eq_true, if_false]
              exact .tab rfl rfl

lemma addressed_clickSubtab (i : ℕ) :
    s.Addressed site.codec (s.clickSubtab site i) (s.urlOps site (.clickSubtab i)) := by
  cases hb : s.tabs.subtabButtons[i]? with
  | none =>
      have hops : s.urlOps site (.clickSubtab i) = [] := if_neg (by simp [hb])
      rw [hops, App.clickSubtab, hb]
      exact .quiet rfl fun h => ⟨h, rfl⟩
  | some b =>
      cases hdisabled : b.disabled with
      | true =>
          have hops : s.urlOps site (.clickSubtab i) = [] := if_neg (by simp [hb, hdisabled])
          rw [hops, App.clickSubtab, hb]
          simp only [hdisabled, if_true]
          exact .quiet rfl fun h => ⟨h, rfl⟩
      | false =>
          have hops : s.urlOps site (.clickSubtab i)
              = [.tab (s.clickSubtab site i).tabs.currentTab] :=
            if_pos (by simp [hb, hdisabled])
          rw [hops, App.clickSubtab, hb]
          simp only [hdisabled, Bool.false_eq_true, if_false]
          exact .tab rfl rfl

lemma addressed_encoded (i : ℕ) :
    s.Addressed site.codec (s.encoded site i) (s.urlOps site (.encoded i)) := by
  have hsame : (s.encoded site i).tabs = s.tabs ∧ (s.encoded site i).parses = s.parses := by
    rw [App.encoded]
    split
    · exact ⟨rfl, rfl⟩
    · exact ⟨rfl, rfl⟩
  refine .encoded i ?_ fun h => ⟨hsame.2.trans h, congrArg Tabs.currentTab hsame.1⟩
  rw [hsame.1, Url.exec, App.encoded]
  cases s.url.saves[i]? with
  | none => rfl
  | some save => rfl

lemma addressed_hashchange :
    s.Addressed site.codec (s.hashchange site) (s.urlOps site .hashchange) := by
  rw [App.urlOps, App.step, App.hashchange]
  dsimp only
  by_cases hqueue : s.url.hashchanges = 0
  · rw [if_pos hqueue, if_pos hqueue]
    exact .quiet rfl fun h => ⟨h, rfl⟩
  rw [if_neg hqueue, if_neg hqueue]
  by_cases hown : s.url.hash = s.url.lastWrittenHash
  · rw [if_pos hown, if_pos hown]
    exact .deliver hqueue rfl
  rw [if_neg hown, if_neg hown]
  by_cases hwaits : App.awaitsDecode (s.url.hash.drop 1) = true
  · rw [if_pos hwaits, if_pos hwaits]
    exact .deliver hqueue rfl
  rw [if_neg hwaits, if_neg hwaits]
  have hurl := hashParsed_url { s with url := { s.url with hashchanges := s.url.hashchanges - 1 } }
    (parseHash site.codec site.execMode (s.url.hash.drop 1))
  split_ifs at hurl ⊢ with hopens
  · exact .deliverSave hqueue hurl
  · exact .deliver hqueue hurl

lemma addressed_decoded (i : ℕ) :
    s.Addressed site.codec (s.decoded site i) (s.urlOps site (.decoded i)) := by
  rw [App.decoded]
  cases hx : s.parses[i]? with
  | none =>
      have hops : s.urlOps site (.decoded i) = [] := if_neg (by simp [hx])
      rw [hops]
      exact .quiet rfl fun h => ⟨h, rfl⟩
  | some hash =>
      have hne : s.parses ≠ [] := by
        rintro hnil
        rw [hnil] at hx
        exact absurd hx (by simp)
      have hurl := hashParsed_url { s with parses := s.parses.eraseIdx i }
        (parseHash site.codec site.execMode hash)
      cases hopens : opensSource (parseHash site.codec site.execMode hash) with
      | true =>
          have hops : s.urlOps site (.decoded i) = [.save (s.decoded site i).editor.doc false] :=
            if_pos (by simpa [hx] using hopens)
          rw [if_pos hopens] at hurl
          rw [hops, App.decoded, hx]
          exact .save false hurl fun hnil => absurd hnil hne
      | false =>
          have hops : s.urlOps site (.decoded i) = [] := if_neg (by simp [hx, hopens])
          rw [if_neg (by simp [hopens])] at hurl
          rw [hops]
          exact .quiet hurl fun hnil => absurd hnil hne

/-- **Everything that can happen** to the address and to the selected tab. -/
theorem addressed_step (e : Event) :
    s.Addressed site.codec (s.step site e) (s.urlOps site e) := by
  cases e with
  | edit doc userEvent => exact .quiet rfl fun h => ⟨h, rfl⟩
  | toggleAuto =>
      show s.Addressed site.codec s.toggleAuto []
      rw [App.toggleAuto]
      split_ifs
      · exact addressed_runAction site.codec rfl fun h => ⟨h, rfl⟩
      · exact .quiet rfl fun h => ⟨h, rfl⟩
  | timer =>
      show s.Addressed site.codec s.fireTimer []
      rw [App.fireTimer]
      split_ifs
      · exact addressed_runAction site.codec rfl fun h => ⟨h, rfl⟩
      · exact .quiet rfl fun h => ⟨h, rfl⟩
  | clickRun =>
      show s.Addressed site.codec s.clickRun []
      rw [App.clickRun]
      split_ifs
      · exact .quiet rfl fun h => ⟨h, rfl⟩
      · exact addressed_runAction site.codec rfl fun h => ⟨h, rfl⟩
  | switchMode mode => exact .quiet rfl fun h => ⟨h, rfl⟩
  | wasmReady => exact .quiet rfl fun h => ⟨h, rfl⟩
  | start =>
      show s.Addressed site.codec s.start []
      rw [App.start]
      split_ifs
      · exact addressed_runAction site.codec rfl fun h => ⟨h, rfl⟩
      · exact .quiet rfl fun h => ⟨h, rfl⟩
  | resume i calls threw => exact addressed_resume site s i calls threw
  | selectSource file =>
      obtain ⟨hurl, htab⟩ := loadSource_url s file
      exact .quiet hurl htab
  | navSource forward =>
      show s.Addressed site.codec (s.navSource forward) []
      rw [App.navSource]
      split
      · obtain ⟨hurl, htab⟩ := loadSource_url s _
        exact .quiet hurl htab
      · exact .quiet rfl fun h => ⟨h, rfl⟩
  | fetched i => exact addressed_fetched site s i
  | fetchFailed i => exact .quiet rfl fun h => ⟨h, rfl⟩
  | clickReset => exact addressed_clickReset site s
  | clickTab i => exact addressed_clickTab site s i
  | clickSubtab i => exact addressed_clickSubtab site s i
  | copyLink => exact .save true rfl fun h => ⟨h, rfl⟩
  | encoded i => exact addressed_encoded site s i
  | navigate hash =>
      refine .navigate hash ?_
      show (s.navigate hash).url = _
      rw [App.navigate, Url.exec]
      split_ifs
      · rfl
      · rfl
  | hashchange => exact addressed_hashchange site s
  | decoded i => exact addressed_decoded site s i

end Handlers

/-! ## Runs -/

section Runs

variable (site : Site)

lemma App.Addressed.url {codec : Codec} {s t : App} {ops : List Url.Op}
    (h : s.Addressed codec t ops) : t.url = Machine.run (Url.exec codec) s.url ops := by
  cases h with
  | quiet hurl htab => exact hurl
  | save copy hurl htab => exact hurl
  | tab hurl hparses => exact hurl
  | tabSave hurl hparses => exact hurl
  | encoded i hurl htab => exact hurl
  | navigate hash hurl => exact hurl
  | deliver hqueue hurl => exact hurl
  | deliverSave hqueue hurl => exact hurl

/-- The accesses made in a run of the page. -/
def App.urlTrace (s : App) (events : List Event) : List Url.Op :=
  Machine.outputs (App.step site) (App.urlOps site) s events

lemma url_after (s : App) (events : List Event) :
    (s.after site events).url = Machine.run (Url.exec site.codec) s.url (s.urlTrace site events) :=
  Machine.run_simulates App.url (fun s e => (addressed_step site s e).url) events s

end Runs

/-! ## Saves -/

/-- The saves as a writer in which the last call wins. -/
def Url.latest (u : Url) : Latest.State Doc where
  gen := u.hashSaveGen
  pending := u.saves.map fun save => (save.myGen, save.src)

def Url.Op.latest : Url.Op → List (Latest.Op Doc)
  | .save src _ => [.call src]
  | .encoded i _ => [.finish i]
  | _ => []

/-- The sources of the saves, in order. -/
def captured (ops : List Url.Op) : List Doc := ops.flatMap Url.Op.saved

/-- The sources written into the hash, in order. -/
def written (codec : Codec) (u : Url) (ops : List Url.Op) : List Doc :=
  Machine.outputs (Url.exec codec) Url.wrote u ops

section Saves

variable (codec : Codec)

lemma latest_exec (u : Url) (o : Url.Op) :
    (u.exec codec o).latest = Machine.run Latest.step u.latest o.latest := by
  cases o with
  | save src copy =>
      show Latest.State.mk _ ((u.saves ++ [_]).map _) = Latest.State.mk _ _
      rw [List.map_append]
      rfl
  | encoded i currentTab =>
      show _ = Latest.State.mk _ ((u.saves.map _).eraseIdx i)
      rw [Url.exec, List.eraseIdx_map]
      cases hi : u.saves[i]? with
      | none =>
          rw [List.eraseIdx_of_length_le (List.getElem?_eq_none_iff.mp hi)]
          rfl
      | some save =>
          simp only [Url.encoded, Url.writeHash]
          split_ifs <;> rfl
  | tab currentTab =>
      show (u.writeTab currentTab).latest = u.latest
      rw [Url.writeTab]
      split
      · rfl
      · rfl
  | navigate hash =>
      rw [Url.exec]
      split_ifs
      · rfl
      · rfl
  | deliver => rfl

lemma wrote_eq (u : Url) (o : Url.Op) :
    u.wrote o = Latest.written u.latest o.latest := by
  cases o with
  | encoded i currentTab =>
      show _ = Latest.writes u.latest (.finish i) ++ []
      rw [List.append_nil, Url.wrote, Latest.writes, Url.latest, List.getElem?_map]
      cases u.saves[i]? with
      | none => rfl
      | some save => rfl
  | save src copy => rfl
  | tab currentTab => rfl
  | navigate hash => rfl
  | deliver => rfl

lemma outputs_latest (u : Url) (ops : List Url.Op) :
    Machine.outputs (Url.exec codec) (fun _ => Url.Op.latest) u ops
      = ops.flatMap Url.Op.latest := by
  induction ops generalizing u with
  | nil => rfl
  | cons o ops ih => rw [Machine.outputs, ih, List.flatMap_cons]

lemma latest_run (u : Url) (ops : List Url.Op) :
    (Machine.run (Url.exec codec) u ops).latest
      = Machine.run Latest.step u.latest (ops.flatMap Url.Op.latest) := by
  rw [← outputs_latest codec u ops]
  exact Machine.run_simulates Url.latest (latest_exec codec) ops u

lemma written_eq (u : Url) (ops : List Url.Op) :
    written codec u ops = Latest.written u.latest (ops.flatMap Url.Op.latest) := by
  rw [← outputs_latest codec u ops]
  exact Machine.outputs_simulates Url.latest (latest_exec codec) wrote_eq ops u

lemma captured_eq (ops : List Url.Op) :
    captured ops = Latest.calls (ops.flatMap Url.Op.latest) := by
  rw [captured, Latest.calls, List.flatMap_assoc]
  refine List.flatMap_congr ?_
  intro o _
  cases o <;> rfl

lemma numbered_run {u : Url} (h : Latest.Numbered u.latest) (ops : List Url.Op) :
    Latest.Numbered (Machine.run (Url.exec codec) u ops).latest := by
  rw [latest_run]
  exact h.run _

end Saves

end VerusExplorer
