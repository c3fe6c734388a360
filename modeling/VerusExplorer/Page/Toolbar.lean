import VerusExplorer.Lib.Machine
import VerusExplorer.Lib.Urlencoded
import VerusExplorer.Page.Panel

/-!
# The settings in the query

Whether the page verifies or executes, and with `std` or without, is in the query of its address
(`public/app.js`).  The controls of the toolbar show it; a change of one asks the browser for the
page with another query, and until that has arrived the old page goes on.

* `Search` — the query; `stdMode`, `execMode` are read from it, `others` is the rest.
* `Toolbar` — the controls and the queries that have been asked for; `Toolbar.step`.
* `Choices` — the same for the two settings alone.  `toolbar_simulates` says that the toolbar does
  what they do.
* **`toolbar_settings`** — in every run the controls show the settings of the address unless another
  page has been asked for, and the rest of the query stays as it is.
-/

namespace VerusExplorer

open Urlencoded

/-- `location.search` without its question mark. -/
abbrev Search := List UInt8

namespace Search

def std : List Char := "std".toList

def mode : List Char := "mode".toList

def stdMode (search : Search) : Bool := get? std (parse search) == some "1".toList

def execMode (search : Search) : Bool := get? mode (parse search) == some "execute".toList

/-- The query after the box has been ticked or not. -/
def withNostd (checked : Bool) (search : Search) : Search :=
  serialize (if checked then erase std (parse search) else set std "1".toList (parse search))

/-- The query after a mode has been chosen. -/
def withMode (m : ActionMode) (search : Search) : Search :=
  serialize
    (if m = .execute then set mode "execute".toList (parse search) else erase mode (parse search))

/-- The parameters that are no settings. -/
def others (search : Search) : List Pair := erase std (erase mode (parse search))

end Search

/-- What there is a bundle for. -/
inductive LibsVariant where
  | nostd
  | std
  | exec
  deriving DecidableEq, Repr

/-- `LIBS_VARIANT`. -/
def libsVariant (search : Search) : LibsVariant :=
  if search.execMode then .exec else if search.stdMode then .std else .nostd

/-! ## The controls -/

structure Toolbar where
  search : Search
  nostdChecked : Bool
  nostdDisabled : Bool
  /-- The radio that is checked. -/
  actionMode : ActionMode
  /-- What `location.search` has been set to.  Which of them the browser gets to is up to it. -/
  asked : List Search
  deriving DecidableEq, Repr

inductive ToolbarEvent where
  | clickNostd
  | clickMode (m : ActionMode)
  /-- The page that was asked for comes. -/
  | arrive (i : ℕ)
  /-- The user goes to another query. -/
  | visit (search : Search)
  deriving DecidableEq, Repr

namespace Toolbar

/-- The controls of a page that has just been loaded. -/
def load (search : Search) : Toolbar where
  search := search
  nostdChecked := !search.execMode && !search.stdMode
  nostdDisabled := search.execMode
  actionMode := if search.execMode then .execute else .verify
  asked := []

def step (t : Toolbar) : ToolbarEvent → Toolbar
  | .clickNostd =>
      if t.nostdDisabled then t
      else
        { t with
          nostdChecked := !t.nostdChecked
          asked := t.asked ++ [t.search.withNostd !t.nostdChecked] }
  | .clickMode m =>
      -- a radio that is checked already makes no event
      if t.actionMode = m then t
      else { t with actionMode := m, asked := t.asked ++ [t.search.withMode m] }
  | .arrive i =>
      match t.asked[i]? with
      | some search => load search
      | none => t
  | .visit search => load search

end Toolbar

/-! ## The two settings -/

structure Settings where
  std : Bool
  exec : Bool
  deriving DecidableEq, Repr

def Search.settings (search : Search) : Settings := ⟨search.stdMode, search.execMode⟩

def Settings.variant (s : Settings) : LibsVariant :=
  if s.exec then .exec else if s.std then .std else .nostd

/-- A page that knows its settings and nothing of a query. -/
structure Choices where
  now : Settings
  noStd : Bool
  runs : ActionMode
  wanted : List Settings
  deriving DecidableEq, Repr

inductive Choice where
  | noStd
  | runs (m : ActionMode)
  | arrive (i : ℕ)
  | visit (s : Settings)

namespace Choices

def load (s : Settings) : Choices where
  now := s
  noStd := !s.exec && !s.std
  runs := if s.exec then .execute else .verify
  wanted := []

def step (c : Choices) : Choice → Choices
  | .noStd =>
      if c.now.exec then c
      else { c with noStd := !c.noStd, wanted := c.wanted ++ [{ c.now with std := c.noStd }] }
  | .runs m =>
      if c.runs = m then c
      else { c with runs := m, wanted := c.wanted ++ [{ c.now with exec := m = .execute }] }
  | .arrive i => (c.wanted[i]?).elim c load
  | .visit s => load s

/-- `s` has another value of at most one setting. -/
def Near (now s : Settings) : Prop :=
  (∃ b, s = { now with std := b }) ∨ ∃ b, s = { now with exec := b }

/-- The controls show the settings.  What is wanted first is not what there is, so that the browser
has a page to load. -/
structure Consistent (c : Choices) : Prop where
  shown : c.wanted = [] → c = load c.now
  first : ∀ s, c.wanted.head? = some s → s ≠ c.now
  near : ∀ s ∈ c.wanted, Near c.now s

lemma consistent_load (s : Settings) : Consistent (load s) :=
  ⟨fun _ => rfl, fun _ h => absurd h (by simp [load]), fun _ h => absurd h List.not_mem_nil⟩

/-- One more thing is wanted, which is not what there is if it is the first. -/
lemma Consistent.want {c : Choices} (h : Consistent c) {s : Settings} (hnear : Near c.now s)
    (hne : c.wanted = [] → s ≠ c.now) (noStd : Bool) (runs : ActionMode) :
    Consistent ⟨c.now, noStd, runs, c.wanted ++ [s]⟩ := by
  refine ⟨fun hnil => absurd hnil (by simp), fun s' hs' => ?_, fun s' hs' => ?_⟩
  · dsimp only at hs' ⊢
    rw [List.head?_append] at hs'
    cases hw : c.wanted with
    | nil =>
        rw [hw] at hs'
        obtain rfl : s = s' := by simpa using hs'
        exact hne hw
    | cons w ws =>
        rw [hw] at hs'
        exact h.first s' (by simpa [hw] using hs')
  · rcases List.mem_append.mp hs' with hs' | hs'
    · exact h.near s' hs'
    · rwa [List.mem_singleton.mp hs']

lemma consistent_step {c : Choices} (h : Consistent c) (e : Choice) : Consistent (c.step e) := by
  cases e with
  | noStd =>
      rw [step]
      split_ifs with hexec
      · exact h
      · refine h.want (.inl ⟨_, rfl⟩) (fun hnil heq => ?_) _ _
        have hbox : c.noStd = !c.now.std := by
          rw [h.shown hnil]
          simp [load, hexec]
        have hstd : c.noStd = c.now.std := congrArg Settings.std heq
        rw [hbox] at hstd
        cases hnow : c.now.std <;> simp [hnow] at hstd
  | runs m =>
      rw [step]
      split_ifs with hm
      · exact h
      · refine h.want (.inr ⟨_, rfl⟩) (fun hnil heq => hm ?_) _ _
        have hexec : decide (m = .execute) = c.now.exec := congrArg Settings.exec heq
        rw [h.shown hnil, load, ← hexec]
        cases m <;> rfl
  | arrive i =>
      rw [step]
      cases c.wanted[i]? with
      | none => exact h
      | some s => exact consistent_load s
  | visit s => exact consistent_load s

end Choices

/-! ## Settings of a query -/

section Query

open Search

variable (search : Search)

lemma std_ne_mode : Search.std ≠ Search.mode := by decide

lemma settings_withNostd (checked : Bool) :
    (search.withNostd checked).settings = { search.settings with std := !checked } := by
  rw [settings, settings, stdMode, execMode, withNostd, parse_serialize]
  cases checked with
  | true => simp [get?_erase_self, get?_erase_of_ne std_ne_mode.symm, execMode]
  | false => simp [get?_set_self, get?_set_of_ne std_ne_mode.symm, execMode]

lemma settings_withMode (m : ActionMode) :
    (search.withMode m).settings = { search.settings with exec := m = .execute } := by
  rw [settings, settings, stdMode, execMode, withMode, parse_serialize]
  cases m with
  | verify => simp [get?_erase_self, get?_erase_of_ne std_ne_mode, stdMode]
  | execute => simp [get?_set_self, get?_set_of_ne std_ne_mode, stdMode]

lemma others_withNostd (checked : Bool) : (search.withNostd checked).others = search.others := by
  rw [others, others, withNostd, parse_serialize, erase_comm]
  cases checked with
  | true => rw [if_pos rfl, erase_erase, erase_comm]
  | false => rw [if_neg (by decide), erase_set, erase_comm]

lemma others_withMode (m : ActionMode) : (search.withMode m).others = search.others := by
  rw [others, others, withMode, parse_serialize]
  split_ifs
  · rw [erase_set]
  · rw [erase_erase]

lemma libsVariant_eq : libsVariant search = search.settings.variant := rfl

end Query

/-! ## The toolbar does what the choices do -/

/-- What is left of an event when the queries are forgotten. -/
def ToolbarEvent.choice : ToolbarEvent → Choice
  | .clickNostd => .noStd
  | .clickMode m => .runs m
  | .arrive i => .arrive i
  | .visit search => .visit search.settings

namespace Toolbar

def choices (t : Toolbar) : Choices where
  now := t.search.settings
  noStd := t.nostdChecked
  runs := t.actionMode
  wanted := t.asked.map Search.settings

/-- The box is disabled where there is always `std`, and all that is asked for has the rest of the
query. -/
structure Kept (t : Toolbar) : Prop where
  disabled : t.nostdDisabled = t.search.execMode
  others : ∀ q ∈ t.asked, q.others = t.search.others

lemma kept_load (search : Search) : Kept (load search) :=
  ⟨rfl, fun _ h => absurd h List.not_mem_nil⟩

lemma Kept.ask {t : Toolbar} (h : Kept t) {q : Search} (hq : q.others = t.search.others)
    (checked : Bool) (m : ActionMode) :
    Kept ⟨t.search, checked, t.nostdDisabled, m, t.asked ++ [q]⟩ := by
  refine ⟨h.disabled, fun q' hq' => ?_⟩
  rcases List.mem_append.mp hq' with hq' | hq'
  · exact h.others q' hq'
  · rwa [List.mem_singleton.mp hq']

lemma kept_step {t : Toolbar} (h : Kept t) (e : ToolbarEvent) : Kept (t.step e) := by
  cases e with
  | clickNostd =>
      rw [step]
      split_ifs
      · exact h
      · exact h.ask (others_withNostd _ _) _ _
  | clickMode m =>
      rw [step]
      split_ifs
      · exact h
      · exact h.ask (others_withMode _ _) _ _
  | arrive i =>
      rw [step]
      cases t.asked[i]? with
      | none => exact h
      | some q => exact kept_load q
  | visit search => exact kept_load search

/-- An event does to the choices what it is for them. -/
lemma choices_step {t : Toolbar} (h : Kept t) (e : ToolbarEvent) :
    (t.step e).choices = t.choices.step e.choice := by
  cases e with
  | clickNostd =>
      have hexec : t.nostdDisabled = t.choices.now.exec := h.disabled
      rw [step, ToolbarEvent.choice, Choices.step, hexec]
      split_ifs
      · rfl
      · simp only [choices, List.map_append, List.map_singleton, settings_withNostd, Bool.not_not]
  | clickMode m =>
      have hmode : t.choices.runs = t.actionMode := rfl
      rw [step, ToolbarEvent.choice, Choices.step, hmode]
      split_ifs
      · rfl
      · simp only [choices, List.map_append, List.map_singleton, settings_withMode]
  | arrive i =>
      have hwanted : t.choices.wanted[i]? = t.asked[i]?.map Search.settings := List.getElem?_map ..
      rw [step, ToolbarEvent.choice, Choices.step, hwanted]
      cases t.asked[i]? with
      | none => rfl
      | some q => rfl
  | visit search => rfl

/-- What comes without a visit has the rest of the query. -/
lemma others_step {t : Toolbar} (h : Kept t) {e : ToolbarEvent} (he : ∀ q, e ≠ .visit q) :
    (t.step e).search.others = t.search.others := by
  cases e with
  | clickNostd =>
      rw [step]
      split_ifs <;> rfl
  | clickMode m =>
      rw [step]
      split_ifs <;> rfl
  | arrive i =>
      rw [step]
      cases hq : t.asked[i]? with
      | none => rfl
      | some q => exact h.others q (List.mem_of_getElem? hq)
  | visit q => exact absurd rfl (he q)

lemma toolbar_simulates :
    ∀ (es : List ToolbarEvent) {t : Toolbar}, Kept t →
      (Machine.run step t es).choices
        = Machine.run Choices.step t.choices (es.map ToolbarEvent.choice)
  | [], _, _ => rfl
  | e :: es, t, h => by
      have hrest := toolbar_simulates es (kept_step h e)
      rw [choices_step h e] at hrest
      exact hrest

/-- What has just been loaded is known from its choices. -/
lemma eq_load {t : Toolbar} (h : Kept t) (hload : t.choices = Choices.load t.search.settings)
    (hasked : t.asked = []) : t = load t.search := by
  have hbox : t.nostdChecked = (!t.search.execMode && !t.search.stdMode) :=
    congrArg Choices.noStd hload
  have hmode : t.actionMode = if t.search.execMode then .execute else .verify :=
    congrArg Choices.runs hload
  have hdisabled : t.nostdDisabled = t.search.execMode := h.disabled
  obtain ⟨search, checked, disabled, m, asked⟩ := t
  dsimp only at hasked hdisabled hbox hmode ⊢
  rw [load, hasked, hdisabled, hbox, hmode]

end Toolbar

/-- **The toolbar and the query agree.**  The page is opened with any query, and the user clicks on
the controls, goes to other queries and gets the pages that were asked for, in any order.  The two
settings go as if there were nothing else; the controls are as after a load when no page has been
asked for, and the first page asked for is another one; each of them differs in one setting; and
without a visit, all other parameters stay as they are and where they are. -/
theorem toolbar_settings (search : Search) (es : List ToolbarEvent) :
    (Machine.run Toolbar.step (.load search) es).choices
        = Machine.run Choices.step (.load search.settings) (es.map ToolbarEvent.choice)
      ∧ (∀ t, Machine.run Toolbar.step (.load search) es = t →
          (t.asked = [] → t = .load t.search)
          ∧ (∀ q, t.asked.head? = some q → q.settings ≠ t.search.settings)
          ∧ (∀ q ∈ t.asked, Choices.Near t.search.settings q.settings)
          ∧ ((∀ e ∈ es, ∀ q, e ≠ .visit q) →
              ∀ q ∈ t.search :: t.asked, q.others = search.others)) := by
  have hsim : (Machine.run Toolbar.step (.load search) es).choices
      = Machine.run Choices.step (.load search.settings) (es.map ToolbarEvent.choice) :=
    Toolbar.toolbar_simulates es (Toolbar.kept_load search)
  refine ⟨hsim, fun t ht => ?_⟩
  have hkept : t.Kept := by
    rw [← ht]
    exact Machine.run_invariant (P := Toolbar.Kept) (fun _ e h => Toolbar.kept_step h e) es
      (Toolbar.kept_load search)
  have hconsistent : t.choices.Consistent := by
    rw [← ht, hsim]
    exact Machine.run_invariant (P := Choices.Consistent)
      (fun _ e h => Choices.consistent_step h e) _ (Choices.consistent_load _)
  refine ⟨fun hasked => ?_, fun q hq => ?_, fun q hq => ?_, fun hstay q hq => ?_⟩
  · refine Toolbar.eq_load hkept (hconsistent.shown ?_) hasked
    exact List.map_eq_nil_iff.mpr hasked
  · refine hconsistent.first q.settings ?_
    rw [Toolbar.choices, List.head?_map, hq]
    rfl
  · exact hconsistent.near _ (List.mem_map_of_mem hq)
  · have hsearch : t.search.others = search.others := by
      rw [← ht]
      refine (Machine.run_invariant_of_mem
        (P := fun t : Toolbar => t.Kept ∧ t.search.others = search.others)
        (fun s e he hs => ?_) ⟨Toolbar.kept_load search, rfl⟩).2
      exact ⟨Toolbar.kept_step hs.1 e, (Toolbar.others_step hs.1 (hstay e he)).trans hs.2⟩
    rcases List.mem_cons.mp hq with rfl | hq
    · exact hsearch
    · exact (hkept.others q hq).trans hsearch

end VerusExplorer
