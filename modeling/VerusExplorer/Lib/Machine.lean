import Mathlib.Data.List.Basic
import Mathlib.Data.List.Induction
import Mathlib.Data.List.Perm.Basic
import Mathlib.Tactic.Lemma

/-!
# Event-driven machines

A machine handles one event at a time; an event that is not possible in a state leaves it alone.

* `run` handles events in order.
* `run_keeps` is the induction over a run whose later states are all known to satisfy something,
  `run_invariant` the one over any run, `run_invariant_of_mem` the one over a run of some events.
* `run_iff` is the exact form: a property holds all along a run if and only if a condition holds of
  every event where it happens.
* `Along` — a condition holds of every event of a run.  `safe_iff` is about conditions whose breach
  can turn out badly later: a run is safe at every moment exactly if there is no breach.
* `outputs` collects what the events of a run put out.  `outputs_perm` is about requests that are
  answered in any order, and `getLast?_outputs` about what was put out last.
* `run_simulates` says that a machine whose every event is some events of a second one makes the
  second one's run.
-/

namespace Machine

open scoped List

variable {σ ε : Type*} (step : σ → ε → σ)

/-- The state after some events. -/
def run (s : σ) (es : List ε) : σ := es.foldl step s

variable {step}

/-- What is kept by the steps into states that satisfy `Q` is kept by a run through such states. -/
theorem run_keeps {P Q : σ → Prop} (hstep : ∀ s e, Q (step s e) → P s → P (step s e)) :
    ∀ (es : List ε) {s : σ}, (∀ fs, fs ≠ [] → fs <+: es → Q (run step s fs)) → P s →
      P (run step s es)
  | [], _, _, h => h
  | e :: es, s, hQ, h => by
      have hfirst : Q (step s e) := hQ [e] (by simp) ⟨es, rfl⟩
      refine run_keeps hstep es (s := step s e) (fun fs hne hfs => ?_) (hstep s e hfirst h)
      exact hQ (e :: fs) (by simp) (List.cons_prefix_cons.mpr ⟨rfl, hfs⟩)

/-- What every event keeps holds after a run. -/
theorem run_invariant {P : σ → Prop} (hstep : ∀ s e, P s → P (step s e)) (es : List ε) {s : σ}
    (h : P s) : P (run step s es) :=
  run_keeps (Q := fun _ => True) (fun s e _ => hstep s e) es (fun _ _ _ => trivial) h

/-- What the events of a run keep holds after it. -/
lemma run_invariant_of_mem {P : σ → Prop} {es : List ε} {s : σ}
    (hstep : ∀ s, ∀ e ∈ es, P s → P (step s e)) (h : P s) : P (run step s es) := by
  induction es generalizing s with
  | nil => exact h
  | cons e es ih =>
      exact ih (fun s f hf => hstep s f (List.mem_cons_of_mem e hf))
        (hstep s e List.mem_cons_self h)

/-! ## Runs in two parts -/

lemma run_append (s : σ) (es fs : List ε) : run step s (es ++ fs) = run step (run step s es) fs :=
  List.foldl_append

lemma run_concat (s : σ) (es : List ε) (e : ε) :
    run step s (es ++ [e]) = step (run step s es) e := run_append s es [e]

/-- The runs of the beginnings of a list of events that is not empty. -/
lemma forall_prefix_cons {Q : List ε → Prop} (e : ε) (es : List ε) :
    (∀ fs, fs <+: e :: es → Q fs) ↔ Q [] ∧ ∀ fs, fs <+: es → Q (e :: fs) := by
  constructor
  · intro h
    exact ⟨h [] List.nil_prefix, fun fs hfs => h _ (List.cons_prefix_cons.mpr ⟨rfl, hfs⟩)⟩
  · rintro ⟨hnil, hcons⟩ fs hfs
    cases fs with
    | nil => exact hnil
    | cons f fs =>
        obtain ⟨rfl, htail⟩ := List.cons_prefix_cons.mp hfs
        exact hcons fs htail

/-- The events of a list, each with those before it. -/
lemma forall_event_cons {Q : List ε → ε → Prop} (e : ε) (es : List ε) :
    (∀ fs f, fs ++ [f] <+: e :: es → Q fs f)
      ↔ Q [] e ∧ ∀ fs f, fs ++ [f] <+: es → Q (e :: fs) f := by
  constructor
  · intro h
    refine ⟨h [] e (List.cons_prefix_cons.mpr ⟨rfl, List.nil_prefix⟩), fun fs f hfs => ?_⟩
    exact h (e :: fs) f (List.cons_prefix_cons.mpr ⟨rfl, hfs⟩)
  · rintro ⟨hfirst, hlater⟩ fs f hfs
    cases fs with
    | nil =>
        obtain ⟨rfl, -⟩ := List.cons_prefix_cons.mp hfs
        exact hfirst
    | cons g fs =>
        obtain ⟨rfl, htail⟩ := List.cons_prefix_cons.mp hfs
        exact hlater fs f htail

/-- Where an event keeps `P` exactly if `C` holds of it, `P` holds all along a run exactly if `C`
holds of each of its events.  `I` is what is known of all states. -/
theorem run_iff {I P : σ → Prop} {C : σ → ε → Prop} {es : List ε} {s : σ}
    (hI : ∀ s, ∀ e ∈ es, I s → I (step s e))
    (hP : ∀ s, ∀ e ∈ es, I s → P s → (P (step s e) ↔ C s e)) (hinv : I s) (hs : P s) :
    (∀ fs, fs <+: es → P (run step s fs))
      ↔ ∀ fs e, fs ++ [e] <+: es → C (run step s fs) e := by
  induction es generalizing s with
  | nil =>
      constructor
      · intro _ fs e hfs
        exact absurd (List.prefix_nil.mp hfs) (by simp)
      · intro _ fs hfs
        rw [List.prefix_nil.mp hfs]
        exact hs
  | cons e es ih =>
      have hfirst : P (step s e) ↔ C s e := hP s e List.mem_cons_self hinv hs
      have hnext : P (step s e) →
          ((∀ fs, fs <+: es → P (run step (step s e) fs))
            ↔ ∀ fs f, fs ++ [f] <+: es → C (run step (step s e) fs) f) :=
        ih (fun s f hf => hI s f (List.mem_cons_of_mem e hf))
          (fun s f hf => hP s f (List.mem_cons_of_mem e hf)) (hI s e List.mem_cons_self hinv)
      rw [forall_prefix_cons (Q := fun fs => P (run step s fs)),
        forall_event_cons (Q := fun fs f => C (run step s fs) f)]
      constructor
      · rintro ⟨-, hall⟩
        have hp : P (step s e) := hall [] List.nil_prefix
        exact ⟨hfirst.mp hp, (hnext hp).mp hall⟩
      · rintro ⟨hc, hall⟩
        have hp : P (step s e) := hfirst.mpr hc
        exact ⟨hs, (hnext hp).mpr hall⟩

/-! ## What holds of every event -/

section Along

/-- `C` holds of every event of a run, in the state where it happens. -/
def Along (step : σ → ε → σ) (C : σ → ε → Prop) (s : σ) (es : List ε) : Prop :=
  ∀ fs e, fs ++ [e] <+: es → C (run step s fs) e

variable {C P : σ → ε → Prop} {I : σ → Prop}

lemma along_nil (s : σ) : Along step C s [] := fun fs _ h => absurd (List.prefix_nil.mp h) (by simp)

lemma along_cons {s : σ} {e : ε} {es : List ε} :
    Along step C s (e :: es) ↔ C s e ∧ Along step C (step s e) es :=
  forall_event_cons (Q := fun fs f => C (run step s fs) f) e es

lemma along_append {s : σ} {es fs : List ε} :
    Along step C s (es ++ fs) ↔ Along step C s es ∧ Along step C (run step s es) fs := by
  induction es generalizing s with
  | nil => exact ⟨fun h => ⟨along_nil s, h⟩, fun h => h.2⟩
  | cons e es ih =>
      rw [List.cons_append, along_cons, along_cons, ih, and_assoc]
      rfl

lemma Along.of_prefix {s : σ} {es fs : List ε} (h : Along step C s es) (hfs : fs <+: es) :
    Along step C s fs := fun gs e hgs => h gs e (hgs.trans hfs)

/-- What the events that satisfy `C` keep holds after a run of such events. -/
lemma run_invariant_of_along (hstep : ∀ s e, I s → C s e → I (step s e)) {s : σ} {es : List ε}
    (hs : I s) (h : Along step C s es) : I (run step s es) := by
  induction es generalizing s with
  | nil => exact hs
  | cons e es ih =>
      obtain ⟨he, hes⟩ := along_cons.mp h
      exact ih (hstep s e hs he) hes

/-- Events that satisfy `C` keep an invariant that brings `P` about; after any other event, `P` can
fail although all further events satisfy `C`.  Then a run is safe, at every moment and whatever
comes next, if and only if all its events satisfy `C`. -/
theorem safe_iff (hstep : ∀ s e, I s → C s e → I (step s e)) (hP : ∀ s e, I s → P s e)
    (hbreak : ∀ s e, I s → ¬C s e →
      ∃ rest, Along step C (step s e) rest ∧ ¬Along step P (step s e) rest)
    {s : σ} (hs : I s) (es : List ε) :
    (∀ fs, fs <+: es → ∀ rest, Along step C (run step s fs) rest → Along step P s (fs ++ rest))
      ↔ Along step C s es := by
  constructor
  · intro h
    induction es using List.reverseRecOn with
    | nil => exact along_nil s
    | append_singleton es e ih =>
        have hes : Along step C s es :=
          ih fun fs hfs => h fs (hfs.trans (List.prefix_append es [e]))
        refine along_append.mpr ⟨hes, along_cons.mpr ⟨?_, along_nil _⟩⟩
        by_contra hnot
        have hI : I (run step s es) := run_invariant_of_along hstep hs hes
        have hconcat : run step s (es ++ [e]) = step (run step s es) e := run_concat s es e
        obtain ⟨rest, hrest, hfails⟩ := hbreak _ e hI hnot
        rw [← hconcat] at hrest hfails
        exact hfails (along_append.mp (h _ List.prefix_rfl rest hrest)).2
  · intro h fs hfs rest hrest gs e hgs
    have hall : Along step C s (fs ++ rest) := along_append.mpr ⟨h.of_prefix hfs, hrest⟩
    have hgs' : Along step C s gs := hall.of_prefix ((List.prefix_append gs [e]).trans hgs)
    exact hP _ e (run_invariant_of_along hstep hs hgs')

end Along

/-! ## Outputs -/

section Outputs

variable {τ α : Type*} (step) (out : σ → ε → List α)

/-- What the events of a run put out, in order. -/
def outputs : σ → List ε → List α
  | _, [] => []
  | s, e :: es => out s e ++ outputs (step s e) es

lemma outputs_append :
    ∀ (es fs : List ε) (s : σ),
      outputs step out s (es ++ fs) = outputs step out s es ++ outputs step out (run step s es) fs
  | [], _, _ => rfl
  | e :: es, fs, s => by
      rw [List.cons_append, outputs, outputs_append es fs, outputs, List.append_assoc]
      rfl

lemma outputs_concat (s : σ) (es : List ε) (e : ε) :
    outputs step out s (es ++ [e]) = outputs step out s es ++ out (run step s es) e := by
  rw [outputs_append]
  exact congrArg _ (List.append_nil _)

variable {step out}

/-- What is put out in a run is put out by one of its events. -/
lemma mem_outputs {a : α} :
    ∀ {es : List ε} {s : σ}, a ∈ outputs step out s es →
      ∃ fs e, fs ++ [e] <+: es ∧ a ∈ out (run step s fs) e
  | e :: es, s, h => by
      rcases List.mem_append.mp h with h | h
      · exact ⟨[], e, List.cons_prefix_cons.mpr ⟨rfl, List.nil_prefix⟩, h⟩
      · obtain ⟨fs, f, hfs, hmem⟩ := mem_outputs h
        exact ⟨e :: fs, f, List.cons_prefix_cons.mpr ⟨rfl, hfs⟩, hmem⟩

/-- Nothing is put out in a run none of whose events puts anything out. -/
lemma outputs_eq_nil :
    ∀ (es : List ε) {s : σ}, outputs step out s es = []
      ↔ ∀ fs e, fs ++ [e] <+: es → out (run step s fs) e = []
  | [], s => by
      refine iff_of_true rfl ?_
      intro fs e hfs
      exact absurd (List.prefix_nil.mp hfs) (by simp)
  | e :: es, s => by
      rw [forall_event_cons (Q := fun fs f => out (run step s fs) f = []), outputs,
        List.append_eq_nil_iff, outputs_eq_nil es]
      rfl

/-- What is put in and what is taken out, while the rest is pending.  In whatever order it is taken
out, what was put in is there again in the end. -/
theorem outputs_perm (pending : σ → List α) (put taken : σ → ε → List α) :
    ∀ (es : List ε) (s : σ),
      (∀ s, ∀ e ∈ es, (pending (step s e) ++ taken s e).Perm (pending s ++ put s e)) →
      (pending (run step s es) ++ outputs step taken s es).Perm
        (pending s ++ outputs step put s es)
  | [], _, _ => List.Perm.refl _
  | e :: es, s, h => by
      have hrest := outputs_perm pending put taken es (step s e) fun s f hf =>
        h s f (List.mem_cons_of_mem _ hf)
      have hfirst := h s e List.mem_cons_self
      calc pending (run step (step s e) es) ++ (taken s e ++ outputs step taken (step s e) es)
          _ ~ taken s e ++ (pending (run step (step s e) es) ++ outputs step taken (step s e) es) :=
            List.perm_append_comm_assoc _ _ _
          _ ~ taken s e ++ (pending (step s e) ++ outputs step put (step s e) es) :=
            hrest.append_left _
          _ ~ (pending (step s e) ++ taken s e) ++ outputs step put (step s e) es := by
            rw [← List.append_assoc]
            exact List.perm_append_comm.append_right _
          _ ~ (pending s ++ put s e) ++ outputs step put (step s e) es := hfirst.append_right _
          _ ~ pending s ++ (put s e ++ outputs step put (step s e) es) := by
            rw [List.append_assoc]

/-- What an event brings about with what it puts out last, and events that put out nothing keep,
holds of what a run put out last. -/
theorem getLast?_outputs {I : σ → Prop} {P : σ → α → Prop} {es : List ε} {s : σ} (hs : I s)
    (hI : ∀ s, ∀ e ∈ es, I s → I (step s e))
    (hput : ∀ s, ∀ e ∈ es, I s → ∀ a, (out s e).getLast? = some a → P (step s e) a)
    (hkeep : ∀ s, ∀ e ∈ es, I s → out s e = [] → ∀ a, P s a → P (step s e) a) :
    I (run step s es)
      ∧ ∀ a, (outputs step out s es).getLast? = some a → P (run step s es) a := by
  induction es using List.reverseRecOn with
  | nil => exact ⟨hs, fun a ha => absurd ha (by simp [outputs])⟩
  | append_singleton es e ih =>
      have hsub : ∀ f ∈ es, f ∈ es ++ [e] := fun f hf => List.mem_append_left _ hf
      have he : e ∈ es ++ [e] := List.mem_append_right _ List.mem_cons_self
      obtain ⟨hinv, hlast⟩ := ih (fun s f hf => hI s f (hsub f hf))
        (fun s f hf => hput s f (hsub f hf)) fun s f hf => hkeep s f (hsub f hf)
      rw [run_concat, outputs_concat]
      refine ⟨hI _ e he hinv, fun a ha => ?_⟩
      rcases hout : out (run step s es) e with _ | ⟨b, bs⟩
      · rw [hout, List.append_nil] at ha
        exact hkeep _ e he hinv hout a (hlast a ha)
      · refine hput _ e he hinv a ?_
        rw [List.getLast?_append_of_ne_nil _ (by simp [hout])] at ha
        exact ha

/-- A machine whose every event is some events of a second one makes that one's run. -/
theorem run_simulates {step' : τ → α → τ} (abs : σ → τ)
    (h : ∀ s e, abs (step s e) = run step' (abs s) (out s e)) :
    ∀ (es : List ε) (s : σ), abs (run step s es) = run step' (abs s) (outputs step out s es)
  | [], _ => rfl
  | e :: es, s => by
      rw [outputs, run_append, ← h]
      exact run_simulates abs h es (step s e)

/-- The same for what the two machines put out. -/
theorem outputs_simulates {β : Type*} {step' : τ → α → τ} {put : σ → ε → List β}
    {put' : τ → α → List β} (abs : σ → τ) (h : ∀ s e, abs (step s e) = run step' (abs s) (out s e))
    (hput : ∀ s e, put s e = outputs step' put' (abs s) (out s e)) :
    ∀ (es : List ε) (s : σ),
      outputs step put s es = outputs step' put' (abs s) (outputs step out s es)
  | [], _ => rfl
  | e :: es, s => by
      rw [outputs, outputs, outputs_append, ← h, ← hput]
      exact congrArg _ (outputs_simulates abs h hput es (step s e))

end Outputs

end Machine
