import VerusExplorer.Lib.Machine

/-!
# Machines that come to rest

Some events of a machine happen by themselves as soon as they are possible: they are *due*.  The
machine comes to rest if each of them decreases a measure, since then it cannot go on for ever.

* `AtRest` — nothing is due.
* **`length_add_le`** — how many due events there can be one after another.
* **`exists_atRest`** — they can always be continued until nothing is due.
-/

namespace Machine

variable {σ ε : Type*} {step : σ → ε → σ} {due : σ → ε → Prop} {μ : σ → ℕ}

/-- No event happens by itself. -/
def AtRest (due : σ → ε → Prop) (s : σ) : Prop := ∀ e, ¬due s e

/-- Every due event uses up some of the measure. -/
theorem length_add_le (hdec : ∀ s e, due s e → μ (step s e) < μ s) :
    ∀ (es : List ε) {s : σ}, Along step due s es → es.length + μ (run step s es) ≤ μ s
  | [], s, _ => by
      rw [List.length_nil, Nat.zero_add]
      exact Nat.le_refl _
  | e :: es, s, h => by
      obtain ⟨he, hes⟩ := along_cons.mp h
      have hfirst : μ (step s e) < μ s := hdec s e he
      have hrest : es.length + μ (run step (step s e) es) ≤ μ (step s e) :=
        length_add_le hdec es hes
      rw [List.length_cons]
      show es.length + 1 + μ (run step (step s e) es) ≤ μ s
      omega

/-- From every state the machine comes to rest by itself. -/
theorem exists_atRest (hdec : ∀ s e, due s e → μ (step s e) < μ s) (s : σ) :
    ∃ es, Along step due s es ∧ AtRest due (run step s es) := by
  induction hn : μ s using Nat.strongRecOn generalizing s with
  | _ n ih =>
      by_cases hrest : AtRest due s
      · exact ⟨[], along_nil s, hrest⟩
      · obtain ⟨e, he⟩ : ∃ e, due s e := by simpa [AtRest] using hrest
        obtain ⟨es, hes, hend⟩ := ih (μ (step s e)) (hn ▸ hdec s e he) (step s e) rfl
        exact ⟨e :: es, along_cons.mpr ⟨he, hes⟩, hend⟩

/-- However it has begun to. -/
theorem exists_continuation (hdec : ∀ s e, due s e → μ (step s e) < μ s) {s : σ} {es : List ε}
    (h : Along step due s es) :
    ∃ fs, Along step due s (es ++ fs) ∧ AtRest due (run step s (es ++ fs)) := by
  obtain ⟨fs, hfs, hend⟩ := exists_atRest hdec (run step s es)
  refine ⟨fs, along_append.mpr ⟨h, hfs⟩, ?_⟩
  rw [run_append]
  exact hend

end Machine
