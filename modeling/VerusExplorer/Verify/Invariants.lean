import VerusExplorer.Verify.Queries

/-!
# Invariants of the other crates

What the crates that a run asks hold is not seen by the run.  A property of it that every single
question keeps is kept by the handling of an op and by the op loop.

* `KeptByAir I` — AIR keeps `I`; `Kept I` — so do the generators.
* `upholds I` — the relation between the states before and after a program that keeps `I`.
* **`Kept.stepOp`**, `Kept.nextOp` — a round of the op loop keeps what every question keeps.
-/

namespace VerusExplorer

variable {σ F : Type}

/-- AIR keeps `I`. -/
structure KeptByAir (W : World σ F) (I : σ → Prop) : Prop where
  command : ∀ cmd s, I s → I (W.command cmd s).2.2
  checkValidAgain : ∀ early s, I s → I (W.checkValidAgain early s).2.2
  finishQuery : ∀ s, I s → I (W.finishQuery s).2
  openSection : ∀ marker label s, I s → I (W.openSection marker label s).2
  sectionClose : ∀ s, I s → I (W.sectionClose s).2

/-- AIR and the generators keep `I` while ops are fetched and handled. -/
structure Kept (W : World σ F) (I : σ → Prop) : Prop extends KeptByAir W I where
  opgenNext : ∀ s, I s → I (W.opgenNext s).2
  expandErrorsNext : ∀ s, I s → I (W.expandErrorsNext s).2
  functionOpgenNext : ∀ s, I s → I (W.functionOpgenNext s).2
  retryWithRecommends : ∀ op s, I s → I (W.retryWithRecommends op true s).2
  reportExpandErrorResult : ∀ res s, I s → I (W.reportExpandErrorResult res s)

/-- What the crates hold satisfies `I` afterwards if it did before. -/
def upholds (I : σ → Prop) : Traced.Rel (Session σ) Call := fun _ s t _ => I s.env → I t.env

variable {W : World σ F} {I : σ → Prop}

lemma composes_upholds : Traced.Composes (upholds I) where
  nil _ h := h
  append h₁ h₂ h := h₂ (h₁ h)
  stop h := h

/-! ## The checks of an op -/

namespace KeptByAir

variable (h : KeptByAir W I)

include h

lemma feed (cmd : Command) : Traced.Keeps (upholds I) (feed W cmd) :=
  fun s => h.command cmd s.env

lemma feedAll (cmds : List Command) : Traced.Keeps (upholds I) (feedAll W cmds) := by
  refine Traced.keeps_each composes_upholds cmds ?_
  intro cmd _
  exact Traced.keeps_bind composes_upholds (h.feed cmd) fun _ =>
    Traced.keeps_pure composes_upholds ()

lemma probe (c : Check) : ∀ (fuel : ℕ) (b : Budget) (first : Bool) (found : Found)
    (r : ValidityResult), Traced.Keeps (upholds I) (probe W c fuel b first found r)
  | 0, b, first, found, r => by
      intro s
      cases hr : r.canProbe with
      | false => rw [probe_last W c b first found hr]; exact id
      | true => rw [probe_zero W c b first found hr]; exact id
  | fuel + 1, b, first, found, r => by
      intro s hs
      cases hr : r.canProbe with
      | false => rw [probe_last W c b first found hr]; exact hs
      | true =>
          rw [probe_succ W c b first found hr]
          exact probe c fuel b.spend false _ _ _ (h.checkValidAgain _ s.env hs)

lemma runCommand (fuel : ℕ) (c : Check) (found : Found) (cmd : Command) :
    Traced.Keeps (upholds I) (runCommand W fuel c found cmd) := by
  refine Traced.keeps_bind composes_upholds (h.feed cmd) ?_
  intro r
  cases cmd with
  | checkValid query =>
      refine Traced.keeps_bind composes_upholds (h.probe c fuel {} true found r) ?_
      intro found
      exact Traced.keeps_bind composes_upholds (fun s => h.finishQuery s.env) fun _ =>
        Traced.keeps_pure composes_upholds found
  | _ => exact Traced.keeps_pure composes_upholds found

lemma dispatch (fuel : ℕ) (op : Op) : Traced.Keeps (upholds I) (dispatch W fuel op) := by
  rw [VerusExplorer.dispatch]
  split
  · exact Traced.keeps_bind composes_upholds (h.feedAll _) fun _ =>
      Traced.keeps_pure composes_upholds _
  · refine Traced.keeps_bind composes_upholds ?_ fun _ => Traced.keeps_pure composes_upholds _
    refine Traced.keeps_fold composes_upholds ?_ _ _
    intro found cmds
    exact Traced.keeps_fold composes_upholds (h.runCommand fuel _) _ _

/-! ## The sections -/

lemma closeWrapper : Traced.Keeps (upholds I) (closeWrapper W) := by
  refine Traced.keeps_bind composes_upholds (Traced.keeps_get composes_upholds) ?_
  intro s
  split_ifs
  · exact fun s => h.sectionClose s.env
  · exact Traced.keeps_pure composes_upholds ()

lemma rotateWrapper (krate : Option Str) : Traced.Keeps (upholds I) (rotateWrapper W krate) := by
  refine Traced.keeps_bind composes_upholds (Traced.keeps_get composes_upholds) ?_
  intro s
  split_ifs
  · refine Traced.keeps_bind composes_upholds h.closeWrapper ?_
    intro _
    refine Traced.keeps_bind composes_upholds ?_ fun _ => fun _ => id
    cases krate with
    | none => exact Traced.keeps_pure composes_upholds ()
    | some k => exact fun s => h.openSection '>' k s.env
  · exact Traced.keeps_pure composes_upholds ()

end KeptByAir

/-! ## A round of the loop -/

namespace Kept

variable (h : Kept W I)

include h

lemma nextOp : Traced.Keeps (upholds I) (nextOp W) := by
  refine Traced.keeps_bind composes_upholds (fun s => h.expandErrorsNext s.env) ?_
  intro r
  rcases r with _ | ⟨diag | op⟩
  · exact Traced.keeps_bind composes_upholds (fun s => h.functionOpgenNext s.env) fun op =>
      Traced.keeps_pure composes_upholds op
  · refine Traced.keeps_bind composes_upholds (fun s => h.functionOpgenNext s.env) ?_
    intro op
    exact Traced.keeps_bind composes_upholds (fun _ => id) fun _ =>
      Traced.keeps_pure composes_upholds op
  · exact Traced.keeps_bind composes_upholds (Traced.keeps_pure composes_upholds _) fun op =>
      Traced.keeps_pure composes_upholds op

lemma handleOpBody (fuel : ℕ) (op : Op) : Traced.Keeps (upholds I) (handleOpBody W fuel op) := by
  refine Traced.keeps_bind composes_upholds (h.dispatch fuel op) ?_
  intro r
  refine Traced.keeps_bind composes_upholds ?_ fun _ => ?_
  · rw [autoRecommends]
    split_ifs
    · exact Traced.keeps_bind composes_upholds (fun s => h.retryWithRecommends op s.env) fun _ =>
        Traced.keeps_ofExcept composes_upholds _
    · exact Traced.keeps_pure composes_upholds ()
  · rw [reportExpanded]
    split_ifs
    · exact fun s => h.reportExpandErrorResult _ s.env
    · exact Traced.keeps_pure composes_upholds ()

/-- **A round of the op loop keeps what every question keeps**, whatever the op. -/
lemma stepOp (fuel : ℕ) (op : Op) : Traced.Keeps (upholds I) (stepOp W fuel op) := by
  refine Traced.keeps_bind composes_upholds (h.rotateWrapper op.krate) fun _ => ?_
  intro s hs
  rw [inSection_run]
  exact h.sectionClose _ (h.handleOpBody fuel op _ (h.openSection _ _ s.env hs))

end Kept

end VerusExplorer
