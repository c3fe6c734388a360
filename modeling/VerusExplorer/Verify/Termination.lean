import VerusExplorer.Verify.Schedule

/-!
# The op loop ends

Failing queries put retries into the queue that `run_queries` (`verus.rs`) is draining, but a retry
is not retried.  So the loop ends, whatever the solver answers, unless a check does not.

* `cutShort_functionLoop` — with more fuel a loop that has not run out of it does the same.
* `Ends` — how many ops a stretch of a run handles, and that it does not run out of rounds.
* `Serves` — a stretch handles what the generators hand out, each op as often as they do.
* **`runQueries_handles`** — the two, and the retries, for a run.
-/

namespace VerusExplorer

open Segments

/-! ## More fuel -/

section Cut

variable {σ F : Type} (W : World σ F)

lemma cutShort_probe (c : Check) : ∀ {n m : ℕ}, n ≤ m → ∀ (b : Budget) (first : Bool)
    (found : Found) (r : ValidityResult), Traced.CutShort .outOfFuel
      (probe W c n b first found r) (probe W c m b first found r)
  | 0, m, _, b, first, found, r => by
      intro s
      cases hr : r.canProbe with
      | false =>
          right
          rw [probe_last W c b first found hr, probe_last W c b first found hr]
      | true =>
          left
          rw [probe_zero W c b first found hr]
  | n + 1, 0, hle, _, _, _, _ => absurd hle (Nat.not_succ_le_zero n)
  | n + 1, m + 1, hle, b, first, found, r => by
      intro s
      cases hr : r.canProbe with
      | false =>
          right
          rw [probe_last W c b first found hr, probe_last W c b first found hr]
      | true =>
          rw [probe_succ W c b first found hr, probe_succ W c b first found hr]
          refine (cutShort_probe c (Nat.le_of_succ_le_succ hle) _ _ _ _ _).imp id fun hsame => ?_
          rw [hsame]

variable {n m : ℕ} (hle : n ≤ m)

include hle

lemma cutShort_runCommand (c : Check) (found : Found) (cmd : Command) :
    Traced.CutShort .outOfFuel (runCommand W n c found cmd) (runCommand W m c found cmd) := by
  refine (Traced.CutShort.refl (feed W cmd)).bind fun r => ?_
  cases cmd with
  | checkValid query => exact (cutShort_probe W c hle _ _ _ r).bind fun _ => .refl _
  | _ => exact .refl _

lemma cutShort_handleOpBody (op : Op) :
    Traced.CutShort .outOfFuel (handleOpBody W n op) (handleOpBody W m op) := by
  refine Traced.CutShort.bind ?_ fun _ => .refl _
  rw [dispatch, dispatch]
  split
  · exact .refl _
  · refine Traced.CutShort.bind (.fold ?_ _ _) fun _ => .refl _
    intro found cmds
    exact .fold (cutShort_runCommand W hle _) _ _

lemma cutShort_stepOp (op : Op) : Traced.CutShort .outOfFuel (stepOp W n op) (stepOp W m op) := by
  refine (Traced.CutShort.refl (rotateWrapper W op.krate)).bind fun _ => ?_
  intro s
  rw [inSection_run, inSection_run]
  refine (cutShort_handleOpBody W hle op _).imp id fun hsame => ?_
  simp only [hsame]

lemma cutShort_functionLoop : ∀ {k l : ℕ}, k ≤ l →
    Traced.CutShort .outOfFuel (functionLoop W n k) (functionLoop W m l)
  | 0, _, _ => Traced.cutShort_stop _
  | k + 1, 0, hkl => absurd hkl (Nat.not_succ_le_zero k)
  | k + 1, l + 1, hkl => by
      rw [functionLoop, functionLoop]
      refine (Traced.CutShort.refl (nextOp W)).bind fun op => ?_
      cases op with
      | none => exact .refl _
      | some op =>
          exact (cutShort_stepOp W hle op).bind fun _ =>
            cutShort_functionLoop (Nat.le_of_succ_le_succ hkl)

end Cut

/-- What holds of each way a family of programs can return holds of all of them, if they all return
alike. -/
lemma exists_of_returns {σ ι : Type} {x : ι → Prog σ Unit} {s : Session σ}
    (halike : ∀ i j, (x i s).result = .ok () → (x j s).result = .ok () → x i s = x j s)
    {P : ℕ → Session σ → Prop} (h : ∀ i, (x i s).result = .ok () → ∃ N, P N (x i s).state) :
    ∃ N, ∀ i, (x i s).result = .ok () → P N (x i s).state := by
  by_cases hreturns : ∃ i, (x i s).result = .ok ()
  · obtain ⟨i, hi⟩ := hreturns
    obtain ⟨N, hN⟩ := h i hi
    exact ⟨N, fun j hj => halike i j hi hj ▸ hN⟩
  · exact ⟨0, fun i hi => absurd ⟨i, hi⟩ hreturns⟩

section Alike

variable {σ F : Type} {W : World σ F} {s : Session σ}

lemma stepOp_alike {op : Op} (p q : ℕ) (hp : (stepOp W p op s).result = .ok ())
    (hq : (stepOp W q op s).result = .ok ()) : stepOp W p op s = stepOp W q op s :=
  (cutShort_stepOp W (Nat.le_max_left p q) op).eq_of_not_cut
    (cutShort_stepOp W (Nat.le_max_right p q) op) (by simp [hp]) (by simp [hq])

lemma functionLoop_alike (p q : ℕ × ℕ) (hp : (functionLoop W p.1 p.2 s).result = .ok ())
    (hq : (functionLoop W q.1 q.2 s).result = .ok ()) :
    functionLoop W p.1 p.2 s = functionLoop W q.1 q.2 s :=
  (cutShort_functionLoop W (Nat.le_max_left p.1 q.1) (Nat.le_max_left p.2 q.2)).eq_of_not_cut
    (cutShort_functionLoop W (Nat.le_max_right p.1 q.1) (Nat.le_max_right p.2 q.2))
    (by simp [hp]) (by simp [hq])

end Alike

/-! ## How many ops are handled -/

/-- At most `N` ops are handled, and if the loops have enough rounds, only a check runs out of
them. -/
structure Ends {σ : Type} (N : ℕ) (enough : Prop) (ran : Ran (Session σ) Call Stop Unit) :
    Prop where
  handled : (handled ran.calls).length ≤ N
  unfinished : enough → ran.result = .error .outOfFuel → ¬AllFinished ran.calls

section Ends

variable {σ : Type} {N N' : ℕ} {enough enough' : Prop}

lemma Ends.mono {ran : Ran (Session σ) Call Stop Unit} (h : Ends N enough ran) (hN : N ≤ N')
    (he : enough' → enough) : Ends N' enough' ran :=
  ⟨Nat.le_trans h.handled hN, fun henough => h.unfinished (he henough)⟩

/-- Calls before that handle no op. -/
lemma Ends.after {ran : Ran (Session σ) Call Stop Unit} (h : Ends N enough ran) {calls : List Call}
    (hcalls : VerusExplorer.handled calls = []) :
    Ends N enough ⟨ran.result, ran.state, calls ++ ran.calls⟩ := by
  refine ⟨?_, fun henough hout hall => h.unfinished henough hout (Closed.of_append_right hall)⟩
  rw [handled_append, hcalls, List.nil_append]
  exact h.handled

lemma Ends.bind {x : Prog σ Unit} {f : Unit → Prog σ Unit} {s : Session σ}
    (hx : Ends N enough (x s))
    (hf : (x s).result = .ok () → Ends N' enough (f () (x s).state)) :
    Ends (N + N') enough ((x >>= f) s) := by
  cases hr : (x s).result with
  | error e =>
      rw [Traced.bind_error hr]
      exact ⟨Nat.le_trans hx.handled (Nat.le_add_right N N'), hr ▸ hx.unfinished⟩
  | ok u =>
      rw [Traced.bind_ok hr]
      refine ⟨?_, fun henough hout hall => ?_⟩
      · rw [handled_append, List.length_append]
        exact Nat.add_le_add hx.handled (hf hr).handled
      · exact (hf hr).unfinished henough hout (Closed.of_append_right hall)

/-- No round is not enough. -/
lemma ends_outOfRounds (s : Session σ) : Ends N (N < 0) ⟨.error .outOfFuel, s, []⟩ :=
  ⟨Nat.zero_le N, fun henough => absurd henough (Nat.not_lt_zero N)⟩

end Ends

section Outer

variable {σ F : Type} (W : World σ F)

/-- A round of the outer loop. -/
lemma opLoop_more {s : Session σ} (hmore : (W.opgenNext s.env).1 = .ok true) (probeFuel n m : ℕ) :
    opLoop W probeFuel n (m + 1) s
      = (functionLoop W probeFuel n >>= fun _ => opLoop W probeFuel n m)
        { s with env := (W.opgenNext s.env).2 } := by
  have hasked : (askVir W.opgenNext fun _ => [] : Prog σ _) s
      = ⟨.ok (W.opgenNext s.env).1, { s with env := (W.opgenNext s.env).2 }, []⟩ := rfl
  rw [opLoop, Traced.bind_ok (by rw [hasked]), hasked, hmore]
  rfl

/-- The last round. -/
lemma opLoop_last {s : Session σ} (hlast : (W.opgenNext s.env).1 ≠ .ok true)
    (probeFuel n m : ℕ) :
    opLoop W probeFuel n (m + 1) s
      = ⟨((W.opgenNext s.env).1.mapError Stop.err).map fun _ => (),
        { s with env := (W.opgenNext s.env).2 }, []⟩ := by
  have hasked : (askVir W.opgenNext fun _ => [] : Prog σ _) s
      = ⟨.ok (W.opgenNext s.env).1, { s with env := (W.opgenNext s.env).2 }, []⟩ := rfl
  rw [opLoop, Traced.bind_ok (by rw [hasked]), hasked]
  rcases hnext : (W.opgenNext s.env).1 with e | more
  · rfl
  · cases more with
    | true => exact absurd hnext hlast
    | false => rfl

end Outer

section Loops

variable {σ F : Type} {W : World σ F} (G : Schedule W)

include G

/-- One round of the inner loop. -/
lemma functionLoop_run (s : Session σ) :
    ∃ op t calls, Fetched (G.view s.env) (G.view t.env) op ∧ handled calls = []
      ∧ ∀ probeFuel n, functionLoop W probeFuel (n + 1) s
        = match op with
          | none => ⟨.ok (), t, calls⟩
          | some op =>
              let rest := (stepOp W probeFuel op >>= fun _ => functionLoop W probeFuel n) t
              ⟨rest.result, rest.state, calls ++ rest.calls⟩ := by
  obtain ⟨op, t, calls, hnext, hfetched, hhandled⟩ := nextOp_fetches G s
  refine ⟨op, t, calls, hfetched, hhandled, fun probeFuel n => ?_⟩
  rw [functionLoop, Traced.bind_ok (by rw [hnext]), hnext]
  cases op with
  | none => exact congrArg (Ran.mk _ _) (List.append_nil calls)
  | some op => rfl

/-- A round that returns lowers the measure. -/
lemma measure_stepOp {op : Op} {s t : Session σ}
    (hop : Fetched (G.view s.env) (G.view t.env) (some op)) {fuel : ℕ}
    (hok : (stepOp W fuel op t).result = .ok ()) :
    (G.view (stepOp W fuel op t).state.env).measure < (G.view s.env).measure := by
  obtain ⟨added, hadded, hkind⟩ := (stepOp_stepped G fuel op t).fed (by simp [hok])
  exact measure_lt hop hadded hkind

lemma ends_stepOp (fuel : ℕ) (op : Op) (s : Session σ) (enough : Prop) :
    Ends 1 enough (stepOp W fuel op s) := by
  have hstep := stepOp_stepped G fuel op s
  exact ⟨by rw [hstep.handled]; exact Nat.le_refl 1, fun _ => hstep.unfinished⟩

/-- **The inner loop ends**, after a number of ops that does not depend on the fuel.  The induction
is on the measure of what the generators hold. -/
lemma exists_ends_functionLoop (s : Session σ) :
    ∃ N, ∀ probeFuel n, Ends N (N < n) (functionLoop W probeFuel n s) := by
  induction hm : (G.view s.env).measure using WellFoundedLT.induction generalizing s with
  | ind μ ih =>
      obtain ⟨op, t, calls, hfetched, hhandled, hrun⟩ := functionLoop_run G s
      cases op with
      | none =>
          refine ⟨0, fun probeFuel n => ?_⟩
          cases n with
          | zero => exact ends_outOfRounds s
          | succ n =>
              rw [hrun]
              exact ⟨by rw [hhandled]; exact Nat.le_refl 0, fun _ hout => absurd hout (by simp)⟩
      | some op =>
          have hrest : ∀ p, (stepOp W p op t).result = .ok () → ∃ N, ∀ probeFuel n,
              Ends N (N < n) (functionLoop W probeFuel n (stepOp W p op t).state) :=
            fun p hp => ih _ (hm ▸ measure_stepOp G hfetched hp) _ rfl
          obtain ⟨N, hN⟩ := exists_of_returns
            (P := fun N u => ∀ probeFuel n, Ends N (N < n) (functionLoop W probeFuel n u))
            stepOp_alike hrest
          refine ⟨1 + N, fun probeFuel n => ?_⟩
          cases n with
          | zero => exact ends_outOfRounds s
          | succ n =>
              rw [hrun]
              refine Ends.after (Ends.bind (ends_stepOp G probeFuel op t _) fun hok => ?_) hhandled
              exact (hN probeFuel hok probeFuel n).mono (Nat.le_refl N) fun henough => by omega

/-! ## What is left of the queue -/

/-- A stretch that starts with `p` pending handles the ops the generators say, unless an error stops
it, and returns with no more generators to come. -/
structure Serves (p : Pending) (ran : Ran (Session σ) Call Stop Unit) : Prop where
  balanced : (∀ e, ran.result ≠ .error (.err e)) → ∀ before, Balanced before p →
    Balanced (before ++ handled ran.calls) (G.view ran.state.env)
  generators : ran.result = .ok () → (G.view ran.state.env).generators ≤ p.generators

/-- Calls that handle no op, and leave the ops held as they are. -/
lemma serves_of_same {p : Pending} {r : Except Stop Unit} {t : Session σ} {calls : List Call}
    (hsame : p.Same (G.view t.env)) (hcalls : handled calls = []) :
    Serves G p ⟨r, t, calls⟩ := by
  refine ⟨fun _ before hb => ?_, fun _ => Nat.le_of_eq hsame.generators⟩
  rw [hcalls, List.append_nil]
  exact hb.of_same hsame

variable {G} in
lemma Serves.after {p : Pending} {ran : Ran (Session σ) Call Stop Unit}
    (h : Serves G p ran) {calls : List Call} (hcalls : handled calls = []) :
    Serves G p ⟨ran.result, ran.state, calls ++ ran.calls⟩ := by
  refine ⟨fun hnot before hb => ?_, h.generators⟩
  rw [handled_append, hcalls, List.nil_append]
  exact h.balanced hnot before hb

variable {G} in
lemma Serves.bind {p : Pending} {x : Prog σ Unit} {f : Unit → Prog σ Unit} {s : Session σ}
    (hx : Serves G p (x s))
    (hf : (x s).result = .ok () →
      Serves G (G.view (x s).state.env) (f () (x s).state)) :
    Serves G p ((x >>= f) s) := by
  cases hr : (x s).result with
  | error e =>
      rw [Traced.bind_error hr]
      exact ⟨fun hnot => hx.balanced (hr ▸ hnot), fun hok => absurd hok (by simp)⟩
  | ok u =>
      have hrest := hf hr
      rw [Traced.bind_ok hr]
      refine ⟨fun hnot before hb => ?_, fun hok => ?_⟩
      · rw [handled_append, ← List.append_assoc]
        exact hrest.balanced hnot _ (hx.balanced (by simp [hr]) before hb)
      · exact Nat.le_trans (hrest.generators hok) (hx.generators hr)

/-- A round, from before the op has been fetched. -/
lemma serves_stepOp {p : Pending} {op : Op} {t : Session σ}
    (hop : Fetched p (G.view t.env) (some op)) (fuel : ℕ) :
    Serves G p (stepOp W fuel op t) := by
  have hstep := stepOp_stepped G fuel op t
  refine ⟨fun hnot before hb => ?_, fun hok => ?_⟩
  · obtain ⟨added, hadded, -⟩ := hstep.fed hnot
    rw [hstep.handled]
    exact (hb.fetched hop).refilled hadded
  · obtain ⟨added, hadded, -⟩ := hstep.fed (by simp [hok])
    rw [hadded.generators]
    cases hop with
    | expanded _ _ _ hgenerators _ _ _ => exact Nat.le_of_eq hgenerators
    | queued _ hgenerators _ _ _ => exact Nat.le_of_eq hgenerators

lemma serves_functionLoop (probeFuel : ℕ) : ∀ (n : ℕ) (s : Session σ),
    Serves G (G.view s.env) (functionLoop W probeFuel n s)
  | 0, s => serves_of_same G ⟨rfl, rfl, rfl, rfl⟩ rfl
  | n + 1, s => by
      obtain ⟨op, t, calls, hfetched, hhandled, hrun⟩ := functionLoop_run G s
      rw [hrun]
      cases op with
      | none =>
          cases hfetched with
          | none hempty hsame => exact serves_of_same G hsame hhandled
      | some op =>
          refine Serves.after ?_ hhandled
          exact (serves_stepOp G hfetched probeFuel).bind fun _ =>
            serves_functionLoop probeFuel n _

/-- The inner loop returns when the queue is empty. -/
lemma functionLoop_empty (probeFuel : ℕ) : ∀ (n : ℕ) (s : Session σ),
    (functionLoop W probeFuel n s).result = .ok () →
      (G.view (functionLoop W probeFuel n s).state.env).queue = []
  | 0, s, hok => absurd hok (by simp [functionLoop, Traced.stop])
  | n + 1, s, hok => by
      obtain ⟨op, t, calls, hfetched, -, hrun⟩ := functionLoop_run G s
      rw [hrun] at hok ⊢
      cases op with
      | none =>
          cases hfetched with
          | none hempty hsame => exact hsame.queue.trans hempty
      | some op =>
          obtain ⟨u, hr, hrest⟩ := Traced.exists_of_bind_ok hok
          simp only [Traced.bind_ok hr]
          exact functionLoop_empty probeFuel n _ hrest

/-! ## The outer loop -/

/-- A new generator is taken up when the queue of the last one is empty. -/
lemma Serves.opgenNext {s : σ} {ran : Ran (Session σ) Call Stop Unit}
    (h : Serves G (G.view (W.opgenNext s).2) ran) (hmore : (W.opgenNext s).1 = .ok true)
    (hempty : (G.view s).queue = []) : Serves G (G.view s) ran := by
  obtain ⟨hfewer, hscheduled, hexpanded⟩ := G.opgenNext_true s hmore hempty
  refine ⟨fun hnot before hb => ?_, fun hok => ?_⟩
  · exact h.balanced hnot before (hb.refreshed hempty hscheduled hexpanded)
  · exact Nat.le_trans (h.generators hok) (Nat.le_of_lt hfewer)

lemma serves_opLoop (probeFuel n : ℕ) : ∀ (m : ℕ) (s : Session σ),
    (G.view s.env).queue = [] → Serves G (G.view s.env) (opLoop W probeFuel n m s)
  | 0, s, _ => serves_of_same G ⟨rfl, rfl, rfl, rfl⟩ rfl
  | m + 1, s, hempty => by
      rcases hnext : (W.opgenNext s.env).1 with e | more
      · rw [opLoop_last W (by simp [hnext]), hnext]
        exact ⟨fun hnot => absurd rfl (hnot e),
          fun hok => absurd hok (by simp [Except.mapError, Except.map])⟩
      cases more with
      | false =>
          rw [opLoop_last W (by simp [hnext])]
          exact serves_of_same G (G.opgenNext_false s.env hnext) rfl
      | true =>
          let t : Session σ := { s with env := (W.opgenNext s.env).2 }
          have hfunction : Serves G (G.view t.env) (functionLoop W probeFuel n t) :=
            serves_functionLoop G probeFuel n t
          rw [opLoop_more W hnext]
          refine Serves.opgenNext G (hfunction.bind fun hok => ?_) hnext hempty
          exact serves_opLoop probeFuel n m _ (functionLoop_empty G probeFuel n _ hok)

/-- The outer loop returns with the queue empty. -/
lemma opLoop_empty (probeFuel n : ℕ) : ∀ (m : ℕ) (s : Session σ), (G.view s.env).queue = [] →
    (opLoop W probeFuel n m s).result = .ok () →
      (G.view (opLoop W probeFuel n m s).state.env).queue = []
  | 0, s, _, hok => absurd hok (by simp [opLoop, Traced.stop])
  | m + 1, s, hempty, hok => by
      rcases hnext : (W.opgenNext s.env).1 with e | more
      · rw [opLoop_last W (by simp [hnext]), hnext] at hok
        exact absurd hok (by simp [Except.mapError, Except.map])
      cases more with
      | false =>
          rw [opLoop_last W (by simp [hnext])]
          exact (G.opgenNext_false s.env hnext).queue.trans hempty
      | true =>
          rw [opLoop_more W hnext] at hok ⊢
          obtain ⟨u, hr, hrest⟩ := Traced.exists_of_bind_ok hok
          rw [Traced.bind_ok hr]
          exact opLoop_empty probeFuel n m _ (functionLoop_empty G probeFuel n _ hr) hrest

/-- **The outer loop ends**, after a number of ops that does not depend on the fuel.  The induction
is on the number of generators to come. -/
lemma exists_ends_opLoop (s : Session σ) (hempty : (G.view s.env).queue = []) :
    ∃ N, ∀ probeFuel n m, Ends N (N < n ∧ N < m) (opLoop W probeFuel n m s) := by
  induction hg : (G.view s.env).generators using Nat.strong_induction_on generalizing s with
  | h generators ih =>
      have hzero : ∀ N n, Ends N (N < n ∧ N < 0) (⟨.error .outOfFuel, s, []⟩ : Ran _ _ _ _) :=
        fun N n => (ends_outOfRounds s).mono (Nat.le_refl N) And.right
      by_cases hmore : (W.opgenNext s.env).1 = .ok true
      · let t : Session σ := { s with env := (W.opgenNext s.env).2 }
        have hfewer : (G.view t.env).generators < generators :=
          hg ▸ (G.opgenNext_true s.env hmore hempty).1
        have hrest : ∀ p : ℕ × ℕ, (functionLoop W p.1 p.2 t).result = .ok () →
            ∃ N, ∀ probeFuel n m, Ends N (N < n ∧ N < m)
              (opLoop W probeFuel n m (functionLoop W p.1 p.2 t).state) := by
          intro p hp
          have hgenerators := (serves_functionLoop G p.1 p.2 t).generators hp
          exact ih _ (Nat.lt_of_le_of_lt hgenerators hfewer) _
            (functionLoop_empty G p.1 p.2 t hp) rfl
        obtain ⟨N₁, hN₁⟩ := exists_ends_functionLoop G t
        obtain ⟨N₂, hN₂⟩ := exists_of_returns
          (P := fun N u => ∀ probeFuel n m, Ends N (N < n ∧ N < m) (opLoop W probeFuel n m u))
          functionLoop_alike hrest
        refine ⟨N₁ + N₂ + 1, fun probeFuel n m => ?_⟩
        cases m with
        | zero => exact hzero _ n
        | succ m =>
            have hfunction : Ends N₁ (N₁ + N₂ + 1 < n ∧ N₁ + N₂ + 1 < m + 1)
                (functionLoop W probeFuel n t) :=
              (hN₁ probeFuel n).mono (Nat.le_refl N₁) fun h => by omega
            rw [opLoop_more W hmore]
            refine Ends.mono (hfunction.bind fun hok => ?_) (Nat.le_succ (N₁ + N₂)) id
            exact (hN₂ (probeFuel, n) hok probeFuel n m).mono (Nat.le_refl N₂)
              fun h => ⟨by omega, by omega⟩
      · refine ⟨0, fun probeFuel n m => ?_⟩
        cases m with
        | zero => exact hzero 0 n
        | succ m =>
            rw [opLoop_last W hmore]
            refine ⟨Nat.le_refl 0, fun _ hout => absurd hout ?_⟩
            cases (W.opgenNext s.env).1 <;> simp [Except.mapError, Except.map]

end Loops

/-! ## A run -/

section Run

variable {σ F : Type} (W : World σ F)

lemma stopsWith_feedAll (cmds : List Command) : Traced.StopsWith Stop.isErr (feedAll W cmds) := by
  refine Traced.StopsWith.each ?_ cmds
  intro cmd
  exact Traced.stopsWith_of_ok fun s => ⟨(), rfl⟩

lemma stopsWith_feedModuleDecls (krateSst : KrateSst F) :
    Traced.StopsWith Stop.isErr (feedModuleDecls W krateSst) := by
  refine (stopsWith_feedAll W _).bind fun _ => ?_
  refine (Traced.stopsWith_of_ok fun s => ⟨_, rfl⟩).bind fun batches => ?_
  refine (Traced.StopsWith.each (stopsWith_feedAll W) batches).bind fun _ => ?_
  refine Traced.StopsWith.each ?_ krateSst.functions
  intro f
  exact (stopsWith_orStop _).bind fun cmds => stopsWith_feedAll W cmds

lemma handled_feedModuleDecls (krateSst : KrateSst F) (s : Session σ) :
    handled (feedModuleDecls W krateSst s).calls = [] :=
  handled_eq_nil (respects_outside.feedModuleDecls (fun _ _ => ⟨rfl, rfl⟩) krateSst s)

/-- A run stops with an error before the generators exist, or is the op loop on fresh ones. -/
lemma runQueries_run (krateSst : KrateSst F) (s : Session σ) :
    (∃ e t calls, handled calls = [] ∧ ∀ fuel, runQueries W fuel krateSst s
        = ⟨.error (.err e), t, calls⟩)
      ∨ ∃ (env : σ) (start : Session σ) (before : List Call),
        start.env = W.opgenNew krateSst env ∧ handled before = [] ∧ ∀ fuel,
          let loop := opLoop W fuel.probes fuel.ops fuel.functions start
          runQueries W fuel krateSst s
            = ⟨loop.result, (drainTo (closeWrapper W loop.state).state).state,
              before ++ (loop.calls ++ (closeWrapper W loop.state).calls)⟩ := by
  have hhandled := handled_feedModuleDecls W krateSst s
  cases hr : (feedModuleDecls W krateSst s).result with
  | error e =>
      have herr := stopsWith_feedModuleDecls W krateSst s e hr
      cases e with
      | outOfFuel => exact herr.elim
      | err e =>
          exact Or.inl ⟨e, _, _, hhandled, fun fuel => by rw [runQueries, Traced.bind_error hr]⟩
  | ok u =>
      let prelude := (feedModuleDecls W krateSst s).state
      let closed := (tellAir W.sectionClose .sectionClose prelude).state
      let drained := (drainTo closed).state
      let start : Session σ :=
        { drained with env := W.opgenNew krateSst drained.env, wrapperKrate := none }
      refine Or.inr ⟨drained.env, start, (feedModuleDecls W krateSst s).calls ++ [.sectionClose],
        rfl, ?_, fun fuel => ?_⟩
      · rw [handled_append, hhandled]
        rfl
      · rw [runQueries, Traced.bind_ok hr, Traced.bind_ok rfl, Traced.bind_ok rfl, runOps_run]
        exact congrArg (Ran.mk _ _) (List.append_assoc _ _ _).symm

lemma closeWrapper_calls (s : Session σ) :
    ∀ x ∈ (closeWrapper W s).calls, x = .sectionClose := by
  cases h : s.wrapperKrate with
  | none =>
      rw [closeWrapper_of_none W h]
      exact fun _ hx => absurd hx List.not_mem_nil
  | some k =>
      rw [closeWrapper_of_some W h]
      exact fun _ hx => List.mem_singleton.mp hx

end Run

/-- **Failing queries cannot keep the op loop alive.**  Given the schedule, whatever the solver
answers, a run handles a bounded number of ops: there is a number that bounds them with any fuel,
and with more rounds than that the loops never run out of them, so that a run that does not end is
inside a check.  Each op has the one retry that is due, or none.  Unless an error stops the run,
what has been handled and what is still queued is, each op as often as it occurs, what has been
scheduled or expanded, and nothing is queued when the run returns. -/
theorem runQueries_handles {σ F : Type} {W : World σ F} (G : Schedule W) (krateSst : KrateSst F)
    (s : Session σ) :
    ∃ N, ∀ fuel : Fuel,
      let run := runQueries W fuel krateSst s
      let pending := G.view run.state.env
      (handled run.calls).length ≤ N
        ∧ (N < fuel.ops → N < fuel.functions → run.result = .error .outOfFuel →
          ¬AllFinished run.calls)
        ∧ (∀ p ∈ opSegments run.calls, Retried p.1 p.2)
        ∧ ((∀ e, run.result ≠ .error (.err e)) →
          (handled run.calls ++ pending.queue).Perm (pending.scheduled ++ pending.expanded))
        ∧ (run.result = .ok () → pending.queue = []) := by
  rcases runQueries_run W krateSst s with
    ⟨e, t, calls, hhandled, hrun⟩ | ⟨env, start, before, hstart, hbefore, hrun⟩
  · refine ⟨0, fun fuel => ?_⟩
    have hretried := retried_runQueries W fuel krateSst s
    simp only [hrun] at hretried ⊢
    refine ⟨by rw [hhandled]; exact Nat.le_refl 0, fun _ _ hout => absurd hout (by simp), hretried,
      fun hnot => absurd rfl (hnot e), fun hok => absurd hok (by simp)⟩
  · obtain ⟨hqueue, hscheduled, hexpanded⟩ := G.opgenNew krateSst env
    have hfresh : Balanced [] (G.view start.env) := by
      rw [hstart, Balanced, hqueue, hscheduled, hexpanded]
    have hempty : (G.view start.env).queue = [] := hstart ▸ hqueue
    obtain ⟨N, hN⟩ := exists_ends_opLoop G start hempty
    refine ⟨N, fun fuel => ?_⟩
    have hretried := retried_runQueries W fuel krateSst s
    have hends := hN fuel.probes fuel.ops fuel.functions
    have hserves := serves_opLoop G fuel.probes fuel.ops fuel.functions start hempty
    simp only [hrun] at hretried ⊢
    set loop := opLoop W fuel.probes fuel.ops fuel.functions start with hloop
    have hclose : handled (closeWrapper W loop.state).calls = [] :=
      handled_eq_nil fun x hx => closeWrapper_calls W loop.state x hx ▸ ⟨rfl, rfl⟩
    have hhandled : handled (before ++ (loop.calls ++ (closeWrapper W loop.state).calls))
        = handled loop.calls := by
      rw [handled_append, handled_append, hbefore, hclose, List.nil_append, List.append_nil]
    have hview : G.view (drainTo (closeWrapper W loop.state).state).state.env
        = G.view loop.state.env := keepsView_closeWrapper G loop.state
    rw [hhandled, hview]
    refine ⟨hends.handled, fun hops hfunctions hout hall => ?_, hretried, fun hnot => ?_,
      opLoop_empty G fuel.probes fuel.ops fuel.functions start hempty⟩
    · have hleft := Closed.of_append_right hall
      refine hends.unfinished ⟨hops, hfunctions⟩ hout (hleft.of_append_left fun x hx => ?_)
      rw [closeWrapper_calls W loop.state x hx]
      rfl
    · have hbalanced := hserves.balanced hnot [] hfresh
      rw [List.nil_append] at hbalanced
      exact hbalanced

/-- An op with one check. -/
def checkOp (style : Style) : Op :=
  ⟨none, .query [⟨none, .defaultProver, [.checkValid []]⟩] (.body style), []⟩

/-- Generators over a solver that refutes each check: there is one, with one op, and the retry of an
op also starts an expansion into one sub-query. -/
def refuting : World Pending Unit where
  setZ3Param _ _ s := (fun _ => [], s)
  setRlimit _ s := (fun _ => [], s)
  command _ s := (.invalid false none none, fun _ => [], s)
  checkValidAgain _ s := (.valid, fun _ => [], s)
  finishQuery s := (fun _ => [], s)
  openSection _ _ s := (fun _ => [], s)
  sectionClose s := (fun _ => [], s)
  prelude := []
  buildBucketPreamble _ s := ([], s)
  funcNameToAir _ := .ok []
  opgenNew _ _ := ⟨1, [], 0, [], []⟩
  opgenNext s := match s.generators with
    | 0 => (.ok false, s)
    | n + 1 => (.ok true,
        { s with generators := n, queue := [checkOp .normal],
                 scheduled := s.scheduled ++ [checkOp .normal] })
  expandErrorsNext s := match s.expansion with
    | 0 => (none, s)
    | n + 1 => (some (.ok (checkOp .expanded)),
        { s with expansion := n, expanded := s.expanded ++ [checkOp .expanded] })
  functionOpgenNext s := match s.queue with
    | [] => (none, s)
    | op :: queue => (some op, { s with queue })
  retryWithRecommends _ _ s := (.ok (),
    { s with queue := s.queue ++ [checkOp .recommendsFollowupFromError]
             scheduled := s.scheduled ++ [checkOp .recommendsFollowupFromError]
             expansion := 1 })
  reportExpandErrorResult _ s := s

/-- It keeps to the schedule. -/
def refutingSchedule : Schedule refuting where
  view := id
  command _ _ := rfl
  checkValidAgain _ _ := rfl
  finishQuery _ := rfl
  openSection _ _ _ := rfl
  sectionClose _ := rfl
  opgenNew _ _ := ⟨rfl, rfl, rfl⟩
  opgenNext_true s h _ := by
    obtain ⟨_ | n, queue, expansion, scheduled, expanded⟩ := s
    · exact absurd h (by simp [refuting])
    · exact ⟨Nat.lt_succ_self n, rfl, rfl⟩
  opgenNext_false s h := by
    obtain ⟨_ | n, queue, expansion, scheduled, expanded⟩ := s
    · exact ⟨rfl, rfl, rfl, rfl⟩
    · exact absurd h (by simp [refuting])
  functionOpgenNext_some s op h := by
    obtain ⟨generators, _ | ⟨op', queue⟩, expansion, scheduled, expanded⟩ := s
    · exact absurd h (by simp [refuting])
    · obtain rfl : op' = op := Option.some.inj h
      exact ⟨rfl, List.Perm.refl _, rfl, rfl⟩
  functionOpgenNext_none s h := by
    obtain ⟨generators, _ | ⟨op', queue⟩, expansion, scheduled, expanded⟩ := s
    · exact ⟨rfl, rfl, rfl, rfl, rfl⟩
    · exact absurd h (by simp [refuting])
  expandErrorsNext_op s op h := by
    obtain ⟨generators, queue, _ | n, scheduled, expanded⟩ := s
    · exact absurd h (by simp [refuting])
    · obtain rfl : checkOp .expanded = op := Except.ok.inj (Option.some.inj h)
      exact ⟨rfl, Nat.lt_succ_self n, rfl, rfl, rfl, rfl⟩
  expandErrorsNext_none s h := by
    obtain ⟨generators, queue, _ | n, scheduled, expanded⟩ := s
    · exact ⟨rfl, rfl, rfl, rfl⟩
    · exact absurd rfl (h (checkOp .expanded))
  retryWithRecommends op s _ :=
    ⟨[checkOp .recommendsFollowupFromError], fun _ hop => List.mem_singleton.mp hop ▸ rfl, rfl,
      List.Perm.refl _, rfl, rfl⟩
  reportExpandErrorResult _ _ := ⟨⟨rfl, rfl, rfl, rfl⟩, Nat.le_refl _⟩

/-- The op, its sub-query and its retry are handled, and with that the run returns. -/
theorem runQueries_handles_refuting :
    let run := runQueries refuting ⟨0, 4, 2⟩ ⟨[]⟩
      ⟨⟨0, [], 0, [], []⟩, fun _ => [], fun _ => [], fun _ => [], none⟩
    run.result = .ok ()
      ∧ (handled run.calls ++ []).Perm ([checkOp .normal, checkOp .recommendsFollowupFromError]
        ++ [checkOp .expanded]) := by
  intro run
  obtain ⟨N, hN⟩ := runQueries_handles refutingSchedule ⟨[]⟩
    ⟨⟨0, [], 0, [], []⟩, fun _ => [], fun _ => [], fun _ => [], none⟩
  obtain ⟨-, -, -, hbalanced, -⟩ := hN ⟨0, 4, 2⟩
  have hok : run.result = .ok () := rfl
  exact ⟨hok, hbalanced fun e => by rw [hok]; simp⟩

end VerusExplorer
