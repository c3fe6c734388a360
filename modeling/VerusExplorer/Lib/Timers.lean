import Mathlib.Algebra.BigOperators.Group.List.Basic
import Mathlib.Algebra.Order.BigOperators.Group.List
import Mathlib.Data.NNRat.Defs
import Mathlib.Tactic.Linarith
import Mathlib.Tactic.Ring
import VerusExplorer.Lib.Traced

/-!
# Programs with timers

A program here lets time pass, makes calls, and runs parts of itself under a timer, which reports
at the end of the part how long it took.  Timers nest.  What the program leaves is a list of ticks:
the stretches of time, each with the timers that were running, the reports and the other calls.

* `work` lets time pass, `time` runs a program under a timer.
* `charge w` adds up the stretches, each as often as `w` says for the timers that were running;
  `reported p` adds up the reports of the timers that satisfy `p`.
* `charged`: **each stretch is in the reports once for each timer that was running**, with a rule
  for each way to put a program together.
* `nests P` says of the timers that run at the same time that they satisfy `P`; `Regular` is both,
  with the same rules.
* `runningAt` is the timers running at an instant.
-/

namespace Timers

open Traced

/-- The clock, the timers that are running, innermost first, and the rest of the world. -/
structure Clock (σ L : Type) where
  now : ℚ
  running : List L
  host : σ

/-- What a timed program leaves. -/
inductive Tick (L C : Type) where
  | lapse (running : List L) (d : ℚ≥0)
  | report (label : L) (ms : ℚ)
  | call (c : C)

/-- A program with timers. -/
abbrev Timed (σ L C ε α : Type) := Traced (Clock σ L) (Tick L C) ε α

variable {σ L C ε α : Type}

/-! ## Programs -/

/-- How long a piece of work took, the calls it made and how it ended. -/
structure Worked (C ε α : Type) where
  took : ℚ≥0
  calls : List C
  result : Except ε α

/-- Work that the host does. -/
def work (f : σ → Worked C ε α × σ) : Timed σ L C ε α := fun s =>
  let (worked, host) := f s.host
  ⟨worked.result, { s with now := s.now + worked.took, host := host },
    .lapse s.running worked.took :: worked.calls.map .call⟩

/-- Start a timer. -/
def start (label : L) : Timed σ L C ε Unit :=
  Traced.modify fun s => { s with running := label :: s.running }

/-- End the timer that was started last. -/
def finish : Timed σ L C ε Unit := Traced.modify fun s => { s with running := s.running.tail }

/-- Run a program under a timer. -/
def time (label : L) (x : Timed σ L C ε α) : Timed σ L C ε (Except ε α) := do
  let t₀ ← Traced.get
  start label
  let result ← Traced.attempt x
  finish
  let t₁ ← Traced.get
  Traced.emit (Tick.report label (t₁.now - t₀.now))
  return result

/-- What a program under a timer does. -/
lemma time_apply (label : L) (x : Timed σ L C ε α) (s : Clock σ L) :
    time label x s =
      let r := x { s with running := label :: s.running }
      ⟨.ok r.result, { r.state with running := r.state.running.tail },
        r.calls ++ [.report label (r.state.now - s.now)]⟩ := rfl

/-! ## Adding up -/

/-- The stretches, each counted as often as `w` says. -/
def charge (w : List L → ℕ) : List (Tick L C) → ℚ
  | [] => 0
  | .lapse running d :: ticks => w running * d + charge w ticks
  | .report _ _ :: ticks => charge w ticks
  | .call _ :: ticks => charge w ticks

/-- How long a program ran. -/
def elapsed (ticks : List (Tick L C)) : ℚ := charge (fun _ => 1) ticks

/-- The reports of the timers that satisfy `p`. -/
def reported (p : L → Bool) : List (Tick L C) → ℚ
  | [] => 0
  | .lapse _ _ :: ticks => reported p ticks
  | .report label ms :: ticks => (if p label then ms else 0) + reported p ticks
  | .call _ :: ticks => reported p ticks

variable {w w' : List L → ℕ} {p q : L → Bool}

@[simp] lemma charge_append (w : List L → ℕ) :
    ∀ xs ys : List (Tick L C), charge w (xs ++ ys) = charge w xs + charge w ys
  | [], ys => (zero_add _).symm
  | .lapse _ _ :: xs, ys => by
      rw [List.cons_append, charge, charge, charge_append w xs ys, add_assoc]
  | .report _ _ :: xs, ys => charge_append w xs ys
  | .call _ :: xs, ys => charge_append w xs ys

@[simp] lemma reported_append (p : L → Bool) :
    ∀ xs ys : List (Tick L C), reported p (xs ++ ys) = reported p xs + reported p ys
  | [], ys => (zero_add _).symm
  | .lapse _ _ :: xs, ys => reported_append p xs ys
  | .report label ms :: xs, ys => by
      rw [List.cons_append, reported, reported, reported_append p xs ys, add_assoc]
  | .call _ :: xs, ys => reported_append p xs ys

@[simp] lemma charge_calls (w : List L → ℕ) : ∀ cs : List C, charge w (cs.map Tick.call) = 0
  | [] => rfl
  | _ :: cs => charge_calls w cs

@[simp] lemma reported_calls (p : L → Bool) : ∀ cs : List C, reported p (cs.map Tick.call) = 0
  | [] => rfl
  | _ :: cs => reported_calls p cs

lemma charge_add (w w' : List L → ℕ) :
    ∀ ticks : List (Tick L C),
      charge (fun running => w running + w' running) ticks = charge w ticks + charge w' ticks
  | [] => (zero_add _).symm
  | .lapse running d :: ticks => by
      rw [charge, charge, charge, charge_add w w' ticks]
      push_cast
      ring
  | .report _ _ :: ticks => charge_add w w' ticks
  | .call _ :: ticks => charge_add w w' ticks

/-- Only the stretches matter that there are. -/
lemma charge_congr :
    ∀ (ticks : List (Tick L C)),
      (∀ running d, .lapse running d ∈ ticks → w running = w' running) →
        charge w ticks = charge w' ticks
  | [], _ => rfl
  | .lapse running d :: ticks, h => by
      rw [charge, charge, h running d List.mem_cons_self,
        charge_congr ticks fun other e hmem => h other e (List.mem_cons_of_mem _ hmem)]
  | .report _ _ :: ticks, h =>
      charge_congr ticks fun other e hmem => h other e (List.mem_cons_of_mem _ hmem)
  | .call _ :: ticks, h =>
      charge_congr ticks fun other e hmem => h other e (List.mem_cons_of_mem _ hmem)

lemma charge_nonneg (w : List L → ℕ) : ∀ ticks : List (Tick L C), 0 ≤ charge w ticks
  | [] => le_refl 0
  | .lapse running d :: ticks =>
      add_nonneg (mul_nonneg (Nat.cast_nonneg (w running)) d.2) (charge_nonneg w ticks)
  | .report _ _ :: ticks => charge_nonneg w ticks
  | .call _ :: ticks => charge_nonneg w ticks

/-- A stretch that is counted takes no time if the sum is nothing. -/
lemma charge_eq_zero_iff (w : List L → ℕ) :
    ∀ ticks : List (Tick L C),
      charge w ticks = 0 ↔ ∀ running d, .lapse running d ∈ ticks → 0 < d → w running = 0
  | [] => by simp [charge]
  | .lapse running d :: ticks => by
      have hfirst : 0 ≤ (w running : ℚ) * d := mul_nonneg (Nat.cast_nonneg _) d.2
      rw [charge, add_eq_zero_iff_of_nonneg hfirst (charge_nonneg w ticks),
        charge_eq_zero_iff w ticks, mul_eq_zero, Nat.cast_eq_zero, NNRat.coe_eq_zero]
      constructor
      · rintro ⟨hrunning, hticks⟩ other e hmem hpos
        rcases List.mem_cons.mp hmem with heq | htail
        · cases heq
          exact hrunning.resolve_right hpos.ne'
        · exact hticks other e htail hpos
      · intro h
        refine ⟨?_, fun other e hmem => h other e (List.mem_cons_of_mem _ hmem)⟩
        rcases eq_or_ne d 0 with hd | hd
        · exact Or.inr hd
        · exact Or.inl (h running d List.mem_cons_self (pos_iff_ne_zero.mpr hd))
  | .report _ _ :: ticks => by
      rw [charge, charge_eq_zero_iff w ticks]
      simp
  | .call _ :: ticks => by
      rw [charge, charge_eq_zero_iff w ticks]
      simp

lemma reported_or (hpq : ∀ label, p label = true → q label = false) :
    ∀ ticks : List (Tick L C),
      reported (fun label => p label || q label) ticks = reported p ticks + reported q ticks
  | [] => (zero_add _).symm
  | .lapse _ _ :: ticks => reported_or hpq ticks
  | .report label ms :: ticks => by
      rw [reported, reported, reported, reported_or hpq ticks]
      cases hp : p label with
      | true => simp [hpq label hp, add_assoc]
      | false => simp [add_left_comm]
  | .call _ :: ticks => reported_or hpq ticks

/-! ## Each stretch is reported once for each running timer -/

/-- The clock tells how long the program ran, its timers are ended, and each stretch is in its
reports once for each of its timers that satisfies `p` and was running. -/
def charged (p : L → Bool) : Traced.Rel (Clock σ L) (Tick L C) := fun _ s t ticks =>
  t.running = s.running ∧ t.now = s.now + elapsed ticks
    ∧ charge (List.countP p) ticks = reported p ticks + s.running.countP p * elapsed ticks

lemma composes_charged (p : L → Bool) : Composes (charged (σ := σ) (C := C) p) where
  nil s := ⟨rfl, (add_zero _).symm, by simp [charge, reported, elapsed]⟩
  append := by
    rintro b s t u c d ⟨hrun, hnow, hsum⟩ ⟨hrun', hnow', hsum'⟩
    refine ⟨hrun'.trans hrun, ?_, ?_⟩
    · rw [hnow', hnow, elapsed, elapsed, elapsed, charge_append, add_assoc]
    · rw [hrun] at hsum'
      rw [charge_append, reported_append, elapsed, charge_append, hsum, hsum', elapsed, elapsed]
      ring
  stop h := h

lemma charged_work (p : L → Bool) (f : σ → Worked C ε α × σ) :
    Keeps (charged p) (work f : Timed σ L C ε α) := by
  intro s
  have htook : elapsed (.lapse s.running (f s.host).1.took :: (f s.host).1.calls.map .call)
      = ((f s.host).1.took : ℚ) := by
    simp [elapsed, charge]
  refine ⟨rfl, ?_, ?_⟩
  · show s.now + ((f s.host).1.took : ℚ) = s.now + _
    exact congrArg _ htook.symm
  · show charge _ (.lapse s.running (f s.host).1.took :: (f s.host).1.calls.map .call) = _
    rw [show ((work f : Timed σ L C ε α) s).calls
      = .lapse s.running (f s.host).1.took :: (f s.host).1.calls.map .call from rfl, htook]
    simp [charge, reported]

/-- The report of a timer is the time that passed under it. -/
lemma charged_time {x : Timed σ L C ε α} (hx : Keeps (charged p) x) (label : L) :
    Keeps (charged p) (time label x) := by
  intro s
  obtain ⟨hrun, hnow, hsum⟩ := hx { s with running := label :: s.running }
  rw [time_apply]
  set r := x { s with running := label :: s.running } with hr
  have hlast : elapsed [(.report label (r.state.now - s.now) : Tick L C)] = 0 := rfl
  have hall : elapsed (r.calls ++ [.report label (r.state.now - s.now)]) = elapsed r.calls := by
    rw [elapsed, charge_append, ← elapsed, ← elapsed, hlast, add_zero]
  have hms : r.state.now - s.now = elapsed r.calls := by
    rw [hnow]
    ring
  refine ⟨by show r.state.running.tail = _; rw [hrun]; rfl, by rw [hall]; exact hnow, ?_⟩
  rw [hall, charge_append, reported_append, hsum]
  simp only [charge, reported, List.countP_cons, hms]
  split_ifs <;> push_cast <;> ring

/-! ## Which timers nest -/

/-- Started while just `st` are running, the program ends so, and at every time the running timers
satisfy `P`. -/
def nests (P : List L → Prop) (st : List L) : Traced.Rel (Clock σ L) (Tick L C) :=
  fun _ s t ticks => s.running = st →
    t.running = st ∧ ∀ running d, .lapse running d ∈ ticks → P running

variable {P : List L → Prop} {st : List L}

lemma composes_nests : Composes (nests (σ := σ) (C := C) P st) where
  nil _ h := ⟨h, fun _ _ hmem => absurd hmem List.not_mem_nil⟩
  append h₁ h₂ h := by
    obtain ⟨hrun, hin⟩ := h₁ h
    obtain ⟨hrun', hin'⟩ := h₂ hrun
    exact ⟨hrun', fun running d hmem =>
      (List.mem_append.mp hmem).elim (hin running d) (hin' running d)⟩
  stop h := h

lemma nests_work (hst : P st) (f : σ → Worked C ε α × σ) :
    Keeps (nests P st) (work f : Timed σ L C ε α) := by
  intro s hs
  refine ⟨hs, fun running d hmem => ?_⟩
  rcases List.mem_cons.mp hmem with heq | hcall
  · cases heq
    rw [hs]
    exact hst
  · obtain ⟨c, -, hc⟩ := List.mem_map.mp hcall
    exact absurd hc (by simp)

lemma nests_time {x : Timed σ L C ε α} {label : L} (hx : Keeps (nests P (label :: st)) x) :
    Keeps (nests P st) (time label x) := by
  intro s hs
  obtain ⟨hrun, hin⟩ := hx { s with running := label :: s.running } (congrArg (label :: ·) hs)
  rw [time_apply]
  refine ⟨by show List.tail _ = st; rw [hrun]; rfl, fun running d hmem => ?_⟩
  rcases List.mem_append.mp hmem with hbody | hlast
  · exact hin running d hbody
  · exact absurd (List.mem_singleton.mp hlast) (by simp)

/-! ## Programs under the rules -/

/-- What is known of a program that is put together from work and timers: it is charged for the
time it takes, and started while `st` are running it has no other timers running at once than `P`
says. -/
structure Regular (P : List L → Prop) (st : List L) (x : Timed σ L C ε α) : Prop where
  charged : ∀ p, Keeps (charged p) x
  nests : Keeps (nests P st) x

namespace Regular

variable {β : Type} {x : Timed σ L C ε α}

lemma pure (a : α) : Regular P st (Pure.pure a : Timed σ L C ε α) where
  charged p := keeps_pure (composes_charged p) a
  nests := keeps_pure composes_nests a

lemma stop (e : ε) : Regular P st (Traced.stop e : Timed σ L C ε α) where
  charged p := keeps_stop (composes_charged p) e
  nests := keeps_stop composes_nests e

lemma get : Regular P st (Traced.get : Timed σ L C ε (Clock σ L)) where
  charged p := keeps_get (composes_charged p)
  nests := keeps_get composes_nests

lemma ofExcept (r : Except ε α) : Regular P st (Traced.ofExcept r : Timed σ L C ε α) where
  charged p := keeps_ofExcept (composes_charged p) r
  nests := keeps_ofExcept composes_nests r

lemma bind {f : α → Timed σ L C ε β} (hx : Regular P st x) (hf : ∀ a, Regular P st (f a)) :
    Regular P st (x >>= f) where
  charged p := keeps_bind (composes_charged p) (hx.charged p) fun a => (hf a).charged p
  nests := keeps_bind composes_nests hx.nests fun a => (hf a).nests

lemma each {f : α → Timed σ L C ε Unit} (hf : ∀ a, Regular P st (f a)) (as : List α) :
    Regular P st (Traced.each f as) where
  charged p := keeps_each (composes_charged p) as fun a _ => (hf a).charged p
  nests := keeps_each composes_nests as fun a _ => (hf a).nests

lemma work (hst : P st) (f : σ → Worked C ε α × σ) : Regular P st (Timers.work f) where
  charged p := charged_work p f
  nests := nests_work hst f

lemma time {label : L} (hx : Regular P (label :: st) x) : Regular P st (Timers.time label x) where
  charged p := charged_time (hx.charged p) label
  nests := nests_time hx.nests

/-- In a whole run, each stretch is in the reports once for each of the timers that was running. -/
lemma charge_eq_reported (hx : Regular P [] x) {s : Clock σ L} (hs : s.running = [])
    (p : L → Bool) : charge (List.countP p) (x s).calls = reported p (x s).calls := by
  rw [(hx.charged p s).2.2, hs]
  simp

/-- The timers that run at once in a whole run. -/
lemma of_lapse (hx : Regular P [] x) {s : Clock σ L} (hs : s.running = []) {running : List L}
    {d : ℚ≥0} (hmem : .lapse running d ∈ (x s).calls) : P running :=
  (hx.nests s hs).2 running d hmem

end Regular

/-! ## Instants -/

/-- The timers running at the instant `t` after the start. -/
def runningAt : List (Tick L C) → ℚ → Option (List L)
  | [], _ => none
  | .lapse running d :: ticks, t => if t < d then some running else runningAt ticks (t - d)
  | .report _ _ :: ticks, t => runningAt ticks t
  | .call _ :: ticks, t => runningAt ticks t

lemma elapsed_lapse (running : List L) (d : ℚ≥0) (ticks : List (Tick L C)) :
    elapsed (.lapse running d :: ticks) = d + elapsed ticks := by
  simp [elapsed, charge]

/-- At every instant of a run there are timers running, maybe none, and `P` holds of them at every
instant exactly if it holds of every stretch that takes time. -/
lemma forall_runningAt_iff :
    ∀ ticks : List (Tick L C),
      (∀ t, 0 ≤ t → t < elapsed ticks → ∃ running, runningAt ticks t = some running ∧ P running)
        ↔ ∀ running d, .lapse running d ∈ ticks → 0 < d → P running
  | [] => by
      refine iff_of_true (fun t h0 hlt => ?_) (by simp)
      exact absurd hlt (not_lt.mpr h0)
  | .lapse first e :: ticks => by
      have ih := forall_runningAt_iff ticks
      rw [elapsed_lapse]
      constructor
      · intro h running d hmem hpos
        rcases List.mem_cons.mp hmem with heq | htail
        · cases heq
          have he : (0 : ℚ) < e := by exact_mod_cast hpos
          have hrest : 0 ≤ elapsed ticks := charge_nonneg _ ticks
          obtain ⟨other, hat, hP⟩ := h 0 (le_refl 0) (by linarith)
          rw [runningAt, if_pos he] at hat
          exact Option.some_inj.mp hat ▸ hP
        · refine ih.mp (fun t h0 hlt => ?_) running d htail hpos
          have hshift : ¬t + (e : ℚ) < e := not_lt.mpr (by linarith)
          obtain ⟨other, hat, hP⟩ := h (t + e) (add_nonneg h0 e.2) (by linarith)
          rw [runningAt, if_neg hshift, add_sub_cancel_right] at hat
          exact ⟨other, hat, hP⟩
      · intro h t h0 hlt
        rw [runningAt]
        split_ifs with hfirst
        · have hpos : 0 < e := by exact_mod_cast h0.trans_lt hfirst
          exact ⟨first, rfl, h first e List.mem_cons_self hpos⟩
        · exact ih.mpr (fun other d hmem => h other d (List.mem_cons_of_mem _ hmem)) (t - e)
            (by linarith) (by linarith)
  | .report _ _ :: ticks => by
      have ih := forall_runningAt_iff ticks
      simpa [runningAt, elapsed, charge] using ih
  | .call _ :: ticks => by
      have ih := forall_runningAt_iff ticks
      simpa [runningAt, elapsed, charge] using ih

end Timers
