import VerusExplorer.Verify.Invariants
import VerusExplorer.Verify.Retries
import Mathlib.Data.Prod.Lex
import Mathlib.Order.WellFounded

/-!
# The schedule of the ops

`run_queries` (`verus.rs`) drains the queue of one function generator after the other, while the
handling of an op may put retries into the queue and the expansion of a failed op may hand out
sub-queries of its own.

* `Schedule` — what the generators are assumed to do, in terms of what they hold (`Pending`).
* `Fetched`, `Refilled` — how `next_op` and the handling of an op change that.
* `Balanced` — what has been handled and what is queued is what has been scheduled or expanded.
* `Pending.measure` — goes down with each op: retries are of a kind that is not retried.
-/

namespace VerusExplorer

open Segments

/-! ## The generators -/

/-- What the generators hold: how many function generators are to come, the queue of the current
one, how many sub-queries the expansion under way can still hand out, and all the ops that have been
put into a queue or handed out by an expansion. -/
structure Pending where
  generators : ℕ
  queue : List Op
  expansion : ℕ
  scheduled : List Op
  expanded : List Op

/-- A retry for failed recommends. -/
def Op.IsFollowup (op : Op) : Prop := op.queryOp = some (.body .recommendsFollowupFromError)

/-- A sub-query of an expansion. -/
def Op.IsExpanded (op : Op) : Prop := op.queryOp = some (.body .expanded)

lemma not_retriable_of_isFollowup {op : Op} (h : op.IsFollowup) : op.retriable = false := by
  rw [Op.retriable, h]
  rfl

lemma not_retriable_of_isExpanded {op : Op} (h : op.IsExpanded) : op.retriable = false := by
  rw [Op.retriable, h]
  rfl

/-- The same ops are held. -/
structure Pending.Same (p q : Pending) : Prop where
  generators : q.generators = p.generators
  queue : q.queue = p.queue
  scheduled : q.scheduled = p.scheduled
  expanded : q.expanded = p.expanded

/-- An op is handed out: by an expansion, or from the queue; or there is none in the queue. -/
inductive Fetched (p q : Pending) : Option Op → Prop
  | expanded (op : Op) (hkind : op.IsExpanded) (hleft : q.expansion < p.expansion)
      (hgenerators : q.generators = p.generators) (hqueue : q.queue = p.queue)
      (hscheduled : q.scheduled = p.scheduled) (hexpanded : q.expanded = p.expanded ++ [op]) :
      Fetched p q (some op)
  | queued (op : Op) (hgenerators : q.generators = p.generators)
      (hqueue : p.queue.Perm (op :: q.queue)) (hscheduled : q.scheduled = p.scheduled)
      (hexpanded : q.expanded = p.expanded) : Fetched p q (some op)
  | none (hempty : p.queue = []) (hsame : p.Same q) : Fetched p q none

/-- Some retries are put into the queue. -/
structure Refilled (added : List Op) (p q : Pending) : Prop where
  followup : ∀ op ∈ added, op.IsFollowup
  generators : q.generators = p.generators
  queue : q.queue.Perm (p.queue ++ added)
  scheduled : q.scheduled = p.scheduled ++ added
  expanded : q.expanded = p.expanded

/-- What is assumed of the generators.  AIR has no access to them.  There are finitely many, each
with a finite queue; a retry adds finitely many follow-ups; an expansion hands out finitely many
sub-queries, however its questions are answered. -/
structure Schedule {σ F : Type} (W : World σ F) where
  view : σ → Pending
  command : ∀ cmd s, view (W.command cmd s).2.2 = view s
  checkValidAgain : ∀ early s, view (W.checkValidAgain early s).2.2 = view s
  finishQuery : ∀ s, view (W.finishQuery s).2 = view s
  openSection : ∀ marker label s, view (W.openSection marker label s).2 = view s
  sectionClose : ∀ s, view (W.sectionClose s).2 = view s
  opgenNew : ∀ krateSst s, (view (W.opgenNew krateSst s)).queue = []
    ∧ (view (W.opgenNew krateSst s)).scheduled = [] ∧ (view (W.opgenNew krateSst s)).expanded = []
  opgenNext_true : ∀ s, (W.opgenNext s).1 = .ok true → (view s).queue = [] →
    (view (W.opgenNext s).2).generators < (view s).generators
      ∧ (view (W.opgenNext s).2).scheduled = (view s).scheduled ++ (view (W.opgenNext s).2).queue
      ∧ (view (W.opgenNext s).2).expanded = (view s).expanded
  opgenNext_false : ∀ s, (W.opgenNext s).1 = .ok false → (view s).Same (view (W.opgenNext s).2)
  functionOpgenNext_some : ∀ s op, (W.functionOpgenNext s).1 = some op →
    (view (W.functionOpgenNext s).2).generators = (view s).generators
      ∧ (view s).queue.Perm (op :: (view (W.functionOpgenNext s).2).queue)
      ∧ (view (W.functionOpgenNext s).2).scheduled = (view s).scheduled
      ∧ (view (W.functionOpgenNext s).2).expanded = (view s).expanded
  functionOpgenNext_none : ∀ s, (W.functionOpgenNext s).1 = none →
    (view s).queue = [] ∧ (view s).Same (view (W.functionOpgenNext s).2)
  expandErrorsNext_op : ∀ s op, (W.expandErrorsNext s).1 = some (.ok op) →
    op.IsExpanded ∧ (view (W.expandErrorsNext s).2).expansion < (view s).expansion
      ∧ (view (W.expandErrorsNext s).2).generators = (view s).generators
      ∧ (view (W.expandErrorsNext s).2).queue = (view s).queue
      ∧ (view (W.expandErrorsNext s).2).scheduled = (view s).scheduled
      ∧ (view (W.expandErrorsNext s).2).expanded = (view s).expanded ++ [op]
  expandErrorsNext_none : ∀ s, (∀ op, (W.expandErrorsNext s).1 ≠ some (.ok op)) →
    (view s).Same (view (W.expandErrorsNext s).2)
  retryWithRecommends : ∀ op s, (W.retryWithRecommends op true s).1 = .ok () →
    ∃ added, Refilled added (view s) (view (W.retryWithRecommends op true s).2)
  reportExpandErrorResult : ∀ res s, (view s).Same (view (W.reportExpandErrorResult res s))
    ∧ (view (W.reportExpandErrorResult res s)).expansion ≤ (view s).expansion

/-! ## What is held -/

lemma Pending.Same.trans {p q r : Pending} (h : p.Same q) (h' : q.Same r) : p.Same r :=
  ⟨h'.generators.trans h.generators, h'.queue.trans h.queue, h'.scheduled.trans h.scheduled,
    h'.expanded.trans h.expanded⟩

/-- What has been handled and what is queued is what has been scheduled or expanded. -/
def Balanced (handled : List Op) (p : Pending) : Prop :=
  (handled ++ p.queue).Perm (p.scheduled ++ p.expanded)

lemma Balanced.of_same {h : List Op} {p q : Pending} (hb : Balanced h p) (hsame : p.Same q) :
    Balanced h q := by
  rw [Balanced, hsame.queue, hsame.scheduled, hsame.expanded]
  exact hb

lemma Balanced.fetched {h : List Op} {p q : Pending} (hb : Balanced h p) {op : Op}
    (hop : Fetched p q (some op)) : Balanced (h ++ [op]) q := by
  rw [Balanced, List.perm_iff_count] at hb ⊢
  intro x
  have hx := hb x
  simp only [List.count_append] at hx ⊢
  cases hop with
  | expanded _ _ _ _ hqueue hscheduled hexpanded =>
      rw [hqueue, hscheduled, hexpanded, List.count_append]
      omega
  | queued _ _ hqueue hscheduled hexpanded =>
      have hpop := hqueue.count_eq x
      rw [← List.singleton_append, List.count_append] at hpop
      rw [hscheduled, hexpanded]
      omega

lemma Balanced.refilled {h added : List Op} {p q : Pending} (hb : Balanced h p)
    (hfill : Refilled added p q) : Balanced h q := by
  rw [Balanced, List.perm_iff_count] at hb ⊢
  intro x
  have hx := hb x
  have hpush := hfill.queue.count_eq x
  rw [hfill.scheduled, hfill.expanded]
  simp only [List.count_append] at hx hpush ⊢
  omega

/-- A new generator, once the queue of the last one is empty. -/
lemma Balanced.refreshed {h : List Op} {p q : Pending} (hb : Balanced h p) (hempty : p.queue = [])
    (hscheduled : q.scheduled = p.scheduled ++ q.queue) (hexpanded : q.expanded = p.expanded) :
    Balanced h q := by
  rw [Balanced, List.perm_iff_count] at hb ⊢
  intro x
  have hx := hb x
  rw [hscheduled, hexpanded]
  simp only [hempty, List.count_append, List.count_nil] at hx ⊢
  omega

/-! ## The measure -/

/-- The ops in the queue that may be retried, all the ops in the queue, and the sub-queries. -/
def Pending.measure (p : Pending) : ℕ ×ₗ ℕ ×ₗ ℕ :=
  toLex (p.queue.countP Op.retriable, toLex (p.queue.length, p.expansion))

lemma Refilled.countP_retriable {added : List Op} {p q : Pending} (h : Refilled added p q) :
    q.queue.countP Op.retriable = p.queue.countP Op.retriable := by
  have hadded : added.countP Op.retriable = 0 :=
    List.countP_eq_zero.mpr fun op hop => by simp [not_retriable_of_isFollowup (h.followup op hop)]
  rw [h.queue.countP_eq, List.countP_append, hadded, Nat.add_zero]

/-- Handing an op out and handling it lowers the measure. -/
lemma measure_lt {p q r : Pending} {op : Op} {added : List Op} (hop : Fetched p q (some op))
    (hfill : Refilled added q r)
    (hkind : op.retriable = false → added = [] ∧ r.expansion ≤ q.expansion) :
    r.measure < p.measure := by
  have hcount := hfill.countP_retriable
  have hlength := hfill.queue.length_eq
  rw [List.length_append] at hlength
  rw [Pending.measure, Pending.measure, Prod.Lex.toLex_lt_toLex, Prod.Lex.toLex_lt_toLex]
  cases hop with
  | expanded _ hexp hleft _ hqueue _ _ =>
      obtain ⟨rfl, hle⟩ := hkind (not_retriable_of_isExpanded hexp)
      rw [hqueue] at hcount hlength
      rw [List.length_nil, Nat.add_zero] at hlength
      exact Or.inr ⟨hcount, Or.inr ⟨hlength, Nat.lt_of_le_of_lt hle hleft⟩⟩
  | queued _ _ hqueue _ _ =>
      have hpopped := hqueue.countP_eq Op.retriable
      have hpoppedLength := hqueue.length_eq
      rw [List.countP_cons] at hpopped
      rw [List.length_cons] at hpoppedLength
      cases hretriable : op.retriable with
      | true =>
          rw [hretriable, if_pos rfl] at hpopped
          left
          simp only
          omega
      | false =>
          obtain ⟨rfl, -⟩ := hkind hretriable
          rw [hretriable, if_neg (by simp)] at hpopped
          rw [List.length_nil] at hlength
          refine Or.inr ⟨?_, Or.inl ?_⟩
          · simp only
            omega
          · simp only
            omega

/-! ## One round of the loop -/

section Round

variable {σ F : Type} {W : World σ F} (G : Schedule W)

/-- What the generators hold is left alone. -/
def keepsView : Traced.Rel (Session σ) Call := fun _ s t _ => G.view t.env = G.view s.env

/-- AIR leaves alone what the generators hold. -/
lemma Schedule.keptByAir (p : Pending) : KeptByAir W fun s => G.view s = p where
  command cmd s h := (G.command cmd s).trans h
  checkValidAgain early s h := (G.checkValidAgain early s).trans h
  finishQuery s h := (G.finishQuery s).trans h
  openSection marker label s h := (G.openSection marker label s).trans h
  sectionClose s h := (G.sectionClose s).trans h

lemma nextOp_run (s : Session σ) :
    let r := W.expandErrorsNext s.env
    let f := W.functionOpgenNext r.2
    nextOp W s = match r.1 with
      | some (.ok op) => ⟨.ok (some op), { s with env := r.2 }, []⟩
      | some (.error diag) => ⟨.ok f.1, { s with env := f.2 }, [.report diag]⟩
      | none => ⟨.ok f.1, { s with env := f.2 }, []⟩ := by
  intro r f
  have hasked : (askVir W.expandErrorsNext fun _ => [] : Prog σ _) s
      = ⟨.ok r.1, { s with env := r.2 }, []⟩ := rfl
  rw [nextOp, Traced.bind_ok (by rw [hasked]), hasked]
  rcases r.1 with _ | diag | op
  · rfl
  · rfl
  · rfl

/-- Asking the queue after the expansion had nothing to hand out. -/
lemma fetched_queue {s : σ} (hnone : ∀ op, (W.expandErrorsNext s).1 ≠ some (.ok op)) :
    let f := W.functionOpgenNext (W.expandErrorsNext s).2
    Fetched (G.view s) (G.view f.2) f.1 := by
  intro f
  have hsame := G.expandErrorsNext_none s hnone
  cases hf : f.1 with
  | none =>
      obtain ⟨hempty, hsame'⟩ := G.functionOpgenNext_none _ hf
      exact .none (hsame.queue ▸ hempty) (hsame.trans hsame')
  | some op =>
      obtain ⟨hgenerators, hqueue, hscheduled, hexpanded⟩ := G.functionOpgenNext_some _ op hf
      exact .queued op (hgenerators.trans hsame.generators) (hsame.queue ▸ hqueue)
        (hscheduled.trans hsame.scheduled) (hexpanded.trans hsame.expanded)

/-- `next_op` always returns, and hands out an op of the expansion or of the queue. -/
lemma nextOp_fetches (s : Session σ) :
    ∃ op t calls, nextOp W s = ⟨.ok op, t, calls⟩ ∧ Fetched (G.view s.env) (G.view t.env) op
      ∧ handled calls = [] := by
  have hrun := nextOp_run (W := W) s
  cases hr : (W.expandErrorsNext s.env).1 with
  | none =>
      simp only [hr] at hrun
      exact ⟨_, _, _, hrun, fetched_queue G fun op => by simp [hr], rfl⟩
  | some answer =>
      cases answer with
      | error diag =>
          simp only [hr] at hrun
          exact ⟨_, _, _, hrun, fetched_queue G fun op => by simp [hr], rfl⟩
      | ok op =>
          simp only [hr] at hrun
          obtain ⟨hkind, hleft, hgenerators, hqueue, hscheduled, hexpanded⟩ :=
            G.expandErrorsNext_op s.env op hr
          exact ⟨_, _, _, hrun, .expanded op hkind hleft hgenerators hqueue hscheduled hexpanded,
            rfl⟩

/-! ### The handling of an op -/

lemma keepsView_dispatch (fuel : ℕ) (op : Op) :
    Traced.Keeps (keepsView G) (dispatch W fuel op) :=
  fun s => (G.keptByAir (G.view s.env)).dispatch fuel op s rfl

lemma dispatch_queryOp {fuel : ℕ} {op : Op} {s : Session σ} {r : Option QueryOp × Found}
    (h : (dispatch W fuel op s).result = .ok r) : r.1 = op.queryOp := by
  rw [Op.queryOp]
  cases hk : op.kind with
  | context commands =>
      rw [dispatch_context W fuel hk] at h
      rw [← Except.ok.inj h]
  | query list queryOp =>
      rw [dispatch_query W fuel hk] at h
      cases hran : (Traced.fold (runCommands W fuel queryOp op.funcName op.funcSpan) {} list
          s).result with
      | error e =>
          rw [hran] at h
          exact absurd h (by simp [Except.map])
      | ok found =>
          rw [hran] at h
          rw [← Except.ok.inj h]

lemma refilled_nil (p : Pending) : Refilled [] p p :=
  ⟨fun _ hop => absurd hop List.not_mem_nil, rfl, by rw [List.append_nil], (List.append_nil _).symm,
    rfl⟩

lemma Refilled.of_same {added : List Op} {p q r : Pending} (h : Refilled added p q)
    (hsame : q.Same r) : Refilled added p r :=
  ⟨h.followup, hsame.generators.trans h.generators, hsame.queue ▸ h.queue,
    hsame.scheduled.trans h.scheduled, hsame.expanded.trans h.expanded⟩

/-- How the handling of an op changes what the generators hold: only ops of a kind that is retried
put something into the queue. -/
def Fed (op : Op) (p q : Pending) : Prop :=
  ∃ added, Refilled added p q ∧ (op.retriable = false → added = [] ∧ q.expansion ≤ p.expansion)

lemma fed_refl (op : Op) (p : Pending) : Fed op p p :=
  ⟨[], refilled_nil p, fun _ => ⟨rfl, Nat.le_refl _⟩⟩

/-- It is told to the expansion how a sub-query went. -/
lemma reportExpanded_view (retryKind : Option QueryOp) (found : Found) (s : Session σ) :
    let t := (reportExpanded W retryKind found s).state
    (G.view s.env).Same (G.view t.env) ∧ (G.view t.env).expansion ≤ (G.view s.env).expansion := by
  intro t
  simp only [t, reportExpanded]
  split_ifs
  · exact G.reportExpandErrorResult _ s.env
  · exact ⟨⟨rfl, rfl, rfl, rfl⟩, Nat.le_refl _⟩

lemma reportExpanded_result (retryKind : Option QueryOp) (found : Found) (s : Session σ) :
    (reportExpanded W retryKind found s).result = .ok () := by
  rw [reportExpanded]
  split_ifs <;> rfl

/-- The retry, if it does not stop the run. -/
lemma autoRecommends_fed {op : Op} {found : Found} {s : Session σ}
    (h : (autoRecommends W op op.queryOp found s).result = .ok ()) :
    let t := (autoRecommends W op op.queryOp found s).state
    ∃ added, Refilled added (G.view s.env) (G.view t.env)
      ∧ (op.retriable = false → added = [] ∧ G.view t.env = G.view s.env) := by
  intro t
  simp only [t]
  rw [autoRecommends] at h ⊢
  split_ifs at h ⊢ with hretry
  · rw [Traced.bind_ok rfl, orStop, Traced.ofExcept_calls] at h ⊢
    have hok : (W.retryWithRecommends op true s.env).1 = .ok () := by
      have hmap : (W.retryWithRecommends op true s.env).1.mapError Stop.err = .ok () := h
      cases hanswer : (W.retryWithRecommends op true s.env).1 with
      | error e =>
          rw [hanswer] at hmap
          exact absurd hmap (by simp [Except.mapError])
      | ok u => rfl
    obtain ⟨added, hadded⟩ := G.retryWithRecommends op s.env hok
    refine ⟨added, hadded, fun hnot => ?_⟩
    rw [Bool.and_eq_true] at hretry
    exact absurd (hretry.2.symm.trans hnot) (by simp)
  · exact ⟨[], refilled_nil _, fun _ => ⟨rfl, rfl⟩⟩

/-- An error of another crate is an error. -/
def Stop.isErr : Stop → Prop
  | .err _ => True
  | .outOfFuel => False

lemma stopsWith_orStop {α : Type} (r : Except VirErr α) :
    Traced.StopsWith Stop.isErr (orStop r : Prog σ α) := by
  intro s e he
  rw [orStop, Traced.ofExcept_calls] at he
  cases r with
  | error err => exact Except.error.inj he ▸ trivial
  | ok a => exact absurd he (by simp [Except.mapError])

lemma stopsWith_autoRecommends (op : Op) (retryKind : Option QueryOp) (found : Found) :
    Traced.StopsWith Stop.isErr (autoRecommends W op retryKind found) := by
  rw [autoRecommends]
  split_ifs
  · exact (Traced.stopsWith_of_ok fun _ => ⟨_, rfl⟩).bind fun r => stopsWith_orStop r
  · exact Traced.stopsWith_of_ok fun _ => ⟨_, rfl⟩

/-- **The handling of an op**, unless it stops the run with an error. -/
lemma handleOpBody_fed (fuel : ℕ) (op : Op) (s : Session σ)
    (h : ∀ e, (handleOpBody W fuel op s).result ≠ .error (.err e)) :
    Fed op (G.view s.env) (G.view (handleOpBody W fuel op s).state.env) := by
  have hdispatch : G.view (dispatch W fuel op s).state.env = G.view s.env :=
    keepsView_dispatch G fuel op s
  cases hr : (dispatch W fuel op s).result with
  | error e =>
      rw [handleOpBody, Traced.bind_error hr]
      simp only [hdispatch]
      exact fed_refl op _
  | ok r =>
      have hkind := dispatch_queryOp hr
      rw [handleOpBody, Traced.bind_ok hr, hkind] at h ⊢
      set u := (dispatch W fuel op s).state with hu
      cases hretry : (autoRecommends W op op.queryOp r.2 u).result with
      | error e =>
          have herr := stopsWith_autoRecommends op op.queryOp r.2 u e hretry
          rw [Traced.bind_error hretry] at h
          cases e with
          | err err => exact absurd rfl (h err)
          | outOfFuel => exact herr.elim
      | ok _ =>
          obtain ⟨added, hadded, hnot⟩ := autoRecommends_fed G hretry
          rw [Traced.bind_ok hretry]
          obtain ⟨hsame, hle⟩ := reportExpanded_view G op.queryOp r.2
            (autoRecommends W op op.queryOp r.2 u).state
          rw [hdispatch] at hadded hnot
          refine ⟨added, hadded.of_same hsame, fun hkind' => ?_⟩
          obtain ⟨hnil, hview⟩ := hnot hkind'
          exact ⟨hnil, hview ▸ hle⟩

/-! ### An op in its section -/

lemma handled_append (c d : List Call) : handled (c ++ d) = handled c ++ handled d :=
  List.filterMap_append

lemma handled_eq_nil {calls : List Call} (h : ∀ x ∈ calls, x.outside) : handled calls = [] :=
  List.filterMap_eq_nil_iff.mpr fun x hx => (h x hx).1

lemma rotateWrapper_result (krate : Option Str) (s : Session σ) :
    (rotateWrapper W krate s).result = .ok () := by
  have hopened : ∀ t, (openWrapper W krate t).result = .ok () := by
    intro t
    cases krate <;> rfl
  rw [rotateWrapper, Traced.bind_ok rfl]
  split_ifs
  · rw [Traced.bind_ok (closeWrapper_result W _), Traced.bind_ok (hopened _)]
    rfl
  · rfl

lemma keepsView_closeWrapper : Traced.Keeps (keepsView G) (closeWrapper W) :=
  fun s => (G.keptByAir (G.view s.env)).closeWrapper s rfl

lemma keepsView_rotateWrapper (krate : Option Str) :
    Traced.Keeps (keepsView G) (rotateWrapper W krate) :=
  fun s => (G.keptByAir (G.view s.env)).rotateWrapper krate s rfl

/-- Handling an op runs out of fuel only in a check. -/
lemma handleOpBody_outOfFuel {fuel : ℕ} {op : Op} {s : Session σ}
    (h : (handleOpBody W fuel op s).result = .error .outOfFuel) :
    ¬AllFinished (handleOpBody W fuel op s).calls := by
  cases hr : (dispatch W fuel op s).result with
  | error e =>
      rw [handleOpBody, Traced.bind_error hr]
      cases hk : op.kind with
      | context commands =>
          rw [dispatch_context W fuel hk] at hr
          exact absurd hr (by simp)
      | query list queryOp =>
          have hqueries : Checked _ _ _ _ := checked_queries W fuel op queryOp list s
          rw [dispatch_query W fuel hk] at hr ⊢
          cases hran : (Traced.fold (runCommands W fuel queryOp op.funcName op.funcSpan) {} list
              s).result with
          | error e => exact hqueries.cutShort (by rw [hran]; rfl)
          | ok found =>
              rw [hran] at hr
              exact absurd hr (by simp [Except.map])
  | ok r =>
      have hafter : Traced.StopsWith Stop.isErr (do
          autoRecommends W op r.1 r.2
          reportExpanded W r.1 r.2 : Prog σ Unit) :=
        (stopsWith_autoRecommends op r.1 r.2).bind fun _ =>
          Traced.stopsWith_of_ok fun t => ⟨(), reportExpanded_result r.1 r.2 t⟩
      rw [handleOpBody, Traced.bind_ok hr] at h
      exact (hafter _ _ h).elim

/-- What a round of the loop does with the op it has fetched. -/
structure Stepped (op : Op) (s : Session σ) (ran : Ran (Session σ) Call Stop Unit) : Prop where
  handled : handled ran.calls = [op]
  fed : (∀ e, ran.result ≠ .error (.err e)) → Fed op (G.view s.env) (G.view ran.state.env)
  unfinished : ran.result = .error .outOfFuel → ¬AllFinished ran.calls

lemma stepOp_stepped (fuel : ℕ) (op : Op) (s : Session σ) :
    Stepped G op s (stepOp W fuel op s) := by
  let rotated := rotateWrapper W op.krate s
  have hview : G.view rotated.state.env = G.view s.env := keepsView_rotateWrapper G op.krate s
  have houtside : ∀ x ∈ rotated.calls, x.outside := by
    refine respects_outside.rotateWrapper (fun _ _ => ⟨rfl, rfl⟩) ⟨rfl, rfl⟩ ?_ op.krate s
    exact fun _ => outside_modify _
  let opened := (tellAir (W.openSection (opMarker op rotated.state.wrapperKrate) op.airComment)
    (.openSection (opMarker op rotated.state.wrapperKrate) op.airComment) : Prog σ Unit)
      rotated.state
  let body := handleOpBody W fuel op opened.state
  have hopened : G.view opened.state.env = G.view s.env :=
    (G.openSection _ _ _).trans hview
  have hrun : stepOp W fuel op s = ⟨body.result, (tellAir W.sectionClose .sectionClose
      body.state).state, rotated.calls ++ ([.openSection (opMarker op rotated.state.wrapperKrate)
        op.airComment] ++ (.handleOp op :: body.calls ++ [.sectionClose]))⟩ := by
    rw [stepOp, Traced.bind_ok (rotateWrapper_result op.krate s), inSection_run]
  have hwithin : ∀ x ∈ body.calls, x.withinOp = true :=
    (respects_callsIn fun x => x.withinOp = true).handleOpBody (fun _ h => h) fuel op opened.state
  rw [hrun]
  refine ⟨?_, ?_, ?_⟩
  · have hbody : handled body.calls = [] := by
      refine List.filterMap_eq_nil_iff.mpr fun x hx => ?_
      have hx' := hwithin x hx
      cases x <;> first | rfl | exact absurd hx' (by simp [Call.withinOp])
    rw [handled_append, handled_eq_nil houtside, List.nil_append, List.cons_append]
    show op :: handled (body.calls ++ [.sectionClose]) = [op]
    rw [handled_append, hbody]
    rfl
  · intro hnot
    have hfed := handleOpBody_fed G fuel op opened.state hnot
    have hclosed : G.view (tellAir W.sectionClose .sectionClose body.state).state.env
        = G.view body.state.env := G.sectionClose _
    rw [hopened] at hfed
    rw [hclosed]
    exact hfed
  · intro hout hall
    have hbody : AllFinished (body.calls ++ [.sectionClose]) :=
      (Closed.of_append_right (Closed.of_append_right hall)).2
    refine handleOpBody_outOfFuel hout (hbody.of_append_left fun x hx => ?_)
    rw [List.mem_singleton.mp hx]
    rfl

end Round

end VerusExplorer
