import VerusExplorer.Lib.Protocol
import VerusExplorer.Verify.Rejections

/-!
# The conversation with AIR

Each module has an AIR context of its own.  It is configured, gets the declarations and then one op
after another; a query is open from its `CheckValid` on, and nothing but probes may come before it
is finished (`verus.rs`).

* `Phase`, `contextProtocol`, `sessionProtocol` — what may be called when.
* `Rested` — the phase a program may leave when it began between ops.
* `OfModule` — the calls of a module, from the configuration of its context on.
* **`session_protocol`** — a run is cut into its modules and keeps to the protocol, whatever the
  other crates answer and wherever it stops; only a run that is out of fuel leaves a query open.
-/

namespace VerusExplorer

open Traced

/-! ## The protocol -/

def Op.isQuery (op : Op) : Bool := !op.isContext

inductive Phase where
  /-- There is no context. -/
  | idle
  /-- A module has been begun; it has no context yet. -/
  | begun
  | configuring
  /-- Between ops. -/
  | ready
  /-- In an op, with the commands it still has. -/
  | inOp (isQuery : Bool) (rest : List Command)
  /-- A query is open, with its last answer. -/
  | asked (r : ValidityResult) (rest : List Command)
  /-- A query was left open. -/
  | cut
  deriving DecidableEq

/-- What a new context is told. -/
def configuration : List Call :=
  [.setZ3Param "air_recommended_options".toList "true".toList, .setRlimit (60 * 3000000)]

/-- What a module may call.  In a query op a check opens a query.  The declarations of a module and
of a Context op are fed without a look at what they are. -/
def contextProtocol : Protocol Phase Call
  | .begun, .setZ3Param key value =>
      if key = "air_recommended_options".toList ∧ value = "true".toList then some .configuring
      else none
  | .begun, .reportAs _ .error => some .idle
  | .configuring, .setRlimit rlimit => if rlimit = 60 * 3000000 then some .ready else none
  | .ready, .command _ _ => some .ready
  | .ready, .openSection _ _ => some .ready
  | .ready, .sectionClose => some .ready
  | .ready, .report _ => some .ready
  | .ready, .reportAs _ _ => some .ready
  | .ready, .handleOp op => some (.inOp op.isQuery op.commands)
  | .inOp isQuery (c :: rest), .command c' r =>
      if c' = c then some (if isQuery && c.isCheck then .asked r rest else .inOp isQuery rest)
      else none
  | .inOp isQuery [], .retryWithRecommends _ _ => some (.inOp isQuery [])
  | .inOp isQuery [], .reportExpandErrorResult _ => some (.inOp isQuery [])
  | .inOp _ [], .sectionClose => some .ready
  | .asked r rest, .reportAs _ _ => some (.asked r rest)
  | .asked r rest, .verusVerdict _ => some (.asked r rest)
  | .asked r rest, .checkValidAgain _ r' => if r.canProbe then some (.asked r' rest) else none
  | .asked r rest, .finishQuery => if r.canProbe then none else some (.inOp true rest)
  | .asked _ _, .sectionClose => some .cut
  | .cut, .sectionClose => some .cut
  | _, _ => none

/-- A module begins where the one before has ended, and without a context. -/
def sessionProtocol : Protocol Phase Call := fun q c =>
  match c with
  | .verifyModule _ => if q = .idle ∨ q = .ready then some .begun else none
  | c => contextProtocol q c

variable {σ F α : Type} (W : World σ F)

/-- Only a stop for lack of fuel leaves a query open. -/
def LeftBetween : Stop → Phase → Prop
  | .outOfFuel, q => q = .ready ∨ q = .cut
  | .err _, q => q = .ready

/-- How a program that began between ops leaves the context. -/
abbrev Rested : Except Stop α → Phase → Prop := Leaves (fun q => q = .ready) LeftBetween

/-- A stop for lack of fuel, with a query open. -/
def LeftOpen : Stop → Phase → Prop
  | .outOfFuel, q => ∃ r rest, q = .asked r rest
  | .err _, _ => False

/-- The same, or an error between commands. -/
def LeftOp (isQuery : Bool) : Stop → Phase → Prop
  | .outOfFuel, q => ∃ r rest, q = .asked r rest
  | .err _, q => q = .inOp isQuery []

lemma leftOp_of_leftOpen {isQuery : Bool} {e : Stop} {q : Phase} (h : LeftOpen e q) :
    LeftOp isQuery e q := by
  cases e with
  | err e => exact h.elim
  | outOfFuel => exact h

/-! ## What the protocol says of the ops -/

/-- The commands an op still has. -/
def Phase.pending : Phase → Option (List Command)
  | .inOp _ rest => some rest
  | .asked _ rest => some rest
  | _ => none

/-- No query was left open. -/
def Phase.Between (q : Phase) : Prop := q = .idle ∨ q = .ready

lemma cut_step {c : Call} {q : Phase} (h : sessionProtocol .cut c = some q) : q = .cut := by
  cases c with
  | sectionClose => exact (Option.some.inj h).symm
  | _ => cases h

lemma cut_of_after {calls : List Call} {q : Phase}
    (h : sessionProtocol.after .cut calls = some q) : q = .cut := by
  refine (forall_of_after (I := fun q => q = .cut) (p := fun _ => True) ?_ rfl h).1
  rintro _ c q' rfl hstep
  exact ⟨cut_step hstep, trivial⟩

/-- A call made in an op ends it, or it feeds the next command, or it feeds none. -/
lemma pending_of_step {q q' : Phase} {c : Call} {rest : List Command} (hq : q.pending = some rest)
    (h : sessionProtocol q c = some q') :
    (c.endsOp = true ∧ (rest = [] ∨ q' = .cut))
      ∨ c.endsOp = false ∧ ∃ rest', q'.pending = some rest' ∧ rest = c.fed.toList ++ rest' := by
  cases q with
  | inOp isQuery cmds =>
      obtain rfl := Option.some.inj hq
      cases cmds with
      | nil =>
          cases c with
          | sectionClose => exact .inl ⟨rfl, .inl rfl⟩
          | retryWithRecommends op fromError =>
              obtain rfl := Option.some.inj h
              exact .inr ⟨rfl, [], rfl, rfl⟩
          | reportExpandErrorResult res =>
              obtain rfl := Option.some.inj h
              exact .inr ⟨rfl, [], rfl, rfl⟩
          | _ => cases h
      | cons cmd cmds =>
          cases c with
          | command cmd' r =>
              obtain ⟨rfl, h⟩ := Option.ite_none_right_eq_some.mp h
              obtain rfl := Option.some.inj h
              refine .inr ⟨rfl, cmds, ?_, rfl⟩
              split_ifs <;> rfl
          | _ => cases h
  | asked r cmds =>
      obtain rfl := Option.some.inj hq
      cases c with
      | sectionClose => exact .inl ⟨rfl, .inr (Option.some.inj h).symm⟩
      | reportAs msg level =>
          obtain rfl := Option.some.inj h
          exact .inr ⟨rfl, cmds, rfl, rfl⟩
      | verusVerdict line =>
          obtain rfl := Option.some.inj h
          exact .inr ⟨rfl, cmds, rfl, rfl⟩
      | checkValidAgain early r' =>
          obtain ⟨-, h⟩ := Option.ite_none_right_eq_some.mp h
          obtain rfl := Option.some.inj h
          exact .inr ⟨rfl, cmds, rfl, rfl⟩
      | finishQuery =>
          obtain ⟨-, h⟩ := Option.ite_none_left_eq_some.mp h
          obtain rfl := Option.some.inj h
          exact .inr ⟨rfl, cmds, rfl, rfl⟩
      | _ => cases h
  | _ => cases hq

lemma pending_of_handleOp {op : Op} {q q' : Phase}
    (h : sessionProtocol q (.handleOp op) = some q') : q'.pending = some op.commands := by
  cases q with
  | ready =>
      obtain rfl := Option.some.inj h
      rfl
  | inOp isQuery rest => cases rest <;> cases h
  | _ => cases h

/-- What is fed until the op ends is what it still had. -/
lemma fed_of_pending {calls : List Call} {q q' : Phase} {rest : List Command}
    (hq : q.pending = some rest) (h : sessionProtocol.after q calls = some q')
    (hend : q'.Between) :
    (calls.takeWhile fun c => !c.endsOp).filterMap Call.fed = rest := by
  induction calls generalizing q rest with
  | nil =>
      obtain rfl := Option.some.inj h
      rcases hend with rfl | rfl <;> cases hq
  | cons c calls ih =>
      obtain ⟨q₁, hstep, h⟩ := Option.bind_eq_some_iff.mp h
      rcases pending_of_step hq hstep with ⟨hc, hrest⟩ | ⟨hc, rest', hq₁, rfl⟩
      · rcases hrest with rfl | rfl
        · simp [hc]
        · obtain rfl := cut_of_after h
          rcases hend with hend | hend <;> cases hend
      · have htake : (c :: calls).takeWhile (fun c => !c.endsOp)
            = c :: calls.takeWhile fun c => !c.endsOp := by simp [hc]
        rw [htake, List.filterMap_cons, ih hq₁ h]
        cases c.fed <;> rfl

/-- Where the protocol is kept and no query is left open, each op is fed all its commands. -/
lemma fed_of_between {calls : List Call} {q q' : Phase}
    (h : sessionProtocol.after q calls = some q') (hend : q'.Between) :
    ∀ p ∈ opSegments calls, p.2.filterMap Call.fed = p.1.commands := by
  induction calls generalizing q with
  | nil => exact fun _ hp => absurd hp List.not_mem_nil
  | cons c calls ih =>
      obtain ⟨q₁, hstep, hafter⟩ := Option.bind_eq_some_iff.mp h
      intro p hp
      rcases List.mem_append.mp hp with hp | hp
      · obtain ⟨op, hop, rfl⟩ := Option.map_eq_some_iff.mp (Option.mem_toList.mp hp)
        cases c with
        | handleOp op' =>
            obtain rfl := Option.some.inj hop
            exact fed_of_pending (pending_of_handleOp hstep) hafter hend
        | _ => cases hop
      · exact ih hafter p hp

/-! ## One op -/

section Op

/-- The answer to a command decides on the phase. -/
lemma speaks_feed {q : Phase} {cmd : Command} {P : Except Stop ValidityResult → Phase → Prop}
    (h : ∀ r, ∃ q', contextProtocol q (.command cmd r) = some q' ∧ P (.ok r) q') :
    Speaks contextProtocol q (feed W cmd) P := by
  refine speaks_act fun r => ?_
  obtain ⟨q', hq', hP⟩ := h r
  exact ⟨q', after_cons hq' [], hP⟩

/-- A question whose calls keep the phase. -/
lemma moves_askVir {q : Phase} {f : σ → α × σ} {calls : α → List Call}
    (h : ∀ a, ∀ c ∈ calls a, contextProtocol q c = some q) :
    Moves contextProtocol q (askVir f calls : Prog σ α) q :=
  moves_act fun a => after_eq_self (h a)

/-- A question that is no call. -/
lemma moves_silent {q : Phase} (f : σ → α × σ) :
    Moves contextProtocol q (askVir f fun _ => [] : Prog σ α) q :=
  moves_act fun _ => rfl

lemma moves_tellAir {q q' : Phase} {f : σ → LogText × σ} {c : Call}
    (hc : contextProtocol q c = some q') : Moves contextProtocol q (tellAir f c : Prog σ Unit) q' :=
  moves_act fun _ => after_cons hc []

/-- The probes go on until an answer allows no other one. -/
lemma speaks_probe (c : Check) (rest : List Command) :
    ∀ (fuel : ℕ) (b : Budget) (first : Bool) (found : Found) (r : ValidityResult),
      Speaks contextProtocol (.asked r rest) (probe W c fuel b first found r : Prog σ Found)
        (Leaves (fun q => ∃ r', q = .asked r' rest ∧ r'.canProbe = false) LeftOpen) := by
  have hcalls : ∀ (first : Bool) (r : ValidityResult),
      contextProtocol.after (.asked r rest) (resultCalls c first r) = some (.asked r rest) :=
    fun first r => after_eq_self (forall_mem_resultCalls (fun _ _ => rfl) fun _ => rfl)
  have hend : ∀ (fuel : ℕ) (b : Budget) (first : Bool) (found : Found) (r : ValidityResult),
      r.canProbe = false →
      Speaks contextProtocol (.asked r rest) (probe W c fuel b first found r : Prog σ Found)
        (Leaves (fun q => ∃ r', q = .asked r' rest ∧ r'.canProbe = false) LeftOpen) := by
    intro fuel b first found r hr s
    rw [probe_last W c b first found hr]
    exact ⟨_, hcalls first r, r, rfl, hr⟩
  intro fuel
  induction fuel with
  | zero =>
      intro b first found r
      cases hr : r.canProbe with
      | false => exact hend 0 b first found r hr
      | true =>
          intro s
          rw [probe_zero W c b first found hr]
          exact ⟨_, hcalls first r, r, rest, rfl⟩
  | succ fuel ih =>
      intro b first found r
      cases hr : r.canProbe with
      | false => exact hend (fuel + 1) b first found r hr
      | true =>
          intro s
          rw [probe_succ W c b first found hr]
          obtain ⟨q', hafter, hq'⟩ := ih b.spend false (found.add c r)
            (W.checkValidAgain b.spend.onlyCheckEarlier s.env).1 _
          refine ⟨q', ?_, hq'⟩
          rw [after_append, hcalls first r]
          refine (after_cons ?_ _).trans hafter
          exact if_pos hr

/-- One command of a query op. -/
lemma speaks_runCommand (fuel : ℕ) (c : Check) (found : Found) (cmd : Command)
    (rest : List Command) :
    Speaks contextProtocol (.inOp true (cmd :: rest)) (runCommand W fuel c found cmd : Prog σ Found)
      (Leaves (fun q => q = .inOp true rest) LeftOpen) := by
  have hplain : cmd.isCheck = false →
      Speaks contextProtocol (.inOp true (cmd :: rest)) (feed W cmd)
        (Leaves (fun q => q = .inOp true rest) LeftOpen) := by
    intro hcheck
    refine speaks_feed W fun r => ⟨_, if_pos rfl, ?_⟩
    rw [hcheck]
    rfl
  rw [runCommand]
  cases cmd with
  | checkValid query =>
      have hfeed : Speaks contextProtocol (.inOp true (.checkValid query :: rest))
          (feed W (.checkValid query)) fun r q => ∃ a, r = .ok a ∧ q = .asked a rest :=
        speaks_feed W fun r => ⟨_, if_pos rfl, r, rfl, rfl⟩
      refine hfeed.bind ?_ ?_
      · rintro _ _ ⟨r, h, rfl⟩
        obtain rfl := Except.ok.inj h
        refine (speaks_probe W c rest fuel {} true found _).bind_leaves ?_
        rintro found' _ ⟨r', rfl, hlast⟩
        have hfinish : contextProtocol (.asked r' rest) .finishQuery = some (.inOp true rest) :=
          if_neg (by simp [hlast])
        exact (moves_tellAir hfinish).bind fun _ => speaks_pure rfl
      · rintro _ _ ⟨_, h, -⟩
        cases h
  | push => exact (hplain rfl).bind_leaves fun _ _ hq => speaks_pure hq
  | pop => exact (hplain rfl).bind_leaves fun _ _ hq => speaks_pure hq
  | setOption key value => exact (hplain rfl).bind_leaves fun _ _ hq => speaks_pure hq
  | global decl => exact (hplain rfl).bind_leaves fun _ _ hq => speaks_pure hq

/-- All the commands of a query op. -/
lemma speaks_queries (fuel : ℕ) (queryOp : QueryOp) (funcName funcSpan : Str)
    (list : List CommandsWithContext) :
    Speaks contextProtocol (.inOp true (list.flatMap (·.commands)))
      (Traced.fold (runCommands W fuel queryOp funcName funcSpan) {} list : Prog σ Found)
      (Leaves (fun q => q = .inOp true []) LeftOpen) := by
  refine speaks_fold (I := fun (list : List CommandsWithContext) (q : Phase) =>
    q = .inOp true (list.flatMap (·.commands))) (fun found cmds list q hq => ?_) list _ rfl
  subst hq
  refine (speaks_fold
    (I := fun cmds (q : Phase) => q = .inOp true (cmds ++ list.flatMap (·.commands)))
    (fun found cmd rest q hq => ?_) cmds.commands found rfl).mono fun _ _ h => h
  subst hq
  exact speaks_runCommand W fuel _ found cmd _

/-- The commands of a Context op. -/
lemma speaks_declarations (cmds : List Command) :
    Speaks contextProtocol (.inOp false cmds) (feedAll W cmds : Prog σ Unit)
      (Leaves (fun q => q = .inOp false []) LeftOpen) := by
  refine speaks_each (I := fun rest (q : Phase) => q = .inOp false rest)
    (fun cmd rest q hq => ?_) cmds rfl
  subst hq
  have hfeed : Speaks contextProtocol (.inOp false (cmd :: rest)) (feed W cmd)
      (Leaves (fun q => q = .inOp false rest) LeftOpen) :=
    speaks_feed W fun _ => ⟨.inOp false rest, if_pos rfl, rfl⟩
  exact hfeed.bind_leaves fun _ _ hq => speaks_pure hq

lemma speaks_dispatch (fuel : ℕ) (op : Op) :
    Speaks contextProtocol (.inOp op.isQuery op.commands)
      (dispatch W fuel op : Prog σ (Option QueryOp × Found))
      (Leaves (fun q => q = .inOp op.isQuery []) LeftOpen) := by
  rw [dispatch, Op.isQuery, Op.isContext, Op.commands]
  cases op.kind with
  | context commands =>
      exact (speaks_declarations W commands).bind_leaves fun _ _ hq => speaks_pure hq
  | query list queryOp =>
      exact (speaks_queries W fuel queryOp op.funcName op.funcSpan list).bind_leaves
        fun _ _ hq => speaks_pure hq

/-- After its commands an op may ask for others. -/
lemma speaks_handleOpBody (fuel : ℕ) (op : Op) :
    Speaks contextProtocol (.inOp op.isQuery op.commands) (handleOpBody W fuel op : Prog σ Unit)
      (Leaves (fun q => q = .inOp op.isQuery []) (LeftOp op.isQuery)) := by
  refine (speaks_dispatch W fuel op).bind ?_ fun _ _ h => leftOp_of_leftOpen h
  rintro r _ rfl
  have hretry : Speaks contextProtocol (.inOp op.isQuery []) (autoRecommends W op r.1 r.2)
      (Leaves (fun q => q = .inOp op.isQuery []) (LeftOp op.isQuery)) := by
    rw [autoRecommends]
    split_ifs
    · refine (moves_askVir fun _ c hc => ?_).bind fun r => speaks_ofExcept ?_
      · rw [List.mem_singleton.mp hc]
        rfl
      · cases r <;> rfl
    · exact speaks_pure rfl
  refine hretry.bind_leaves ?_
  rintro _ _ rfl
  rw [reportExpanded]
  split_ifs
  · refine (moves_askVir fun _ c hc => ?_).speaks fun _ => rfl
    rw [List.mem_singleton.mp hc]
    rfl
  · exact speaks_pure rfl

/-- An op in its section, however it ends. -/
lemma speaks_inSection (fuel : ℕ) (op : Op) :
    Speaks contextProtocol .ready (inSection W fuel op : Prog σ Unit) Rested := by
  intro s
  rw [inSection_run]
  dsimp only
  obtain ⟨q', hafter, hq'⟩ := speaks_handleOpBody W fuel op
    ((tellAir (W.openSection (opMarker op s.wrapperKrate) op.airComment)
      (.openSection (opMarker op s.wrapperKrate) op.airComment) : Prog σ Unit) s).state
  revert hafter hq'
  generalize handleOpBody W fuel op _ = body
  intro hafter hq'
  have hcalls : contextProtocol.after .ready ([.openSection (opMarker op s.wrapperKrate)
      op.airComment] ++ (.handleOp op :: body.calls ++ [.sectionClose]))
        = contextProtocol.after q' [.sectionClose] := by
    rw [List.singleton_append, after_cons rfl, List.cons_append, after_cons rfl, after_append,
      hafter]
    rfl
  rw [hcalls]
  cases hr : body.result with
  | ok u =>
      rw [hr] at hq'
      obtain rfl : q' = _ := hq'
      exact ⟨.ready, rfl, rfl⟩
  | error e =>
      rw [hr] at hq'
      cases e with
      | err e =>
          obtain rfl : q' = _ := hq'
          exact ⟨.ready, rfl, rfl⟩
      | outOfFuel =>
          obtain ⟨r, rest, rfl⟩ := hq'
          exact ⟨.cut, rfl, .inr rfl⟩

end Op

/-! ## Between ops -/

section Between

lemma rested_bind {α β : Type} {x : Prog σ α} {f : α → Prog σ β}
    (hx : Speaks contextProtocol .ready x Rested)
    (hf : ∀ a, Speaks contextProtocol .ready (f a) Rested) :
    Speaks contextProtocol .ready (x >>= f) Rested := by
  refine hx.bind_leaves ?_
  rintro a _ rfl
  exact hf a

lemma speaks_each_rested {γ : Type} {f : γ → Prog σ Unit}
    (hf : ∀ c, Speaks contextProtocol .ready (f c) Rested) (cs : List γ) :
    Speaks contextProtocol .ready (each f cs) Rested := by
  refine speaks_each (I := fun _ (q : Phase) => q = .ready) (fun c _ q hq => ?_) cs rfl
  subst hq
  exact hf c

lemma speaks_orStop (r : Except VirErr α) :
    Speaks contextProtocol .ready (orStop r : Prog σ α) Rested := by
  refine speaks_ofExcept ?_
  cases r <;> rfl

lemma speaks_feedAll (cmds : List Command) :
    Speaks contextProtocol .ready (feedAll W cmds : Prog σ Unit) Rested := by
  refine speaks_each_rested (fun cmd => ?_) cmds
  exact Moves.bind (moves_act fun _ => rfl) fun _ => speaks_pure rfl

lemma speaks_feedModuleDecls (krateSst : KrateSst F) :
    Speaks contextProtocol .ready (feedModuleDecls W krateSst : Prog σ Unit) Rested := by
  refine rested_bind (speaks_feedAll W W.prelude) fun _ => ?_
  refine (moves_silent _).bind fun batches => ?_
  refine rested_bind (speaks_each_rested (speaks_feedAll W) batches) fun _ => ?_
  refine speaks_each_rested (fun f => ?_) krateSst.functions
  exact rested_bind (speaks_orStop _) (speaks_feedAll W)

lemma speaks_nextOp : Speaks contextProtocol .ready (nextOp W : Prog σ (Option Op)) Rested := by
  refine (moves_silent _).bind fun r => ?_
  rcases r with _ | ⟨diag | op⟩
  · exact (moves_silent _).bind fun _ => speaks_pure rfl
  · refine (moves_silent _).bind fun _ => ?_
    exact (moves_emit rfl).bind fun _ => speaks_pure rfl
  · exact (moves_pure _).bind fun _ => speaks_pure rfl

/-- A wrapper may be closed even where a query was left open. -/
lemma moves_closeWrapper {q : Phase} (hq : contextProtocol q .sectionClose = some q) :
    Moves contextProtocol q (closeWrapper W : Prog σ Unit) q := by
  intro s
  cases hw : s.wrapperKrate with
  | none =>
      rw [closeWrapper_of_none W hw]
      exact ⟨rfl, (), rfl⟩
  | some k =>
      rw [closeWrapper_of_some W hw]
      exact ⟨after_cons hq [], (), rfl⟩

lemma speaks_rotateWrapper (cur : Option Str) :
    Speaks contextProtocol .ready (rotateWrapper W cur : Prog σ Unit) Rested := by
  have hopen : Moves contextProtocol .ready (openWrapper W cur : Prog σ Unit) .ready := by
    cases cur with
    | none => exact moves_pure ()
    | some k => exact moves_tellAir rfl
  refine moves_get.bind fun s => ?_
  split_ifs
  · refine (moves_closeWrapper W rfl).bind fun _ => hopen.bind fun _ => ?_
    exact (moves_modify _).speaks fun _ => rfl
  · exact speaks_pure rfl

lemma speaks_stepOp (fuel : ℕ) (op : Op) :
    Speaks contextProtocol .ready (stepOp W fuel op : Prog σ Unit) Rested :=
  rested_bind (speaks_rotateWrapper W op.krate) fun _ => speaks_inSection W fuel op

lemma speaks_functionLoop (probeFuel : ℕ) : ∀ fuel : ℕ,
    Speaks contextProtocol .ready (functionLoop W probeFuel fuel : Prog σ Unit) Rested
  | 0 => speaks_stop (.inl rfl)
  | fuel + 1 => by
      rw [functionLoop]
      refine rested_bind (speaks_nextOp W) fun op => ?_
      cases op with
      | none => exact speaks_pure rfl
      | some op =>
          exact rested_bind (speaks_stepOp W probeFuel op) fun _ =>
            speaks_functionLoop probeFuel fuel

lemma speaks_opLoop (probeFuel opFuel : ℕ) : ∀ fuel : ℕ,
    Speaks contextProtocol .ready (opLoop W probeFuel opFuel fuel : Prog σ Unit) Rested
  | 0 => speaks_stop (.inl rfl)
  | fuel + 1 => by
      rw [opLoop]
      refine (moves_silent _).bind fun r => ?_
      refine rested_bind (speaks_orStop r) fun more => ?_
      split_ifs
      · exact rested_bind (speaks_functionLoop W probeFuel opFuel) fun _ =>
          speaks_opLoop probeFuel opFuel fuel
      · exact speaks_pure rfl

/-- The op loop is finished in the phase it leaves. -/
lemma speaks_finishOps {result : Except Stop Unit} {q : Phase} (h : Rested result q) :
    Speaks contextProtocol q (finishOps W result : Prog σ Unit) Rested := by
  have hq : contextProtocol q .sectionClose = some q := by
    cases result with
    | ok u =>
        obtain rfl : q = _ := h
        rfl
    | error e =>
        cases e with
        | err e =>
            obtain rfl : q = _ := h
            rfl
        | outOfFuel => rcases h with rfl | rfl <;> rfl
  intro s
  rw [finishOps_run]
  exact ⟨q, (moves_closeWrapper W hq s).1, h⟩

lemma speaks_runQueries (fuel : Fuel) (krateSst : KrateSst F) :
    Speaks contextProtocol .ready (runQueries W fuel krateSst : Prog σ Unit) Rested := by
  refine rested_bind (speaks_feedModuleDecls W krateSst) fun _ => ?_
  refine Moves.bind (moves_tellAir rfl) fun _ => ?_
  refine Moves.bind (moves_modify _) fun _ => ?_
  refine (moves_silent _).bind fun _ => ?_
  refine (moves_modify _).bind fun _ => ?_
  refine (speaks_opLoop W fuel.probes fuel.ops fuel.functions).attempt.bind ?_ ?_
  · rintro result q ⟨_, h, hq⟩
    obtain rfl := Except.ok.inj h
    exact speaks_finishOps W hq
  · rintro e q ⟨_, h, -⟩
    cases h

end Between

/-! ## The modules -/

/-- The module a call begins. -/
def Call.begins : Call → Option Str
  | .verifyModule path => some path
  | _ => none

/-- The call configures a context. -/
def Call.configures : Call → Bool
  | .setZ3Param _ _ => true
  | .setRlimit _ => true
  | _ => false

/-- The calls of a module: the error of what comes before its context, or the configuration of the
context and then no other one. -/
def OfModule (calls : List Call) : Prop :=
  (∃ e, calls = [.reportAs e .error])
    ∨ ∃ rest, calls = configuration ++ rest ∧ ∀ c ∈ rest, c.configures = false ∧ c.begins = none

/-- The context has been configured. -/
def Phase.configured : Phase → Bool
  | .idle => false
  | .begun => false
  | .configuring => false
  | _ => true

lemma begins_of_step {q q' : Phase} {c : Call} (h : contextProtocol q c = some q') :
    c.begins = none ∧ sessionProtocol q c = some q' := by
  cases c with
  | verifyModule path =>
      cases q with
      | inOp isQuery rest => cases rest <;> cases h
      | _ => cases h
  | _ => exact ⟨rfl, h⟩

lemma configured_of_step {q q' : Phase} {c : Call} (hq : q.configured = true)
    (h : contextProtocol q c = some q') : q'.configured = true ∧ c.configures = false := by
  revert h
  fun_cases contextProtocol q c
  all_goals
    intro h
    first
      | cases h; exact ⟨rfl, rfl⟩
      | cases h <;> exact ⟨by split_ifs <;> rfl, rfl⟩
      | cases hq

/-- The conversation with one context. -/
lemma begins_of_after {calls : List Call} {q q' : Phase}
    (h : contextProtocol.after q calls = some q') :
    (∀ c ∈ calls, c.begins = none) ∧ sessionProtocol.after q calls = some q' := by
  refine ⟨(forall_of_after (I := fun _ => True) (p := fun c => Call.begins c = none) ?_
    trivial h).2, after_mono (fun hstep => (begins_of_step hstep).2) h⟩
  exact fun _ hstep => ⟨trivial, (begins_of_step hstep).1⟩

lemma configured_of_after {calls : List Call} {q q' : Phase} (hq : q.configured = true)
    (h : contextProtocol.after q calls = some q') : ∀ c ∈ calls, c.configures = false :=
  (forall_of_after (I := fun q => Phase.configured q = true)
    (p := fun c => Call.configures c = false) configured_of_step hq h).2

/-- A module that has got further than its beginning. -/
lemma ofModule_of_after {calls : List Call} {q : Phase}
    (h : contextProtocol.after .begun calls = some q) (hbegun : q ≠ .begun)
    (hconfiguring : q ≠ .configuring) : OfModule calls := by
  cases calls with
  | nil => exact absurd (Option.some.inj h).symm hbegun
  | cons c calls =>
      obtain ⟨q₁, hstep, h⟩ := Option.bind_eq_some_iff.mp h
      cases c with
      | reportAs e level =>
          cases level with
          | error =>
              obtain rfl := Option.some.inj hstep
              -- nothing may be called where there is no context
              cases calls with
              | nil => exact .inl ⟨e, rfl⟩
              | cons c calls => cases c <;> cases h
          | _ => cases hstep
      | setZ3Param key value =>
          obtain ⟨⟨rfl, rfl⟩, hstep⟩ := Option.ite_none_right_eq_some.mp hstep
          obtain rfl := Option.some.inj hstep
          cases calls with
          | nil => exact absurd (Option.some.inj h).symm hconfiguring
          | cons c calls =>
              obtain ⟨q₂, hstep, h⟩ := Option.bind_eq_some_iff.mp h
              cases c with
              | setRlimit rlimit =>
                  obtain ⟨rfl, hstep⟩ := Option.ite_none_right_eq_some.mp hstep
                  obtain rfl := Option.some.inj hstep
                  have hconfigured := configured_of_after rfl h
                  have hbegins := (begins_of_after h).1
                  exact .inr ⟨calls, rfl, fun c hc => ⟨hconfigured c hc, hbegins c hc⟩⟩
              | _ => cases hstep
      | _ => cases hstep

/-- The phase between two modules. -/
def LeftModule : Stop → Phase → Prop
  | .outOfFuel, q => q = .ready ∨ q = .cut
  | .err _, q => q.Between

lemma past_of_leaves {r : Except Stop Unit} {q : Phase} (h : Leaves Phase.Between LeftModule r q) :
    q ≠ .begun ∧ q ≠ .configuring := by
  have hend : q.Between ∨ q = .cut := by
    cases r with
    | ok u => exact .inl h
    | error e =>
        cases e with
        | err e => exact .inl h
        | outOfFuel => exact h.imp .inr id
  rcases hend with (rfl | rfl) | rfl
  · exact ⟨by simp, by simp⟩
  · exact ⟨by simp, by simp⟩
  · exact ⟨by simp, by simp⟩

/-- Each module gets a context of its own. -/
lemma speaks_verifyModule (fuel : Fuel) (krateSst : KrateSst F) :
    Speaks contextProtocol .begun (verifyModule W fuel krateSst : Prog σ Unit) Rested := by
  refine Moves.bind (moves_modify _) fun _ => ?_
  have hparam : contextProtocol .begun (.setZ3Param "air_recommended_options".toList "true".toList)
      = some .configuring := by decide
  have hrlimit : contextProtocol .configuring (.setRlimit (60 * 3000000)) = some .ready := by decide
  refine (moves_tellAir hparam).bind fun _ => ?_
  exact (moves_tellAir hrlimit).bind fun _ => speaks_runQueries W fuel krateSst

/-- A module, from its beginning on. -/
lemma verifyOrReport_calls (lowerModule : Module → σ → Except VirErr (KrateSst F) × σ)
    (fuel : Fuel) (m : Module) (s : Session σ) :
    let ran := verifyOrReport W lowerModule fuel m s
    ∃ calls q, ran.calls = .verifyModule m.path :: calls
      ∧ contextProtocol.after .begun calls = some q
      ∧ Leaves Phase.Between LeftModule ran.result q := by
  have hmodule : Speaks contextProtocol .begun
      (do
        let lowered ← askVir (lowerModule m) fun _ => []
        let krateSst ← orStop lowered
        verifyModule W fuel krateSst : Prog σ Unit)
      fun r q => Rested r q ∨ q = .begun ∧ ∃ e, r = .error (.err e) := by
    refine (moves_silent _).bind fun lowered => ?_
    cases lowered with
    | error e => exact speaks_stop (e := Stop.err e) (.inr ⟨rfl, e, rfl⟩)
    | ok krateSst => exact (speaks_verifyModule W fuel krateSst).mono fun _ _ h => .inl h
  obtain ⟨rest, hrun, hrest⟩ : ∃ rest : Unit → Prog σ Unit,
      verifyOrReport W lowerModule fuel m = Traced.emit (.verifyModule m.path) >>= rest
        ∧ Speaks contextProtocol .begun (rest ()) (Leaves Phase.Between LeftModule) := by
    refine ⟨_, rfl, hmodule.attempt.bind ?_ ?_⟩
    · rintro r q ⟨_, h, hq⟩
      obtain rfl := Except.ok.inj h
      rcases r with (e | _) | u
      · have hreport : ∃ q', contextProtocol q (.reportAs e .error) = some q' ∧ q'.Between := by
          rcases hq with hq | ⟨rfl, -⟩
          · obtain rfl : q = .ready := hq
            exact ⟨.ready, rfl, .inr rfl⟩
          · exact ⟨.idle, rfl, .inl rfl⟩
        obtain ⟨q', hstep, hq'⟩ := hreport
        exact (moves_emit hstep).bind fun _ => speaks_stop hq'
      · refine speaks_ofExcept ?_
        rcases hq with hq | ⟨-, e, h⟩
        · exact hq
        · cases h
      · refine speaks_ofExcept ?_
        rcases hq with hq | ⟨-, e, h⟩
        · exact .inr hq
        · cases h
    · rintro e q ⟨_, h, -⟩
      cases h
  obtain ⟨q, hafter, hq⟩ := hrest s
  rw [hrun]
  exact ⟨(rest () s).calls, q, rfl, hafter, hq⟩

lemma speaks_verifyOrReport (lowerModule : Module → σ → Except VirErr (KrateSst F) × σ)
    (fuel : Fuel) (m : Module) {q : Phase} (hq : q.Between) :
    Speaks sessionProtocol q (verifyOrReport W lowerModule fuel m : Prog σ Unit)
      (Leaves Phase.Between LeftModule) := by
  intro s
  obtain ⟨calls, q', hcalls, hafter, hq'⟩ := verifyOrReport_calls W lowerModule fuel m s
  have hbegin : sessionProtocol q (.verifyModule m.path) = some .begun := if_pos hq
  refine ⟨q', ?_, hq'⟩
  rw [hcalls, after_cons hbegin]
  exact (begins_of_after hafter).2

lemma speaks_verifySimplifiedKrate
    (lowerModule : Module → σ → Except VirErr (KrateSst F) × σ) (fuel : Fuel)
    (modules : List Module) :
    Speaks sessionProtocol .idle
      (verifySimplifiedKrate W lowerModule fuel modules : Prog σ Unit)
      (Leaves Phase.Between LeftModule) :=
  speaks_each (I := fun _ => Phase.Between)
    (fun m _ _ hq => speaks_verifyOrReport W lowerModule fuel m hq) _ (.inl rfl)

/-- A run is cut into its modules. -/
lemma each_verifyOrReport_calls (lowerModule : Module → σ → Except VirErr (KrateSst F) × σ)
    (fuel : Fuel) : ∀ (modules : List Module) (s : Session σ),
    let ran := Traced.each (verifyOrReport W lowerModule fuel) modules s
    ∃ runs : List (Module × List Call),
      ran.calls = runs.flatMap (fun r => .verifyModule r.1.path :: r.2)
        ∧ runs.map Prod.fst <+: modules ∧ (ran.result = .ok () → runs.map Prod.fst = modules)
        ∧ ∀ r ∈ runs, OfModule r.2
  | [], _ => ⟨[], rfl, List.prefix_rfl, fun _ => rfl, fun _ hr => absurd hr List.not_mem_nil⟩
  | m :: modules, s => by
      obtain ⟨calls, q, hcalls, hafter, hq⟩ := verifyOrReport_calls W lowerModule fuel m s
      have hmodule : OfModule calls := by
        obtain ⟨hbegun, hconfiguring⟩ := past_of_leaves hq
        exact ofModule_of_after hafter hbegun hconfiguring
      intro ran
      cases hr : (verifyOrReport W lowerModule fuel m s).result with
      | error e =>
          have hran : ran = ⟨.error e, _, _⟩ := Traced.bind_error hr
          refine ⟨[(m, calls)], ?_, ⟨modules, rfl⟩, fun h => ?_, fun r hr => ?_⟩
          · rw [hran, hcalls]
            simp
          · rw [hran] at h
            cases h
          · rw [List.mem_singleton.mp hr]
            exact hmodule
      | ok u =>
          have hran : ran = ⟨_, _, _ ++ _⟩ := Traced.bind_ok hr
          obtain ⟨runs, hruns, hfirst, hall, hmodules⟩ := each_verifyOrReport_calls
            lowerModule fuel modules (verifyOrReport W lowerModule fuel m s).state
          refine ⟨(m, calls) :: runs, ?_, ?_, ?_, ?_⟩
          · rw [hran, hcalls]
            dsimp only
            rw [hruns, List.flatMap_cons]
          · exact List.prefix_cons_inj m |>.mpr hfirst
          · intro h
            rw [hran] at h
            exact congrArg (m :: ·) (hall h)
          · exact List.forall_mem_cons.mpr ⟨hmodule, hmodules⟩

/-- **The protocol of a run.**  Whatever AIR and the other crates answer, and wherever the run
stops, it takes the modules of the crate in order, all of them if it returns, and each time a
context is the first thing it configures, once, unless the module fails before it has one.  Every
call may be made when it is made: the commands of an op come in order, a query is open from its
check on until it is finished, nothing but probes is asked in between, one only after an answer that
allows it, and an open query is finished before the next command.  A query stays open only where
the run is out of fuel; otherwise every op that was begun has been fed all its commands. -/
theorem session_protocol (lowerModule : Module → σ → Except VirErr (KrateSst F) × σ) (fuel : Fuel)
    (modules : List Module) (s : Session σ) :
    let ran := verifySimplifiedKrate W lowerModule fuel modules s
    let own := modules.filter fun m => m.krate.isNone
    (∃ runs : List (Module × List Call),
        ran.calls = runs.flatMap (fun r => .verifyModule r.1.path :: r.2)
          ∧ runs.map Prod.fst <+: own ∧ (ran.result = .ok () → runs.map Prod.fst = own)
          ∧ ∀ r ∈ runs, OfModule r.2)
      ∧ ∃ q, sessionProtocol.after .idle ran.calls = some q
        ∧ (q.Between ∨ q = .cut ∧ ran.result = .error .outOfFuel)
        ∧ (q ≠ .cut → ∀ p ∈ opSegments ran.calls, p.2.filterMap Call.fed = p.1.commands) := by
  intro ran own
  obtain ⟨q, hafter, hq⟩ := speaks_verifySimplifiedKrate W lowerModule fuel modules s
  have hend : q.Between ∨ q = .cut ∧ ran.result = .error .outOfFuel := by
    revert hq
    show Leaves _ _ ran.result q → _
    cases ran.result with
    | ok u => exact .inl
    | error e =>
        cases e with
        | err e => exact .inl
        | outOfFuel => exact fun h => h.imp .inr fun h => ⟨h, rfl⟩
  refine ⟨each_verifyOrReport_calls W lowerModule fuel _ s, q, hafter, hend, fun hcut => ?_⟩
  exact fed_of_between hafter (hend.resolve_right fun h => hcut h.1)

end VerusExplorer
