import VerusExplorer.Verify.HandleOp
import Mathlib.Data.Finset.Card
import Mathlib.Logic.Function.Iterate

/-!
# The probe loop

After a `CheckValid` command `handle_op` (`verus.rs`) asks AIR for further failures, at first for
any and later for earlier ones only, and tells it in the end that it has finished with the query.

* `Budget.Sound` — there is something to subtract from when it is subtracted.
* `Probes` — the questions the loop can ask from a budget and a result on.
* `ShrinksLabels` — what AIR promises of the questions for earlier failures.
* **`runCommand_probes`** — the questions are allowed, few in number, and followed by one
  `finish_query`; if AIR keeps its promise the loop ends.
-/

namespace VerusExplorer

/-! ## The budget -/

namespace Budget

/-- As long as any failure is asked for, some are left to ask for. -/
def Sound (b : Budget) : Prop := b.onlyCheckEarlier = false → 0 < b.checksRemaining.toNat

/-- How many failures may still be asked for. -/
def left (b : Budget) : ℕ := if b.onlyCheckEarlier then 0 else b.checksRemaining.toNat

lemma spend_of_early {b : Budget} (h : b.onlyCheckEarlier = true) : b.spend = b := if_pos h

lemma not_early_of_spend {b : Budget} (h : b.spend.onlyCheckEarlier = false) :
    b.onlyCheckEarlier = false := by
  by_contra hb
  rw [spend_of_early (by simpa using hb)] at h
  exact hb h

lemma toNat_spend {b : Budget} (hb : b.Sound) (h : b.onlyCheckEarlier = false) :
    b.spend.checksRemaining.toNat = b.checksRemaining.toNat - 1
      ∧ (b.spend.onlyCheckEarlier = true ↔ b.checksRemaining.toNat = 1) := by
  have hpos := hb h
  have hle : (1 : UInt32) ≤ b.checksRemaining := UInt32.le_iff_toNat_le.mpr hpos
  have hsub : (b.checksRemaining - 1).toNat = b.checksRemaining.toNat - 1 :=
    UInt32.toNat_sub_of_le _ _ hle
  rw [spend, if_neg (by simp [h])]
  refine ⟨hsub, ?_⟩
  rw [beq_iff_eq, ← UInt32.toNat_inj, hsub, UInt32.toNat_zero]
  omega

lemma Sound.spend {b : Budget} (hb : b.Sound) : b.spend.Sound := by
  cases h : b.onlyCheckEarlier with
  | true =>
      rw [spend_of_early h]
      exact hb
  | false =>
      obtain ⟨hsub, hearly⟩ := toNat_spend hb h
      intro hspend
      have hne : b.checksRemaining.toNat ≠ 1 := fun hone =>
        absurd (hearly.mpr hone) (by simp [hspend])
      have := hb h
      omega

lemma left_of_early {b : Budget} (h : b.onlyCheckEarlier = true) : b.left = 0 := if_pos h

lemma left_of_not_early {b : Budget} (h : b.onlyCheckEarlier = false) :
    b.left = b.checksRemaining.toNat := if_neg (by simp [h])

lemma left_spend {b : Budget} (hb : b.Sound) (h : b.onlyCheckEarlier = false) :
    b.spend.left + 1 ≤ b.left := by
  have hpos := hb h
  have hsub := (toNat_spend hb h).1
  rw [left_of_not_early h]
  cases hspend : b.spend.onlyCheckEarlier with
  | true =>
      rw [left_of_early hspend]
      omega
  | false =>
      rw [left_of_not_early hspend]
      omega

lemma sound_start : Sound {} := fun _ => by decide

lemma sound_iterate (n : ℕ) : Sound (Budget.spend^[n] {}) := by
  induction n with
  | zero => exact sound_start
  | succ n ih =>
      rw [Function.iterate_succ_apply']
      exact ih.spend

end Budget

/-! ## What the loop asks -/

/-- A probe: whether it asked for earlier failures only, and the answer. -/
abbrev Probe := Bool × ValidityResult

def Probe.call (p : Probe) : Call := .checkValidAgain p.1 p.2

/-- The calls that concern the query AIR works on. -/
def Call.onQuery : Call → Bool
  | .command _ _ => true
  | .checkValidAgain _ _ => true
  | .finishQuery => true
  | _ => false

/-- The answer the loop looks at after some probes. -/
def lastResult (r : ValidityResult) (ps : List Probe) : ValidityResult :=
  (ps.map Prod.snd).getLastD r

@[simp] lemma lastResult_nil (r : ValidityResult) : lastResult r [] = r := rfl

@[simp] lemma lastResult_cons (r : ValidityResult) (p : Probe) (ps : List Probe) :
    lastResult r (p :: ps) = lastResult p.2 ps := by
  rw [lastResult, lastResult, List.map_cons, List.getLastD_cons]

/-- The probes that the loop can make from a budget and a result on. -/
inductive Probes : Budget → ValidityResult → List Probe → Prop
  | nil (b : Budget) (r : ValidityResult) : Probes b r []
  | cons {b : Budget} {r next : ValidityResult} {ps : List Probe} (hr : r.canProbe = true)
      (h : Probes b.spend next ps) : Probes b r ((b.spend.onlyCheckEarlier, next) :: ps)

namespace Probes

variable {b : Budget} {r : ValidityResult} {ps : List Probe}

/-- A probe comes after a result that allows it, and the budget says what it asks for. -/
lemma at_split (h : Probes b r ps) {before after : List Probe} {p : Probe}
    (hps : ps = before ++ p :: after) :
    (lastResult r before).canProbe = true
      ∧ p.1 = (Budget.spend^[before.length + 1] b).onlyCheckEarlier := by
  induction h generalizing before with
  | nil b r => exact absurd hps (by simp)
  | cons hr h ih =>
      cases before with
      | nil =>
          obtain ⟨rfl, -⟩ := List.cons_eq_cons.mp hps
          exact ⟨hr, rfl⟩
      | cons q before =>
          obtain ⟨hq, htail⟩ := List.cons_eq_cons.mp hps
          obtain ⟨hlast, hflag⟩ := ih htail
          rw [← hq]
          exact ⟨by rwa [lastResult_cons], hflag⟩

lemma early_of_early (h : Probes b r ps) (hb : b.onlyCheckEarlier = true) :
    ∀ p ∈ ps, p.1 = true := by
  induction h with
  | nil b r => exact fun p hp => absurd hp List.not_mem_nil
  | cons hr h ih =>
      rw [Budget.spend_of_early hb] at ih ⊢
      exact List.forall_mem_cons.mpr ⟨hb, ih hb⟩

/-- Once only earlier failures are asked for, it stays so. -/
lemma pairwise_early (h : Probes b r ps) : ps.Pairwise fun p q => p.1 = true → q.1 = true := by
  induction h with
  | nil b r => exact List.Pairwise.nil
  | cons hr h ih =>
      exact List.pairwise_cons.mpr ⟨fun q hq hearly => h.early_of_early hearly q hq, ih⟩

/-- No more failures are asked for than there are left. -/
lemma countP_le_left (h : Probes b r ps) (hb : b.Sound) :
    ps.countP (fun p => !p.1) ≤ b.left := by
  induction h with
  | nil b r => exact Nat.zero_le _
  | @cons b r next ps hr h ih =>
      cases hearly : b.onlyCheckEarlier with
      | true =>
          have hall := (Probes.cons hr h).early_of_early hearly
          rw [List.countP_eq_zero.mpr fun p hp => by simp [hall p hp]]
          exact Nat.zero_le _
      | false =>
          have hrest := ih hb.spend
          have hspend := Budget.left_spend hb hearly
          rw [List.countP_cons]
          split_ifs <;> omega

end Probes

/-! ## The loop asks nothing else -/

section Loop

variable {σ F : Type} (W : World σ F)

lemma exists_of_canProbe {r : ValidityResult} (h : r.canProbe = true) :
    ∃ msg id, r = .invalid true (some msg) id := by
  rw [ValidityResult.canProbe.eq_def] at h
  split at h
  · exact ⟨_, _, rfl⟩
  · exact absurd h (by simp)

lemma onQuery_resultCalls (c : Check) (isFirstCheck : Bool) (r : ValidityResult) :
    (resultCalls c isFirstCheck r).filter Call.onQuery = [] := by
  refine List.filter_eq_nil_iff.mpr ?_
  exact forall_mem_resultCalls (fun _ _ => by simp [Call.onQuery]) fun _ => by simp [Call.onQuery]

/-- The loop ends with a result after which no probe is allowed, or with its fuel spent. -/
def Ended (r : ValidityResult) (ps : List Probe) (fuel : ℕ) : Except Stop Found → Prop
  | .ok _ => (lastResult r ps).canProbe = false
  | .error e => e = .outOfFuel ∧ ps.length = fuel

lemma Ended.cons {next : ValidityResult} {ps : List Probe} {fuel : ℕ} {ended : Except Stop Found}
    (h : Ended next ps fuel ended) (r : ValidityResult) (early : Bool) :
    Ended r ((early, next) :: ps) (fuel + 1) ended := by
  cases ended with
  | ok found =>
      rw [Ended, lastResult_cons]
      exact h
  | error e => exact ⟨h.1, congrArg Nat.succ h.2⟩

/-- What the loop asks, whatever AIR answers. -/
lemma probe_onQuery (c : Check) : ∀ (fuel : ℕ) (b : Budget) (first : Bool) (found : Found)
    (r : ValidityResult) (s : Session σ), ∃ ps : List Probe,
      (probe W c fuel b first found r s).calls.filter Call.onQuery = ps.map Probe.call
        ∧ Probes b r ps ∧ Ended r ps fuel (probe W c fuel b first found r s).result
  | 0, b, first, found, r, s => by
      cases hr : r.canProbe with
      | false =>
          rw [probe_last W c b first found hr]
          exact ⟨[], onQuery_resultCalls c first r, .nil b r, hr⟩
      | true =>
          rw [probe_zero W c b first found hr]
          exact ⟨[], onQuery_resultCalls c first r, .nil b r, rfl, rfl⟩
  | fuel + 1, b, first, found, r, s => by
      cases hr : r.canProbe with
      | false =>
          rw [probe_last W c b first found hr]
          exact ⟨[], onQuery_resultCalls c first r, .nil b r, hr⟩
      | true =>
          rw [probe_succ W c b first found hr]
          simp only
          obtain ⟨ps, hcalls, hps, hended⟩ := probe_onQuery c fuel b.spend false (found.add c r)
            (W.checkValidAgain b.spend.onlyCheckEarlier s.env).1
            (askAir (W.checkValidAgain b.spend.onlyCheckEarlier)
              (fun r => [Call.checkValidAgain b.spend.onlyCheckEarlier r]) s).state
          refine ⟨_, ?_, .cons hr hps, ?_⟩
          · rw [List.filter_append, onQuery_resultCalls, List.nil_append,
              List.filter_cons_of_pos rfl, hcalls]
            rfl
          · exact hended.cons r _

end Loop

/-! ## The loop ends -/

section Labels

variable {σ F L : Type} (W : World σ F)

/-- The states AIR can get to by probes. -/
inductive Probed (start : σ) : σ → Prop
  | start : Probed start start
  | again {s : σ} (h : Probed start s) (early : Bool) :
      Probed start (W.checkValidAgain early s).2.2

/-- What AIR promises of the probes for earlier failures: each of them leaves fewer labels enabled,
and with none enabled it answers that the query is valid. -/
structure ShrinksLabels (start : σ) (labels : Finset L) (enabled : σ → Finset L) : Prop where
  subset : ∀ s, Probed W start s → enabled s ⊆ labels
  shrinks : ∀ s, Probed W start s → (enabled s).Nonempty →
    enabled (W.checkValidAgain true s).2.2 ⊂ enabled s
  valid_of_none : ∀ s, Probed W start s → enabled s = ∅ → (W.checkValidAgain true s).1 = .valid

/-- How many more probes there can be. -/
def probesNeeded (labels : Finset L) (enabled : σ → Finset L) (b : Budget) (s : σ) : ℕ :=
  if b.spend.onlyCheckEarlier then (enabled s).card + 1
  else b.checksRemaining.toNat + labels.card

variable {W} {start : σ} {labels : Finset L} {enabled : σ → Finset L}

lemma probesNeeded_of_early {b : Budget} (h : b.spend.onlyCheckEarlier = true) (s : σ) :
    probesNeeded labels enabled b s = (enabled s).card + 1 := if_pos h

lemma probesNeeded_of_more {b : Budget} (h : b.spend.onlyCheckEarlier = false) (s : σ) :
    probesNeeded labels enabled b s = b.checksRemaining.toNat + labels.card := if_neg (by simp [h])

lemma probesNeeded_pos {b : Budget} (hb : b.Sound) (s : σ) :
    0 < probesNeeded labels enabled b s := by
  cases hspend : b.spend.onlyCheckEarlier with
  | true =>
      rw [probesNeeded_of_early hspend]
      exact Nat.succ_pos _
  | false =>
      have hnot : b.onlyCheckEarlier = false := Budget.not_early_of_spend hspend
      rw [probesNeeded_of_more hspend]
      exact Nat.lt_add_right _ (hb hnot)

/-- A probe after which another one is allowed leaves room for it. -/
lemma ShrinksLabels.needed_step (h : ShrinksLabels W start labels enabled) {b : Budget}
    (hb : b.Sound) {s : σ} (hs : Probed W start s)
    (hnext : (W.checkValidAgain b.spend.onlyCheckEarlier s).1.canProbe = true) :
    probesNeeded labels enabled b.spend (W.checkValidAgain b.spend.onlyCheckEarlier s).2.2 + 1
      ≤ probesNeeded labels enabled b s := by
  cases hearly : b.spend.onlyCheckEarlier with
  | true =>
      rw [hearly] at hnext
      have hstays : b.spend.spend.onlyCheckEarlier = true := by rwa [Budget.spend_of_early hearly]
      rw [probesNeeded_of_early hearly, probesNeeded_of_early hstays]
      have hsome : (enabled s).Nonempty := by
        by_contra hnone
        rw [h.valid_of_none s hs (Finset.not_nonempty_iff_eq_empty.mp hnone)] at hnext
        exact absurd hnext (by simp [ValidityResult.canProbe])
      have hcard := Finset.card_lt_card (h.shrinks s hs hsome)
      omega
  | false =>
      have hnot : b.onlyCheckEarlier = false := Budget.not_early_of_spend hearly
      obtain ⟨hsub, hiff⟩ := Budget.toNat_spend hb hnot
      have hmore : b.checksRemaining.toNat ≠ 1 := fun hone =>
        absurd (hiff.mpr hone) (by simp [hearly])
      have hpos := hb hnot
      have hcard := Finset.card_le_card (h.subset _ (hs.again false))
      rw [probesNeeded_of_more hearly]
      cases hspend : b.spend.spend.onlyCheckEarlier with
      | true =>
          rw [probesNeeded_of_early hspend]
          omega
      | false =>
          rw [probesNeeded_of_more hspend]
          omega

/-- **The loop ends** if there is fuel for the probes that there can be. -/
lemma ShrinksLabels.probe_ends (h : ShrinksLabels W start labels enabled) (c : Check) :
    ∀ (fuel : ℕ) (b : Budget) (first : Bool) (found : Found) (r : ValidityResult) (s : Session σ),
      b.Sound → Probed W start s.env →
      (r.canProbe = true → probesNeeded labels enabled b s.env ≤ fuel) →
      let ran := probe W c fuel b first found r s
      ran.result.isOk = true
        ∧ (ran.calls.filter Call.onQuery).length
          ≤ if r.canProbe then probesNeeded labels enabled b s.env else 0
  | 0, b, first, found, r, s, hb, hs, hfuel => by
      intro ran
      cases hr : r.canProbe with
      | false =>
          rw [show ran = _ from probe_last W c b first found hr 0 s, onQuery_resultCalls]
          exact ⟨rfl, Nat.zero_le _⟩
      | true =>
          have hpos : 0 < probesNeeded labels enabled b s.env := probesNeeded_pos hb s.env
          exact absurd (hfuel hr) (by omega)
  | fuel + 1, b, first, found, r, s, hb, hs, hfuel => by
      intro ran
      cases hr : r.canProbe with
      | false =>
          rw [show ran = _ from probe_last W c b first found hr (fuel + 1) s, onQuery_resultCalls]
          exact ⟨rfl, Nat.zero_le _⟩
      | true =>
          let next := W.checkValidAgain b.spend.onlyCheckEarlier s.env
          have hneeded := hfuel hr
          have hstep := fun hnext => h.needed_step hb hs (s := s.env) hnext
          obtain ⟨hok, hlen⟩ := h.probe_ends c fuel b.spend false (found.add c r) next.1
            (askAir (W.checkValidAgain b.spend.onlyCheckEarlier)
              (fun r => [Call.checkValidAgain b.spend.onlyCheckEarlier r]) s).state
            hb.spend (hs.again _) fun hnext =>
              Nat.le_of_succ_le_succ (Nat.le_trans (hstep hnext) hneeded)
          rw [show ran = _ from probe_succ W c b first found hr fuel s]
          refine ⟨hok, ?_⟩
          rw [List.filter_append, onQuery_resultCalls, List.nil_append,
            List.filter_cons_of_pos rfl, List.length_cons, if_pos rfl]
          refine Nat.le_trans (Nat.succ_le_succ hlen) ?_
          split_ifs with hnext
          · exact hstep hnext
          · exact probesNeeded_pos hb s.env

end Labels

/-! ## One command -/

section Command

variable {σ F : Type} (W : World σ F)

lemma feed_result (cmd : Command) (s : Session σ) :
    (feed W cmd s).result = .ok (W.command cmd s.env).1 := rfl

/-- The calls of a `CheckValid` command: the query, the probes, and the end of the query if the loop
has ended. -/
lemma runCommand_checkValid (fuel : ℕ) (c : Check) (found : Found) (query : Str)
    (s : Session σ) :
    let first := (W.command (.checkValid query) s.env).1
    let probed := probe W c fuel {} true found first (feed W (.checkValid query) s).state
    let ran := runCommand W fuel c found (.checkValid query) s
    ran.result = probed.result
      ∧ ran.calls = .command (.checkValid query) first :: probed.calls
        ++ if probed.result.isOk then [.finishQuery] else [] := by
  simp only
  rw [runCommand, Traced.bind_ok (feed_result W _ s)]
  cases hprobed : (probe W c fuel {} true found (W.command (.checkValid query) s.env).1
      (feed W (.checkValid query) s).state).result with
  | error e =>
      simp only [Traced.bind_error hprobed]
      exact ⟨trivial, (List.append_nil _).symm⟩
  | ok found' =>
      simp only [Traced.bind_ok hprobed]
      exact ⟨rfl, rfl⟩

/-- **The probe loop is safe and ends.**  Whatever AIR answers: a `check_valid_again` comes only
after an invalid answer with a model and a message, the counter is only decremented while it is not
zero, at most eight calls ask for any failure and once one has asked for earlier ones all do, and
when the loop has ended `finish_query` is called once, after the last probe.  If each probe for
earlier failures leaves fewer of AIR's labels enabled and is valid with none left, the loop ends
after at most eight probes more than there are labels. -/
theorem runCommand_probes (fuel : ℕ) (c : Check) (found : Found) (query : Str) (s : Session σ) :
    let asked := W.command (.checkValid query) s.env
    let ran := runCommand W fuel c found (.checkValid query) s
    ∃ ps : List Probe,
      ran.calls.filter Call.onQuery
          = .command (.checkValid query) asked.1 :: ps.map Probe.call
            ++ (if ran.result.isOk then [.finishQuery] else [])
        ∧ Ended asked.1 ps fuel ran.result
        ∧ (∀ before p after, ps = before ++ p :: after →
          (∃ msg id, lastResult asked.1 before = .invalid true (some msg) id)
            ∧ let b := Budget.spend^[before.length] {}
              p.1 = b.spend.onlyCheckEarlier
                ∧ (b.onlyCheckEarlier = false → 0 < b.checksRemaining.toNat))
        ∧ ps.countP (fun p => !p.1) ≤ 8
        ∧ ps.Pairwise (fun p q => p.1 = true → q.1 = true)
        ∧ ∀ (L : Type) (labels : Finset L) (enabled : σ → Finset L),
          ShrinksLabels W asked.2.2 labels enabled → 8 + labels.card ≤ fuel →
            ran.result.isOk = true ∧ ps.length ≤ 8 + labels.card := by
  intro asked ran
  obtain ⟨hresult, hcalls⟩ := runCommand_checkValid W fuel c found query s
  obtain ⟨ps, hprobes, hps, hended⟩ := probe_onQuery W c fuel {} true found asked.1
    (feed W (.checkValid query) s).state
  refine ⟨ps, ?_, hresult ▸ hended, ?_, hps.countP_le_left Budget.sound_start,
    hps.pairwise_early, ?_⟩
  · rw [hcalls, List.filter_append, List.filter_cons_of_pos rfl, hprobes, hresult]
    split_ifs <;> rfl
  · intro before p after hsplit
    obtain ⟨hlast, hflag⟩ := hps.at_split hsplit
    rw [Function.iterate_succ_apply'] at hflag
    exact ⟨exists_of_canProbe hlast, hflag, Budget.sound_iterate before.length⟩
  · intro L labels enabled hlabels hfuel
    obtain ⟨hok, hlen⟩ := hlabels.probe_ends c fuel {} true found asked.1
      (feed W (.checkValid query) s).state Budget.sound_start .start fun _ => hfuel
    rw [hprobes, List.length_map] at hlen
    refine ⟨hresult ▸ hok, Nat.le_trans hlen ?_⟩
    split_ifs
    · exact Nat.le_refl _
    · exact Nat.zero_le _

end Command

/-- AIR with so many labels enabled: a probe for any failure leaves them, one for earlier failures
takes one of them or is valid. -/
def labelled : World ℕ Unit where
  setZ3Param _ _ s := (fun _ => [], s)
  setRlimit _ s := (fun _ => [], s)
  command _ s := (.invalid true (some []) none, fun _ => [], s)
  checkValidAgain early s :=
    (if early && s == 0 then .valid else .invalid true (some []) none, fun _ => [],
      if early then s - 1 else s)
  finishQuery s := (fun _ => [], s)
  openSection _ _ s := (fun _ => [], s)
  sectionClose s := (fun _ => [], s)
  prelude := []
  buildBucketPreamble _ s := ([], s)
  funcNameToAir _ := .ok []
  opgenNew _ s := s
  opgenNext s := (.ok false, s)
  expandErrorsNext s := (none, s)
  functionOpgenNext s := (none, s)
  retryWithRecommends _ _ s := (.ok (), s)
  reportExpandErrorResult _ s := s

lemma labelled_le {start s : ℕ} (h : Probed labelled start s) : s ≤ start := by
  induction h with
  | start => exact Nat.le_refl _
  | again h early ih =>
      cases early with
      | true => exact Nat.le_trans (Nat.sub_le _ _) ih
      | false => exact ih

lemma shrinksLabels_labelled (start : ℕ) :
    ShrinksLabels labelled start (Finset.range start) Finset.range where
  subset s hs := Finset.range_mono (labelled_le hs)
  shrinks s _ hs := by
    have hpos : s ≠ 0 := by
      rintro rfl
      exact absurd hs (by simp)
    have hlt : s - 1 < s := Nat.pred_lt hpos
    exact ⟨Finset.range_subset_range.mpr (Nat.le_of_lt hlt), fun hsub =>
      absurd (Finset.range_subset_range.mp hsub) (Nat.not_le_of_lt hlt)⟩
  valid_of_none s _ hs := by
    rw [Finset.range_eq_empty_iff.mp hs]
    rfl

/-- With three labels the loop ends within eleven probes. -/
theorem runCommand_probes_labelled :
    (runCommand labelled 11 ⟨none, .defaultProver, .body .normal, [], []⟩ {} (.checkValid [])
      ⟨3, fun _ => [], fun _ => [], fun _ => [], none⟩).result.isOk = true := by
  obtain ⟨ps, -, -, -, -, -, hends⟩ := runCommand_probes labelled 11
    ⟨none, .defaultProver, .body .normal, [], []⟩ {} []
    ⟨3, fun _ => [], fun _ => [], fun _ => [], none⟩
  exact (hends ℕ (Finset.range 3) Finset.range (shrinksLabels_labelled 3) (by decide)).1

end VerusExplorer
