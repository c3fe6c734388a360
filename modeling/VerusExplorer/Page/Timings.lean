import VerusExplorer.Page.Panel
import VerusExplorer.Page.Tabs
import VerusExplorer.Verify.Stages

/-!
# The timing of the stages

The status line under the tabs: the time of the stage on show and of all stages, from what the
timers of `verify` reported to the page.

* `benchGroup`: the tab group a label is counted in.
* `subtabTiming`: the two times of the status line.
* **`stages_counted_once_iff`**: no time is counted twice exactly if the declarations are fed in no
  time and the parts of `build_vir` take no longer than all that no counted timer covers.
-/

namespace VerusExplorer

open Timers Utf16

/-! ## The status line -/

/-- `BENCH_GROUP`. -/
@[irreducible] def benchGroups : OrderedMap JsString JsString :=
  let buckets : List (String × List String) :=
    [("AST", ["rustc_parse", "dump.ast_pre", "dump.ast"]),
      ("HIR", ["dump.hir", "dump.hir_typed"]),
      ("MIR", ["dump.mir", "run.parse", "run.miri"]),
      ("VIR",
        ["build_vir", "build_vir.vstd_deserialize", "build_vir.construct_vir_crate",
          "build_vir.global_ctx", "build_vir.check_traits", "build_vir.simplify_krate",
          "dump.vir_raw", "dump.vir_simple", "dump.vir_pruned", "verify.ast_to_sst",
          "dump.sst_ast", "verify.poly", "dump.sst_poly"]),
      ("AIR",
        ["verify.prune", "verify.ctx_new", "verify.air_ctx_new", "verify.feed_decls",
          "verify.ctx_free", "verify.reporter_new"]),
      ("Z3", ["verify.queries"])]
  let entries := buckets.flatMap fun (bucket, labels) => labels.map fun l => (js l, js bucket)
  entries.foldl (fun groups (label, bucket) => groups.set label bucket) []

/-- The tab group a label is counted in. -/
def benchGroup (label : JsString) : Option JsString := benchGroups.get? label

/-- A round of the loop of `renderSubtabs` over `benchCache`; `times` is `stageMs` and `totalMs`. -/
def addBench (currentGroup : JsString) (times : ℚ × ℚ) (entry : JsString × ℚ) : ℚ × ℚ :=
  match benchGroup entry.1 with
  | none => times
  | some g => (if g = currentGroup then times.1 + entry.2 else times.1, times.2 + entry.2)

/-- The time of the stage `currentGroup` and of all stages. -/
def benchTotals (currentGroup : JsString) (benchCache : OrderedMap JsString ℚ) : ℚ × ℚ :=
  benchCache.foldl (addBench currentGroup) (0, 0)

/-- The status line of `renderSubtabs`, if there is one: the two times it shows, before `fmtMs`
rounds them. -/
def subtabTiming (execMode : Bool) (currentTab : Option JsString)
    (benchCache : OrderedMap JsString ℚ) : Option (ℚ × ℚ) :=
  match currentTab.bind (groupOf execMode) with
  | none => none
  | some currentGroup =>
      let times := benchTotals currentGroup benchCache
      if 0 < times.2 then some times else none

/-! ## What the page hears of a run -/

/-- A call of the page that is not a report of a timer. -/
abbrev Output := { c : Callback // ∀ label ms, c ≠ .bench label ms }

/-- The calls of the page in a run of `verify`. -/
def callbacks : List (Tick Timer Output) → List Callback
  | [] => []
  | .lapse _ _ :: ticks => callbacks ticks
  | .report timer ms :: ticks => .bench timer.label ms :: callbacks ticks
  | .call c :: ticks => c.1 :: callbacks ticks

/-- The timer is counted in a tab group. -/
def Timer.counted (timer : Timer) : Bool := (benchGroup timer.label).isSome

/-- A part of `build_vir` with a timer of its own. -/
def Timer.inBuildVir (timer : Timer) : Bool :=
  [.vstdDeserialize, .constructVirCrate, .globalCtx, .checkTraits, .simplifyKrate].contains timer

/-- The tab groups an instant is attributed to at which these timers are running. -/
def attributed (running : List Timer) : List JsString :=
  running.filterMap fun timer => benchGroup timer.label

/-- The time during which no counted timer is running. -/
def uncounted (ticks : List (Tick Timer Output)) : ℚ :=
  charge (fun running => if running.any Timer.counted then 0 else 1) ticks

/-! ## The total is what the counted timers reported -/

lemma addBench_snd (currentGroup : JsString) (times : ℚ × ℚ) (entry : JsString × ℚ) :
    (addBench currentGroup times entry).2
      = times.2 + if (benchGroup entry.1).isSome then entry.2 else 0 := by
  rw [addBench]
  cases benchGroup entry.1 with
  | none => simp
  | some g => simp

lemma foldl_addBench_snd (currentGroup : JsString) :
    ∀ (benchCache : OrderedMap JsString ℚ) (times : ℚ × ℚ),
      (benchCache.foldl (addBench currentGroup) times).2
        = times.2 + benchCache.total fun label => (benchGroup label).isSome
  | [], times => (add_zero _).symm
  | (label, v) :: benchCache, times => by
      rw [List.foldl_cons, foldl_addBench_snd currentGroup benchCache, addBench_snd,
        OrderedMap.total, add_assoc]

lemma finalizeBannerSection_benchCache (c : RunCaches) (tab : JsString) :
    (finalizeBannerSection c tab).benchCache = c.benchCache := by
  simp only [finalizeBannerSection]
  repeat' split
  all_goals rfl

lemma finalizeBannerSections_benchCache (c : RunCaches) :
    (finalizeBannerSections c).benchCache = c.benchCache := by
  have hfold : ∀ (tabs : List JsString) (c : RunCaches),
      (tabs.foldl finalizeBannerSection c).benchCache = c.benchCache := by
    intro tabs
    induction tabs with
    | nil => exact fun c => rfl
    | cons tab tabs ih => exact fun c => (ih _).trans (finalizeBannerSection_benchCache c tab)
  exact hfold bannerFoldTabs c

lemma finishRun_benchCache (calls : List Callback) :
    (finishRun .verify calls none {}).benchCache
      = (calls.foldl Callback.run {}).benchCache := by
  have hdiags : ∀ c : RunCaches,
      (if c.diags.isEmpty then c else consolidateDiags c).benchCache = c.benchCache := by
    intro c
    split_ifs <;> rfl
  have hrun := hdiags (finalizeBannerSections (calls.foldl Callback.run {}))
  rw [finalizeBannerSections_benchCache] at hrun
  exact hrun

/-- Only a report of a timer changes the times. -/
lemma benchCache_run_output (c : RunCaches) (k : Output) :
    (k.1.run c).benchCache = c.benchCache := by
  obtain ⟨k, hk⟩ := k
  cases k with
  | bench label ms => exact absurd rfl (hk label ms)
  | diagnostic d => rfl
  | verdict v => rfl
  | dump name blocks =>
      simp only [Callback.run, RunCaches.dump]
      split_ifs <;> rfl
  | stdout text => rfl
  | stderr text => rfl

lemma total_callbacks (p : JsString → Bool) :
    ∀ (ticks : List (Tick Timer Output)) (c : RunCaches),
      ((callbacks ticks).foldl Callback.run c).benchCache.total p
        = c.benchCache.total p + reported (fun timer => p timer.label) ticks
  | [], c => (add_zero _).symm
  | .lapse _ _ :: ticks, c => total_callbacks p ticks c
  | .report timer ms :: ticks, c => by
      rw [callbacks, List.foldl_cons, total_callbacks p ticks, Callback.run,
        OrderedMap.total_set_add, reported, add_assoc]
  | .call k :: ticks, c => by
      rw [callbacks, List.foldl_cons, total_callbacks p ticks, benchCache_run_output, reported]

/-- The total is the time the counted timers reported. -/
lemma benchTotals_finishRun (currentGroup : JsString) (ticks : List (Tick Timer Output)) :
    (benchTotals currentGroup (finishRun .verify (callbacks ticks) none {}).benchCache).2
      = reported Timer.counted ticks := by
  rw [finishRun_benchCache, benchTotals, foldl_addBench_snd, total_callbacks, zero_add]
  exact zero_add _

/-- No status line shows a total above `bound` exactly if the total is not. -/
lemma forall_subtabTiming_iff (benchCache : OrderedMap JsString ℚ) {total bound : ℚ}
    (h : ∀ currentGroup, (benchTotals currentGroup benchCache).2 = total) (hbound : 0 ≤ bound) :
    (∀ execMode currentTab times, subtabTiming execMode currentTab benchCache = some times →
        times.2 ≤ bound) ↔ total ≤ bound := by
  constructor
  · intro hshown
    rcases le_or_gt total 0 with hnone | hpos
    · exact hnone.trans hbound
    · have htab : (some (js "AST")).bind (groupOf false) = some (js "AST") := by decide
      rw [← h (js "AST")]
      refine hshown false (some (js "AST")) _ ?_
      rw [subtabTiming, htab]
      exact if_pos ((h (js "AST")).symm ▸ hpos)
  · intro hle execMode currentTab times htimes
    rw [subtabTiming] at htimes
    split at htimes
    · exact absurd htimes (by simp)
    · rename_i currentGroup hgroup
      dsimp only at htimes
      split_ifs at htimes
      rw [← Option.some_inj.mp htimes, h]
      exact hle

/-! ## Which timers are counted twice -/

/-- At each place of the call tree the counted timers are at most one, except that a part of
`build_vir` and the feeding of the declarations are counted once more. -/
lemma countP_counted :
    ∀ running ∈ callStacks,
      running.countP Timer.counted + (if running.any Timer.counted then 0 else 1)
        = 1 + running.countP fun timer => timer.inBuildVir || timer == .feedDecls := by
  decide +kernel

/-- Two groups meet only where the declarations are fed. -/
lemma attributed_feedDecls :
    ∀ running ∈ callStacks,
      (∀ g ∈ attributed running, ∀ g' ∈ attributed running, g = g')
        ↔ running.countP (· == Timer.feedDecls) = 0 := by
  decide +kernel

section Verify

variable {σ : Type} (h : Host σ Output) (now : ℚ) (host : σ)

/-- The calls of a run of `verify`. -/
def verifyTicks : List (Tick Timer Output) := (h.verify ⟨now, [], host⟩).calls

lemma mem_callStacks {running : List Timer} {d : ℚ≥0}
    (hmem : .lapse running d ∈ verifyTicks h now host) : running ∈ callStacks :=
  (regular_verify h).of_lapse rfl hmem

lemma charge_verifyTicks (p : Timer → Bool) :
    charge (List.countP p) (verifyTicks h now host) = reported p (verifyTicks h now host) :=
  (regular_verify h).charge_eq_reported rfl p

/-- What is counted and what is not add up to the time of the run and what is counted twice. -/
lemma reported_counted_add_uncounted :
    reported Timer.counted (verifyTicks h now host) + uncounted (verifyTicks h now host)
      = elapsed (verifyTicks h now host) + (reported Timer.inBuildVir (verifyTicks h now host)
        + reported (· == .feedDecls) (verifyTicks h now host)) := by
  have hdisjoint : ∀ timer : Timer, timer.inBuildVir = true → (timer == .feedDecls) = false := by
    intro timer
    cases timer <;> decide
  rw [← reported_or hdisjoint, ← charge_verifyTicks, ← charge_verifyTicks, uncounted, elapsed,
    ← charge_add, ← charge_add]
  exact charge_congr _ fun running d hmem =>
    countP_counted running (mem_callStacks h now host hmem)

/-- Every instant is attributed to one group at most exactly if the declarations are fed in no
time. -/
lemma forall_attributed_iff :
    (∀ t, 0 ≤ t → t < elapsed (verifyTicks h now host) →
        ∃ running, runningAt (verifyTicks h now host) t = some running
          ∧ ∀ g ∈ attributed running, ∀ g' ∈ attributed running, g = g')
      ↔ reported (· == .feedDecls) (verifyTicks h now host) = 0 := by
  rw [forall_runningAt_iff, ← charge_verifyTicks, charge_eq_zero_iff]
  refine forall₃_congr fun running d hmem => forall_congr' fun _ => ?_
  exact attributed_feedDecls running (mem_callStacks h now host hmem)

end Verify

/-- **No time of a run is counted twice exactly if feeding the declarations takes none and the
parts of `build_vir` take no longer than all that is not counted.**  The first says that every
instant belongs to one tab group at most, and both together that the total of the status line is
at most the length of the run. -/
theorem stages_counted_once_iff {σ : Type} (h : Host σ Output) (now : ℚ) (host : σ) :
    let ticks := verifyTicks h now host
    let benchCache := (finishRun .verify (callbacks ticks) none {}).benchCache
    ((∀ execMode currentTab times, subtabTiming execMode currentTab benchCache = some times →
          times.2 ≤ elapsed ticks)
        ∧ ∀ t, 0 ≤ t → t < elapsed ticks →
          ∃ running, runningAt ticks t = some running
            ∧ ∀ g ∈ attributed running, ∀ g' ∈ attributed running, g = g')
      ↔ reported (· == .feedDecls) ticks = 0
        ∧ reported Timer.inBuildVir ticks ≤ uncounted ticks := by
  intro ticks benchCache
  have htotal : ∀ currentGroup, (benchTotals currentGroup benchCache).2
      = reported Timer.counted ticks := fun currentGroup => benchTotals_finishRun currentGroup ticks
  have hsum : reported Timer.counted ticks + uncounted ticks
      = elapsed ticks + (reported Timer.inBuildVir ticks + reported (· == .feedDecls) ticks) :=
    reported_counted_add_uncounted h now host
  have hlength : 0 ≤ elapsed ticks := charge_nonneg _ ticks
  refine (and_congr (forall_subtabTiming_iff benchCache htotal hlength)
    (forall_attributed_iff h now host)).trans ?_
  rw [and_comm]
  refine and_congr_right fun hfeed => ?_
  change reported (· == .feedDecls) ticks = 0 at hfeed
  rw [hfeed, add_zero] at hsum
  constructor
  · intro htime
    linarith
  · intro htime
    linarith

/-- A compiler that needs 135 ms to deserialize `vstd` and 1 ms for everything else, and a source
with one module. -/
def coldHost : Host ℕ Output where
  run n := (⟨if n = 9 then 135 else 1, [], .ok ()⟩, n + 1)
  modules _ := [none]

/-- The run takes 169 ms and the status line says 288 ms of 301 ms; the 165th millisecond, in which
the declarations are fed, is counted for `AIR` and for `Z3`. -/
theorem stages_counted_twice :
    let ticks := verifyTicks coldHost 0 0
    let benchCache := (finishRun .verify (callbacks ticks) none {}).benchCache
    elapsed ticks = 169
      ∧ subtabTiming false (some (js "VIR_RAW")) benchCache = some (288, 301)
      ∧ (runningAt ticks 164).map attributed = some [js "AIR", js "Z3"] := by
  decide +kernel

end VerusExplorer
