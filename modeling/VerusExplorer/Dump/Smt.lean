import VerusExplorer.Lib.Select
import VerusExplorer.Dump.Emit

/-!
# The projections of the SMT transcript

`project_smt` (`verus.rs`) derives two views from the solver transcript: the commands without the
solver's replies, and the replies without the commands.  Both keep the section markers.  It reads
the transcript line by line with one mode bit, which tells whether the line is inside a response
block.

* `lines`, `isMarker`, `projectLine`, `projectSmt` follow the source.
* `InResponse ls i` says by positions alone that line `i` is part of a response block.
* **`projectSmt_views`** — on every transcript without carriage returns the two projections are
  complementary selections of its lines, each is idempotent, and they commute.
-/

namespace VerusExplorer

open Utf16 Lines Select

/-! ## The source -/

/-- One carriage return less at the end. -/
def stripCr (line : Str) : Str := if line.getLast? = some '\r' then line.dropLast else line

/-- `str::lines`: only a line that ends in a newline loses a carriage return before it. -/
def lines (s : Str) : List Str :=
  let pieces := s.splitOn '\n'
  pieces.dropLast.map stripCr ++ pieces.getLast?.toList.filter fun l => !l.isEmpty

def isMarker (line : Str) : Bool :=
  ";;>".toList.isPrefixOf line || ";;v".toList.isPrefixOf line || line == ";;<".toList

/-- The test that enters a response block. -/
def opensResponse (line : Str) : Bool := ";;> response ".toList.isPrefixOf line

/-- The body of the loop of `project_smt`, on the pair of `out` and `in_response`. -/
def projectLine (keepResponses : Bool) (acc : Str × Bool) (line : Str) : Str × Bool :=
  let (out, inResponse) := acc
  let pushed := out ++ line ++ "\n".toList
  if opensResponse line then (if keepResponses then pushed else out, true)
  else if inResponse && line == ";;<".toList then (if keepResponses then pushed else out, false)
  else if inResponse then (if keepResponses then pushed else out, true)
  else (if !keepResponses || isMarker line then pushed else out, false)

def projectSmt (transcript : Str) (keepResponses : Bool) : Str :=
  ((lines transcript).foldl (projectLine keepResponses) ([], false)).1

/-! ## The projections by lines -/

/-- The mode after a line. -/
def nextMode (mode : Bool) (line : Str) : Bool := opensResponse line || mode && line != closeLine

/-- Whether a projection keeps a line read in `mode`. -/
def keeps (keepResponses mode : Bool) (line : Str) : Bool :=
  if opensResponse line || mode then keepResponses else !keepResponses || isMarker line

/-- The lines a projection keeps. -/
def project (keepResponses : Bool) (ls : List Str) : List Str :=
  scan nextMode (keeps keepResponses) false ls

lemma projectLine_unlines (k : Bool) (L : List Str) (mode : Bool) (l : Str) :
    projectLine k (unlines '\n' L, mode) l
      = (unlines '\n' (L ++ if keeps k mode l then [l] else []), nextMode mode l) := by
  have hpush : unlines '\n' L ++ l ++ "\n".toList = unlines '\n' (L ++ [l]) := by simp
  have hclose : closeLine = ";;<".toList := rfl
  simp only [projectLine, hpush, keeps, nextMode, hclose]
  split_ifs <;> simp_all

lemma projectLine_foldl (k : Bool) (ls : List Str) :
    ∀ (L : List Str) (mode : Bool),
      (ls.foldl (projectLine k) (unlines '\n' L, mode)).1
        = unlines '\n' (L ++ scan nextMode (keeps k) mode ls) := by
  induction ls with
  | nil =>
      intro L mode
      simp [scan]
  | cons l ls ih =>
      intro L mode
      rw [List.foldl_cons, projectLine_unlines, ih, scan]
      split_ifs <;> simp

/-- A projection writes the lines it keeps, each with a newline. -/
lemma projectSmt_eq (t : Str) (k : Bool) :
    projectSmt t k = unlines '\n' (project k (lines t)) := by
  have h := projectLine_foldl k (lines t) [] false
  rwa [unlines_nil, List.nil_append] at h

/-! ## Response blocks by positions -/

/-- Line `i` belongs to a response block: it opens one, or one was opened before it and no closing
line stands in between.  The line that closes a block belongs to it. -/
def InResponse (ls : List Str) (i : ℕ) : Prop :=
  ∃ j < i + 1, ls[j]?.any opensResponse ∧ ∀ k < i, j < k → ls[k]? ≠ some closeLine

instance (ls : List Str) (i : ℕ) : Decidable (InResponse ls i) :=
  inferInstanceAs (Decidable (∃ j < i + 1, ls[j]?.any opensResponse
    ∧ ∀ k < i, j < k → ls[k]? ≠ some closeLine))

/-- A block that reaches a later line is opened by the first line or after it. -/
lemma inResponse_succ (x : Str) (ls : List Str) (i : ℕ) :
    InResponse (x :: ls) (i + 1)
      ↔ (opensResponse x = true ∧ ∀ k < i, ls[k]? ≠ some closeLine) ∨ InResponse ls i := by
  have hfirst : (∀ k < i + 1, 0 < k → (x :: ls)[k]? ≠ some closeLine)
      ↔ ∀ k < i, ls[k]? ≠ some closeLine := by
    rw [Nat.forall_lt_succ_left]
    simp only [Nat.lt_irrefl, Nat.succ_pos, List.getElem?_cons_succ, false_implies, true_implies,
      true_and]
  have hlater : ∀ j, (∀ k < i + 1, j + 1 < k → (x :: ls)[k]? ≠ some closeLine)
      ↔ ∀ k < i, j < k → ls[k]? ≠ some closeLine := by
    intro j
    rw [Nat.forall_lt_succ_left]
    simp only [List.getElem?_cons_succ, Nat.succ_lt_succ_iff, Nat.not_lt_zero, false_implies,
      true_and]
  rw [InResponse, Nat.exists_lt_succ_left, hfirst, InResponse]
  simp only [hlater, List.getElem?_cons_zero, List.getElem?_cons_succ, Option.any_some]

/-- Whether a block that is open before the first line, or one opened later, reaches line `i`. -/
lemma reaches_iff (ls : List Str) :
    ∀ (mode : Bool) (i : ℕ) (l : Str), ls[i]? = some l →
      ((mode = true ∧ ∀ k < i, ls[k]? ≠ some closeLine) ∨ InResponse ls i
        ↔ (opensResponse l || (ls.take i).foldl nextMode mode) = true) := by
  induction ls with
  | nil =>
      intro mode i l hl
      simp at hl
  | cons x ls ih =>
      rintro mode (_ | i) l hl
      · obtain rfl : x = l := by simpa using hl
        simp [InResponse, or_comm]
      · rw [List.take_succ_cons, List.foldl_cons, ← ih (nextMode mode x) i l (by simpa using hl)]
        have hmode : (nextMode mode x = true) ↔
            opensResponse x = true ∨ mode = true ∧ x ≠ closeLine := by
          simp [nextMode]
        have hclosed : (∀ k < i + 1, (x :: ls)[k]? ≠ some closeLine)
            ↔ x ≠ closeLine ∧ ∀ k < i, ls[k]? ≠ some closeLine := by
          rw [Nat.forall_lt_succ_left]
          simp
        rw [hmode, hclosed, inResponse_succ]
        tauto

/-- The mode before line `i` and the line itself tell whether it is in a response block. -/
lemma inResponse_iff (ls : List Str) {i : ℕ} {l : Str} (hl : ls[i]? = some l) :
    InResponse ls i ↔ (opensResponse l || (ls.take i).foldl nextMode false) = true := by
  have h := reaches_iff ls false i l hl
  simpa using h

/-- Line `i` is a section marker. -/
def MarkerAt (ls : List Str) (i : ℕ) : Prop := ls[i]?.any isMarker

/-- The lines of the query view. -/
def InQueryView (ls : List Str) (i : ℕ) : Prop := ¬ InResponse ls i

/-- The lines of the response view. -/
def InResponseView (ls : List Str) (i : ℕ) : Prop := InResponse ls i ∨ MarkerAt ls i

/-- The lines of both: the section markers outside every response block. -/
def InSkeleton (ls : List Str) (i : ℕ) : Prop := ¬ InResponse ls i ∧ MarkerAt ls i

instance (ls : List Str) : DecidablePred (MarkerAt ls) :=
  fun _ => inferInstanceAs (Decidable (_ = true))

instance (ls : List Str) : DecidablePred (InQueryView ls) :=
  fun _ => inferInstanceAs (Decidable (¬ _))

instance (ls : List Str) : DecidablePred (InResponseView ls) :=
  fun _ => inferInstanceAs (Decidable (_ ∨ _))

instance (ls : List Str) : DecidablePred (InSkeleton ls) :=
  fun _ => inferInstanceAs (Decidable (_ ∧ _))

lemma project_false_eq (ls : List Str) : project false ls = selectAt (InQueryView ls) ls := by
  rw [project, scan_eq_selectAt]
  refine selectAt_congr ?_
  intro i hi
  have hl : ls[i]? = some ls[i] := List.getElem?_eq_getElem hi
  rw [InQueryView, inResponse_iff ls hl, hl]
  simp only [Option.any_some, keeps]
  split_ifs <;> simp_all

lemma project_true_eq (ls : List Str) : project true ls = selectAt (InResponseView ls) ls := by
  rw [project, scan_eq_selectAt]
  refine selectAt_congr ?_
  intro i hi
  have hl : ls[i]? = some ls[i] := List.getElem?_eq_getElem hi
  rw [InResponseView, MarkerAt, inResponse_iff ls hl, hl]
  simp only [Option.any_some, keeps]
  split_ifs <;> simp_all

/-! ## Projecting twice -/

/-- Without an opener no response block is ever entered. -/
lemma scan_of_no_opener (k : Bool) {ls : List Str} (h : ∀ l ∈ ls, opensResponse l = false) :
    scan nextMode (keeps k) false ls = ls.filter fun l => !k || isMarker l := by
  induction ls with
  | nil => rfl
  | cons l ls ih =>
      have hl : opensResponse l = false := h l (by simp)
      have ih' := ih fun l' hl' => h l' (List.mem_cons_of_mem l hl')
      simp [scan, keeps, nextMode, hl, ih', List.filter_cons]

/-- The query view opens no response block. -/
lemma no_opener_of_mem {ls : List Str} :
    ∀ {mode : Bool} {l : Str}, l ∈ scan nextMode (keeps false) mode ls →
      opensResponse l = false := by
  induction ls with
  | nil =>
      intro mode l hl
      simp [scan] at hl
  | cons x ls ih =>
      intro mode l hl
      rw [scan] at hl
      split_ifs at hl with hk
      · rcases List.mem_cons.mp hl with rfl | hl
        · simp only [keeps] at hk
          split_ifs at hk with ho
          exact (show opensResponse l = false ∧ mode = false by simpa using ho).1
        · exact ih hl
      · exact ih hl

lemma project_project_false (k : Bool) (ls : List Str) :
    project k (project false ls) = (project false ls).filter fun l => !k || isMarker l :=
  scan_of_no_opener k fun _ hl => no_opener_of_mem hl

/-- Reading the response view of a text again, the mode is in step with the first reading: a line
it leaves out is outside every block and opens none. -/
lemma scan_scan_true (ls : List Str) :
    ∀ mode : Bool,
      scan nextMode (keeps true) mode (scan nextMode (keeps true) mode ls)
          = scan nextMode (keeps true) mode ls
        ∧ scan nextMode (keeps false) mode (scan nextMode (keeps true) mode ls)
          = (scan nextMode (keeps false) mode ls).filter isMarker := by
  induction ls with
  | nil =>
      intro mode
      exact ⟨rfl, rfl⟩
  | cons l ls ih =>
      intro mode
      obtain ⟨ih1, ih2⟩ := ih (nextMode mode l)
      by_cases hb : (opensResponse l || mode) = true
      · -- a line of a block: the response view keeps it and the query view does not
        have hk : keeps true mode l = true := by simp [keeps, hb]
        have hq : keeps false mode l = false := by simp [keeps, hb]
        constructor
        · rw [scan, if_pos hk, scan, if_pos hk, ih1]
        · rw [scan, if_pos hk, scan, hq]
          simp [scan, hq, ih2]
      · -- a line outside every block: the query view keeps it, and the mode stays
        have hq : keeps false mode l = true := by simp [keeps, hb]
        have hk : keeps true mode l = isMarker l := by simp [keeps, hb]
        have hmode : nextMode mode l = mode := by
          cases mode <;> simp_all [nextMode]
        rw [hmode] at ih1 ih2
        cases hm : isMarker l with
        | true =>
            rw [hm] at hk
            constructor
            · simp [scan, hk, hmode, ih1]
            · simp [scan, hk, hq, hm, hmode, ih2]
        | false =>
            rw [hm] at hk
            constructor
            · simp [scan, hk, hmode, ih1]
            · simp [scan, hk, hq, hm, hmode, ih2]

/-! ## Lines of a text without carriage returns -/

lemma stripCr_subset (l : Str) : stripCr l ⊆ l := by
  rw [stripCr]
  split_ifs
  · exact List.dropLast_subset l
  · exact List.Subset.refl l

lemma stripCr_eq {l : Str} (h : '\r' ∉ l) : stripCr l = l := by
  rw [stripCr, if_neg]
  intro hlast
  exact h (List.mem_of_getLast? hlast)

/-- A line of a text has no newline, and nothing that the text does not have. -/
lemma mem_lines {t l : Str} (h : l ∈ lines t) : '\n' ∉ l ∧ l ⊆ t := by
  have hpiece : ∀ p ∈ t.splitOn '\n', '\n' ∉ p ∧ p ⊆ t := by
    intro p hp
    refine ⟨not_mem_of_mem_splitOn hp, fun x hx => ?_⟩
    rw [← join_splitOn '\n' t]
    exact mem_join_of_mem hx hp
  simp only [lines, List.mem_append, List.mem_map, List.mem_filter, Option.mem_toList] at h
  rcases h with ⟨p, hp, rfl⟩ | ⟨hl, -⟩
  · obtain ⟨h1, h2⟩ := hpiece p (List.dropLast_subset _ hp)
    exact ⟨fun hn => h1 (stripCr_subset p hn), fun x hx => h2 (stripCr_subset p hx)⟩
  · exact hpiece l (List.mem_of_getLast? hl)

/-- Reading back what was written line by line. -/
lemma lines_unlines {ls : List Str} (h : ∀ l ∈ ls, '\n' ∉ l ∧ '\r' ∉ l) :
    lines (unlines '\n' ls) = ls := by
  have hsplit : (unlines '\n' ls).splitOn '\n' = ls ++ [[]] := by
    have hjoin := join_concat '\n' ([] : Str) ls
    rw [List.append_nil] at hjoin
    rw [← hjoin]
    refine splitOn_join (fun l hl => ?_) (by simp)
    rcases List.mem_append.mp hl with hl | hl
    · exact (h l hl).1
    · rw [List.mem_singleton] at hl
      simp [hl]
  have hstrip : ls.map stripCr = ls := by
    conv_rhs => rw [← List.map_id ls]
    exact List.map_congr_left fun l hl => stripCr_eq (h l hl).2
  simp [lines, hsplit, hstrip]

/-! ## The two views -/

/-- Projecting a projection is projecting its lines. -/
lemma lines_projectSmt {t : Str} (h : '\r' ∉ t) (k : Bool) :
    lines (projectSmt t k) = project k (lines t) := by
  rw [projectSmt_eq]
  refine lines_unlines ?_
  intro l hl
  have hmem : l ∈ lines t := by
    have hsub : (project k (lines t)).Sublist (lines t) := by
      rw [project, scan_eq_selectAt]
      exact selectAt_sublist _ _
    exact hsub.subset hl
  obtain ⟨hnl, hsub⟩ := mem_lines hmem
  exact ⟨hnl, fun hcr => h (hsub hcr)⟩

lemma projectSmt_projectSmt {t : Str} (h : '\r' ∉ t) (k k' : Bool) :
    projectSmt (projectSmt t k) k' = unlines '\n' (project k' (project k (lines t))) := by
  rw [projectSmt_eq, lines_projectSmt h]

lemma filter_isMarker_project (ls : List Str) :
    (project false ls).filter isMarker = selectAt (InSkeleton ls) ls := by
  rw [project_false_eq, filter_selectAt]
  rfl

/-- **The two views of a transcript** select complementary lines of it: every line is in one, and
in both exactly when it is a section marker outside every response block.  Projecting twice onto
one view changes nothing, and onto both, in either order, leaves exactly those markers. -/
theorem projectSmt_views (t : Str) (h : '\r' ∉ t) :
    (lines (projectSmt t false) = selectAt (InQueryView (lines t)) (lines t)
        ∧ projectSmt t false = unlines '\n' (selectAt (InQueryView (lines t)) (lines t)))
      ∧ (lines (projectSmt t true) = selectAt (InResponseView (lines t)) (lines t)
        ∧ projectSmt t true = unlines '\n' (selectAt (InResponseView (lines t)) (lines t)))
      ∧ (∀ i < (lines t).length, InQueryView (lines t) i ∨ InResponseView (lines t) i)
      ∧ (∀ i < (lines t).length, (InQueryView (lines t) i ∧ InResponseView (lines t) i)
          ↔ MarkerAt (lines t) i ∧ ¬ InResponse (lines t) i)
      ∧ projectSmt (projectSmt t false) false = projectSmt t false
      ∧ projectSmt (projectSmt t true) true = projectSmt t true
      ∧ projectSmt (projectSmt t true) false = projectSmt (projectSmt t false) true
      ∧ projectSmt (projectSmt t true) false
          = unlines '\n' (selectAt (InSkeleton (lines t)) (lines t)) := by
  have hqq : project false (project false (lines t)) = project false (lines t) := by
    rw [project_project_false]
    simp
  have hrr : project true (project true (lines t)) = project true (lines t) :=
    (scan_scan_true (lines t) false).1
  have hqr : project false (project true (lines t))
      = (project false (lines t)).filter isMarker := (scan_scan_true (lines t) false).2
  have hrq : project true (project false (lines t))
      = (project false (lines t)).filter isMarker := by
    rw [project_project_false]
    simp
  refine ⟨⟨?_, ?_⟩, ⟨?_, ?_⟩, ?_, ?_, ?_, ?_, ?_, ?_⟩
  · rw [lines_projectSmt h, project_false_eq]
  · rw [projectSmt_eq, project_false_eq]
  · rw [lines_projectSmt h, project_true_eq]
  · rw [projectSmt_eq, project_true_eq]
  · intro i _
    simp only [InQueryView, InResponseView]
    tauto
  · intro i _
    simp only [InQueryView, InResponseView]
    tauto
  · rw [projectSmt_projectSmt h, hqq, projectSmt_eq]
  · rw [projectSmt_projectSmt h, hrr, projectSmt_eq]
  · rw [projectSmt_projectSmt h, projectSmt_projectSmt h, hqr, hrq]
  · rw [projectSmt_projectSmt h, hqr, filter_isMarker_project]

/-- A transcript with a reply that is opened twice and never closed. -/
def danglingTranscript : Str :=
  ";;v function f\n(check-sat)\n;;> response a\nunsat\n;;<\n;;<\n;;> response b\n;;v\nsat".toList

/-- The two views of `danglingTranscript`: the marker in the open block is part of the reply. -/
theorem projectSmt_views_dangling :
    projectSmt danglingTranscript false = ";;v function f\n(check-sat)\n;;<\n".toList
      ∧ projectSmt (projectSmt danglingTranscript true) false
        = ";;v function f\n;;<\n".toList := by
  have h := projectSmt_views danglingTranscript (by decide)
  constructor
  · rw [h.1.2]
    decide
  · rw [h.2.2.2.2.2.2.2]
    decide

end VerusExplorer
