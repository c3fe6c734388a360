import VerusExplorer.Lib.Gather
import VerusExplorer.Lib.Loops
import VerusExplorer.Page.Panel
import VerusExplorer.Page.Positions
import Mathlib.Data.List.Perm.Basic

/-!
# Line decorations

After a run the page decorates the lines on which a diagnostic starts and the lines of the functions
that have a verdict (`updateErrorDecorations`, `updateVerdictMarkers`, `public/app.js`).  Several
results for one line become one decoration: an error beats a warning, a failure beats a success.

* `addErrorLine`, `addVerdict` are the bodies of the two loops, over the document as it is.
* `flag_error`, `flag_bad` — what each keeps for a line is a disjunction over the results there.
* **`lineDecorations_join`** — one decoration a line, which says what the results for the line say,
  however many there are and in whatever order they come.
-/

namespace VerusExplorer

open Utf16

/-! ## The source -/

/-- The classes of the line decorations. -/
inductive LineClass where
  | errorLine
  | warningLine
  | verdictOkLine
  | verdictBadLine
  deriving DecidableEq, Repr

/-- A decoration of the line that starts at an offset. -/
structure LineDeco where
  fromPos : ℕ
  cls : LineClass
  deriving DecidableEq, Repr

/-- A diagnostic of a line: the first one counts, and an error after warnings. -/
def setSeverity (byLine : OrderedMap ℕ Severity) (fromPos : ℕ) (severity : Severity) :
    OrderedMap ℕ Severity :=
  match byLine.get? fromPos with
  | none => byLine.set fromPos severity
  | some prev =>
      if prev = .warning ∧ severity = .error then byLine.set fromPos severity else byLine

/-- The body of the loop of `updateErrorDecorations`. -/
def addErrorLine (doc : Doc) (byLine : OrderedMap ℕ Severity) (d : Diagnostic) :
    Except RangeError (OrderedMap ℕ Severity) :=
  match d.loc with
  | none => pure byLine
  | some loc =>
      if d.severity = .note then pure byLine
      else if loc.line < 1 ∨ loc.line > doc.lines then pure byLine
      else do
        let info ← doc.line loc.line
        pure (setSeverity byLine info.fromPos d.severity)

def updateErrorDecorations (doc : Doc) (diagnostics : List Diagnostic) :
    Except RangeError (List LineDeco) := do
  let byLine ← diagnostics.foldlM (addErrorLine doc) []
  pure ((Gather.byKey byLine).map fun (fromPos, sev) =>
    ⟨fromPos, if sev = .error then .errorLine else .warningLine⟩)

/-- What `updateVerdictMarkers` keeps for a line. -/
structure LineVerdict where
  proved : Bool
  details : List JsString
  deriving DecidableEq, Repr

def verdictDetail (v : VerdictEntry) : JsString :=
  v.function ++ js ": " ++ v.kind ++ js " → " ++ v.outcome

/-- The body of the loop of `updateVerdictMarkers`. -/
def addVerdict (doc : Doc) (byLine : OrderedMap ℕ LineVerdict) (v : VerdictEntry) :
    OrderedMap ℕ LineVerdict :=
  match matchLineCol v.span with
  | none => byLine
  | some (line, _) =>
      if line < 1 ∨ line > doc.lines then byLine
      else
        match byLine.get? line with
        | none => byLine.set line ⟨v.proved, [verdictDetail v]⟩
        | some prev =>
            byLine.set line ⟨prev.proved && v.proved, prev.details ++ [verdictDetail v]⟩

def updateVerdictMarkers (doc : Doc) (verdicts : List VerdictEntry) :
    Except RangeError (List LineDeco) :=
  (Gather.byKey (verdicts.foldl (addVerdict doc) [])).mapM fun (line, v) => do
    let info ← doc.line line
    pure ⟨info.fromPos, if v.proved then .verdictOkLine else .verdictBadLine⟩

/-! ## Results on a line -/

/-- The diagnostic starts on line `n`. -/
def Diagnostic.StartsOn (d : Diagnostic) (n : ℕ) : Prop := ∃ loc ∈ d.loc, loc.line = n

/-- The span of the verdict says line `n`. -/
def VerdictEntry.LocatedOn (v : VerdictEntry) (n : ℕ) : Prop :=
  ∃ lineCol ∈ matchLineCol v.span, lineCol.1 = n

section Keys

variable (doc : Doc)

/-- Where the line starts that a diagnostic is to mark. -/
def errorKey (d : Diagnostic) : Option ℕ :=
  match d.loc with
  | none => none
  | some loc =>
      if d.severity ≠ .note ∧ doc.HasLine loc.line then some (doc.lineFrom loc.line) else none

/-- The line of a verdict. -/
def verdictKey (v : VerdictEntry) : Option ℕ :=
  match matchLineCol v.span with
  | none => none
  | some (line, _) => if doc.HasLine line then some line else none

variable {doc} {n : ℕ}

lemma errorKey_eq_some {d : Diagnostic} (hn : doc.HasLine n) :
    errorKey doc d = some (doc.lineFrom n) ↔ d.StartsOn n ∧ d.severity ≠ .note := by
  rw [errorKey.eq_def, Diagnostic.StartsOn]
  cases d.loc with
  | none => simp
  | some loc =>
      simp only [Option.mem_some_iff, exists_eq_left']
      split_ifs with h
      · rw [Option.some_inj]
        exact ⟨fun heq => ⟨lineFrom_inj h.2 hn heq, h.1⟩, fun heq => by rw [heq.1]⟩
      · refine iff_of_false (by simp) ?_
        rintro ⟨rfl, hsev⟩
        exact h ⟨hsev, hn⟩

/-- A key is where a line starts. -/
lemma exists_of_errorKey {d : Diagnostic} {pos : ℕ} (h : errorKey doc d = some pos) :
    ∃ n, doc.HasLine n ∧ pos = doc.lineFrom n := by
  rw [errorKey.eq_def] at h
  split at h
  · exact absurd h (by simp)
  · split_ifs at h with hloc
    exact ⟨_, hloc.2, (Option.some_inj.mp h).symm⟩

lemma verdictKey_eq_some {v : VerdictEntry} :
    verdictKey doc v = some n ↔ v.LocatedOn n ∧ doc.HasLine n := by
  rw [verdictKey.eq_def, VerdictEntry.LocatedOn]
  cases matchLineCol v.span with
  | none => simp
  | some lineCol =>
      simp only [Option.mem_some_iff, exists_eq_left']
      split_ifs with h
      · rw [Option.some_inj]
        exact ⟨fun heq => ⟨heq, heq ▸ h⟩, fun heq => heq.1⟩
      · refine iff_of_false (by simp) ?_
        rintro ⟨rfl, hn⟩
        exact h hn

end Keys

/-! ## The loops gather -/

/-- What is kept for a line after another diagnostic. -/
def joinSeverity (prev : Option Severity) (d : Diagnostic) : Severity :=
  match prev with
  | none => d.severity
  | some prev => if prev = .warning ∧ d.severity = .error then d.severity else prev

/-- What is kept for a line after another verdict. -/
def joinVerdict (prev : Option LineVerdict) (v : VerdictEntry) : LineVerdict :=
  match prev with
  | none => ⟨v.proved, [verdictDetail v]⟩
  | some prev => ⟨prev.proved && v.proved, prev.details ++ [verdictDetail v]⟩

section Gathers

variable (doc : Doc)

omit doc in
lemma setSeverity_eq (byLine : OrderedMap ℕ Severity) (pos : ℕ) (d : Diagnostic) :
    setSeverity byLine pos d.severity
      = byLine.set pos (joinSeverity (byLine.get? pos) d) := by
  rw [setSeverity]
  cases hprev : byLine.get? pos with
  | none => rfl
  | some prev =>
      dsimp only [joinSeverity]
      split_ifs
      · rfl
      · exact (OrderedMap.set_of_get? hprev).symm

lemma addErrorLine_eq (byLine : OrderedMap ℕ Severity) (d : Diagnostic) :
    addErrorLine doc byLine d = .ok (Gather.gatherOne (errorKey doc) joinSeverity byLine d) := by
  rw [addErrorLine.eq_def, Gather.gatherOne.eq_def, errorKey.eq_def]
  cases d.loc with
  | none => rfl
  | some loc =>
      dsimp only
      by_cases hnote : d.severity = .note
      · rw [if_pos hnote, if_neg (by simp [hnote])]
        rfl
      · by_cases hline : doc.HasLine loc.line
        · rw [if_neg hnote, if_neg (Doc.hasLine_iff.mp hline), if_pos ⟨hnote, hline⟩,
            Doc.line_of_hasLine hline]
          exact congrArg Except.ok (setSeverity_eq byLine _ d)
        · rw [if_neg hnote, if_pos (not_not.mp (mt Doc.hasLine_iff.mpr hline)),
            if_neg fun h => hline h.2]
          rfl

lemma addVerdict_eq : addVerdict doc = Gather.gatherOne (verdictKey doc) joinVerdict := by
  funext byLine v
  rw [addVerdict.eq_def, Gather.gatherOne.eq_def, verdictKey.eq_def]
  rcases matchLineCol v.span with _ | ⟨line, col⟩
  · rfl
  · dsimp only
    by_cases hline : doc.HasLine line
    · rw [if_neg (Doc.hasLine_iff.mp hline), if_pos hline]
      dsimp only
      cases byLine.get? line <;> rfl
    · rw [if_pos (not_not.mp (mt Doc.hasLine_iff.mpr hline)), if_neg hline]

/-- A line is an error line if one of its diagnostics is an error; notes are not kept. -/
lemma flag_error : Gather.Flag (errorKey doc) joinSeverity (· ≠ .note) (· = .error)
    fun d => d.severity = .error := by
  have hkept : ∀ d, (errorKey doc d).isSome → d.severity ≠ .note := by
    intro d h
    rw [errorKey.eq_def] at h
    split at h
    · exact absurd h (by simp)
    · split_ifs at h with hloc
      · exact hloc.1
      · exact absurd h (by simp)
  constructor
  · intro d h
    exact ⟨hkept d h, Iff.rfl⟩
  · intro sev d h hsev
    have hd := hkept d h
    rw [joinSeverity]
    cases sev <;> cases hs : d.severity <;> simp_all

/-- A line has a bad bar if one of its verdicts is a failure. -/
lemma flag_bad : Gather.Flag (verdictKey doc) joinVerdict (fun _ => True)
    (fun v => v.proved = false) fun v => v.proved = false := by
  constructor
  · intro v _
    exact ⟨trivial, Iff.rfl⟩
  · intro prev v _ _
    refine ⟨trivial, ?_⟩
    rw [joinVerdict, Bool.and_eq_false_iff]

end Gathers

/-! ## The decorations -/

section Decorations

variable (doc : Doc)

/-- The decorations of the lines, from what has been gathered. -/
def errorDecos (diagnostics : List Diagnostic) : List LineDeco :=
  (Gather.byKey (Gather.gather (errorKey doc) joinSeverity diagnostics)).map fun (fromPos, sev) =>
    ⟨fromPos, if sev = .error then .errorLine else .warningLine⟩

def verdictDecos (verdicts : List VerdictEntry) : List LineDeco :=
  (Gather.byKey (Gather.gather (verdictKey doc) joinVerdict verdicts)).map fun (line, v) =>
    ⟨doc.lineFrom line, if v.proved then .verdictOkLine else .verdictBadLine⟩

variable {doc}

lemma updateErrorDecorations_eq (diagnostics : List Diagnostic) :
    updateErrorDecorations doc diagnostics = .ok (errorDecos doc diagnostics) := by
  rw [updateErrorDecorations, Loops.foldlM_eq_foldl fun byLine d _ => addErrorLine_eq doc byLine d]
  rfl

/-- The lines that are asked for are those of the verdicts. -/
lemma updateVerdictMarkers_eq (verdicts : List VerdictEntry) :
    updateVerdictMarkers doc verdicts = .ok (verdictDecos doc verdicts) := by
  rw [updateVerdictMarkers, addVerdict_eq]
  refine Loops.mapM_eq_map ?_
  rintro ⟨line, v⟩ he
  obtain ⟨⟨x, -, hx⟩, -⟩ := Gather.mem_gather (flag_bad doc) (Gather.mem_byKey.mp he)
  dsimp only
  rw [Doc.line_of_hasLine (verdictKey_eq_some.mp hx).2]
  rfl

/-- At most one decoration for each line of the document, in the order of the lines. -/
structure OnePerLine (doc : Doc) (decos : List LineDeco) : Prop where
  sorted : decos.Pairwise fun a b => a.fromPos < b.fromPos
  starts : ∀ x ∈ decos, ∃ n, doc.HasLine n ∧ x.fromPos = doc.lineFrom n
  inside : ∀ x ∈ decos, x.fromPos ≤ doc.length

lemma onePerLine {decos : List LineDeco}
    (hsorted : decos.Pairwise fun a b => a.fromPos < b.fromPos)
    (hstarts : ∀ x ∈ decos, ∃ n, doc.HasLine n ∧ x.fromPos = doc.lineFrom n) :
    OnePerLine doc decos where
  sorted := hsorted
  starts := hstarts
  inside := by
    intro x hx
    obtain ⟨n, hn, heq⟩ := hstarts x hx
    exact heq ▸ hn.bounds.1.trans hn.bounds.2

lemma onePerLine_errorDecos (diagnostics : List Diagnostic) :
    OnePerLine doc (errorDecos doc diagnostics) := by
  have hnodup := (Gather.flag_gather (flag_error doc) diagnostics).1
  refine onePerLine (List.pairwise_map.mpr (Gather.pairwise_byKey hnodup)) ?_
  intro x hx
  obtain ⟨⟨pos, sev⟩, he, rfl⟩ := List.mem_map.mp hx
  obtain ⟨⟨d, -, hd⟩, -⟩ := Gather.mem_gather (flag_error doc) (Gather.mem_byKey.mp he)
  exact exists_of_errorKey hd

lemma onePerLine_verdictDecos (verdicts : List VerdictEntry) :
    OnePerLine doc (verdictDecos doc verdicts) := by
  have hnodup := (Gather.flag_gather (flag_bad doc) verdicts).1
  have hline : ∀ e ∈ Gather.byKey (Gather.gather (verdictKey doc) joinVerdict verdicts),
      doc.HasLine e.1 := by
    intro e he
    obtain ⟨⟨v, -, hv⟩, -⟩ := Gather.mem_gather (flag_bad doc) (Gather.mem_byKey.mp he)
    exact (verdictKey_eq_some.mp hv).2
  refine onePerLine (List.pairwise_map.mpr ?_) ?_
  · refine (Gather.pairwise_byKey hnodup).imp_of_mem fun {a b} ha _ (hab : a.1 < b.1) => ?_
    have := (hline a ha).1
    exact Lines.lineStart_strictMono doc.lineTexts (by omega)
  · intro x hx
    obtain ⟨e, he, rfl⟩ := List.mem_map.mp hx
    exact ⟨e.1, hline e he, rfl⟩

/-! ### What a decoration says -/

variable {n : ℕ}

/-- What has been gathered for a line is an error exactly if one of its diagnostics is, and a
warning otherwise. -/
lemma gathered_severity (hn : doc.HasLine n) {diagnostics : List Diagnostic} {sev : Severity}
    (h : (doc.lineFrom n, sev) ∈ Gather.gather (errorKey doc) joinSeverity diagnostics) :
    (∃ d ∈ diagnostics, d.StartsOn n ∧ d.severity ≠ .note) ∧ sev ≠ .note
      ∧ (sev = .error ↔ ∃ d ∈ diagnostics, d.StartsOn n ∧ d.severity = .error) := by
  obtain ⟨⟨d, hd, hkey⟩, hkept, hflag⟩ := Gather.mem_gather (flag_error doc) h
  refine ⟨⟨d, hd, (errorKey_eq_some hn).mp hkey⟩, hkept, hflag.trans ?_⟩
  refine exists_congr fun d => and_congr_right fun _ => ?_
  rw [errorKey_eq_some hn, and_assoc]
  exact and_congr_right fun _ => ⟨fun h => h.2, fun h => ⟨by simp [h], h⟩⟩

/-- The decoration of a line for its diagnostics: an error line if one of them is an error, a
warning line if there are warnings but no error, none for notes. -/
lemma mem_errorDecos (hn : doc.HasLine n) {diagnostics : List Diagnostic} {cls : LineClass} :
    ⟨doc.lineFrom n, cls⟩ ∈ errorDecos doc diagnostics
      ↔ cls = .errorLine ∧ (∃ d ∈ diagnostics, d.StartsOn n ∧ d.severity = .error)
        ∨ cls = .warningLine ∧ (∃ d ∈ diagnostics, d.StartsOn n ∧ d.severity = .warning)
          ∧ ¬∃ d ∈ diagnostics, d.StartsOn n ∧ d.severity = .error := by
  rw [errorDecos, List.mem_map]
  constructor
  · rintro ⟨⟨pos, sev⟩, he, heq⟩
    obtain ⟨rfl, rfl⟩ := LineDeco.mk.inj heq
    obtain ⟨⟨d, hd, hstart, hnote⟩, hkept, herror⟩ :=
      gathered_severity hn (Gather.mem_byKey.mp he)
    cases sev with
    | error => exact Or.inl ⟨rfl, herror.mp rfl⟩
    | warning =>
        have hnone := mt herror.mpr (by simp)
        refine Or.inr ⟨rfl, ⟨d, hd, hstart, ?_⟩, hnone⟩
        cases hs : d.severity with
        | error => exact absurd ⟨d, hd, hstart, hs⟩ hnone
        | warning => rfl
        | note => exact absurd hs hnote
    | note => exact absurd rfl hkept
  · intro h
    have hsome : ∃ d ∈ diagnostics, d.StartsOn n ∧ d.severity ≠ .note := by
      rcases h with ⟨-, d, hd, hstart, hs⟩ | ⟨-, ⟨d, hd, hstart, hs⟩, -⟩
      · exact ⟨d, hd, hstart, by simp [hs]⟩
      · exact ⟨d, hd, hstart, by simp [hs]⟩
    obtain ⟨d, hd, hkey⟩ := hsome
    obtain ⟨sev, hsev⟩ :=
      Gather.exists_mem_gather (flag_error doc) ⟨d, hd, (errorKey_eq_some hn).mpr hkey⟩
    obtain ⟨-, hkept, herror⟩ := gathered_severity hn hsev
    refine ⟨(doc.lineFrom n, sev), Gather.mem_byKey.mpr hsev, ?_⟩
    rcases h with ⟨rfl, he⟩ | ⟨rfl, -, hnone⟩
    · rw [herror.mpr he]
      rfl
    · rw [← herror] at hnone
      exact congrArg (LineDeco.mk _) (if_neg hnone)

/-- What has been gathered for a line is proved exactly if all its verdicts are. -/
lemma gathered_proved {verdicts : List VerdictEntry} {v : LineVerdict}
    (h : (n, v) ∈ Gather.gather (verdictKey doc) joinVerdict verdicts) :
    (∃ x ∈ verdicts, x.LocatedOn n) ∧ doc.HasLine n
      ∧ (v.proved = false ↔ ∃ x ∈ verdicts, x.LocatedOn n ∧ x.proved = false) := by
  obtain ⟨⟨x, hx, hkey⟩, -, hflag⟩ := Gather.mem_gather (flag_bad doc) h
  obtain ⟨hon, hn⟩ := verdictKey_eq_some.mp hkey
  refine ⟨⟨x, hx, hon⟩, hn, hflag.trans ?_⟩
  refine exists_congr fun x => and_congr_right fun _ => ?_
  rw [verdictKey_eq_some, and_iff_left hn]

/-- The bar of a line for its verdicts: a bad one if one of them failed, otherwise an ok one. -/
lemma mem_verdictDecos (hn : doc.HasLine n) {verdicts : List VerdictEntry} {cls : LineClass} :
    ⟨doc.lineFrom n, cls⟩ ∈ verdictDecos doc verdicts
      ↔ cls = .verdictBadLine ∧ (∃ v ∈ verdicts, v.LocatedOn n ∧ v.proved = false)
        ∨ cls = .verdictOkLine ∧ (∃ v ∈ verdicts, v.LocatedOn n)
          ∧ ¬∃ v ∈ verdicts, v.LocatedOn n ∧ v.proved = false := by
  rw [verdictDecos, List.mem_map]
  constructor
  · rintro ⟨⟨line, v⟩, he, heq⟩
    obtain ⟨hfrom, rfl⟩ := LineDeco.mk.inj heq
    obtain ⟨hsome, hline, hbad⟩ := gathered_proved (Gather.mem_byKey.mp he)
    obtain rfl := lineFrom_inj hline hn hfrom
    cases hp : v.proved with
    | false => exact Or.inl ⟨if_neg (by simp), hbad.mp hp⟩
    | true => exact Or.inr ⟨if_pos rfl, hsome, mt hbad.mpr (by simp [hp])⟩
  · intro h
    have hsome : ∃ v ∈ verdicts, v.LocatedOn n := by
      rcases h with ⟨-, v, hv, hon, -⟩ | ⟨-, hsome, -⟩
      · exact ⟨v, hv, hon⟩
      · exact hsome
    obtain ⟨x, hx, hon⟩ := hsome
    obtain ⟨v, hv⟩ :=
      Gather.exists_mem_gather (flag_bad doc) ⟨x, hx, verdictKey_eq_some.mpr ⟨hon, hn⟩⟩
    obtain ⟨-, -, hbad⟩ := gathered_proved hv
    refine ⟨(n, v), Gather.mem_byKey.mpr hv, congrArg (LineDeco.mk _) ?_⟩
    rcases h with ⟨rfl, hfailed⟩ | ⟨rfl, -, hnone⟩
    · exact if_neg (by simp [hbad.mpr hfailed])
    · rw [← hbad] at hnone
      exact if_pos (by simpa using hnone)

/-- Decorations that say the same of every line are the same. -/
lemma OnePerLine.eq {xs ys : List LineDeco} (hx : OnePerLine doc xs) (hy : OnePerLine doc ys)
    (h : ∀ n, doc.HasLine n → ∀ cls,
      (⟨doc.lineFrom n, cls⟩ : LineDeco) ∈ xs ↔ ⟨doc.lineFrom n, cls⟩ ∈ ys) : xs = ys := by
  refine Gather.eq_of_sorted hx.sorted hy.sorted fun a => ?_
  constructor
  · intro ha
    obtain ⟨n, hn, heq⟩ := hx.starts a ha
    rw [show a = ⟨doc.lineFrom n, a.cls⟩ by rw [← heq]] at ha ⊢
    exact (h n hn _).mp ha
  · intro ha
    obtain ⟨n, hn, heq⟩ := hy.starts a ha
    rw [show a = ⟨doc.lineFrom n, a.cls⟩ by rw [← heq]] at ha ⊢
    exact (h n hn _).mpr ha

end Decorations

/-- **Line decorations are joins of the results for a line.**  Whatever the diagnostics, the
verdicts and the document, there is at most one decoration of each kind for a line; a line is an
error line if an error starts on it, a warning line if a warning does and no error; it has a bad bar
if a verdict located on it failed, an ok bar if there is one and none failed; and the order in which
the results came does not matter. -/
theorem lineDecorations_join (doc : Doc) (diagnostics : List Diagnostic)
    (verdicts : List VerdictEntry) :
    ∃ errors bars, updateErrorDecorations doc diagnostics = .ok errors
      ∧ updateVerdictMarkers doc verdicts = .ok bars
      ∧ OnePerLine doc errors ∧ OnePerLine doc bars
      ∧ (∀ n, doc.HasLine n → ∀ cls, ⟨doc.lineFrom n, cls⟩ ∈ errors
        ↔ cls = .errorLine ∧ (∃ d ∈ diagnostics, d.StartsOn n ∧ d.severity = .error)
          ∨ cls = .warningLine ∧ (∃ d ∈ diagnostics, d.StartsOn n ∧ d.severity = .warning)
            ∧ ¬∃ d ∈ diagnostics, d.StartsOn n ∧ d.severity = .error)
      ∧ (∀ n, doc.HasLine n → ∀ cls, ⟨doc.lineFrom n, cls⟩ ∈ bars
        ↔ cls = .verdictBadLine ∧ (∃ v ∈ verdicts, v.LocatedOn n ∧ v.proved = false)
          ∨ cls = .verdictOkLine ∧ (∃ v ∈ verdicts, v.LocatedOn n)
            ∧ ¬∃ v ∈ verdicts, v.LocatedOn n ∧ v.proved = false)
      ∧ (∀ others, others.Perm diagnostics → updateErrorDecorations doc others = .ok errors)
      ∧ ∀ others, others.Perm verdicts → updateVerdictMarkers doc others = .ok bars := by
  refine ⟨errorDecos doc diagnostics, verdictDecos doc verdicts,
    updateErrorDecorations_eq diagnostics, updateVerdictMarkers_eq verdicts,
    onePerLine_errorDecos diagnostics, onePerLine_verdictDecos verdicts,
    fun n hn cls => mem_errorDecos hn, fun n hn cls => mem_verdictDecos hn, ?_, ?_⟩
  · intro others hperm
    have heq : errorDecos doc others = errorDecos doc diagnostics := by
      refine (onePerLine_errorDecos others).eq (onePerLine_errorDecos diagnostics) ?_
      intro n hn cls
      simp only [mem_errorDecos hn, hperm.mem_iff]
    rw [updateErrorDecorations_eq, heq]
  · intro others hperm
    have heq : verdictDecos doc others = verdictDecos doc verdicts := by
      refine (onePerLine_verdictDecos others).eq (onePerLine_verdictDecos verdicts) ?_
      intro n hn cls
      simp only [mem_verdictDecos hn, hperm.mem_iff]
    rw [updateVerdictMarkers_eq, heq]

/-- Two functions: of the first a query passed, of the second one passed and one failed. -/
def markedDoc : Doc := ⟨js "fn f() {}\nfn g() {}", by decide⟩

def markedDiagnostics : List Diagnostic :=
  [⟨js "warning", some ⟨2, 1, none⟩, .warning⟩, ⟨js "error", some ⟨2, 4, none⟩, .error⟩,
    ⟨js "note", some ⟨1, 1, none⟩, .note⟩]

def markedVerdicts : List VerdictEntry :=
  [⟨js "g", js "<input.rs>:2:1: 2:10 (#0)", js "body", js "invalid", false⟩, passedEntry,
    ⟨js "g", js "<input.rs>:2:1: 2:10 (#0)", js "recommends", js "valid", true⟩]

/-- The first line has an ok bar and nothing for the note, the second one is an error line with a
bad bar; so it is when all results come in reverse. -/
theorem lineDecorations_join_marked :
    ∃ errors bars, updateErrorDecorations markedDoc markedDiagnostics = .ok errors
      ∧ updateVerdictMarkers markedDoc markedVerdicts = .ok bars
      ∧ ⟨markedDoc.lineFrom 2, .errorLine⟩ ∈ errors
      ∧ ⟨markedDoc.lineFrom 2, .verdictBadLine⟩ ∈ bars
      ∧ updateErrorDecorations markedDoc markedDiagnostics.reverse = .ok errors
      ∧ updateVerdictMarkers markedDoc markedVerdicts.reverse = .ok bars := by
  obtain ⟨errors, bars, herrors, hbars, -, -, hline, hbar, hperm, hperm'⟩ :=
    lineDecorations_join markedDoc markedDiagnostics markedVerdicts
  refine ⟨errors, bars, herrors, hbars, (hline 2 (by decide) _).mpr (Or.inl ⟨rfl, ?_⟩),
    (hbar 2 (by decide) _).mpr (Or.inl ⟨rfl, ?_⟩), hperm _ (List.reverse_perm _),
    hperm' _ (List.reverse_perm _)⟩
  · exact ⟨_, List.mem_cons_of_mem _ List.mem_cons_self, ⟨_, rfl, rfl⟩, rfl⟩
  · exact ⟨_, List.mem_cons_self, ⟨(2, 1), by decide, rfl⟩, rfl⟩

end VerusExplorer
