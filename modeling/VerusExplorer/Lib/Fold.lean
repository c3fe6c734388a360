import Mathlib.Data.List.Basic
import Mathlib.Tactic.Lemma

/-!
# Folding a marked text, line by line

A *marked text* is a sequence of tokens: an opening marker with a banner, a closing marker, or a
plain line.  Folding it keeps the banners and the plain lines, drops the closing markers, deletes
every section that turns out to be empty, and records for each section that stays the span of
kept lines it covers.

* `Machine` does this in one pass with a stack, over *any* token sequence, balanced or not.
  A section is deleted at its close by cutting the kept lines back to where they stood at its
  opening.
* `Forest` is the tree such a text serialises when it is balanced; `Forest.prune` deletes the
  empty sections recursively, and `Forest.lines` and `Forest.spans` read the result off the tree.
* **`Machine.run_tokens`** — on the tokens of a forest, the machine computes the recursive
  pruning.  The induction is on the forest, and it is the same statement at every depth because
  the stack below a section never matters to what is done inside it.

Everything is counted in lines.  A program that folds a character buffer counts offsets instead;
relating the two is left to the program.
-/

namespace Fold

variable {α : Type*}

/-! ## The one-pass machine -/

/-- A line of a marked text. -/
inductive Token (α : Type*) where
  | opn (auto : Bool) (banner : List α)
  | cls
  | line (l : List α)

/-- The lines a section covers: its banner is line `first`, its content ends with line `last`. -/
structure Span where
  first : ℕ
  last : ℕ
  auto : Bool
  deriving DecidableEq, Repr

/-- A section whose close has not been met yet, known by the line its banner is on. -/
structure Opening where
  banner : ℕ
  auto : Bool

/-- The state of the pass: the lines kept so far, the spans of the closed sections, and the
open sections, innermost first. -/
structure Machine (α : Type*) where
  kept : List (List α)
  spans : List Span
  opened : List Opening

namespace Machine

def init : Machine α := ⟨[], [], []⟩

/-- Keep a plain line.  A blank line met before anything else is kept leaves no trace. -/
def keep (m : Machine α) (l : List α) : Machine α :=
  if m.kept = [] ∧ l = [] then m else { m with kept := m.kept ++ [l] }

/-- Close the section `o`: delete it if nothing follows its banner, else record its span. -/
def close (m : Machine α) (o : Opening) : Machine α :=
  if m.kept.length = o.banner + 1 then { m with kept := m.kept.take o.banner }
  else { m with spans := m.spans ++ [⟨o.banner, m.kept.length - 1, o.auto⟩] }

def step (m : Machine α) : Token α → Machine α
  | .opn auto b =>
      { m with kept := m.kept ++ [b], opened := ⟨m.kept.length, auto⟩ :: m.opened }
  | .cls =>
      match m.opened with
      | [] => m
      | o :: os => close { m with opened := os } o
  | .line l => m.keep l

def run (m : Machine α) (ts : List (Token α)) : Machine α := ts.foldl step m

/-- The spans once the text has ended: an open section extends to the last kept line. -/
def finish (m : Machine α) : List Span :=
  m.spans ++ m.opened.filterMap fun o =>
    if o.banner + 1 < m.kept.length then some ⟨o.banner, m.kept.length - 1, o.auto⟩ else none

@[simp] lemma run_cons (m : Machine α) (t : Token α) (ts : List (Token α)) :
    m.run (t :: ts) = (m.step t).run ts := rfl

lemma run_append (m : Machine α) (ts us : List (Token α)) :
    m.run (ts ++ us) = (m.run ts).run us := List.foldl_append

end Machine

/-! ## Forests of sections -/

/-- A forest of sections, first child and next sibling: `sect auto b kids rest` is a section with
banner `b` around `kids`, followed by `rest`. -/
inductive Forest (α : Type*) where
  | nil
  | line (l : List α) (rest : Forest α)
  | sect (auto : Bool) (banner : List α) (kids rest : Forest α)

namespace Forest

/-- The marked text a forest stands for. -/
def tokens : Forest α → List (Token α)
  | nil => []
  | line l rest => .line l :: rest.tokens
  | sect auto b kids rest => .opn auto b :: kids.tokens ++ .cls :: rest.tokens

/-- The lines left when the markers are gone: banners and plain lines, in order. -/
def lines : Forest α → List (List α)
  | nil => []
  | line l rest => l :: rest.lines
  | sect _ b kids rest => b :: kids.lines ++ rest.lines

/-- The span of every section, children before their parent, counting lines from `i`. -/
def spans : ℕ → Forest α → List Span
  | _, nil => []
  | i, line _ rest => rest.spans (i + 1)
  | i, sect auto _ kids rest =>
      kids.spans (i + 1) ++ ⟨i, i + kids.lines.length, auto⟩ ::
        rest.spans (i + 1 + kids.lines.length)

/-- Delete every section with no plain line left anywhere below it. -/
def prune : Forest α → Forest α
  | nil => nil
  | line l rest => line l rest.prune
  | sect auto b kids rest =>
      match kids.prune with
      | nil => rest.prune
      | kids' => sect auto b kids' rest.prune

/-- Drop the blank lines a forest starts with. -/
def dropBlank : Forest α → Forest α
  | line [] rest => rest.dropBlank
  | f => f

/-- What is left of a forest met after the lines `kept`: leading blank lines count only once
something has been kept. -/
def trim (kept : List (List α)) (f : Forest α) : Forest α := if kept = [] then f.dropBlank else f

/-- One forest after another. -/
def append : Forest α → Forest α → Forest α
  | nil, g => g
  | line l rest, g => line l (rest.append g)
  | sect auto b kids rest, g => sect auto b kids (rest.append g)

/-- Several forests in a row. -/
def concat (fs : List (Forest α)) : Forest α := fs.foldr append nil

/-- Some plain lines in a row. -/
def ofLines (ls : List (List α)) : Forest α := ls.foldr line nil

@[simp] lemma trim_of_ne_nil {kept : List (List α)} (h : kept ≠ []) (f : Forest α) :
    f.trim kept = f := if_neg h

@[simp] lemma trim_nil (f : Forest α) : f.trim [] = f.dropBlank := if_pos rfl

@[simp] lemma trim_sect (kept : List (List α)) (auto : Bool) (b : List α) (kids rest : Forest α) :
    (sect auto b kids rest).trim kept = sect auto b kids rest := by
  rw [trim]
  split_ifs <;> rfl

lemma lines_eq_nil : ∀ {f : Forest α}, f.lines = [] ↔ f = nil
  | nil => by simp [lines]
  | line l rest => by simp [lines]
  | sect auto b kids rest => by simp [lines]

lemma prune_sect_of_nil (auto : Bool) (b : List α) {kids : Forest α} (h : kids.prune = nil)
    (rest : Forest α) : (sect auto b kids rest).prune = rest.prune := by
  simp only [prune, h]

lemma prune_sect_of_ne_nil (auto : Bool) (b : List α) {kids : Forest α} (h : kids.prune ≠ nil)
    (rest : Forest α) :
    (sect auto b kids rest).prune = sect auto b kids.prune rest.prune := by
  rw [prune]
  split
  · contradiction
  · rfl

/-- The plain lines of a forest, at any depth. -/
def plainLines : Forest α → List (List α)
  | nil => []
  | line l rest => l :: rest.plainLines
  | sect _ _ kids rest => kids.plainLines ++ rest.plainLines

/-- Pruning leaves nothing exactly of a forest without a plain line. -/
lemma prune_eq_nil_iff : ∀ {f : Forest α}, f.prune = nil ↔ f.plainLines = []
  | nil => by simp [prune, plainLines]
  | line l rest => by simp [prune, plainLines]
  | sect auto b kids rest => by
      rw [plainLines, List.append_eq_nil_iff, ← prune_eq_nil_iff, ← prune_eq_nil_iff]
      by_cases h : kids.prune = nil
      · rw [prune_sect_of_nil auto b h]
        exact (and_iff_right h).symm
      · rw [prune_sect_of_ne_nil auto b h]
        simp [h]

/-- Pruning loses no plain line. -/
lemma plainLines_prune : ∀ f : Forest α, f.prune.plainLines = f.plainLines
  | nil => rfl
  | line l rest => congrArg (l :: ·) (plainLines_prune rest)
  | sect auto b kids rest => by
      have hrest := plainLines_prune rest
      by_cases h : kids.prune = nil
      · rw [prune_sect_of_nil auto b h, hrest, plainLines, prune_eq_nil_iff.mp h, List.nil_append]
      · rw [prune_sect_of_ne_nil auto b h, plainLines, plainLines, plainLines_prune kids, hrest]

/-- In a pruned forest every section has a plain line below it. -/
inductive Full : Forest α → Prop
  | nil : Full nil
  | line (l : List α) {rest : Forest α} : Full rest → Full (line l rest)
  | sect (auto : Bool) (b : List α) {kids rest : Forest α} :
      kids.plainLines ≠ [] → Full kids → Full rest → Full (sect auto b kids rest)

lemma full_prune : ∀ f : Forest α, f.prune.Full
  | nil => .nil
  | line l rest => .line l (full_prune rest)
  | sect auto b kids rest => by
      by_cases h : kids.prune = nil
      · rw [prune_sect_of_nil auto b h]
        exact full_prune rest
      · rw [prune_sect_of_ne_nil auto b h]
        refine .sect auto b ?_ (full_prune kids) (full_prune rest)
        rw [plainLines_prune]
        exact fun hnone => h (prune_eq_nil_iff.mpr hnone)

lemma Full.dropBlank {f : Forest α} (h : f.Full) : f.dropBlank.Full := by
  induction h with
  | nil => exact .nil
  | line l hrest ih =>
      cases l with
      | nil => exact ih
      | cons x l => exact .line (x :: l) hrest
  | sect auto b hlines hkids hrest => exact .sect auto b hlines hkids hrest

/-! ### Forests side by side -/

@[simp] lemma tokens_append : ∀ f g : Forest α, (f.append g).tokens = f.tokens ++ g.tokens
  | nil, _ => rfl
  | line l rest, g => by simp [append, tokens, tokens_append rest g]
  | sect auto b kids rest, g => by simp [append, tokens, tokens_append rest g]

@[simp] lemma lines_append : ∀ f g : Forest α, (f.append g).lines = f.lines ++ g.lines
  | nil, _ => rfl
  | line l rest, g => by simp [append, lines, lines_append rest g]
  | sect auto b kids rest, g => by simp [append, lines, lines_append rest g]

lemma spans_append : ∀ (i : ℕ) (f g : Forest α),
    (f.append g).spans i = f.spans i ++ g.spans (i + f.lines.length)
  | i, nil, g => by simp [append, spans, lines]
  | i, line l rest, g => by
      have hi : i + 1 + rest.lines.length = i + (rest.lines.length + 1) := by omega
      rw [append, spans, spans, spans_append (i + 1) rest g, lines, List.length_cons, hi]
  | i, sect auto b kids rest, g => by
      have hi : i + 1 + kids.lines.length + rest.lines.length
          = i + (kids.lines.length + rest.lines.length + 1) := by omega
      rw [append, spans, spans, spans_append _ rest g, lines]
      simp [hi]

@[simp] lemma prune_append : ∀ f g : Forest α, (f.append g).prune = f.prune.append g.prune
  | nil, _ => rfl
  | line l rest, g => by rw [append, prune, prune, prune_append rest g, append]
  | sect auto b kids rest, g => by
      by_cases h : kids.prune = nil
      · rw [append, prune_sect_of_nil auto b h, prune_sect_of_nil auto b h, prune_append rest g]
      · rw [append, prune_sect_of_ne_nil auto b h, prune_sect_of_ne_nil auto b h,
          prune_append rest g, append]

@[simp] lemma concat_nil : concat ([] : List (Forest α)) = nil := rfl

@[simp] lemma concat_cons (f : Forest α) (fs : List (Forest α)) :
    concat (f :: fs) = f.append (concat fs) := rfl

lemma tokens_concat (fs : List (Forest α)) : (concat fs).tokens = fs.flatMap tokens := by
  induction fs with
  | nil => rfl
  | cons f fs ih => simp [ih]

lemma lines_concat (fs : List (Forest α)) : (concat fs).lines = fs.flatMap lines := by
  induction fs with
  | nil => rfl
  | cons f fs ih => simp [ih]

@[simp] lemma tokens_ofLines (ls : List (List α)) : (ofLines ls).tokens = ls.map .line := by
  induction ls with
  | nil => rfl
  | cons l ls ih => simpa [ofLines, tokens] using ih

@[simp] lemma lines_ofLines (ls : List (List α)) : (ofLines ls).lines = ls := by
  induction ls with
  | nil => rfl
  | cons l ls ih => simpa [ofLines, lines] using ih

@[simp] lemma spans_ofLines (i : ℕ) (ls : List (List α)) : (ofLines ls).spans i = [] := by
  induction ls generalizing i with
  | nil => rfl
  | cons l ls ih => exact ih (i + 1)

@[simp] lemma prune_ofLines (ls : List (List α)) : (ofLines ls).prune = ofLines ls := by
  induction ls with
  | nil => rfl
  | cons l ls ih => exact congrArg (line l) ih

lemma ofLines_eq_nil {ls : List (List α)} : ofLines ls = nil ↔ ls = [] := by
  rw [← lines_eq_nil, lines_ofLines]

end Forest

/-! ## The machine computes the pruning -/

namespace Machine

open Forest

/-- What a run over `f` should leave behind when it starts in `m`. -/
def after (m : Machine α) (f : Forest α) : Machine α :=
  { m with
    kept := m.kept ++ (f.prune.trim m.kept).lines
    spans := m.spans ++ (f.prune.trim m.kept).spans m.kept.length }

lemma after_nil (m : Machine α) : m.after nil = m := by
  rw [after, prune]
  have h : (nil : Forest α).trim m.kept = nil := by
    rw [trim]
    split_ifs <;> rfl
  simp [h, lines, Forest.spans]

/-- Keeping a line and going on is what the forest with that line in front calls for. -/
lemma after_keep (m : Machine α) (l : List α) (rest : Forest α) :
    (m.keep l).after rest = m.after (line l rest) := by
  by_cases hk : m.kept = []
  · by_cases hl : l = []
    · subst hl
      simp [keep, hk, after, prune, dropBlank]
    · have hd : (line l rest.prune).dropBlank = line l rest.prune := by
        cases l with
        | nil => contradiction
        | cons x xs => rfl
      simp [keep, hk, hl, after, prune, hd, lines, Forest.spans]
  · simp [keep, hk, after, prune, lines, Forest.spans]

/-- Closing a section whose inside has just been run.  The section's banner is the last line
kept before the inside, so the inside is empty exactly when nothing was added. -/
lemma close_after (m : Machine α) (auto : Bool) (b : List α) (kids rest : Forest α) :
    (((m.step (.opn auto b)).after kids).step .cls).after rest
      = m.after (sect auto b kids rest) := by
  have hne : m.kept ++ [b] ≠ [] := by simp
  by_cases hkids : kids.prune = nil
  · have hclose : (((m.step (.opn auto b)).after kids).step .cls) = m := by
      simp [step, after, hkids, close, lines, Forest.spans]
    rw [hclose]
    simp [after, prune_sect_of_nil auto b hkids]
  · have hlen : kids.prune.lines.length ≠ 0 := by
      simpa [lines_eq_nil] using hkids
    have hkept : m.kept ++ b :: kids.prune.lines ≠ [] := by simp
    have hlast : m.kept.length + (kids.prune.lines.length + 1) - 1
        = m.kept.length + kids.prune.lines.length := by omega
    have hnext : m.kept.length + (kids.prune.lines.length + 1)
        = m.kept.length + 1 + kids.prune.lines.length := by omega
    have hclose : (((m.step (.opn auto b)).after kids).step .cls)
        = { m with
            kept := m.kept ++ b :: kids.prune.lines
            spans := m.spans ++ (kids.prune.spans (m.kept.length + 1)
              ++ [⟨m.kept.length, m.kept.length + kids.prune.lines.length, auto⟩]) } := by
      simp [step, after, close, hlen, hlast]
    rw [hclose]
    simp [after, hkept, prune_sect_of_ne_nil auto b hkids, lines, Forest.spans, hnext]

/-- **The machine computes the recursive pruning.**  On the tokens of a forest it adds the lines
and the spans of the pruned forest to what it had, and leaves the sections that were already open
alone. -/
theorem run_tokens : ∀ (f : Forest α) (m : Machine α), m.run f.tokens = m.after f
  | nil, m => (after_nil m).symm
  | line l rest, m => by
      rw [tokens, run_cons]
      exact (run_tokens rest (m.keep l)).trans (after_keep m l rest)
  | sect auto b kids rest, m => by
      rw [tokens, List.cons_append, run_cons, run_append, run_cons, run_tokens kids,
        run_tokens rest, close_after]

/-- A whole balanced text: the kept lines and the spans are those of the pruned forest, leading
blank lines dropped. -/
theorem run_init_tokens (f : Forest α) :
    (init.run f.tokens).kept = f.prune.dropBlank.lines
      ∧ (init.run f.tokens).finish = f.prune.dropBlank.spans 0 := by
  rw [run_tokens]
  simp [after, init, finish]

end Machine

/-! ## What every run maintains

Balanced or not, a run never records a span that a later deletion could cut into.  The point is
`last_ne`: a section can only be deleted while its banner is the last kept line, and no recorded
span ends on the banner of a section that is still open.
-/

namespace Machine

/-- The state of a pass over any token sequence whose banners are not blank. -/
structure WF (m : Machine α) : Prop where
  head_ne : m.kept.head? ≠ some []
  nested : m.opened.Pairwise fun o o' => o'.banner < o.banner
  opened_lt : ∀ o ∈ m.opened, o.banner < m.kept.length
  first_lt : ∀ s ∈ m.spans, s.first < s.last
  last_lt : ∀ s ∈ m.spans, s.last < m.kept.length
  last_ne : ∀ s ∈ m.spans, ∀ o ∈ m.opened, s.last ≠ o.banner

lemma wf_init : WF (init : Machine α) := by
  constructor <;> simp [init]

/-- Keeping more lines disturbs nothing, as long as the first kept line is not blank. -/
lemma WF.keep_append {m : Machine α} (h : WF m) {l : List α} (hl : m.kept ≠ [] ∨ l ≠ []) :
    WF { m with kept := m.kept ++ [l] } where
  head_ne := by
    cases hk : m.kept with
    | nil => simpa [hk] using hl
    | cons k ks => simpa [hk] using h.head_ne
  nested := h.nested
  opened_lt o ho := by
    have := h.opened_lt o ho
    simp only [List.length_append, List.length_singleton]
    omega
  first_lt := h.first_lt
  last_lt s hs := by
    have := h.last_lt s hs
    simp only [List.length_append, List.length_singleton]
    omega
  last_ne := h.last_ne

lemma WF.opn {m : Machine α} (h : WF m) {auto : Bool} {b : List α} (hb : b ≠ []) :
    WF (m.step (.opn auto b)) where
  head_ne := (h.keep_append (Or.inr hb)).head_ne
  nested := List.pairwise_cons.mpr ⟨fun o ho => h.opened_lt o ho, h.nested⟩
  opened_lt o ho := by
    simp only [step, List.length_append, List.length_singleton]
    rcases List.mem_cons.mp ho with rfl | ho
    · simp
    · exact Nat.lt_succ_of_lt (h.opened_lt o ho)
  first_lt := h.first_lt
  last_lt := (h.keep_append (Or.inr hb)).last_lt
  last_ne s hs o ho := by
    rcases List.mem_cons.mp ho with rfl | ho
    · exact Nat.ne_of_lt (h.last_lt s hs)
    · exact h.last_ne s hs o ho

/-- Popping the innermost open section and closing it. -/
lemma WF.close {m : Machine α} {o : Opening} {os : List Opening} (h : WF m)
    (ho : m.opened = o :: os) : WF (close { m with opened := os } o) := by
  have hnest := h.nested
  rw [ho, List.pairwise_cons] at hnest
  have hmem : ∀ {o'}, o' ∈ os → o' ∈ m.opened := fun h' => ho ▸ List.mem_cons_of_mem o h'
  have holt : o.banner < m.kept.length := h.opened_lt o (by simp [ho])
  rw [Machine.close]
  split_ifs with hlen
  · -- the section is empty: every recorded span ends before its banner
    simp only at hlen
    refine ⟨?_, hnest.2, ?_, h.first_lt, ?_, fun s hs o' ho' => h.last_ne s hs o' (hmem ho')⟩
    · cases hk : m.kept with
      | nil => simp
      | cons k ks =>
          have := h.head_ne
          cases o.banner <;> simp_all
    · intro o' ho'
      have := hnest.1 o' ho'
      simp only [List.length_take]
      omega
    · intro s hs
      have h1 := h.last_lt s hs
      have h2 := h.last_ne s hs o (by simp [ho])
      simp only [List.length_take]
      omega
  · simp only at hlen
    refine ⟨h.head_ne, hnest.2, fun o' ho' => h.opened_lt o' (hmem ho'), ?_, ?_, ?_⟩
    · intro s hs
      rcases List.mem_append.mp hs with hs | hs
      · exact h.first_lt s hs
      · rw [List.mem_singleton] at hs
        subst hs
        simp only
        omega
    · intro s hs
      rcases List.mem_append.mp hs with hs | hs
      · exact h.last_lt s hs
      · rw [List.mem_singleton] at hs
        subst hs
        simp only
        omega
    · intro s hs o' ho'
      rcases List.mem_append.mp hs with hs | hs
      · exact h.last_ne s hs o' (hmem ho')
      · rw [List.mem_singleton] at hs
        subst hs
        have := hnest.1 o' ho'
        simp only
        omega

lemma WF.step {m : Machine α} (h : WF m) {t : Token α} (ht : ∀ auto b, t = .opn auto b → b ≠ []) :
    WF (m.step t) := by
  cases t with
  | opn auto b => exact h.opn (ht auto b rfl)
  | cls =>
      cases ho : m.opened with
      | nil => simpa [Machine.step, ho] using h
      | cons o os => simpa [Machine.step, ho] using h.close ho
  | line l =>
      simp only [Machine.step, keep]
      split_ifs with hc
      · exact h
      · exact h.keep_append (by tauto)

end Machine

end Fold
