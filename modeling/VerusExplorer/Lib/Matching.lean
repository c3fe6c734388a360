import Mathlib.Data.List.Basic
import Mathlib.Data.List.Infix
import Mathlib.Tactic.Lemma

/-!
# Matches in a text

A pattern is tried at each place of a text from the left; where it matches, the search goes on
behind the match.

* `Step` — reads a front of a text.  Steps are made of words, runs of units and optional parts, and
  composed as programs; they are greedy, and what has been read is not given back.
* `matchAll` — all matches of a step that matches nothing empty.
* `Within nl` — a step that does not go over `nl`, so that what it does in front of one does not
  depend on what comes behind it.
* `matchAll_cut` — the matches of such a step can be sought in pieces that are cut at `nl`.
-/

namespace Matching

universe u

variable {α : Type u} {β γ : Type u}

/-- Reads a front of a text: a value and the rest, or nothing if it does not match. -/
abbrev Step (α β : Type u) := StateT (List α) Option β

/-- A fixed word. -/
def word [BEq α] (w : List α) : Step α PUnit := fun s =>
  if w.isPrefixOf s then some (⟨⟩, s.drop w.length) else none

/-- At least one unit that satisfies `p`, and as many as there are. -/
def run1 (p : α → Bool) : Step α (List α) := fun s =>
  if (s.takeWhile p).isEmpty then none else some (s.takeWhile p, s.dropWhile p)

/-- A part that may be missing. -/
def opt (x : Step α β) : Step α PUnit := fun s =>
  match x.run s with
  | some (_, rest) => some (⟨⟩, rest)
  | none => some (⟨⟩, s)

structure Match (β : Type u) where
  start : ℕ
  length : ℕ
  value : β
  deriving DecidableEq, Repr

def Match.shift (n : ℕ) (m : Match β) : Match β := { m with start := n + m.start }

@[simp] lemma Match.shift_start (n : ℕ) (m : Match β) : (m.shift n).start = n + m.start := rfl

@[simp] lemma Match.shift_length (n : ℕ) (m : Match β) : (m.shift n).length = m.length := rfl

/-- The matches in a text that starts at `pos`, when the first `skip` units belong to a match that
has been found. -/
def matchFrom (x : Step α β) : ℕ → ℕ → List α → List (Match β)
  | _, _, [] => []
  | pos, skip + 1, _ :: s => matchFrom x (pos + 1) skip s
  | pos, 0, a :: s =>
      match x.run (a :: s) with
      | some (v, rest) =>
          let length := s.length + 1 - rest.length
          ⟨pos, length, v⟩ :: matchFrom x (pos + 1) (length - 1) s
      | none => matchFrom x (pos + 1) 0 s

/-- `matchAll` of a pattern with the flag `g`. -/
def matchAll (x : Step α β) (s : List α) : List (Match β) := matchFrom x 0 0 s

/-! ## What is left -/

/-- What a step leaves is the end of what it was given. -/
def Reads (x : Step α β) : Prop := ∀ s r, x.run s = some r → r.2 <:+ s

/-- The step matches nothing empty. -/
def Advances (x : Step α β) : Prop := ∀ s r, x.run s = some r → r.2.length < s.length

/-- The step does not go over `nl`. -/
def Within (nl : α) (x : Step α β) : Prop :=
  ∀ a b, x.run (a ++ nl :: b) = (x.run a).map fun r => (r.1, r.2 ++ nl :: b)

section Steps

variable {nl : α} {x : Step α β} {f : β → Step α γ}

lemma reads_pure (v : β) : Reads (pure v : Step α β) := by
  rintro s r h
  obtain rfl := Option.some.inj h
  exact List.suffix_rfl

lemma Reads.bind (hx : Reads x) (hf : ∀ v, Reads (f v)) : Reads (x >>= f) := by
  intro s r h
  rw [StateT.run_bind] at h
  obtain ⟨r', hr', h⟩ := Option.bind_eq_some_iff.mp h
  exact (hf _ _ _ h).trans (hx _ _ hr')

lemma Reads.opt (hx : Reads x) : Reads (opt x) := by
  intro s r h
  simp only [Matching.opt, StateT.run] at h
  split at h
  · next v rest hr =>
      obtain rfl := Option.some.inj h
      exact hx s _ hr
  · obtain rfl := Option.some.inj h
    exact List.suffix_rfl

lemma reads_run1 (p : α → Bool) : Reads (run1 p) := by
  intro s r h
  obtain ⟨-, h⟩ := Option.ite_none_left_eq_some.mp h
  obtain rfl := Option.some.inj h
  exact List.dropWhile_suffix p

lemma reads_word [BEq α] (w : List α) : Reads (word w) := by
  intro s r h
  obtain ⟨-, h⟩ := Option.ite_none_right_eq_some.mp h
  obtain rfl := Option.some.inj h
  exact List.drop_suffix _ _

/-! ## Steps that do not go over `nl` -/

lemma within_pure (v : β) : Within nl (pure v : Step α β) := fun _ _ => rfl

lemma Within.bind (hx : Within nl x) (hf : ∀ v, Within nl (f v)) : Within nl (x >>= f) := by
  intro a b
  rw [StateT.run_bind, StateT.run_bind, hx a b]
  cases hr : x.run a with
  | none => rfl
  | some r => exact hf r.1 r.2 b

lemma Within.opt (hx : Within nl x) : Within nl (opt x) := by
  intro a b
  have hrun := hx a b
  simp only [Matching.opt, StateT.run] at hrun ⊢
  rw [hrun]
  cases x a with
  | none => rfl
  | some r => rfl

lemma within_run1 {p : α → Bool} (hp : p nl = false) : Within nl (run1 p) := by
  intro a b
  have htake : (a ++ nl :: b).takeWhile p = a.takeWhile p := by
    induction a with
    | nil => simp [hp]
    | cons c a ih => simp only [List.cons_append, List.takeWhile_cons, ih]
  have hdrop : (a ++ nl :: b).dropWhile p = a.dropWhile p ++ nl :: b := by
    induction a with
    | nil => simp [hp]
    | cons c a ih =>
        simp only [List.cons_append, List.dropWhile_cons] at ih ⊢
        split_ifs with hc
        · refine ih ?_
          simpa [List.takeWhile_cons, hc] using htake
        · rfl
  simp only [run1, StateT.run, htake, hdrop]
  split_ifs <;> rfl

/-- A word without `nl` in it starts a text exactly if it starts what comes before `nl`. -/
lemma prefix_append_cons_iff {w a b : List α} (hw : nl ∉ w) : w <+: a ++ nl :: b ↔ w <+: a := by
  constructor
  · intro h
    induction a generalizing w with
    | nil =>
        cases w with
        | nil => exact List.nil_prefix
        | cons c w =>
            obtain ⟨rfl, -⟩ := List.cons_prefix_cons.mp h
            exact absurd List.mem_cons_self hw
    | cons c a ih =>
        cases w with
        | nil => exact List.nil_prefix
        | cons d w =>
            obtain ⟨rfl, htail⟩ := List.cons_prefix_cons.mp h
            have hw' : nl ∉ w := fun hmem => hw (List.mem_cons_of_mem _ hmem)
            exact List.cons_prefix_cons.mpr ⟨rfl, ih hw' htail⟩
  · exact fun h => h.trans (List.prefix_append _ _)

lemma within_word [BEq α] [LawfulBEq α] {w : List α} (hw : nl ∉ w) : Within nl (word w) := by
  intro a b
  have hsame : w.isPrefixOf (a ++ nl :: b) = w.isPrefixOf a := by
    rw [Bool.eq_iff_iff, List.isPrefixOf_iff_prefix, List.isPrefixOf_iff_prefix]
    exact prefix_append_cons_iff hw
  simp only [word, StateT.run, hsame]
  split_ifs with h
  · have hlen := (List.isPrefixOf_iff_prefix.mp h).length_le
    rw [Option.map_some, List.drop_append_of_le_length hlen]
  · rfl

end Steps

/-! ## All matches -/

section Matches

variable {x : Step α β} {nl : α}

lemma matchFrom_shift (s : List α) : ∀ (n pos skip : ℕ),
    matchFrom x (n + pos) skip s = (matchFrom x pos skip s).map (Match.shift n) := by
  induction s with
  | nil =>
      intro n pos skip
      rw [matchFrom, matchFrom]
      rfl
  | cons a s ih =>
      intro n pos skip
      cases skip with
      | succ skip =>
          rw [matchFrom, matchFrom, Nat.add_assoc, ih]
      | zero =>
          rw [matchFrom, matchFrom]
          cases x.run (a :: s) with
          | none => rw [Nat.add_assoc, ih]
          | some r =>
              dsimp only
              rw [Nat.add_assoc, ih, List.map_cons]
              rfl

/-- Past what belongs to a match. -/
lemma matchFrom_skip (s t : List α) (pos : ℕ) :
    matchFrom x pos s.length (s ++ t) = matchFrom x (pos + s.length) 0 t := by
  induction s generalizing pos with
  | nil => rfl
  | cons a s ih =>
      rw [List.length_cons, List.cons_append, matchFrom, ih, Nat.add_assoc, Nat.add_comm 1]

/-- Past a stretch in which nothing matches. -/
lemma matchFrom_none {s t : List α} (h : ∀ k < s.length, x.run ((s ++ t).drop k) = none)
    (pos : ℕ) : matchFrom x pos 0 (s ++ t) = matchFrom x (pos + s.length) 0 t := by
  induction s generalizing pos with
  | nil => rfl
  | cons a s ih =>
      have hhead : x.run (a :: (s ++ t)) = none := h 0 (Nat.succ_pos _)
      rw [List.cons_append, matchFrom, hhead]
      dsimp only
      rw [ih (fun k hk => h (k + 1) (Nat.succ_lt_succ hk)), List.length_cons, Nat.add_assoc,
        Nat.add_comm 1]

/-- A match that is found. -/
lemma matchFrom_some {a : α} {s t : List α} {v : β} (h : x.run (a :: s ++ t) = some (v, t))
    (pos : ℕ) : matchFrom x pos 0 (a :: s ++ t)
      = ⟨pos, s.length + 1, v⟩ :: matchFrom x (pos + (s.length + 1)) 0 t := by
  have hlen : (s ++ t).length + 1 - t.length = s.length + 1 := by
    rw [List.length_append]
    omega
  rw [List.cons_append, matchFrom, show x.run (a :: (s ++ t)) = some (v, t) from h]
  dsimp only
  rw [hlen, Nat.add_sub_cancel, matchFrom_skip, Nat.add_assoc, Nat.add_comm 1]

lemma Advances.run_nil (h : Advances x) : x.run [] = none := by
  cases hr : x.run [] with
  | none => rfl
  | some r => exact absurd (h _ _ hr) (Nat.not_lt_zero _)

/-- Matches lie in the text. -/
lemma bounds_of_mem_matchFrom (h : Advances x) {s : List α} {m : Match β} :
    ∀ {pos skip : ℕ}, m ∈ matchFrom x pos skip s →
      pos ≤ m.start ∧ 0 < m.length ∧ m.start + m.length ≤ pos + s.length := by
  induction s with
  | nil =>
      intro pos skip hm
      rw [matchFrom] at hm
      exact absurd hm List.not_mem_nil
  | cons a s ih =>
      intro pos skip hm
      rw [List.length_cons]
      cases skip with
      | succ skip =>
          rw [matchFrom] at hm
          have := ih hm
          omega
      | zero =>
          rw [matchFrom] at hm
          split at hm
          · next v rest hrun =>
              have hlt : rest.length < s.length + 1 := h _ _ hrun
              rcases List.mem_cons.mp hm with rfl | hm
              · dsimp only
                omega
              · have := ih hm
                omega
          · have := ih hm
            omega

variable (hx : Within nl x) (hr : Reads x) (hadv : Advances x)

include hx hr hadv

lemma matchFrom_append (a b : List α) : ∀ (pos skip : ℕ), skip ≤ a.length →
    matchFrom x pos skip (a ++ nl :: b)
      = matchFrom x pos skip a ++ matchFrom x (pos + (a.length + 1)) 0 b := by
  induction a with
  | nil =>
      intro pos skip hskip
      obtain rfl := Nat.le_zero.mp hskip
      have hnone : x.run (nl :: b) = none := by
        rw [← List.nil_append (nl :: b), hx [] b, hadv.run_nil]
        rfl
      have hfirst : matchFrom x pos 0 (nl :: b) = matchFrom x (pos + 1) 0 b := by
        rw [matchFrom, hnone]
      exact hfirst
  | cons c a ih =>
      intro pos skip hskip
      have hpos : pos + 1 + (a.length + 1) = pos + ((c :: a).length + 1) := by
        rw [List.length_cons]
        omega
      cases skip with
      | succ skip =>
          rw [List.cons_append, matchFrom, matchFrom, ih _ _ (Nat.le_of_succ_le_succ hskip), hpos]
      | zero =>
          have hrun := hx (c :: a) b
          rw [List.cons_append] at hrun
          rw [List.cons_append, matchFrom, matchFrom, hrun]
          cases hc : x.run (c :: a) with
          | none =>
              rw [Option.map_none]
              dsimp only
              rw [ih _ _ (Nat.zero_le _), hpos]
          | some r =>
              have hle := (hr _ _ hc).length_le
              have hlen : (a ++ nl :: b).length + 1 - (r.2 ++ nl :: b).length
                  = a.length + 1 - r.2.length := by
                rw [List.length_append, List.length_append]
                omega
              rw [Option.map_some]
              dsimp only
              rw [hlen, ih _ _ (by omega), hpos, List.cons_append]

/-- The matches of a text are those before an `nl` and those behind it. -/
lemma matchAll_append_cons (a b : List α) :
    matchAll x (a ++ nl :: b)
      = matchAll x a ++ (matchAll x b).map (Match.shift (a.length + 1)) := by
  rw [matchAll, matchFrom_append hx hr hadv a b 0 0 (Nat.zero_le _), Nat.zero_add, matchAll,
    matchAll, ← matchFrom_shift, Nat.add_zero]

/-- A text is cut at `nl`, before or behind it, or not at all. -/
def IsCut (nl : α) (a b : List α) : Prop :=
  a = [] ∨ b = [] ∨ a.getLast? = some nl ∨ b.head? = some nl

/-- **Matches can be sought piece by piece.** -/
lemma matchAll_cut {a b : List α} (h : IsCut nl a b) :
    matchAll x (a ++ b) = matchAll x a ++ (matchAll x b).map (Match.shift a.length) := by
  have hempty : matchAll x [] = [] := rfl
  rcases h with rfl | rfl | ha | hb
  · rw [hempty, List.nil_append, List.nil_append, matchAll, ← matchFrom_shift]
    rfl
  · rw [hempty, List.append_nil, List.map_nil, List.append_nil]
  · obtain ⟨a, rfl⟩ := List.getLast?_eq_some_iff.mp ha
    have hfront := matchAll_append_cons hx hr hadv a []
    rw [hempty, List.map_nil, List.append_nil] at hfront
    rw [hfront, List.append_assoc, List.singleton_append, matchAll_append_cons hx hr hadv a b,
      List.length_append, List.length_singleton]
  · obtain ⟨b, rfl⟩ : ∃ b', b = nl :: b' := by
      cases b with
      | nil => cases hb
      | cons c b => exact ⟨b, by rw [Option.some.inj hb]⟩
    have hback := matchAll_append_cons hx hr hadv [] b
    rw [hempty, List.nil_append, List.nil_append] at hback
    rw [matchAll_append_cons hx hr hadv a b, hback, List.map_map]
    refine congrArg _ (List.map_congr_left fun m _ => ?_)
    simp [Match.shift, Nat.add_assoc]

/-- The match lies between two places. -/
def Match.inside (i j : ℕ) (m : Match β) : Bool := i ≤ m.start && m.start + m.length ≤ j

omit hx hr hadv in
lemma Match.inside_iff {i j : ℕ} {m : Match β} :
    m.inside i j = true ↔ i ≤ m.start ∧ m.start + m.length ≤ j := by
  rw [Match.inside, Bool.and_eq_true, decide_eq_true_eq, decide_eq_true_eq]

/-- The matches in a piece of a text are those of the text that lie in it. -/
lemma matchAll_piece {a b c : List α} (ha : IsCut nl a (b ++ c)) (hb : IsCut nl b c) :
    (matchAll x (a ++ (b ++ c))).filter (Match.inside a.length (a.length + b.length))
      = (matchAll x b).map (Match.shift a.length) := by
  have hbounds : ∀ {s : List α} {m : Match β}, m ∈ matchAll x s →
      0 < m.length ∧ m.start + m.length ≤ s.length := by
    intro s m hm
    have := bounds_of_mem_matchFrom hadv hm
    omega
  rw [matchAll_cut hx hr hadv ha, matchAll_cut hx hr hadv hb, List.map_append, List.filter_append,
    List.filter_append]
  have hfront : (matchAll x a).filter (Match.inside a.length (a.length + b.length)) = [] := by
    refine List.filter_eq_nil_iff.mpr fun m hm => ?_
    have := hbounds hm
    rw [Match.inside_iff]
    omega
  have hback : (((matchAll x c).map (Match.shift b.length)).map (Match.shift a.length)).filter
      (Match.inside a.length (a.length + b.length)) = [] := by
    refine List.filter_eq_nil_iff.mpr fun m hm => ?_
    obtain ⟨m', hm', rfl⟩ := List.mem_map.mp hm
    obtain ⟨m, hmem, rfl⟩ := List.mem_map.mp hm'
    have := hbounds hmem
    simp only [Match.inside_iff, Match.shift_start, Match.shift_length]
    omega
  have hmiddle : ((matchAll x b).map (Match.shift a.length)).filter
      (Match.inside a.length (a.length + b.length))
        = (matchAll x b).map (Match.shift a.length) := by
    refine List.filter_eq_self.mpr fun m hm => ?_
    obtain ⟨m, hmem, rfl⟩ := List.mem_map.mp hm
    have := hbounds hmem
    rw [Match.inside_iff, Match.shift_start, Match.shift_length]
    omega
  rw [hfront, hback, hmiddle, List.nil_append, List.append_nil]

end Matches

/-! ## Steps on what they read -/

section Run

variable [BEq α] [LawfulBEq α]

omit [BEq α] [LawfulBEq α] in
lemma exists_of_bind_run {x : Step α β} {f : β → Step α γ} {s : List α} {r : γ × List α}
    (h : (x >>= f).run s = some r) :
    ∃ v rest, x.run s = some (v, rest) ∧ (f v).run rest = some r := by
  rw [StateT.run_bind] at h
  obtain ⟨⟨v, rest⟩, hx, hf⟩ := Option.bind_eq_some_iff.mp h
  exact ⟨v, rest, hx, hf⟩

omit [BEq α] [LawfulBEq α] in
lemma bind_run {x : Step α β} {f : β → Step α γ} {s rest : List α} {v : β}
    (h : x.run s = some (v, rest)) : (x >>= f).run s = (f v).run rest := by
  rw [StateT.run_bind, h]
  rfl

lemma word_run (w s : List α) : (word w).run (w ++ s) = some (⟨⟩, s) := by
  have h : w.isPrefixOf (w ++ s) = true :=
    List.isPrefixOf_iff_prefix.mpr (List.prefix_append _ _)
  show (if w.isPrefixOf (w ++ s) then some _ else none) = _
  rw [if_pos h, List.drop_left]

lemma eq_of_word_run {w s : List α} {r : PUnit × List α} (h : (word w).run s = some r) :
    s = w ++ r.2 := by
  obtain ⟨hpre, h⟩ := Option.ite_none_right_eq_some.mp h
  obtain rfl := Option.some.inj h
  exact (List.prefix_iff_eq_append.mp (List.isPrefixOf_iff_prefix.mp hpre)).symm

lemma eq_of_opt_word_run {w s : List α} {r : PUnit × List α} (h : (opt (word w)).run s = some r) :
    s = r.2 ∨ s = w ++ r.2 := by
  simp only [opt, StateT.run] at h
  split at h
  · next v rest hrun =>
      obtain rfl := Option.some.inj h
      exact .inr (eq_of_word_run hrun)
  · obtain rfl := Option.some.inj h
    exact .inl rfl

omit [BEq α] [LawfulBEq α] in
lemma run1_run {p : α → Bool} {ds s : List α} (hds : ∀ d ∈ ds, p d = true) (hne : ds ≠ [])
    (hs : ∀ c ∈ s.head?, p c = false) : (run1 p).run (ds ++ s) = some (ds, s) := by
  have htake : (ds ++ s).takeWhile p = ds := by
    rw [List.takeWhile_append_of_pos hds]
    cases s with
    | nil => simp
    | cons c s => simp [hs c rfl]
  have hdrop : (ds ++ s).dropWhile p = s := by
    rw [List.dropWhile_append_of_pos hds]
    cases s with
    | nil => rfl
    | cons c s => simp [hs c rfl]
  show (if ((ds ++ s).takeWhile p).isEmpty then none else some _) = _
  rw [htake, hdrop, if_neg (by simpa using hne)]

omit [BEq α] [LawfulBEq α] in
lemma eq_of_run1_run {p : α → Bool} {s : List α} {r : List α × List α}
    (h : (run1 p).run s = some r) : s.takeWhile p = r.1 ∧ s.dropWhile p = r.2 := by
  obtain ⟨-, h⟩ := Option.ite_none_left_eq_some.mp h
  obtain rfl := Option.some.inj h
  exact ⟨rfl, rfl⟩

omit [BEq α] [LawfulBEq α] in
lemma opt_run {x : Step α β} {s rest : List α} {v : β} (h : x.run s = some (v, rest)) :
    (opt x).run s = some (⟨⟩, rest) := by
  simp only [opt, StateT.run] at h ⊢
  rw [h]

end Run

end Matching
