import Mathlib.Data.List.Basic
import Mathlib.Algebra.BigOperators.Group.List.Basic
import Mathlib.Algebra.GroupWithZero.Nat
import Mathlib.Order.Monotone.Basic

/-!
# Texts and their lines

A text is a list of code units in which one unit, the newline `nl`, is distinguished.  Nothing
here depends on what a unit is, so the same facts serve a text of Unicode scalar values and a
text of UTF-16 units.

* `join` puts a newline *between* lines, `unlines` puts one *after* each.
* `splitLines` is the inverse of `unlines` on texts whose last newline may be missing.
* `lineEnd ls i` is the offset in `join nl ls` at which line `i` ends.  It is what a scanner
  records while the text is still growing, and the lemmas say which growth leaves it alone:
  appending lines (`lineEnd_append`) and cutting back to a later line (`lineEnd_take`).
  `lineStart ls i` is where the line starts.
-/

namespace Lines

variable {α : Type*}

/-- The text of some lines, a newline between any two of them. -/
def join (nl : α) (ls : List (List α)) : List α := [nl].intercalate ls

/-- The text of some lines, a newline after each of them. -/
def unlines (nl : α) (ls : List (List α)) : List α := ls.flatMap (· ++ [nl])

@[simp] lemma join_nil (nl : α) : join nl ([] : List (List α)) = [] := rfl

@[simp] lemma join_singleton (nl : α) (l : List α) : join nl [l] = l := by
  simp [join]

lemma join_cons (nl : α) (l : List α) {ls : List (List α)} (h : ls ≠ []) :
    join nl (l :: ls) = l ++ nl :: join nl ls := by
  simp [join, List.intercalate_cons_of_ne_nil h]

@[simp] lemma unlines_nil (nl : α) : unlines nl ([] : List (List α)) = [] := rfl

@[simp] lemma unlines_cons (nl : α) (l : List α) (ls : List (List α)) :
    unlines nl (l :: ls) = l ++ nl :: unlines nl ls := by
  simp [unlines]

@[simp] lemma unlines_append (nl : α) (ls ms : List (List α)) :
    unlines nl (ls ++ ms) = unlines nl ls ++ unlines nl ms := by
  simp [unlines]

/-- The last line is the only one `join` leaves unterminated. -/
lemma join_concat (nl : α) (l : List α) :
    ∀ ls : List (List α), join nl (ls ++ [l]) = unlines nl ls ++ l
  | [] => by simp
  | k :: ls => by
      rw [List.cons_append, join_cons nl k (by simp), join_concat nl l ls]
      simp

/-- Dropping the final newline of `unlines` gives `join`. -/
lemma unlines_eq_join (nl : α) {ls : List (List α)} (h : ls ≠ []) :
    unlines nl ls = join nl ls ++ [nl] := by
  obtain ⟨init, last, rfl⟩ := (List.eq_nil_or_concat ls).resolve_left h
  rw [List.concat_eq_append, join_concat]
  simp

lemma join_append (nl : α) {ls ms : List (List α)} (hls : ls ≠ []) (hms : ms ≠ []) :
    join nl (ls ++ ms) = join nl ls ++ nl :: join nl ms := by
  induction ls with
  | nil => contradiction
  | cons l ls ih =>
      by_cases h : ls = []
      · subst h
        simp [join_cons nl l hms]
      · rw [List.cons_append, join_cons nl l (by simp [h]), ih h, join_cons nl l h]
        simp

/-- Cutting a text back to the length of its first `n` lines leaves those lines. -/
lemma take_length_join_take (nl : α) (ls : List (List α)) (n : ℕ) :
    (join nl ls).take (join nl (ls.take n)).length = join nl (ls.take n) := by
  by_cases ht : ls.take n = []
  · simp [ht]
  · by_cases hd : ls.drop n = []
    · rw [List.take_of_length_le (List.drop_eq_nil_iff.mp hd), List.take_length]
    · have hsplit := join_append nl ht hd
      rw [List.take_append_drop] at hsplit
      rw [hsplit, List.take_left]

lemma mem_join_of_mem {nl : α} {x : α} {l : List α} (hx : x ∈ l) :
    ∀ {ls : List (List α)}, l ∈ ls → x ∈ join nl ls
  | [k], h => by
      rw [List.mem_singleton] at h
      simpa [← h] using hx
  | k :: k' :: ls, h => by
      rw [join_cons nl k (by simp), List.mem_append]
      rcases List.mem_cons.mp h with rfl | h
      · exact Or.inl hx
      · exact Or.inr (List.mem_cons_of_mem _ (mem_join_of_mem hx h))

/-- Mapping the units of a text maps the units of its lines. -/
lemma flatMap_join {β : Type*} (f : α → List β) {nl : α} {nl' : β} (hnl : f nl = [nl']) :
    ∀ ls : List (List α), (join nl ls).flatMap f = join nl' (ls.map (·.flatMap f))
  | [] => rfl
  | [l] => by simp
  | l :: l' :: ls => by
      have ih := flatMap_join f hnl (l' :: ls)
      rw [join_cons nl l (by simp), List.map_cons, join_cons nl' _ (by simp), List.flatMap_append,
        List.flatMap_cons, hnl, ih]
      simp

/-! ## Offsets of line ends -/

/-- The offset at which line `i` ends: the lengths of the lines up to it, and one newline before
each of them but the first. -/
def lineEnd (ls : List (List α)) (i : ℕ) : ℕ := ((ls.take (i + 1)).map List.length).sum + i

lemma length_unlines (nl : α) (ls : List (List α)) :
    (unlines nl ls).length = (ls.map List.length).sum + ls.length := by
  induction ls with
  | nil => rfl
  | cons l ls ih =>
      rw [unlines_cons]
      simp only [List.length_append, List.length_cons, List.map_cons, List.sum_cons, ih]
      omega

lemma lineEnd_append {ls : List (List α)} (ms : List (List α)) {i : ℕ} (h : i < ls.length) :
    lineEnd (ls ++ ms) i = lineEnd ls i := by
  rw [lineEnd, lineEnd, List.take_append_of_le_length h]

lemma lineEnd_take {ls : List (List α)} {n i : ℕ} (h : i < n) :
    lineEnd (ls.take n) i = lineEnd ls i := by
  rw [lineEnd, lineEnd, List.take_take, Nat.min_eq_left h]

/-- The last line ends where the text does. -/
lemma lineEnd_last (nl : α) (ls : List (List α)) (l : List α) :
    lineEnd (ls ++ [l]) ls.length = (join nl (ls ++ [l])).length := by
  rw [join_concat, List.length_append, length_unlines, lineEnd, List.take_of_length_le (by simp)]
  simp only [List.map_append, List.sum_append, List.map_cons, List.map_nil, List.sum_cons,
    List.sum_nil]
  omega

lemma lineEnd_succ {ls : List (List α)} {i : ℕ} (h : i + 1 < ls.length) :
    lineEnd ls (i + 1) = lineEnd ls i + 1 + (ls.get ⟨i + 1, h⟩).length := by
  rw [lineEnd, lineEnd, List.take_succ_eq_append_getElem h]
  simp only [List.map_append, List.sum_append, List.map_cons, List.map_nil, List.sum_cons,
    List.sum_nil, List.get_eq_getElem]
  omega

/-- Later lines end strictly later, blank ones included. -/
lemma lineEnd_strictMono {ls : List (List α)} {i j : ℕ} (hij : i < j) (hj : j < ls.length) :
    lineEnd ls i < lineEnd ls j := by
  induction j with
  | zero => omega
  | succ j ih =>
      have hs := lineEnd_succ hj
      rcases Nat.lt_succ_iff_lt_or_eq.mp hij with h | rfl
      · have := ih h (by omega)
        omega
      · omega

/-- A text is as long as the end of its last line. -/
lemma length_join (nl : α) {ls : List (List α)} (h : ls ≠ []) :
    (join nl ls).length = lineEnd ls (ls.length - 1) := by
  obtain ⟨init, last, rfl⟩ := (List.eq_nil_or_concat ls).resolve_left h
  rw [List.concat_eq_append, ← lineEnd_last]
  simp

/-- Up to the end of a line stand the lines up to it. -/
lemma take_lineEnd (nl : α) {ls : List (List α)} {i : ℕ} (hi : i < ls.length) :
    (join nl ls).take (lineEnd ls i) = join nl (ls.take (i + 1)) := by
  have hne : ls.take (i + 1) ≠ [] := List.ne_nil_of_length_pos (by simp; omega)
  have hlen : (ls.take (i + 1)).length - 1 = i := by
    rw [List.length_take]
    omega
  have hend := length_join nl hne
  rw [hlen, lineEnd_take (Nat.lt_succ_self i)] at hend
  rw [← hend, take_length_join_take]

/-- A newline stands at the end of every line but the last. -/
lemma getElem?_lineEnd (nl : α) {ls : List (List α)} {i : ℕ} (hi : i + 1 < ls.length) :
    (join nl ls)[lineEnd ls i]? = some nl := by
  have htake : ls.take (i + 1) ≠ [] := List.ne_nil_of_length_pos (by simp; omega)
  have hdrop : ls.drop (i + 1) ≠ [] := List.ne_nil_of_length_pos (by simp; omega)
  have hsplit := join_append nl htake hdrop
  rw [List.take_append_drop, ← take_lineEnd nl (by omega)] at hsplit
  have hlen : ((join nl ls).take (lineEnd ls i)).length = lineEnd ls i := by
    have hend := length_join nl (List.ne_nil_of_length_pos (Nat.zero_lt_of_lt hi))
    have hlt : lineEnd ls i < lineEnd ls (ls.length - 1) :=
      lineEnd_strictMono (by omega) (by omega)
    rw [List.length_take]
    omega
  rw [hsplit, List.getElem?_append_right (by omega), hlen, Nat.sub_self, List.getElem?_cons_zero]

/-- A line ends before the text does exactly when it is not the last one. -/
lemma lineEnd_lt_length_join (nl : α) {ls : List (List α)} {i : ℕ} (hi : i < ls.length) :
    lineEnd ls i < (join nl ls).length ↔ i + 1 < ls.length := by
  rw [length_join nl (List.ne_nil_of_length_pos (by omega))]
  constructor
  · intro h
    by_contra hlast
    rw [show i = ls.length - 1 by omega] at h
    exact Nat.lt_irrefl _ h
  · intro h
    exact lineEnd_strictMono (by omega) (by omega)

/-- Comparing the length of a text with the end of a line tells whether that line is the last. -/
lemma length_join_eq_lineEnd_iff (nl : α) {ls : List (List α)} {i : ℕ} (hi : i < ls.length) :
    (join nl ls).length = lineEnd ls i ↔ ls.length = i + 1 := by
  have hlt := lineEnd_lt_length_join nl hi
  rw [length_join nl (List.ne_nil_of_length_pos (by omega))] at hlt ⊢
  constructor
  · intro h
    have : ¬ i + 1 < ls.length := fun h' => absurd (hlt.mpr h') (by omega)
    omega
  · intro h
    rw [show ls.length - 1 = i by omega]

/-! ## Offsets of line starts -/

/-- The offset at which line `i` starts: the lengths of the lines before it, and one newline after
each of them. -/
def lineStart (ls : List (List α)) (i : ℕ) : ℕ := ((ls.take i).map List.length).sum + i

/-- Before a line stand the lines before it. -/
lemma length_unlines_take (nl : α) {ls : List (List α)} {i : ℕ} (hi : i ≤ ls.length) :
    (unlines nl (ls.take i)).length = lineStart ls i := by
  rw [length_unlines, List.length_take, Nat.min_eq_left hi, lineStart]

lemma lineEnd_eq_lineStart_add {ls : List (List α)} {i : ℕ} {l : List α} (h : ls[i]? = some l) :
    lineEnd ls i = lineStart ls i + l.length := by
  obtain ⟨hi, rfl⟩ := List.getElem?_eq_some_iff.mp h
  rw [lineEnd, lineStart, List.take_succ_eq_append_getElem hi]
  simp only [List.map_append, List.sum_append, List.map_cons, List.map_nil, List.sum_cons,
    List.sum_nil]
  omega

lemma lineStart_succ {ls : List (List α)} {i : ℕ} : lineStart ls (i + 1) = lineEnd ls i + 1 := by
  rw [lineStart, lineEnd, Nat.add_assoc]

/-- Later lines start strictly later, blank ones included. -/
lemma lineStart_strictMono (ls : List (List α)) : StrictMono (lineStart ls) := by
  refine strictMono_nat_of_lt_succ fun i => ?_
  rw [lineStart_succ, lineStart, lineEnd]
  by_cases hi : i < ls.length
  · rw [List.take_succ_eq_append_getElem hi]
    simp only [List.map_append, List.sum_append]
    omega
  · rw [List.take_of_length_le (by omega), List.take_of_length_le (by omega)]
    omega

lemma lineStart_le_lineEnd {ls : List (List α)} {i : ℕ} (hi : i < ls.length) :
    lineStart ls i ≤ lineEnd ls i := by
  rw [lineEnd_eq_lineStart_add (List.getElem?_eq_getElem hi)]
  exact Nat.le_add_right _ _

/-- No line ends after the text does. -/
lemma lineEnd_le_length_join (nl : α) {ls : List (List α)} {i : ℕ} (hi : i < ls.length) :
    lineEnd ls i ≤ (join nl ls).length := by
  by_cases hlast : i + 1 < ls.length
  · exact Nat.le_of_lt ((lineEnd_lt_length_join nl hi).mpr hlast)
  · exact Nat.le_of_eq ((length_join_eq_lineEnd_iff nl hi).mpr (by omega)).symm

/-! ## Splitting a text -/

section Split

variable [DecidableEq α]

/-- The lines of a text whose last line may or may not be closed by a newline. -/
def splitLines (nl : α) (s : List α) : List (List α) :=
  if (s.splitOn nl).getLast (List.splitOn_ne_nil nl s) = [] then (s.splitOn nl).dropLast
  else s.splitOn nl

lemma splitOn_join {nl : α} {ls : List (List α)} (h : ∀ l ∈ ls, nl ∉ l) (hne : ls ≠ []) :
    (join nl ls).splitOn nl = ls :=
  List.splitOn_intercalate nl h hne

lemma join_splitOn (nl : α) (s : List α) : join nl (s.splitOn nl) = s :=
  List.intercalate_splitOn nl

/-- A text has one line more than newlines. -/
lemma length_splitOn (nl : α) : ∀ s : List α, (s.splitOn nl).length = s.count nl + 1
  | [] => by simp
  | x :: s => by
      have ih := length_splitOn nl s
      rw [List.splitOn_cons_eq_if_modifyHead]
      split_ifs with hx
      · rw [List.length_cons, ih, beq_iff_eq.mp hx, List.count_cons_self]
      · rw [List.length_modifyHead, ih, List.count_cons_of_ne (by simpa using hx)]

/-- No piece of a split text contains the unit it was split at. -/
lemma not_mem_of_mem_splitOn {nl : α} : ∀ {s : List α} {l : List α}, l ∈ s.splitOn nl → nl ∉ l
  | [], l, h => by
      rw [List.splitOn_nil, List.mem_singleton] at h
      simp [h]
  | x :: s, l, h => by
      rw [List.splitOn_cons_eq_if_modifyHead] at h
      split_ifs at h with hx
      · rcases List.mem_cons.mp h with rfl | h
        · simp
        · exact not_mem_of_mem_splitOn h
      · obtain ⟨p, ps, hp⟩ := List.exists_cons_of_ne_nil (List.splitOn_ne_nil nl s)
        rw [hp, List.modifyHead_cons] at h
        have hx' : nl ≠ x := by
          rintro rfl
          simp at hx
        rcases List.mem_cons.mp h with rfl | h
        · have : nl ∉ p := not_mem_of_mem_splitOn (s := s) (by simp [hp])
          simp [this, hx']
        · exact not_mem_of_mem_splitOn (s := s) (by simp [hp, h])

lemma not_mem_of_mem_splitLines {nl : α} {s l : List α} (h : l ∈ splitLines nl s) : nl ∉ l := by
  rw [splitLines] at h
  split_ifs at h
  · exact not_mem_of_mem_splitOn (List.dropLast_subset _ h)
  · exact not_mem_of_mem_splitOn h

/-- A text is its closed lines followed by what stands after the last newline. -/
lemma exists_splitOn_eq (nl : α) (s : List α) :
    ∃ init last, s.splitOn nl = init ++ [last] ∧ s = unlines nl init ++ last ∧ nl ∉ last := by
  obtain ⟨init, last, hp⟩ :=
    (List.eq_nil_or_concat (s.splitOn nl)).resolve_left (List.splitOn_ne_nil nl s)
  rw [List.concat_eq_append] at hp
  have hs := join_splitOn nl s
  rw [hp, join_concat] at hs
  exact ⟨init, last, hp, hs.symm, not_mem_of_mem_splitOn (s := s) (by simp [hp])⟩

lemma splitLines_eq_of_splitOn {nl : α} {s : List α} {init : List (List α)} {last : List α}
    (h : s.splitOn nl = init ++ [last]) :
    splitLines nl s = if last = [] then init else init ++ [last] := by
  simp [splitLines, h]

/-- Closing the last line when it is open gives `unlines` of the lines. -/
lemma unlines_splitLines (nl : α) (s : List α) :
    unlines nl (splitLines nl s) = if s.getLast? = some nl ∨ s = [] then s else s ++ [nl] := by
  obtain ⟨init, last, hp, hs, hnot⟩ := exists_splitOn_eq nl s
  rw [splitLines_eq_of_splitOn hp]
  by_cases hlast : last = []
  · subst hlast
    rw [List.append_nil] at hs
    rw [if_pos rfl, ← hs, if_pos]
    -- the text is `unlines` of something, so it is empty or ends in a newline
    rcases List.eq_nil_or_concat init with h | ⟨front, k, h⟩
    · subst h
      exact Or.inr hs
    · left
      rw [hs, h]
      simp [List.getLast?_append]
  · rw [if_neg hlast, unlines_append, if_neg]
    · simp [hs]
    · rintro (h | h)
      · rw [hs, List.getLast?_append_of_ne_nil _ hlast] at h
        exact hnot (List.mem_of_getLast? h)
      · exact hlast (List.append_eq_nil_iff.mp (hs ▸ h)).2

@[simp] lemma splitLines_nil (nl : α) : splitLines nl [] = [] := by
  simp [splitLines]

/-- Only the empty text has no line. -/
lemma splitLines_eq_nil {nl : α} {s : List α} : splitLines nl s = [] ↔ s = [] := by
  constructor
  · intro h
    have hu := unlines_splitLines nl s
    rw [h] at hu
    split_ifs at hu with hc
    · exact hu.symm
    · simp at hu
  · rintro rfl
    simp

end Split

end Lines
