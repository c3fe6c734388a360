import VerusExplorer.Lib.Brackets
import VerusExplorer.Dump.Smt

/-!
# What a section marker is

The grammar of the markers is written three times: `project_smt` (`verus.rs`) tests prefixes, the
scanner (`public/app.js`) tests characters, and the smoke test has the scanner's tests once more.

* `isOpenLine`, `isCloseLine` follow the smoke test; `bracket_encode` says that they are the
  scanner's.
* `BalancedText` — the markers of a text are balanced to the scanner; its stack then is empty in the
  end (`stack_of_balanced`).
* `rows` — the lines of a transcript as the scanner and as `project_smt` see them.
* **`marker_iff`**, **`bracket_iff`** — the lines that the two read alike: `Ordinary`, `Bare`.
-/

namespace VerusExplorer

open Utf16 Lines Select

/-! ## The source -/

/-- `is_open` of the smoke test. -/
def isOpenLine (l : Str) : Bool :=
  (";;>".toList.isPrefixOf l && (l.length == 3 || l[3]? == some ' '))
    || (";;v".toList.isPrefixOf l && (l.length == 3 || l[3]? == some ' '))

/-- `is_close` of the smoke test. -/
def isCloseLine (l : Str) : Bool := l == ";;<".toList || ";;< ".toList.isPrefixOf l

/-- The bracket that a line is to the scanner. -/
def bracket (l : JsString) : BracketKind :=
  if isOpen l then .opn else if isClose l then .cls else .other

/-- The markers of a text are balanced, as the scanner reads them. -/
def BalancedText (text : JsString) : Prop := BracketKind.Balanced ((text.splitOn nl).map bracket)

instance (text : JsString) : Decidable (BalancedText text) :=
  inferInstanceAs (Decidable (BracketKind.Balanced _))

/-! ### The stack of the scanner -/

lemma stack_emitRange (s : Scan) (o : OpenSection) (toPos : ℕ) :
    (s.emitRange o toPos).stack = s.stack := by
  rw [Scan.emitRange]
  split_ifs
  · rfl
  · rfl
  · rfl

/-- An open pushes, a close pops what is there, and no other line touches the stack. -/
lemma stack_scanLine (s : Scan) (l : JsString) :
    (scanLine s l).stack.length
      = match bracket l with
        | .opn => s.stack.length + 1
        | .cls => s.stack.length - 1
        | .other => s.stack.length := by
  rw [scanLine, bracket]
  split_ifs with hopen hclose
  · rfl
  · cases hstack : s.stack with
    | nil => simp [hstack]
    | cons o stack =>
        simp only
        split_ifs
        · rfl
        · rw [stack_emitRange]
          rfl
  · rfl

/-- As long as no close finds an empty stack, the depth of the brackets is that of the stack. -/
lemma stack_foldl :
    ∀ (ls : List JsString) (s : Scan) (d : ℕ),
      BracketKind.depth s.stack.length (ls.map bracket) = some d →
        (ls.foldl scanLine s).stack.length = d
  | [], s, d, h => by simpa using h
  | l :: ls, s, d, h => by
      have hstep := stack_scanLine s l
      refine stack_foldl ls (scanLine s l) d ?_
      rw [List.map_cons] at h
      rw [hstep]
      cases hbracket : bracket l with
      | opn =>
          rw [hbracket, BracketKind.depth_opn] at h
          exact h
      | other =>
          rw [hbracket, BracketKind.depth_other] at h
          exact h
      | cls =>
          rw [hbracket] at h
          cases hlength : s.stack.length with
          | zero => exact absurd h (by simp [hlength])
          | succ n =>
              rw [hlength] at h
              exact h

/-- Nothing is open after the last line of a balanced text. -/
theorem stack_of_balanced {text : JsString} (h : BalancedText text) :
    ((text.splitOn nl).foldl scanLine {}).stack = [] :=
  List.eq_nil_of_length_eq_zero (stack_foldl _ {} 0 h)

/-! ## Lines with a marker character -/

/-- The characters that follow `;;` in a marker. -/
def markChars : List Char := ['>', 'v', '<']

lemma forall_markChars {P : Char → Prop} :
    (∀ m ∈ markChars, P m) ↔ P '>' ∧ P 'v' ∧ P '<' := by
  simp [markChars]

/-- A line is `;;` with a marker character and a tail, or it is no marker to anyone. -/
inductive LineShape : Str → Prop
  | mark (m : Char) (hm : m ∈ markChars) (tail : Str) : LineShape (';' :: ';' :: m :: tail)
  | plain {l : Str} (h : ∀ m ∈ markChars, ∀ tail, l ≠ ';' :: ';' :: m :: tail) : LineShape l

lemma lineShape (l : Str) : LineShape l := by
  by_cases h : ∃ m ∈ markChars, ∃ tail, l = ';' :: ';' :: m :: tail
  · obtain ⟨m, hm, tail, rfl⟩ := h
    exact .mark m hm tail
  · exact .plain fun m hm tail heq => h ⟨m, hm, tail, heq⟩

/-- Nothing stands behind a marker character but a label. -/
def free (tail : Str) : Bool := tail.head?.all (· == ' ')

/-- A unit below the surrogates that an encoding starts with is that of its first character. -/
lemma encode_eq_cons {l : Str} {u : UInt16} {us : JsString} (hu : u.toNat < 0xD800)
    (h : encode l = u :: us) : ∃ c rest, l = c :: rest ∧ c.toNat = u.toNat ∧ us = encode rest := by
  cases l with
  | nil => exact absurd h (by simp)
  | cons c rest =>
      have hlt := toNat_lt c
      rw [encode_cons, units] at h
      split_ifs at h with hbmp
      · obtain ⟨hhead, htail⟩ := List.cons_eq_cons.mp h
        refine ⟨c, rest, rfl, ?_, htail.symm⟩
        rw [← hhead, UInt16.toNat_ofNat', Nat.mod_eq_of_lt hbmp]
      · obtain ⟨hhead, -⟩ := List.cons_eq_cons.mp h
        rw [← hhead, UInt16.toNat_ofNat', Nat.mod_eq_of_lt (by omega)] at hu
        omega

/-- A character of a marker. -/
lemma encode_eq_ascii {l : Str} {p : Char} {us : JsString} (hp : p.toNat < 0xD800)
    (h : encode l = UInt16.ofNat p.toNat :: us) : ∃ rest, l = p :: rest ∧ us = encode rest := by
  have hunit : (UInt16.ofNat p.toNat).toNat = p.toNat := by
    rw [UInt16.toNat_ofNat', Nat.mod_eq_of_lt (by omega)]
  obtain ⟨c, rest, rfl, hc, rfl⟩ := encode_eq_cons (by omega) h
  have hsame : c = p := Char.toNat_inj.mp (hc.trans hunit)
  exact ⟨rest, by rw [hsame], rfl⟩

/-- What the scanner takes for a marker starts as one. -/
lemma exists_mark {l : Str} {u : UInt16} {us : JsString} (h : encode l = 59 :: 59 :: u :: us)
    (hu : u ∈ markChars.map fun m => UInt16.ofNat m.toNat) :
    ∃ m ∈ markChars, ∃ tail, l = ';' :: ';' :: m :: tail := by
  obtain ⟨l₁, rfl, h₁⟩ := encode_eq_ascii (p := ';') (by decide) h
  obtain ⟨l₂, rfl, h₂⟩ := encode_eq_ascii (p := ';') (by decide) h₁.symm
  obtain ⟨m, hm, rfl⟩ := List.mem_map.mp hu
  have hlow : ∀ m ∈ markChars, m.toNat < 0xD800 := forall_markChars.mpr (by decide)
  obtain ⟨tail, rfl, -⟩ := encode_eq_ascii (p := m) (hlow m hm) h₂.symm
  exact ⟨m, hm, tail, rfl⟩

/-- A space in front is one for the scanner. -/
lemma free_encode (tail : Str) :
    ((encode tail).isEmpty || (encode tail).head? == some 32) = free tail := by
  cases tail with
  | nil => rfl
  | cons c tail =>
      have hne : (encode (c :: tail)).isEmpty = false := by
        rw [List.isEmpty_eq_false_iff, encode_cons]
        exact List.append_ne_nil_of_left_ne_nil (units_ne_nil c) _
      rw [hne, Bool.false_or, free, List.head?_cons, Option.all_some, Bool.eq_iff_iff, beq_iff_eq,
        beq_iff_eq]
      constructor
      · intro hhead
        obtain ⟨us, hus⟩ := List.head?_eq_some_iff.mp hhead
        obtain ⟨rest, hrest, -⟩ := encode_eq_ascii (p := ' ') (by decide) hus
        exact (List.cons_eq_cons.mp hrest).1
      · rintro rfl
        rfl

section Tests

variable (u : UInt16) (us : JsString)

lemma isOpen_cons : isOpen (59 :: 59 :: u :: us)
    = ((js "v>").contains u && (us.isEmpty || us.head? == some 32)) := by
  have hlength : (us.length + 1 + 1 + 1 == 3) = us.isEmpty := by
    cases us <;> simp
  rw [isOpen, ← hlength, List.head?_eq_getElem?]
  rfl

lemma isClose_cons : isClose (59 :: 59 :: u :: us)
    = (u == 60 && (us.isEmpty || us.head? == some 32)) := by
  have hbare : js ";;<" = [59, 59, 60] := rfl
  have hlabel : js ";;< " = [59, 59, 60, 32] := rfl
  rw [isClose, hbare, hlabel, Bool.eq_iff_iff]
  cases us with
  | nil => simp [List.isPrefixOf_iff_prefix, List.cons_prefix_cons]
  | cons v us =>
      simp only [List.isPrefixOf_iff_prefix, List.cons_prefix_cons, Bool.or_eq_true,
        Bool.and_eq_true, beq_iff_eq, List.cons.injEq, List.head?_cons, Option.some_inj]
      simp [eq_comm (b := u), eq_comm (b := v)]

end Tests

/-- What the scanner makes of a line with a marker character. -/
lemma bracket_mark {m : Char} (hm : m ∈ markChars) (tail : Str) :
    bracket (encode (';' :: ';' :: m :: tail))
      = if free tail then (if m = '<' then .cls else .opn) else .other := by
  have hunits : ∀ m ∈ markChars, encode [';', ';', m] = [59, 59, UInt16.ofNat m.toNat]
      ∧ (js "v>").contains (UInt16.ofNat m.toNat) = !(m == '<')
      ∧ (UInt16.ofNat m.toNat == 60) = (m == '<') :=
    forall_markChars.mpr (by decide)
  obtain ⟨hline, hopen, hclose⟩ := hunits m hm
  have hencode : encode (';' :: ';' :: m :: tail)
      = 59 :: 59 :: UInt16.ofNat m.toNat :: encode tail := by
    rw [show ';' :: ';' :: m :: tail = [';', ';', m] ++ tail from rfl, encode_append, hline]
    rfl
  rw [hencode, bracket, isOpen_cons, isClose_cons, free_encode, hopen, hclose]
  cases free tail with
  | false => simp
  | true =>
      by_cases hlt : m = '<'
      · simp [hlt]
      · simp [hlt]

/-- Nothing else is a marker to the scanner. -/
lemma bracket_plain {l : Str} (h : ∀ m ∈ markChars, ∀ tail, l ≠ ';' :: ';' :: m :: tail) :
    bracket (encode l) = .other := by
  have hnot : ∀ u us, u ∈ markChars.map (fun m => UInt16.ofNat m.toNat) →
      encode l ≠ 59 :: 59 :: u :: us := by
    intro u us hu heq
    obtain ⟨m, hm, tail, hl⟩ := exists_mark heq hu
    exact h m hm tail hl
  have hopen : isOpen (encode l) = false := by
    by_contra hopen
    rw [Bool.not_eq_false, isOpen, Bool.and_eq_true, Bool.and_eq_true] at hopen
    obtain ⟨⟨hpre, hchar⟩, -⟩ := hopen
    obtain ⟨rest, hrest⟩ := List.isPrefixOf_iff_prefix.mp hpre
    rw [← hrest] at hchar
    cases rest with
    | nil => exact absurd hchar (by decide)
    | cons u us =>
        refine hnot u us ?_ hrest.symm
        have hjs : js "v>" = [118, 62] := by decide
        have hu : u = 118 ∨ u = 62 := by
          have hthird : (js "v>").contains u = true := hchar
          simpa [hjs] using hthird
        rcases hu with rfl | rfl <;> decide
  have hclose : isClose (encode l) = false := by
    by_contra hclose
    rw [Bool.not_eq_false, isClose, Bool.or_eq_true, beq_iff_eq] at hclose
    rcases hclose with hbare | hlabel
    · exact hnot 60 [] (by decide) hbare
    · obtain ⟨rest, hrest⟩ := List.isPrefixOf_iff_prefix.mp hlabel
      exact hnot 60 (32 :: rest) (by decide) hrest.symm
  rw [bracket, hopen, hclose]
  rfl

/-! ### The smoke test and `project_smt` -/

lemma isOpenLine_mark {m : Char} (hm : m ∈ markChars) (tail : Str) :
    isOpenLine (';' :: ';' :: m :: tail) = (m != '<' && free tail)
      ∧ isCloseLine (';' :: ';' :: m :: tail) = (m == '<' && free tail) := by
  simp only [markChars, List.mem_cons, List.not_mem_nil, or_false] at hm
  rcases tail with _ | ⟨c, tail⟩
  · rcases hm with rfl | rfl | rfl
    all_goals exact ⟨rfl, rfl⟩
  · have hlong : ((c :: tail).length + 1 + 1 + 1 == 3) = false := by simp
    rcases hm with rfl | rfl | rfl
    all_goals
      constructor
      · simp [isOpenLine, free, List.isPrefixOf]
      · simp [isCloseLine, free, List.isPrefixOf, eq_comm]

lemma isOpenLine_plain {l : Str} (h : ∀ m ∈ markChars, ∀ tail, l ≠ ';' :: ';' :: m :: tail) :
    isOpenLine l = false ∧ isCloseLine l = false ∧ isMarker l = false := by
  have hpre : ∀ m ∈ markChars, ∀ more, (';' :: ';' :: m :: more).isPrefixOf l = false := by
    intro m hm more
    by_contra hpre
    obtain ⟨rest, hrest⟩ := List.isPrefixOf_iff_prefix.mp ((Bool.not_eq_false _).mp hpre)
    exact h m hm (more ++ rest) hrest.symm
  have hopen := hpre '>' (by decide) []
  have hopen' := hpre 'v' (by decide) []
  have hclose := hpre '<' (by decide) [' ']
  have hbare : (l == ";;<".toList) = false := by
    rw [beq_eq_false_iff_ne]
    exact h '<' (by decide) []
  refine ⟨?_, ?_, ?_⟩
  · rw [isOpenLine, show ";;>".toList.isPrefixOf l = false from hopen,
      show ";;v".toList.isPrefixOf l = false from hopen']
    rfl
  · rw [isCloseLine, hbare, show ";;< ".toList.isPrefixOf l = false from hclose]
    rfl
  · rw [isMarker, hbare, show ";;>".toList.isPrefixOf l = false from hopen,
      show ";;v".toList.isPrefixOf l = false from hopen']
    rfl

/-- The smoke test reads a line as the scanner does. -/
theorem bracket_encode (l : Str) :
    bracket (encode l)
      = if isOpenLine l then .opn else if isCloseLine l then .cls else .other := by
  cases lineShape l with
  | mark m hm tail =>
      obtain ⟨hopen, hclose⟩ := isOpenLine_mark hm tail
      rw [bracket_mark hm, hopen, hclose]
      cases free tail with
      | false => simp
      | true =>
          by_cases hlt : m = '<'
          · simp [hlt]
          · simp [hlt]
  | plain h =>
      obtain ⟨hopen, hclose, -⟩ := isOpenLine_plain h
      rw [bracket_plain h, hopen, hclose]
      rfl

/-- `project_smt` asks for no space after `>` and `v`, and for nothing after `<`. -/
lemma isMarker_mark {m : Char} (hm : m ∈ markChars) (tail : Str) :
    isMarker (';' :: ';' :: m :: tail) = (m != '<' || tail.isEmpty) := by
  simp only [markChars, List.mem_cons, List.not_mem_nil, or_false] at hm
  rcases hm with rfl | rfl | rfl
  · rfl
  · rfl
  · cases tail with
    | nil => rfl
    | cons c tail => simp [isMarker, List.isPrefixOf]

/-! ## Lines and carriage returns -/

/-- The lines of a text, as the scanner sees them and as `str::lines` does.  The scanner also sees
what is behind the last newline if it is empty. -/
def rows (t : Str) : List (Str × Str) :=
  let pieces := t.splitOn '\n'
  pieces.dropLast.map (fun l => (l, stripCr l))
    ++ (pieces.getLast?.toList.filter fun l => !l.isEmpty).map fun l => (l, l)

lemma map_snd_rows (t : Str) : (rows t).map Prod.snd = lines t := by
  rw [rows, lines, List.map_append, List.map_map, List.map_map]
  exact congrArg _ (List.map_id _)

/-- The line of a raw line: without its carriage return, or the same. -/
def RowOf (raw line : Str) : Prop := line = raw ∨ raw = line ++ ['\r']

lemma rowOf_stripCr (l : Str) : RowOf l (stripCr l) := by
  rw [stripCr]
  split_ifs with hlast
  · exact Or.inr (List.dropLast_append_getLast? _ hlast).symm
  · exact Or.inl rfl

lemma rowOf_of_mem {t raw line : Str} (h : (raw, line) ∈ rows t) : RowOf raw line := by
  rw [rows] at h
  rcases List.mem_append.mp h with h | h
  · obtain ⟨l, -, heq⟩ := List.mem_map.mp h
    obtain ⟨rfl, rfl⟩ := Prod.mk.inj heq
    exact rowOf_stripCr l
  · obtain ⟨l, -, heq⟩ := List.mem_map.mp h
    obtain ⟨rfl, rfl⟩ := Prod.mk.inj heq
    exact Or.inl rfl

/-- A line outside the response blocks on which `project_smt` and the scanner agree: nothing but a
label is behind `;;>` and `;;v`, and no label behind `;;<`. -/
structure Ordinary (raw line : Str) : Prop where
  opn : ∀ m ∈ ['>', 'v'], ∀ tail, raw = ';' :: ';' :: m :: tail → free tail = true
  cls : ∀ tail, raw = ';' :: ';' :: '<' :: tail →
    tail.head? ≠ some ' ' ∧ (tail = ['\r'] → line = raw)

/-- No carriage return is taken off a marker without a label. -/
def Bare (raw line : Str) : Prop := ∀ m ∈ markChars, raw = [';', ';', m, '\r'] → line = raw

section Rows

variable {raw line : Str}

/-- A carriage return is taken off the tail of a marker. -/
lemma RowOf.mark {m : Char} (hm : m ∈ markChars) {tail : Str}
    (h : RowOf (';' :: ';' :: m :: tail) line) :
    ∃ tail', line = ';' :: ';' :: m :: tail' ∧ RowOf tail tail' := by
  rcases h with rfl | h
  · exact ⟨tail, rfl, Or.inl rfl⟩
  · rcases List.eq_nil_or_concat tail with rfl | ⟨tail', c, rfl⟩
    · have hlast := congrArg List.getLast? h
      rw [List.getLast?_concat] at hlast
      obtain rfl : m = '\r' := Option.some_inj.mp hlast
      exact absurd hm (by decide)
    · rw [List.concat_eq_append] at h ⊢
      have hsplit : (';' :: ';' :: m :: tail') ++ [c] = line ++ ['\r'] := h
      obtain ⟨hline, hc⟩ := List.append_inj' hsplit rfl
      rw [(List.cons_eq_cons.mp hc).1]
      exact ⟨tail', hline.symm, Or.inr rfl⟩

lemma RowOf.plain (h : RowOf raw line)
    (hplain : ∀ m ∈ markChars, ∀ tail, raw ≠ ';' :: ';' :: m :: tail) :
    ∀ m ∈ markChars, ∀ tail, line ≠ ';' :: ';' :: m :: tail := by
  rintro m hm tail rfl
  rcases h with h | h
  · exact hplain m hm tail h.symm
  · exact hplain m hm (tail ++ ['\r']) h

lemma mem_markChars {m : Char} (hm : m ∈ markChars) : m = '<' ∨ m ∈ ['>', 'v'] := by
  simp only [markChars, List.mem_cons, List.not_mem_nil, or_false] at hm ⊢
  tauto

/-- The label of a close. -/
lemma close_iff {tail tail' : Str} (h : RowOf tail tail') :
    (free tail = true ↔ tail' = []) ↔ tail.head? ≠ some ' ' ∧ (tail = ['\r'] → tail' = tail) := by
  rcases tail with _ | ⟨c, tail⟩
  · obtain rfl : tail' = [] := by
      rcases h with rfl | h
      · rfl
      · exact absurd h (by simp)
    simp [free]
  · rcases h with rfl | h
    · simp [free]
    · rcases tail' with _ | ⟨c', tail'⟩
      · obtain ⟨rfl, rfl⟩ : c = '\r' ∧ tail = [] := by simpa using h
        simp [free]
      · obtain ⟨rfl, rfl⟩ : c = c' ∧ tail = tail' ++ ['\r'] := by simpa using h
        simp [free]

/-- Where the two tests for a marker agree. -/
lemma marker_iff (h : RowOf raw line) :
    (bracket (encode raw) ≠ .other ↔ isMarker line = true) ↔ Ordinary raw line := by
  cases lineShape raw with
  | plain hplain =>
      have hline := (isOpenLine_plain (h.plain hplain)).2.2
      refine iff_of_true (iff_of_false ?_ (by simp [hline])) ⟨?_, ?_⟩
      · rw [bracket_plain hplain]
        exact fun hne => hne rfl
      · intro m hm tail hraw
        exact absurd hraw (hplain m (List.dropLast_subset markChars hm) tail)
      · intro tail hraw
        exact absurd hraw (hplain '<' (by decide) tail)
  | mark m hm tail =>
      obtain ⟨tail', rfl, htail⟩ := h.mark hm
      have hbracket : bracket (encode (';' :: ';' :: m :: tail)) ≠ .other ↔ free tail = true := by
        rw [bracket_mark hm]
        split_ifs with hfree
        · simp [hfree]
        · simp [hfree]
        · simp [hfree]
      rw [hbracket, isMarker_mark hm]
      rcases mem_markChars hm with rfl | hopen
      · have hclose := close_iff htail
        constructor
        · intro hsame
          have hlabel := hclose.mp (hsame.trans (by simp))
          refine ⟨fun m hm' tail₂ hraw => ?_, fun tail₂ hraw => ?_⟩
          · obtain ⟨rfl, -⟩ : m = '<' ∧ _ := by simpa [eq_comm] using hraw
            exact absurd hm' (by decide)
          · obtain rfl : tail = tail₂ := by simpa using hraw
            exact ⟨hlabel.1, fun hcr => by rw [hlabel.2 hcr]⟩
        · intro hordinary
          have hlabel := hordinary.cls tail rfl
          refine (hclose.mpr ⟨hlabel.1, fun hcr => ?_⟩).trans (by simp)
          simpa using hlabel.2 hcr
      · have hopens : ∀ m ∈ ['>', 'v'], (m != '<') = true := by simp
        rw [hopens m hopen]
        constructor
        · intro hsame
          refine ⟨fun m' hm' tail₂ hraw => ?_, fun tail₂ hraw => ?_⟩
          · obtain ⟨-, rfl⟩ : m = m' ∧ tail = tail₂ := by simpa using hraw
            exact hsame.mpr rfl
          · obtain ⟨rfl, -⟩ : m = '<' ∧ _ := by simpa using hraw
            exact absurd hopen (by decide)
        · intro hordinary
          exact iff_of_true (hordinary.opn m hopen tail rfl) rfl

/-- Where the scanner reads a line as it does without its carriage return. -/
lemma bracket_iff (h : RowOf raw line) :
    bracket (encode raw) = bracket (encode line) ↔ Bare raw line := by
  cases lineShape raw with
  | plain hplain =>
      rw [bracket_plain hplain, bracket_plain (h.plain hplain)]
      exact iff_of_true rfl fun m hm hraw => absurd hraw (hplain m hm _)
  | mark m hm tail =>
      obtain ⟨tail', rfl, htail⟩ := h.mark hm
      have hfree : bracket (encode (';' :: ';' :: m :: tail))
            = bracket (encode (';' :: ';' :: m :: tail')) ↔ free tail = free tail' := by
        rw [bracket_mark hm, bracket_mark hm]
        by_cases hlt : m = '<'
        · cases free tail <;> cases free tail' <;> simp [hlt]
        · cases free tail <;> cases free tail' <;> simp [hlt]
      have hbare : Bare (';' :: ';' :: m :: tail) (';' :: ';' :: m :: tail')
          ↔ (tail = ['\r'] → tail' = tail) := by
        constructor
        · rintro hall rfl
          simpa using hall m hm rfl
        · intro hcr m' _ hraw
          obtain ⟨-, rfl⟩ : m = m' ∧ tail = ['\r'] := by simpa using hraw
          rw [hcr rfl]
      rw [hfree, hbare]
      rcases htail with rfl | rfl
      · simp
      · rcases tail' with _ | ⟨c, tail'⟩
        · simp [free]
        · simp [free]

end Rows

end VerusExplorer
