import VerusExplorer.Lib.Lexing
import VerusExplorer.Lib.Utf16

/-!
# The tokenizer of the IR tabs

`sexpParser.token` (`public/app.js`) is called by the editor on each line of an IR section until it
stands at the end of the line; the editor gives up when a call does not move on.

* `StringStream` — what the tokenizer uses of the stream that the editor hands it.
* `token` — the tokenizer.
* `tokenLength` — how far a call gets, read off the rest of the line.
* `QuoteInCode` — an apostrophe that is in no string, no comment and no `|..|`.
* **`token_progress`** — a call moves on exactly where the next unit is not an apostrophe, and a
  line is cut into tokens exactly if all its apostrophes are in strings, comments and `|..|`.
-/

namespace VerusExplorer

open Utf16

namespace Sexp

/-! ## Classes of units -/

/-- `/\s/`. -/
def isSpace (u : UInt16) : Bool :=
  (9 ≤ u && u ≤ 13) || u == 32 || u == 0xa0 || u == 0x1680 || (0x2000 ≤ u && u ≤ 0x200a)
    || u == 0x2028 || u == 0x2029 || u == 0x202f || u == 0x205f || u == 0x3000 || u == 0xfeff

/-- `/[0-9]/`. -/
def isDigit (u : UInt16) : Bool := 48 ≤ u && u ≤ 57

/-- `/[\w.]/`. -/
def isWordOrDot (u : UInt16) : Bool :=
  isDigit u || (65 ≤ u && u ≤ 90) || u == 95 || (97 ≤ u && u ≤ 122) || u == 46

/-- `/[^\s()"';|]/`. -/
def isAtomUnit (u : UInt16) : Bool := !isSpace u && !(js "()\"';|").contains u

/-! ## The stream of a line -/

/-- The stream the editor makes of a line, as far as the tokenizer uses it, with what is documented
of its methods.  `mark` is what the editor does before a call: a new token starts where the stream
is. -/
structure StringStream (S : Type) where
  string : S → JsString
  start : S → ℕ
  pos : S → ℕ
  mark : S → S
  eol : S → Bool
  peek : S → Option UInt16
  next : S → Option UInt16 × S
  eatWhile : (UInt16 → Bool) → S → Bool × S
  eatSpace : S → Bool × S
  skipToEnd : S → S
  current : S → JsString
  string_mark : ∀ s, string (mark s) = string s
  pos_mark : ∀ s, pos (mark s) = pos s
  start_mark : ∀ s, start (mark s) = pos s
  eol_iff : ∀ s, eol s = true ↔ (string s).length ≤ pos s
  /-- The next unit, or none at the end of the line. -/
  peek_eq : ∀ s, peek s = (string s)[pos s]?
  next_eq : ∀ s, (next s).1 = (string s)[pos s]?
  string_next : ∀ s, string (next s).2 = string s
  pos_next : ∀ s, pos (next s).2 = if pos s < (string s).length then pos s + 1 else pos s
  /-- Goes over what matches, and tells whether anything did. -/
  eatWhile_eq : ∀ p s, (eatWhile p s).1 = decide (pos s < pos (eatWhile p s).2)
  string_eatWhile : ∀ p s, string (eatWhile p s).2 = string s
  pos_eatWhile : ∀ p s,
    pos (eatWhile p s).2 = pos s + (((string s).drop (pos s)).takeWhile p).length
  eatSpace_eq : ∀ s, (eatSpace s).1 = decide (pos s < pos (eatSpace s).2)
  string_eatSpace : ∀ s, string (eatSpace s).2 = string s
  pos_eatSpace : ∀ s,
    pos (eatSpace s).2 = pos s + (((string s).drop (pos s)).takeWhile isSpace).length
  string_skipToEnd : ∀ s, string (skipToEnd s) = string s
  pos_skipToEnd : ∀ s, pos (skipToEnd s) = (string s).length
  /-- What lies between the start of the token and the position. -/
  current_eq : ∀ s, current s = ((string s).take (pos s)).drop (start s)

/-! ## The source -/

/-- What a token is shown as. -/
inductive Style where
  | comment
  | string
  | variableName
  | bracket
  | number
  | attributeName
  | atom
  | keyword
  deriving DecidableEq, Repr

/-- `SEXP_ATOMS`. -/
def sexpAtoms : List JsString := [js "true", js "false", js "sat", js "unsat", js "unknown"]

section Token

variable {S : Type} (st : StringStream S)

lemma pos_next_of_not_eol {s : S} (h : ¬st.eol s = true) :
    st.pos s < (st.string s).length ∧ st.pos (st.next s).2 = st.pos s + 1 := by
  rw [st.eol_iff, Nat.not_le] at h
  exact ⟨h, by rw [st.pos_next, if_pos h]⟩

lemma pos_le_next (s : S) : st.pos s ≤ st.pos (st.next s).2 := by
  rw [st.pos_next]
  split_ifs <;> omega

/-- The loop over a string, after its first quote. -/
def stringLoop (s : S) : S :=
  if _h : st.eol s = true then s
  else
    let c := (st.next s).1
    if c = some 92 then stringLoop (st.next (st.next s).2).2
    else if c = some 34 then (st.next s).2
    else stringLoop (st.next s).2
  termination_by (st.string s).length - st.pos s
  decreasing_by
  · have hnext := pos_next_of_not_eol st _h
    have hle := pos_le_next st (st.next s).2
    rw [st.string_next, st.string_next]
    omega
  · have hnext := pos_next_of_not_eol st _h
    rw [st.string_next]
    omega

/-- The loop over `|..|`, after the first bar. -/
def barLoop (s : S) : S :=
  if _h : st.eol s = true then s
  else if (st.next s).1 = some 124 then (st.next s).2
  else barLoop (st.next s).2
  termination_by (st.string s).length - st.pos s
  decreasing_by
    have hnext := pos_next_of_not_eol st _h
    rw [st.string_next]
    omega

/-- How an atom is shown; `head` says whether it follows an opening parenthesis. -/
def atomStyle (w : JsString) (head : Bool) : Option Style :=
  if (js ":").isPrefixOf w then some .attributeName
  else if sexpAtoms.contains w then some .atom
  else if head then some .keyword
  else none

/-- The tokenizer where no blank comes first. -/
def tokenNext (s : S) (afterOpen : Bool) : Option Style × S × Bool :=
  let ch := st.peek s
  if ch = some 59 then (some .comment, st.skipToEnd s, afterOpen)
  else if ch = some 34 then (some .string, stringLoop st (st.next s).2, false)
  else if ch = some 124 then (some .variableName, barLoop st (st.next s).2, false)
  else if ch = some 40 then (some .bracket, (st.next s).2, true)
  else if ch = some 41 then (some .bracket, (st.next s).2, false)
  else if ch.any isDigit then (some .number, (st.eatWhile isWordOrDot s).2, false)
  else
    let s := (st.eatWhile isAtomUnit s).2
    (atomStyle (st.current s) afterOpen, s, false)

/-- `sexpParser.token`, with the value of `state.afterOpen` before and after. -/
def token (s : S) (afterOpen : Bool) : Option Style × S × Bool :=
  if (st.eatSpace s).1 then (none, (st.eatSpace s).2, afterOpen)
  else tokenNext st (st.eatSpace s).2 afterOpen

end Token

/-! ## How far a call gets -/

/-- How much of a string there is after its first quote. -/
def stringLength : JsString → ℕ
  | [] => 0
  | c :: rest =>
      if c = 92 then
        match rest with
        | [] => 1
        | _ :: rest => stringLength rest + 2
      else if c = 34 then 1
      else stringLength rest + 1

lemma stringLength_cons {c : UInt16} (hc : c ≠ 92) (rest : JsString) :
    stringLength (c :: rest) = if c = 34 then 1 else stringLength rest + 1 := by
  rw [stringLength.eq_def]
  exact if_neg hc

lemma stringLength_escape (c : UInt16) (rest : JsString) :
    stringLength (92 :: c :: rest) = stringLength rest + 2 := by
  rw [stringLength, if_pos rfl]

/-- How much of `|..|` there is after the first bar. -/
def barLength : JsString → ℕ
  | [] => 0
  | c :: rest => if c = 124 then 1 else barLength rest + 1

/-- The length of the token that the rest of a line starts with. -/
def tokenLength : JsString → ℕ
  | [] => 0
  | c :: rest =>
      if isSpace c then ((c :: rest).takeWhile isSpace).length
      else if c = 59 then rest.length + 1
      else if c = 34 then stringLength rest + 1
      else if c = 124 then barLength rest + 1
      else if c = 40 then 1
      else if c = 41 then 1
      else if isDigit c then ((c :: rest).takeWhile isWordOrDot).length
      else ((c :: rest).takeWhile isAtomUnit).length

section Rest

variable {S : Type} (st : StringStream S)

/-- What is left of the line. -/
def rest (s : S) : JsString := (st.string s).drop (st.pos s)

lemma rest_congr {s t : S} (hstring : st.string t = st.string s) (hpos : st.pos t = st.pos s) :
    rest st t = rest st s := by
  rw [rest, rest, hstring, hpos]

lemma rest_of_eol {s : S} (h : st.eol s = true) : rest st s = [] :=
  List.drop_eq_nil_of_le ((st.eol_iff s).mp h)

/-- Before the end of the line, `next` reads the first unit of what is left. -/
lemma rest_of_not_eol {s : S} (h : ¬st.eol s = true) :
    ∃ c, (st.next s).1 = some c ∧ rest st s = c :: rest st (st.next s).2 := by
  obtain ⟨hlt, hpos⟩ := pos_next_of_not_eol st h
  refine ⟨(st.string s)[st.pos s], ?_, ?_⟩
  · rw [st.next_eq, List.getElem?_eq_getElem hlt]
  · rw [rest, rest, st.string_next, hpos, List.drop_eq_getElem_cons hlt]

lemma rest_next (s : S) : rest st (st.next s).2 = (rest st s).tail := by
  by_cases h : st.eol s = true
  · have hge := (st.eol_iff s).mp h
    rw [rest_of_eol st h, rest, st.string_next, st.pos_next, if_neg (Nat.not_lt_of_le hge)]
    exact List.drop_eq_nil_of_le hge
  · obtain ⟨c, -, hrest⟩ := rest_of_not_eol st h
    rw [hrest, List.tail_cons]

lemma pos_next_of_rest {s : S} {c : UInt16} {r : JsString} (h : rest st s = c :: r) :
    st.pos (st.next s).2 = st.pos s + 1 := by
  have hnot : ¬st.eol s = true := fun heol => by
    rw [rest_of_eol st heol] at h
    exact absurd h (by simp)
  exact (pos_next_of_not_eol st hnot).2

lemma pos_next_of_rest_nil {s : S} (h : rest st s = []) : st.pos (st.next s).2 = st.pos s := by
  rw [st.pos_next, if_neg]
  exact Nat.not_lt_of_le (List.drop_eq_nil_iff.mp h)

lemma string_stringLoop (s : S) : st.string (stringLoop st s) = st.string s := by
  induction s using stringLoop.induct st with
  | case1 s h => rw [stringLoop, dif_pos h]
  | case2 s h c hc ih =>
      rw [stringLoop, dif_neg h, if_pos hc, ih, st.string_next, st.string_next]
  | case3 s h c hc hquote =>
      rw [stringLoop, dif_neg h, if_neg hc, if_pos hquote, st.string_next]
  | case4 s h c hc hquote ih =>
      rw [stringLoop, dif_neg h, if_neg hc, if_neg hquote, ih, st.string_next]

/-- The loop ends behind the closing quote, or at the end of the line. -/
lemma pos_stringLoop (s : S) :
    st.pos (stringLoop st s) = st.pos s + stringLength (rest st s) := by
  induction s using stringLoop.induct st with
  | case1 s h =>
      rw [stringLoop, dif_pos h, rest_of_eol st h]
      rfl
  | case2 s h c hc ih =>
      obtain ⟨d, hd, hrest⟩ := rest_of_not_eol st h
      obtain rfl : d = 92 := Option.some.inj (hd.symm.trans hc)
      rw [stringLoop, dif_neg h, if_pos hc, ih, hrest, rest_next st (st.next s).2]
      have hnext := (pos_next_of_not_eol st h).2
      cases hr : rest st (st.next s).2 with
      | nil =>
          rw [pos_next_of_rest_nil st hr, hnext]
          rfl
      | cons e r =>
          rw [pos_next_of_rest st hr, hnext, List.tail_cons, stringLength_escape]
          omega
  | case3 s h c hc hquote =>
      obtain ⟨d, hd, hrest⟩ := rest_of_not_eol st h
      obtain rfl : d = 34 := Option.some.inj (hd.symm.trans hquote)
      rw [stringLoop, dif_neg h, if_neg hc, if_pos hquote, (pos_next_of_not_eol st h).2, hrest,
        stringLength_cons (by decide), if_pos rfl]
  | case4 s h c hc hquote ih =>
      obtain ⟨d, hd, hrest⟩ := rest_of_not_eol st h
      have hslash : d ≠ 92 := fun heq => hc (hd.trans (congrArg some heq))
      have hquote' : d ≠ 34 := fun heq => hquote (hd.trans (congrArg some heq))
      rw [stringLoop, dif_neg h, if_neg hc, if_neg hquote, ih, (pos_next_of_not_eol st h).2, hrest,
        stringLength_cons hslash, if_neg hquote']
      omega

lemma string_barLoop (s : S) : st.string (barLoop st s) = st.string s := by
  induction s using barLoop.induct st with
  | case1 s h => rw [barLoop, dif_pos h]
  | case2 s h hbar => rw [barLoop, dif_neg h, if_pos hbar, st.string_next]
  | case3 s h hbar ih => rw [barLoop, dif_neg h, if_neg hbar, ih, st.string_next]

/-- The loop ends behind the closing bar, or at the end of the line. -/
lemma pos_barLoop (s : S) : st.pos (barLoop st s) = st.pos s + barLength (rest st s) := by
  induction s using barLoop.induct st with
  | case1 s h =>
      rw [barLoop, dif_pos h, rest_of_eol st h]
      rfl
  | case2 s h hbar =>
      obtain ⟨d, hd, hrest⟩ := rest_of_not_eol st h
      obtain rfl : d = 124 := Option.some.inj (hd.symm.trans hbar)
      rw [barLoop, dif_neg h, if_pos hbar, (pos_next_of_not_eol st h).2, hrest]
      rfl
  | case3 s h hbar ih =>
      obtain ⟨d, hd, hrest⟩ := rest_of_not_eol st h
      have hbar' : d ≠ 124 := fun heq => hbar (hd.trans (congrArg some heq))
      rw [barLoop, dif_neg h, if_neg hbar, ih, (pos_next_of_not_eol st h).2, hrest, barLength,
        if_neg hbar']
      omega

lemma string_tokenNext (s : S) (afterOpen : Bool) :
    st.string (tokenNext st s afterOpen).2.1 = st.string s := by
  simp only [tokenNext]
  split_ifs
  · exact st.string_skipToEnd s
  · rw [string_stringLoop, st.string_next]
  · rw [string_barLoop, st.string_next]
  · exact st.string_next s
  · exact st.string_next s
  · exact st.string_eatWhile _ s
  · exact st.string_eatWhile _ s

/-- One case for each branch, by the unit that comes next. -/
lemma pos_tokenNext {s : S} {c : UInt16} {r : JsString} (h : rest st s = c :: r)
    (hspace : ¬isSpace c = true) (afterOpen : Bool) :
    st.pos (tokenNext st s afterOpen).2.1 = st.pos s + tokenLength (c :: r) := by
  have hpeek : st.peek s = some c := by
    rw [st.peek_eq, ← List.head?_drop, show (st.string s).drop (st.pos s) = c :: r from h]
    rfl
  have hrest : (st.string s).drop (st.pos s) = c :: r := h
  have hnext := pos_next_of_rest st h
  have htail : rest st (st.next s).2 = r := by rw [rest_next, h, List.tail_cons]
  simp only [tokenNext, hpeek, Option.some.injEq, Option.any_some]
  rw [tokenLength, if_neg hspace]
  split_ifs
  · have hlen := congrArg List.length hrest
    rw [List.length_drop, List.length_cons] at hlen
    rw [st.pos_skipToEnd]
    omega
  · rw [pos_stringLoop, hnext, htail]
    omega
  · rw [pos_barLoop, hnext, htail]
    omega
  · exact hnext
  · exact hnext
  · rw [st.pos_eatWhile, hrest]
  · rw [st.pos_eatWhile, hrest]

lemma pos_tokenNext_nil {s : S} (h : rest st s = []) (afterOpen : Bool) :
    st.pos (tokenNext st s afterOpen).2.1 = st.pos s := by
  have hrest : (st.string s).drop (st.pos s) = [] := h
  have hpeek : st.peek s = none := by
    rw [st.peek_eq, ← List.head?_drop, hrest]
    rfl
  simp [tokenNext, hpeek, st.pos_eatWhile, hrest]

lemma string_token (s : S) (afterOpen : Bool) :
    st.string (token st s afterOpen).2.1 = st.string s := by
  rw [token]
  split_ifs
  · exact st.string_eatSpace s
  · rw [string_tokenNext, st.string_eatSpace]

/-- **How far a call gets.** -/
lemma pos_token (s : S) (afterOpen : Bool) :
    st.pos (token st s afterOpen).2.1 = st.pos s + tokenLength (rest st s) := by
  have hblanks := st.pos_eatSpace s
  rw [show (st.string s).drop (st.pos s) = rest st s from rfl] at hblanks
  rw [token, st.eatSpace_eq]
  cases h : rest st s with
  | nil =>
      rw [h] at hblanks
      have hpos : st.pos (st.eatSpace s).2 = st.pos s := hblanks
      rw [if_neg (by simp [hpos]), pos_tokenNext_nil st, hpos]
      · rfl
      · rw [rest_congr st (st.string_eatSpace s) hpos, h]
  | cons c r =>
      rw [h, List.takeWhile_cons] at hblanks
      by_cases hspace : isSpace c = true
      · rw [if_pos hspace, List.length_cons] at hblanks
        rw [if_pos (by simp only [decide_eq_true_eq]; omega), tokenLength, if_pos hspace,
          List.takeWhile_cons, if_pos hspace, List.length_cons]
        exact hblanks
      · rw [if_neg hspace] at hblanks
        have hpos : st.pos (st.eatSpace s).2 = st.pos s := hblanks
        rw [if_neg (by simp [hpos]), pos_tokenNext st ?_ hspace, hpos]
        rw [rest_congr st (st.string_eatSpace s) hpos, h]

/-- What is left of the line after a call. -/
lemma rest_token (s : S) (afterOpen : Bool) :
    rest st (token st s afterOpen).2.1 = (rest st s).drop (tokenLength (rest st s)) := by
  rw [rest, string_token, pos_token, rest, List.drop_drop]

end Rest

/-! ## Which calls move on -/

lemma isAtomUnit_iff (c : UInt16) : isAtomUnit c = true ↔ ¬isSpace c = true
    ∧ c ≠ 40 ∧ c ≠ 41 ∧ c ≠ 34 ∧ c ≠ 39 ∧ c ≠ 59 ∧ c ≠ 124 := by
  have hset : js "()\"';|" = [40, 41, 34, 39, 59, 124] := by decide
  rw [isAtomUnit, hset]
  simp

lemma isWordOrDot_of_isDigit {c : UInt16} (h : isDigit c = true) : isWordOrDot c = true := by
  simp [isWordOrDot, h]

lemma takeWhile_cons_pos {p : UInt16 → Bool} {c : UInt16} (h : p c = true) (r : JsString) :
    0 < ((c :: r).takeWhile p).length := by
  rw [List.takeWhile_cons_of_pos h]
  exact Nat.succ_pos _

/-- Every unit but the apostrophe is taken by one of the branches. -/
lemma tokenLength_pos (c : UInt16) (r : JsString) : 0 < tokenLength (c :: r) ↔ c ≠ 39 := by
  have hquote : isSpace 39 = false ∧ isDigit 39 = false := by decide
  rw [tokenLength]
  split_ifs with hspace h59 h34 h124 h40 h41 hdigit
  · refine iff_of_true (takeWhile_cons_pos hspace r) ?_
    rintro rfl
    exact absurd (hspace.symm.trans hquote.1) (by simp)
  · exact iff_of_true (Nat.succ_pos _) (h59 ▸ by decide)
  · exact iff_of_true (Nat.succ_pos _) (h34 ▸ by decide)
  · exact iff_of_true (Nat.succ_pos _) (h124 ▸ by decide)
  · exact iff_of_true (Nat.succ_pos _) (h40 ▸ by decide)
  · exact iff_of_true (Nat.succ_pos _) (h41 ▸ by decide)
  · refine iff_of_true (takeWhile_cons_pos (isWordOrDot_of_isDigit hdigit) r) ?_
    rintro rfl
    exact absurd (hdigit.symm.trans hquote.2) (by simp)
  · -- the class of the last branch takes whatever is left, apostrophes apart
    rw [List.takeWhile_cons]
    split_ifs with hatom
    · exact iff_of_true (Nat.succ_pos _) ((isAtomUnit_iff c).mp hatom).2.2.2.2.1
    · refine iff_of_false (Nat.lt_irrefl 0) fun hne => hatom ?_
      exact (isAtomUnit_iff c).mpr ⟨hspace, h40, h41, h34, hne, h59, h124⟩

lemma stringLength_le (r : JsString) : stringLength r ≤ r.length := by
  induction r using stringLength.induct with
  | case1 => exact Nat.le_refl _
  | case2 => exact Nat.le_refl _
  | case3 c r ih =>
      rw [stringLength_escape, List.length_cons, List.length_cons]
      omega
  | case4 r h =>
      rw [stringLength_cons (by decide), if_pos rfl, List.length_cons]
      omega
  | case5 c r hslash hquote ih =>
      rw [stringLength_cons hslash, if_neg hquote, List.length_cons]
      omega

lemma barLength_le : ∀ r : JsString, barLength r ≤ r.length
  | [] => Nat.le_refl _
  | c :: r => by
      have ih := barLength_le r
      rw [barLength, List.length_cons]
      split_ifs <;> omega

/-- No token reaches past the end of the line. -/
lemma tokenLength_le : ∀ r : JsString, tokenLength r ≤ r.length
  | [] => Nat.le_refl _
  | c :: r => by
      have hstring := stringLength_le r
      have hbar := barLength_le r
      rw [tokenLength]
      split_ifs
      · exact (List.takeWhile_sublist _).length_le
      · exact Nat.le_refl _
      · exact Nat.succ_le_succ hstring
      · exact Nat.succ_le_succ hbar
      · exact Nat.succ_le_succ (Nat.zero_le _)
      · exact Nat.succ_le_succ (Nat.zero_le _)
      · exact (List.takeWhile_sublist _).length_le
      · exact (List.takeWhile_sublist _).length_le

/-! ## Apostrophes in code -/

/-- What a place of a line lies in. -/
inductive Mode where
  | code
  | string
  | escape
  | bar
  | comment
  deriving DecidableEq, Repr

/-- What the place after a unit lies in. -/
def Mode.next : Mode → UInt16 → Mode
  | code, c => if c = 34 then string else if c = 124 then bar else if c = 59 then comment else code
  | string, c => if c = 92 then escape else if c = 34 then code else string
  | escape, _ => string
  | bar, c => if c = 124 then code else bar
  | comment, _ => comment

/-- From a place that lies in `m` on, some apostrophe lies in code. -/
def QuoteFrom (m : Mode) (r : JsString) : Prop :=
  ∃ i : ℕ, r[i]? = some 39 ∧ (r.take i).foldl Mode.next m = .code

/-- An apostrophe that lies in no string, no comment and no `|..|`. -/
def QuoteInCode (line : JsString) : Prop := QuoteFrom .code line

lemma quoteFrom_nil (m : Mode) : ¬QuoteFrom m [] := by
  rintro ⟨i, hi, -⟩
  exact absurd hi (by simp)

lemma quoteFrom_cons (m : Mode) (c : UInt16) (r : JsString) :
    QuoteFrom m (c :: r) ↔ (c = 39 ∧ m = .code) ∨ QuoteFrom (m.next c) r := by
  constructor
  · rintro ⟨i, hi, hm⟩
    cases i with
    | zero => exact Or.inl ⟨by simpa using hi, hm⟩
    | succ i => exact Or.inr ⟨i, by simpa using hi, hm⟩
  · rintro (⟨rfl, rfl⟩ | ⟨i, hi, hm⟩)
    · exact ⟨0, rfl, rfl⟩
    · exact ⟨i + 1, by simpa using hi, hm⟩

lemma quoteFrom_comment : ∀ r : JsString, ¬QuoteFrom .comment r
  | [] => quoteFrom_nil _
  | c :: r => by
      rw [quoteFrom_cons]
      rintro (⟨-, hm⟩ | h)
      · exact absurd hm (by decide)
      · exact quoteFrom_comment r h

lemma quoteFrom_string (r : JsString) :
    QuoteFrom .string r ↔ QuoteFrom .code (r.drop (stringLength r)) := by
  induction r using stringLength.induct with
  | case1 => exact iff_of_false (quoteFrom_nil _) (quoteFrom_nil _)
  | case2 =>
      refine iff_of_false ?_ (quoteFrom_nil _)
      rw [quoteFrom_cons]
      rintro (⟨h, -⟩ | h)
      · exact absurd h (by decide)
      · exact quoteFrom_nil _ h
  | case3 c r ih =>
      rw [stringLength_escape, quoteFrom_cons, quoteFrom_cons, List.drop_succ_cons,
        List.drop_succ_cons, ← ih]
      simp [Mode.next]
  | case4 r h =>
      rw [stringLength_cons (by decide), if_pos rfl, quoteFrom_cons]
      simp [Mode.next]
  | case5 c r hslash hquote ih =>
      rw [stringLength_cons hslash, if_neg hquote, quoteFrom_cons, List.drop_succ_cons, ← ih]
      simp [Mode.next, hslash, hquote]

lemma quoteFrom_bar : ∀ r : JsString,
    QuoteFrom .bar r ↔ QuoteFrom .code (r.drop (barLength r))
  | [] => iff_of_false (quoteFrom_nil _) (quoteFrom_nil _)
  | c :: r => by
      rw [barLength, quoteFrom_cons]
      split_ifs with hbar
      · simp [Mode.next, hbar]
      · rw [List.drop_succ_cons, ← quoteFrom_bar r]
        simp [Mode.next, hbar]

/-- Units that open nothing and are no apostrophes. -/
lemma quoteFrom_takeWhile {p : UInt16 → Bool}
    (hp : ∀ c, p c = true → c ≠ 34 ∧ c ≠ 39 ∧ c ≠ 59 ∧ c ≠ 124) : ∀ r : JsString,
    QuoteFrom .code r ↔ QuoteFrom .code (r.drop (r.takeWhile p).length)
  | [] => Iff.rfl
  | c :: r => by
      rw [List.takeWhile_cons]
      split_ifs with hc
      · obtain ⟨h34, h39, h59, h124⟩ := hp c hc
        rw [List.length_cons, List.drop_succ_cons, ← quoteFrom_takeWhile hp r, quoteFrom_cons]
        simp [Mode.next, h34, h39, h59, h124]
      · rfl

lemma quote_of_class {p : UInt16 → Bool} (h34 : p 34 = false) (h39 : p 39 = false)
    (h59 : p 59 = false) (h124 : p 124 = false) (c : UInt16) (hc : p c = true) :
    c ≠ 34 ∧ c ≠ 39 ∧ c ≠ 59 ∧ c ≠ 124 := by
  refine ⟨?_, ?_, ?_, ?_⟩
  all_goals
    rintro rfl
    simp_all

/-- A token holds no apostrophe that is in code, and after it the line is in code again. -/
lemma quoteFrom_tokenLength : ∀ r : JsString,
    QuoteFrom .code r ↔ QuoteFrom .code (r.drop (tokenLength r))
  | [] => Iff.rfl
  | c :: r => by
      rw [tokenLength]
      split_ifs with hspace h59 h34 h124 h40 h41 hdigit
      · exact quoteFrom_takeWhile (quote_of_class rfl rfl rfl rfl) _
      · rw [h59, quoteFrom_cons, List.drop_succ_cons, List.drop_length]
        simp [Mode.next, quoteFrom_comment, quoteFrom_nil]
      · rw [h34, quoteFrom_cons, List.drop_succ_cons, ← quoteFrom_string]
        simp [Mode.next]
      · rw [h124, quoteFrom_cons, List.drop_succ_cons, ← quoteFrom_bar]
        simp [Mode.next]
      · rw [h40, quoteFrom_cons]
        simp [Mode.next]
      · rw [h41, quoteFrom_cons]
        simp [Mode.next]
      · exact quoteFrom_takeWhile (quote_of_class rfl rfl rfl rfl) _
      · exact quoteFrom_takeWhile (quote_of_class rfl rfl rfl rfl) _

/-! ## Whole lines -/

section Line

variable {S : Type} (st : StringStream S)

/-- One call of the editor, where a new token starts. -/
def call (x : S × Bool) : S × Bool := (token st (st.mark x.1) x.2).2

/-- The spans of the tokens, if the end of the line is reached within `n` calls. -/
def tokens (n : ℕ) (s : S) (afterOpen : Bool) : Option (List (ℕ × ℕ)) :=
  Lexing.spans (fun x : S × Bool => st.pos x.1) (st.string s).length (call st) n (s, afterOpen)

lemma string_call (x : S × Bool) : st.string (call st x).1 = st.string x.1 :=
  (string_token st _ _).trans (st.string_mark _)

lemma rest_mark (s : S) : rest st (st.mark s) = rest st s :=
  rest_congr st (st.string_mark s) (st.pos_mark s)

lemma pos_call (x : S × Bool) :
    st.pos (call st x).1 = st.pos x.1 + tokenLength (rest st x.1) := by
  rw [call, pos_token, rest_mark, st.pos_mark]

lemma rest_call (x : S × Bool) :
    rest st (call st x).1 = (rest st x.1).drop (tokenLength (rest st x.1)) := by
  rw [call, rest_token, rest_mark]

lemma length_rest (s : S) : (rest st s).length = (st.string s).length - st.pos s :=
  List.length_drop

/-- A call stays on the line. -/
lemma pos_call_le {x : S × Bool} (h : st.pos x.1 ≤ (st.string x.1).length) :
    st.pos (call st x).1 ≤ (st.string x.1).length := by
  have hle := tokenLength_le (rest st x.1)
  rw [length_rest] at hle
  rw [pos_call]
  omega

/-- The line is cut into tokens exactly if there is no apostrophe in code. -/
lemma exists_tokens_iff (s : S) (afterOpen : Bool) (hs : st.pos s ≤ (st.string s).length) :
    (∃ n ss, tokens st n s afterOpen = some ss
        ∧ Lexing.Chain (st.pos s) (st.string s).length ss)
      ↔ ¬QuoteFrom .code (rest st s) := by
  let Good (x : S × Bool) : Prop := ¬QuoteFrom .code (rest st x.1)
  change _ ↔ Good (s, afterOpen)
  refine Lexing.exists_spans_iff
    (I := fun x : S × Bool => st.string x.1 = st.string s ∧ st.pos x.1 ≤ (st.string s).length)
    ?_ ?_ ?_ ⟨rfl, hs⟩
  · rintro x ⟨hstring, hpos⟩
    refine ⟨hpos, (string_call st x).trans hstring, ?_⟩
    rw [← hstring] at hpos ⊢
    exact pos_call_le st hpos
  · rintro x ⟨hstring, hpos⟩ hgood hlt
    simp only [Good] at hgood ⊢
    rw [rest_call, ← quoteFrom_tokenLength, pos_call]
    refine ⟨?_, hgood⟩
    cases hrest : rest st x.1 with
    | nil =>
        have hlen := length_rest st x.1
        rw [hrest, hstring, List.length_nil] at hlen
        omega
    | cons c r =>
        have hmove := (tokenLength_pos c r).mpr fun hc =>
          hgood (hrest ▸ (quoteFrom_cons .code c r).mpr (Or.inl ⟨hc, rfl⟩))
        omega
  · rintro x ⟨hstring, hpos⟩ hbad
    simp only [Good, not_not] at hbad ⊢
    rw [rest_call, ← quoteFrom_tokenLength]
    refine ⟨?_, hbad⟩
    by_contra hge
    have hnil : rest st x.1 = [] := List.drop_eq_nil_of_le (by rw [hstring]; omega)
    exact quoteFrom_nil _ (hnil ▸ hbad)

/-- **Calls move on except at an apostrophe.**  Before the end of a line a call stays on the line,
and it moves on exactly if the next unit is no apostrophe.  From its start a line is cut into tokens
that cover it exactly if each of its apostrophes is in a string, in a comment or in `|..|`. -/
theorem token_progress (s : S) (afterOpen : Bool) :
    (∀ c, (st.string s)[st.pos s]? = some c →
      let t := (call st (s, afterOpen)).1
      st.pos t ≤ (st.string s).length ∧ (st.pos s < st.pos t ↔ c ≠ 39))
    ∧ (st.pos s = 0 →
      ((∃ n ss, tokens st n s afterOpen = some ss ∧ Lexing.Chain 0 (st.string s).length ss)
        ↔ ¬QuoteInCode (st.string s))) := by
  constructor
  · intro c hc t
    obtain ⟨hlt, rfl⟩ := List.getElem?_eq_some_iff.mp hc
    refine ⟨pos_call_le st (Nat.le_of_lt hlt), ?_⟩
    have hrest : rest st s = (st.string s)[st.pos s] :: (st.string s).drop (st.pos s + 1) :=
      List.drop_eq_getElem_cons hlt
    rw [show st.pos t = st.pos s + tokenLength (rest st s) from pos_call st _, hrest,
      ← tokenLength_pos _ ((st.string s).drop (st.pos s + 1))]
    omega
  · intro hzero
    have hrest : rest st s = st.string s := by rw [rest, hzero, List.drop_zero]
    have htokens := exists_tokens_iff st s afterOpen (by omega)
    rwa [hrest, hzero] at htokens

end Line

/-! ## A stream -/

/-- A line, the start of the current token, and a place. -/
structure Line where
  string : JsString
  start : ℕ
  pos : ℕ
  deriving DecidableEq

/-- Going over what matches. -/
def Line.eatWhile (p : UInt16 → Bool) (s : Line) : Bool × Line :=
  let n := ((s.string.drop s.pos).takeWhile p).length
  (decide (s.pos < s.pos + n), { s with pos := s.pos + n })

def lineStream : StringStream Line where
  string := Line.string
  start := Line.start
  pos := Line.pos
  mark s := { s with start := s.pos }
  eol s := decide (s.string.length ≤ s.pos)
  peek s := s.string[s.pos]?
  next s := (s.string[s.pos]?, if s.pos < s.string.length then { s with pos := s.pos + 1 } else s)
  eatWhile := Line.eatWhile
  eatSpace := Line.eatWhile isSpace
  skipToEnd s := { s with pos := s.string.length }
  current s := (s.string.take s.pos).drop s.start
  string_mark _ := rfl
  pos_mark _ := rfl
  start_mark _ := rfl
  eol_iff s := by simp
  peek_eq _ := rfl
  next_eq _ := rfl
  string_next s := by
    simp only
    split_ifs <;> rfl
  pos_next s := by
    simp only
    split_ifs <;> rfl
  eatWhile_eq _ _ := rfl
  string_eatWhile _ _ := rfl
  pos_eatWhile _ _ := rfl
  eatSpace_eq _ := rfl
  string_eatSpace _ := rfl
  pos_eatSpace _ := rfl
  string_skipToEnd _ := rfl
  pos_skipToEnd _ := rfl
  current_eq _ := rfl

/-- A line whose apostrophes are in a string and in a comment. -/
theorem token_progress_line :
    ¬QuoteInCode (js "(a \"'\") ;'")
      ∧ ∃ n ss, tokens lineStream n ⟨js "(a \"'\") ;'", 0, 0⟩ false = some ss
        ∧ Lexing.Chain 0 10 ss := by
  have hunits : js "(a \"'\") ;'" = [40, 97, 32, 34, 39, 34, 41, 32, 59, 39] := by decide
  have hquote : ¬QuoteInCode (js "(a \"'\") ;'") := by
    rw [hunits]
    simp [QuoteInCode, quoteFrom_cons, Mode.next, quoteFrom_nil]
  exact ⟨hquote, ((token_progress lineStream ⟨js "(a \"'\") ;'", 0, 0⟩ false).2 rfl).mpr hquote⟩

/-- In front of an apostrophe a call stays where it is, so this line is never cut to its end. -/
theorem token_progress_apostrophe :
    (∀ afterOpen, (call lineStream (⟨js "(char 'a')", 0, 6⟩, afterOpen)).1.pos = 6)
      ∧ ¬∃ n ss, tokens lineStream n ⟨js "(char 'a')", 0, 0⟩ false = some ss
        ∧ Lexing.Chain 0 10 ss := by
  constructor
  · intro afterOpen
    exact pos_call lineStream (⟨js "(char 'a')", 0, 6⟩, afterOpen)
  · have hquote : QuoteFrom .code (js "(char 'a')") := ⟨6, by decide, by decide⟩
    intro htokens
    exact (exists_tokens_iff lineStream ⟨js "(char 'a')", 0, 0⟩ false (Nat.zero_le _)).mp htokens
      hquote

end Sexp

end VerusExplorer
