import VerusExplorer.Lib.Base64
import VerusExplorer.Lib.Lines
import VerusExplorer.Page.Tabs

/-!
# Share links

The page keeps its source in the fragment of its address (`public/app.js`): compressed, in base64
with an alphabet that an address can hold, and followed by the selected tab.

* `b64urlEncode`, `b64urlDecode`, `encodeSrc`, `decodeSrc`, `buildHash`, `writeTabToUrl`,
  `parseHash` follow the source.  The compression and the text encoding are the browser's: a
  `Codec`.
* **`parseHash_share`** — links decode to what was shared, and writing the tab into a link changes
  nothing else.
-/

namespace VerusExplorer

open Utf16

/-! ## The source -/

/-- `TextEncoder` with `CompressionStream('gzip')`, and `DecompressionStream('gzip')` with `text()`,
which fails on what is not a gzip stream. -/
structure Codec where
  gzip : JsString → List UInt8
  gunzip : List UInt8 → Option JsString

/-- `replaceAll` of one unit by another. -/
def replaceAll (old new : UInt16) (s : JsString) : JsString :=
  s.map fun u => if u = old then new else u

def b64urlEncode (bytes : List UInt8) : JsString :=
  (replaceAll 47 95 (replaceAll 43 45 (Base64.encode bytes))).rdropWhile (· == 61)

def b64urlDecode (str : JsString) : Option (List UInt8) :=
  Base64.decode (replaceAll 95 47 (replaceAll 45 43 str)
    ++ List.replicate ((4 - str.length % 4) % 4) 61)

section Codec

variable (codec : Codec)

def encodeSrc (src : JsString) : JsString := b64urlEncode (codec.gzip src)

def decodeSrc (hash : JsString) : Option JsString := (b64urlDecode hash).bind codec.gunzip

def buildHashTabSuffix (currentTab : Option JsString) : JsString :=
  match currentTab with
  | some tab => js "&t=" ++ tab
  | none => []

def buildHash (src : JsString) (currentTab : Option JsString) : JsString :=
  js "#code=" ++ encodeSrc codec src ++ buildHashTabSuffix currentTab

/-- `&`. -/
def amp : UInt16 := 38

/-- The hash that `writeTabToUrl` writes, if it writes one. -/
def writeTabToUrl (locationHash : JsString) (currentTab : Option JsString) : Option JsString :=
  let hash := locationHash.drop 1
  let head := (hash.splitOn amp).headD []
  if hash.isEmpty || head.isEmpty then none
  else some (js "#" ++ head ++ buildHashTabSuffix currentTab)

/-- What a hash decodes to: the file of an example or a source, and perhaps a tab. -/
structure ParsedHash where
  sourceFile : Option JsString
  src : Option JsString
  tab : Option JsString
  deriving DecidableEq, Repr

/-- The `try` block of `parseHash`. -/
def parseHead (head : JsString) : Option ParsedHash :=
  if (js "source=").isPrefixOf head then
    let file := head.drop 7
    if file ∈ examples then some ⟨some file, none, none⟩ else none
  else if (js "code=").isPrefixOf head then
    (decodeSrc codec (head.drop 5)).map fun src => ⟨none, some src, none⟩
  else (decodeSrc codec head).map fun src => ⟨none, some src, none⟩

/-- The body of the loop over the parameters after the head. -/
def parseParam (execMode : Bool) (tab : Option JsString) (kv : JsString) : Option JsString :=
  if (js "t=").isPrefixOf kv && (sectionOrder execMode).contains (kv.drop 2) then some (kv.drop 2)
  else tab

/-- `parseHash`, of a hash without its `#`. -/
def parseHash (execMode : Bool) (hash : JsString) : Option ParsedHash :=
  if hash.isEmpty then none
  else
    let head := (hash.splitOn amp).headD []
    let rest := (hash.splitOn amp).tail
    (parseHead codec head).map fun p =>
      { p with tab := rest.foldl (parseParam execMode) none }

end Codec

/-! ## Payloads -/

/-- The digits of a payload. -/
def urlDigit (n : ℕ) : UInt16 :=
  let u := Base64.digit n
  let u := if u = 43 then 45 else u
  if u = 47 then 95 else u

/-- A digit is none of the characters that structure a hash, and is translated back. -/
lemma urlDigit_plain : ∀ n < 64, urlDigit n ≠ 61 ∧ urlDigit n ≠ amp
    ∧ replaceAll 95 47 (replaceAll 45 43 [urlDigit n]) = [Base64.digit n] := by
  decide

lemma replaceAll_append (old new : UInt16) (s t : JsString) :
    replaceAll old new (s ++ t) = replaceAll old new s ++ replaceAll old new t := List.map_append

lemma replaceAll_padding {old new : UInt16} (h : old ≠ 61) (n : ℕ) :
    replaceAll old new (Base64.padding n) = Base64.padding n := by
  rw [replaceAll, Base64.padding, List.map_replicate]
  show List.replicate _ (if (61 : UInt16) = old then new else 61) = _
  rw [if_neg h.symm]
  rfl

/-- What is dropped at the end may be there any number of times. -/
lemma rdropWhile_padding (s : JsString) (n : ℕ) :
    (s ++ List.replicate n 61).rdropWhile (· == 61) = s.rdropWhile (· == 61) := by
  induction n with
  | zero => rw [List.replicate_zero, List.append_nil]
  | succ n ih =>
      rw [List.replicate_succ', ← List.append_assoc, List.rdropWhile_concat_pos _ _ _ rfl, ih]

/-- An encoded payload is the digits, without the padding. -/
lemma b64urlEncode_eq (bytes : List UInt8) :
    b64urlEncode bytes = (Base64.sextets bytes).map urlDigit := by
  have hdigits : replaceAll 47 95 (replaceAll 43 45 ((Base64.sextets bytes).map Base64.digit))
      = (Base64.sextets bytes).map urlDigit := by
    rw [replaceAll, replaceAll, List.map_map, List.map_map]
    rfl
  rw [b64urlEncode, Base64.encode, replaceAll_append, replaceAll_append, hdigits,
    replaceAll_padding (by decide), replaceAll_padding (by decide)]
  refine (rdropWhile_padding _ _).trans ?_
  rw [List.rdropWhile_eq_self_iff]
  intro hne
  obtain ⟨n, hn, hlast⟩ := List.mem_map.mp (List.getLast_mem hne)
  rw [← hlast, beq_iff_eq]
  exact (urlDigit_plain n (Base64.lt_of_mem_sextets hn)).1

/-- Every byte array survives. -/
lemma b64urlDecode_encode (bytes : List UInt8) :
    b64urlDecode (b64urlEncode bytes) = some bytes := by
  have hback : ∀ digits : List ℕ, (∀ n ∈ digits, n < 64) →
      replaceAll 95 47 (replaceAll 45 43 (digits.map urlDigit)) = digits.map Base64.digit := by
    intro digits hlt
    induction digits with
    | nil => rfl
    | cons n digits ih =>
        have hn := (urlDigit_plain n (hlt n List.mem_cons_self)).2.2
        have ih' := ih fun m hm => hlt m (List.mem_cons_of_mem n hm)
        rw [List.map_cons, List.map_cons, ← List.singleton_append, replaceAll_append,
          replaceAll_append, hn, ih']
        rfl
  rw [b64urlDecode, b64urlEncode_eq, hback _ fun _ hn => Base64.lt_of_mem_sextets hn,
    List.length_map]
  refine (Base64.decode_pad (fun _ hn => Base64.lt_of_mem_sextets hn)
    (Base64.length_sextets bytes)).trans ?_
  rw [Base64.octets_sextets]

lemma notMem_b64urlEncode (bytes : List UInt8) :
    amp ∉ b64urlEncode bytes ∧ (61 : UInt16) ∉ b64urlEncode bytes := by
  rw [b64urlEncode_eq]
  constructor
  · intro h
    obtain ⟨n, hn, heq⟩ := List.mem_map.mp h
    exact (urlDigit_plain n (Base64.lt_of_mem_sextets hn)).2.1 heq
  · intro h
    obtain ⟨n, hn, heq⟩ := List.mem_map.mp h
    exact (urlDigit_plain n (Base64.lt_of_mem_sextets hn)).1 heq

/-! ## Hashes -/

variable (codec : Codec) (execMode : Bool)

/-- The head and the parameters of a hash with a tab suffix. -/
lemma splitOn_suffix {head : JsString} (hhead : amp ∉ head) {tab : Option JsString}
    (htab : ∀ t ∈ tab, amp ∉ t) :
    (head ++ buildHashTabSuffix tab).splitOn amp
      = head :: (tab.map fun t => js "t=" ++ t).toList := by
  cases tab with
  | none =>
      rw [buildHashTabSuffix, List.append_nil]
      have hsplit : (Lines.join amp [head]).splitOn amp = [head] :=
        Lines.splitOn_join (by simpa using hhead) (by simp)
      rwa [Lines.join_singleton] at hsplit
  | some t =>
      have hmem : ∀ l ∈ [head, js "t=" ++ t], amp ∉ l := by
        intro l hl
        simp only [List.mem_cons, List.not_mem_nil, or_false] at hl
        rcases hl with rfl | rfl
        · exact hhead
        · intro hmem
          rcases List.mem_append.mp hmem with hmem | hmem
          · exact absurd hmem (by decide)
          · exact htab t rfl hmem
      have hsplit := Lines.splitOn_join hmem (by simp)
      rw [Lines.join_cons amp head (by simp), Lines.join_singleton] at hsplit
      exact hsplit

lemma amp_notMem_sectionOrder : ∀ t ∈ sectionOrder execMode, amp ∉ t := by
  cases execMode <;> decide

/-- The tab written last is the tab read. -/
lemma parseParam_suffix {tab : Option JsString} (htab : ∀ t ∈ tab, t ∈ sectionOrder execMode) :
    (tab.map fun t => js "t=" ++ t).toList.foldl (parseParam execMode) none = tab := by
  cases tab with
  | none => rfl
  | some t =>
      have hcontains : (sectionOrder execMode).contains t = true :=
        List.contains_iff_mem.mpr (htab t rfl)
      show parseParam execMode none (js "t=" ++ t) = some t
      have hprefix : (js "t=").isPrefixOf (js "t=" ++ t) = true :=
        List.isPrefixOf_iff_prefix.mpr (List.prefix_append _ _)
      have hdrop : (js "t=" ++ t).drop 2 = t := rfl
      rw [parseParam, hprefix, hdrop, hcontains]
      rfl

/-- A hash made of a head and a tab suffix decodes to what the head does, with that tab. -/
lemma parseHash_suffix {head : JsString} (hne : head ≠ []) (hhead : amp ∉ head)
    {tab : Option JsString} (htab : ∀ t ∈ tab, t ∈ sectionOrder execMode) :
    parseHash codec execMode (head ++ buildHashTabSuffix tab)
      = (parseHead codec head).map fun p => { p with tab := tab } := by
  have hsplit := splitOn_suffix hhead fun t ht => amp_notMem_sectionOrder execMode t (htab t ht)
  rw [parseHash, hsplit, if_neg (by simp [hne])]
  simp only [List.headD_cons, List.tail_cons, parseParam_suffix execMode htab]

/-- The head of the current shape, and of the legacy one. -/
lemma parseHead_encodeSrc {src : JsString} (h : codec.gunzip (codec.gzip src) = some src) :
    parseHead codec (js "code=" ++ encodeSrc codec src) = some ⟨none, some src, none⟩
      ∧ parseHead codec (encodeSrc codec src) = some ⟨none, some src, none⟩ := by
  have hdecode : decodeSrc codec (encodeSrc codec src) = some src := by
    rw [decodeSrc, encodeSrc, b64urlDecode_encode, Option.bind_some, h]
  have hnot : ∀ name : String, (61 : UInt16) ∈ js name →
      (js name).isPrefixOf (encodeSrc codec src) = false := by
    intro name hmem
    rw [Bool.eq_false_iff]
    intro hpre
    exact (notMem_b64urlEncode (codec.gzip src)).2
      ((List.isPrefixOf_iff_prefix.mp hpre).subset hmem)
  constructor
  · have hsource : (js "source=").isPrefixOf (js "code=" ++ encodeSrc codec src) = false := rfl
    have hcode : (js "code=").isPrefixOf (js "code=" ++ encodeSrc codec src) = true :=
      List.isPrefixOf_iff_prefix.mpr (List.prefix_append _ _)
    have hdrop : (js "code=" ++ encodeSrc codec src).drop 5 = encodeSrc codec src := rfl
    rw [parseHead, hsource, hcode, hdrop, hdecode]
    rfl
  · rw [parseHead, hnot "source=" (by decide), hnot "code=" (by decide), hdecode]
    rfl

/-- The head of a hash that decodes is not empty: nothing is no gzip stream. -/
lemma head_ne_nil (hempty : codec.gunzip [] = none) {head : JsString} {p : ParsedHash}
    (h : parseHead codec head = some p) : head ≠ [] := by
  rintro rfl
  have hnone : parseHead codec [] = (decodeSrc codec []).map fun src => ⟨none, some src, none⟩ :=
    rfl
  have hdecode : decodeSrc codec [] = codec.gunzip [] := rfl
  rw [hnone, hdecode, hempty] at h
  exact absurd h (by simp)

/-- A link decodes to its source and its tab, in the current shape and in the legacy one. -/
lemma parseHash_buildHash (hempty : codec.gunzip [] = none) {src : JsString}
    (hsrc : codec.gunzip (codec.gzip src) = some src) {tab : Option JsString}
    (htab : ∀ t ∈ tab, t ∈ sectionOrder execMode) :
    parseHash codec execMode ((buildHash codec src tab).drop 1) = some ⟨none, some src, tab⟩
      ∧ parseHash codec execMode (encodeSrc codec src ++ buildHashTabSuffix tab)
        = some ⟨none, some src, tab⟩ := by
  obtain ⟨hcode, hbare⟩ := parseHead_encodeSrc codec hsrc
  have hplain := (notMem_b64urlEncode (codec.gzip src)).1
  have hamp : amp ∉ js "code=" ++ encodeSrc codec src := by
    intro hmem
    rcases List.mem_append.mp hmem with hmem | hmem
    · exact absurd hmem (by decide)
    · exact hplain hmem
  constructor
  · have hdrop : (buildHash codec src tab).drop 1
        = js "code=" ++ encodeSrc codec src ++ buildHashTabSuffix tab := rfl
    rw [hdrop, parseHash_suffix codec execMode (head_ne_nil codec hempty hcode) hamp htab, hcode]
    rfl
  · rw [parseHash_suffix codec execMode (head_ne_nil codec hempty hbare) hplain htab, hbare]
    rfl

/-- Nothing before the first `&` is an `&`. -/
lemma amp_notMem_head (hash : JsString) : amp ∉ (hash.splitOn amp).headD [] := by
  cases hs : hash.splitOn amp with
  | nil => exact List.not_mem_nil
  | cons l ls => exact Lines.not_mem_of_mem_splitOn (hs ▸ List.mem_cons_self)

/-- Writing a tab into a hash that decodes, whichever its shape, changes the tab only. -/
lemma parseHash_writeTabToUrl (hempty : codec.gunzip [] = none) {hash : JsString} {p : ParsedHash}
    (hp : parseHash codec execMode hash = some p) {tab : Option JsString}
    (htab : ∀ t ∈ tab, t ∈ sectionOrder execMode) :
    ∃ written, writeTabToUrl (js "#" ++ hash) tab = some written
      ∧ parseHash codec execMode (written.drop 1) = some { p with tab := tab } := by
  have hne : hash ≠ [] := by
    rintro rfl
    exact absurd hp (by simp [parseHash])
  rw [parseHash, if_neg (by simpa using hne)] at hp
  obtain ⟨q, hq, rfl⟩ := Option.map_eq_some_iff.mp hp
  have hhead := head_ne_nil codec hempty hq
  have hdrop : (js "#" ++ hash).drop 1 = hash := rfl
  refine ⟨js "#" ++ (hash.splitOn amp).headD [] ++ buildHashTabSuffix tab, ?_, ?_⟩
  · have hwrites : (hash.isEmpty || ((hash.splitOn amp).headD []).isEmpty) = false := by
      rw [Bool.or_eq_false_iff]
      exact ⟨List.isEmpty_eq_false_iff.mpr hne, List.isEmpty_eq_false_iff.mpr hhead⟩
    rw [writeTabToUrl, hdrop, hwrites]
    rfl
  · have hwritten : (js "#" ++ (hash.splitOn amp).headD [] ++ buildHashTabSuffix tab).drop 1
        = (hash.splitOn amp).headD [] ++ buildHashTabSuffix tab := rfl
    rw [hwritten, parseHash_suffix codec execMode hhead (amp_notMem_head hash) htab, hq]
    rfl

/-! ### The head of a hash -/

/-- What a hash is about: all but its tab. -/
def hashHead (hash : JsString) : JsString := ((hash.drop 1).splitOn amp).headD []

/-- A tab suffix does not belong to the head. -/
lemma headD_suffix {head : JsString} (hhead : amp ∉ head) (tab : Option JsString) :
    ((head ++ buildHashTabSuffix tab).splitOn amp).headD [] = head := by
  cases tab with
  | none =>
      rw [splitOn_suffix hhead (by simp)]
      rfl
  | some t =>
      have htext : head ++ buildHashTabSuffix (some t)
          = Lines.join amp (head :: (js "t=" ++ t).splitOn amp) := by
        rw [Lines.join_cons amp head (List.splitOn_ne_nil _ _), Lines.join_splitOn]
        rfl
      have hall : ∀ l ∈ head :: (js "t=" ++ t).splitOn amp, amp ∉ l := by
        intro l hl
        rcases List.mem_cons.mp hl with rfl | hl
        · exact hhead
        · exact Lines.not_mem_of_mem_splitOn hl
      rw [htext, Lines.splitOn_join hall (by simp)]
      rfl

/-- The head of a link. -/
lemma hashHead_buildHash (src : JsString) (tab : Option JsString) :
    hashHead (buildHash codec src tab) = js "code=" ++ encodeSrc codec src := by
  have hplain := (notMem_b64urlEncode (codec.gzip src)).1
  have hamp : amp ∉ js "code=" ++ encodeSrc codec src := by
    intro hmem
    rcases List.mem_append.mp hmem with hmem | hmem
    · exact absurd hmem (by decide)
    · exact hplain hmem
  exact headD_suffix hamp tab

/-- Writing a tab leaves the head alone, and with it all that a hash decodes to but its tab. -/
lemma writeTabToUrl_source {hash result : JsString} {tab : Option JsString}
    (h : writeTabToUrl hash tab = some result) :
    hashHead result = hashHead hash
      ∧ (parseHash codec execMode (result.drop 1)).map (fun p => (p.sourceFile, p.src))
        = (parseHash codec execMode (hash.drop 1)).map fun p => (p.sourceFile, p.src) := by
  rw [writeTabToUrl] at h
  split_ifs at h with hempty
  obtain rfl := Option.some_inj.mp h
  obtain ⟨hne, hhead⟩ : hash.drop 1 ≠ [] ∧ hashHead hash ≠ [] := by simpa [hashHead] using hempty
  have hdrop : (js "#" ++ hashHead hash ++ buildHashTabSuffix tab).drop 1
      = hashHead hash ++ buildHashTabSuffix tab := rfl
  have hsame : hashHead (js "#" ++ hashHead hash ++ buildHashTabSuffix tab) = hashHead hash :=
    headD_suffix (amp_notMem_head _) tab
  have hparse : ∀ s : JsString, s.drop 1 ≠ [] →
      (parseHash codec execMode (s.drop 1)).map (fun p => (p.sourceFile, p.src))
        = (parseHead codec (hashHead s)).map fun p => (p.sourceFile, p.src) := by
    intro s hs
    rw [parseHash, if_neg (by simpa using hs), Option.map_map]
    rfl
  refine ⟨hsame, ?_⟩
  show (parseHash codec execMode ((js "#" ++ hashHead hash ++ buildHashTabSuffix tab).drop 1)).map _
    = _
  rw [hparse _ (by rw [hdrop]; simp [hhead]), hparse _ hne, hsame]

/-- Writing a tab into a link gives the link with that tab. -/
lemma writeTabToUrl_buildHash (src : JsString) (tab tab' : Option JsString) :
    writeTabToUrl (buildHash codec src tab) tab' = some (buildHash codec src tab') := by
  have hhead : (((buildHash codec src tab).drop 1).splitOn amp).headD []
      = js "code=" ++ encodeSrc codec src := hashHead_buildHash codec src tab
  rw [writeTabToUrl]
  simp only [hhead]
  rfl

/-- **Links decode to what was shared.**  Bytes survive base64url; a source that the compression and
the text encoding return unharmed is found in its link, in the current and in the legacy shape, with
the tab that was selected; and writing another tab into a link that decodes changes the tab only. -/
theorem parseHash_share (hempty : codec.gunzip [] = none) :
    (∀ bytes, b64urlDecode (b64urlEncode bytes) = some bytes)
      ∧ (∀ src, codec.gunzip (codec.gzip src) = some src →
        ∀ tab : Option JsString, (∀ t ∈ tab, t ∈ sectionOrder execMode) →
          parseHash codec execMode ((buildHash codec src tab).drop 1) = some ⟨none, some src, tab⟩
          ∧ parseHash codec execMode (encodeSrc codec src ++ buildHashTabSuffix tab)
            = some ⟨none, some src, tab⟩)
      ∧ ∀ hash p, parseHash codec execMode hash = some p →
        ∀ tab : Option JsString, (∀ t ∈ tab, t ∈ sectionOrder execMode) →
          ∃ written, writeTabToUrl (js "#" ++ hash) tab = some written
            ∧ parseHash codec execMode (written.drop 1) = some { p with tab := tab } := by
  refine ⟨b64urlDecode_encode, ?_, ?_⟩
  · intro src hsrc tab htab
    exact parseHash_buildHash codec execMode hempty hsrc htab
  · intro hash p hp tab htab
    exact parseHash_writeTabToUrl codec execMode hempty hp htab

/-- The links of a codec that stores: a header byte, then both bytes of every unit. -/
def storedCodec : Codec where
  gzip s := 31 :: s.flatMap fun u => [UInt8.ofNat (u.toNat / 256), UInt8.ofNat (u.toNat % 256)]
  gunzip
    | 31 :: bytes => storedUnits bytes
    | _ => none
where
  storedUnits : List UInt8 → Option JsString
    | [] => some []
    | [_] => none
    | hi :: lo :: bytes =>
        (storedUnits bytes).map fun s => UInt16.ofNat (hi.toNat * 256 + lo.toNat) :: s

theorem parseHash_share_stored :
    parseHash storedCodec false ((buildHash storedCodec (js "fn f() {}") (some (js "AST"))).drop 1)
      = some ⟨none, some (js "fn f() {}"), some (js "AST")⟩ := by
  exact ((parseHash_share storedCodec false rfl).2.1 (js "fn f() {}") (by decide)
    (some (js "AST")) (by decide)).1

end VerusExplorer
