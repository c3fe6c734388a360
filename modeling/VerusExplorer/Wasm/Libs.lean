import VerusExplorer.Lib.Lines

/-!
# What rustc is given

There is no file system in the browser.  The page hands over the files of the bundle (`wasm.rs`),
and rustc finds them in a directory that does not exist.  What it is told with them comes from
`build_rustc_config` (`rust.rs`).

* `LibStatics` — the files and the flag as the wasm module holds them.
* `wasmLibsList`, `wasmLibsRead` — the two callbacks; `read_listed` says that each file is read back
  under the path it is listed with.
* `buildRustcConfig` — `noStd_mem_argv` and `std_mem_cfg` say when there is `std` for the program.
-/

namespace VerusExplorer

open Lines

/-! ## Paths -/

/-- `Path::components`; a `.` counts at the start only. -/
def components (path : List Char) : List (List Char) :=
  let parts := path.splitOn '/'
  let start := if path.head? = some '/' then [['/']] else if parts.head? = some ['.'] then [['.']]
    else []
  start ++ parts.filter fun p => p ≠ [] ∧ p ≠ ['.']

/-- `Path::file_name`. -/
def fileName (path : List Char) : Option (List Char) :=
  (components path).getLast?.filter fun c => c ≠ ['/'] ∧ c ≠ ['.'] ∧ c ≠ ['.', '.']

/-- A name that is a path of one component. -/
structure PlainName (name : List Char) : Prop where
  slash : '/' ∉ name
  nonempty : name ≠ []
  dot : name ≠ ['.']
  dots : name ≠ ['.', '.']

instance (name : List Char) : Decidable (PlainName name) :=
  decidable_of_iff ('/' ∉ name ∧ name ≠ [] ∧ name ≠ ['.'] ∧ name ≠ ['.', '.'])
    ⟨fun ⟨hslash, hne, hdot, hdots⟩ => ⟨hslash, hne, hdot, hdots⟩,
      fun h => ⟨h.slash, h.nonempty, h.dot, h.dots⟩⟩

/-- The name of a file in a directory. -/
lemma fileName_append {dir name : List Char} (h : PlainName name) :
    fileName (dir ++ '/' :: name) = some name := by
  have hjoin : join '/' (dir.splitOn '/' ++ [name]) = dir ++ '/' :: name := by
    rw [join_append '/' (List.splitOn_ne_nil '/' dir) (List.cons_ne_nil name []), join_splitOn,
      join_singleton]
  have hsplit : (dir ++ '/' :: name).splitOn '/' = dir.splitOn '/' ++ [name] := by
    rw [← hjoin]
    refine splitOn_join (fun l hl => ?_) (by simp)
    rcases List.mem_append.mp hl with hl | hl
    · exact not_mem_of_mem_splitOn hl
    · rw [List.mem_singleton.mp hl]
      exact h.slash
  have hlast : (components (dir ++ '/' :: name)).getLast? = some name := by
    simp [components, hsplit, h.nonempty, h.dot]
  have hroot : name ≠ ['/'] := fun heq => h.slash (heq ▸ List.mem_singleton_self '/')
  rw [fileName, hlast]
  simp [hroot, h.dot, h.dots]

/-! ## The files -/

abbrev LibFile := List Char × List UInt8

def VIRTUAL_LIB_DIR : List Char := "/virtual/lib/rustlib/wasm32-unknown-unknown/lib".toList

def VSTD_VIR : List Char := "vstd.vir".toList

/-- `WASM_LIBS_PENDING`, `WASM_LIBS_BUNDLE` and `STD_MODE`. -/
structure LibStatics where
  pending : List LibFile
  bundle : Option (List LibFile)
  stdMode : Bool
  deriving DecidableEq

namespace LibStatics

/-- A module that has just been instantiated. -/
def fresh : LibStatics := ⟨[], none, false⟩

def setStdMode (enabled : Bool) (w : LibStatics) : LibStatics := { w with stdMode := enabled }

def wasmLibsAddFile (w : LibStatics) (file : LibFile) : LibStatics :=
  { w with pending := w.pending ++ [file] }

/-- `none` is the panic of a second call. -/
def wasmLibsFinalize (w : LibStatics) : Option LibStatics :=
  match w.bundle with
  | none => some { w with pending := [], bundle := some w.pending }
  | some _ => none

/-- `none` is the panic of a call before `wasmLibsFinalize`. -/
def wasmLibs (w : LibStatics) : Option (List LibFile) := w.bundle

def wasmLibsList (w : LibStatics) (dir : List Char) :
    Option (Option (List (List Char × List Char))) :=
  if components dir ≠ components VIRTUAL_LIB_DIR then some none
  else w.wasmLibs.map fun files => some (files.map fun f => (f.1, VIRTUAL_LIB_DIR ++ '/' :: f.1))

def wasmLibsRead (w : LibStatics) (path : List Char) : Option (Option (List UInt8)) :=
  match fileName path with
  | none => some none
  | some name => w.wasmLibs.map fun files => (files.find? fun f => f.1 = name).map Prod.snd

def wasmLibsVstdVir (w : LibStatics) : Option (List UInt8) :=
  w.wasmLibs.map fun files => ((files.find? fun f => f.1 = VSTD_VIR).map Prod.snd).getD []

/-! ### What the callbacks find -/

variable {w w' : LibStatics} {files : List LibFile}

lemma foldl_wasmLibsAddFile (files : List LibFile) (w : LibStatics) :
    files.foldl wasmLibsAddFile w = { w with pending := w.pending ++ files } := by
  induction files generalizing w with
  | nil => rw [List.append_nil]; rfl
  | cons f files ih =>
      rw [List.foldl_cons, ih, wasmLibsAddFile, List.append_assoc]
      rfl

/-- A file is found under its name when no other one has it. -/
lemma find?_of_mem (hnodup : (files.map Prod.fst).Nodup) {f : LibFile} (hf : f ∈ files) :
    (files.find? fun g => g.1 = f.1).map Prod.snd = some f.2 := by
  induction files with
  | nil => exact absurd hf List.not_mem_nil
  | cons g files ih =>
      obtain ⟨hg, hrest⟩ := List.nodup_cons.mp hnodup
      rw [List.find?_cons]
      rcases List.mem_cons.mp hf with rfl | hf
      · simp
      · have hne : g.1 ≠ f.1 := fun heq => hg (heq ▸ List.mem_map_of_mem hf)
        simpa [hne] using ih hrest hf

lemma list_bundle (h : w.bundle = some files) :
    w.wasmLibsList VIRTUAL_LIB_DIR
      = some (some (files.map fun f => (f.1, VIRTUAL_LIB_DIR ++ '/' :: f.1))) := by
  rw [wasmLibsList, if_neg (not_not_intro rfl), wasmLibs, h]
  rfl

/-- **Each file is read back under the path it is listed with.** -/
lemma read_listed (h : w.bundle = some files) (hnodup : (files.map Prod.fst).Nodup)
    (hplain : ∀ f ∈ files, PlainName f.1) {f : LibFile} (hf : f ∈ files) :
    w.wasmLibsRead (VIRTUAL_LIB_DIR ++ '/' :: f.1) = some (some f.2) := by
  rw [wasmLibsRead, fileName_append (hplain f hf)]
  dsimp only
  rw [wasmLibs, h, Option.map_some, find?_of_mem hnodup hf]

lemma vstdVir_bundle (h : w.bundle = some files) (hnodup : (files.map Prod.fst).Nodup)
    {bytes : List UInt8} (hf : (VSTD_VIR, bytes) ∈ files) :
    w.wasmLibsVstdVir = some bytes := by
  rw [wasmLibsVstdVir, wasmLibs, h, Option.map_some, find?_of_mem hnodup hf]
  rfl

end LibStatics

/-! ## The configuration -/

/-- `Mode`, of the two pipelines. -/
inductive RustcMode where
  | verify
  | execute
  deriving DecidableEq, Repr

/-- What `build_rustc_config` chooses. -/
structure RustcConfig where
  argv : List String
  inputName : String
  input : List Char
  /-- What is inserted when the session is made. -/
  cfg : List (String × Option String)
  deriving DecidableEq, Repr

def noStdFlag : String := "-Zcrate-attr=no_std"

/-- `build_rustc_config`.  `features` is `enable_default_features_and_verus_attr`: what it makes of
the arguments, for a syntax macro or not, erasing or not. -/
def buildRustcConfig (features : List String → Bool → Bool → List String) (stdMode : Bool)
    (src : List Char) (mode : RustcMode) : RustcConfig :=
  let execMode := mode = .execute
  let keepGhost := !execMode
  let libstdAvailable := stdMode || execMode
  let crateType := if execMode then "--crate-type=bin" else "--crate-type=lib"
  let argv := ["--edition=2021", crateType, "--crate-name=verus_explorer", "--sysroot=/virtual",
    "--extern=vstd", "--extern=verus_builtin"]
  let argv := if execMode then argv ++ ["--emit=metadata"] else argv
  let argv := features argv true !keepGhost
  let argv := argv ++ ["-Zcrate-attr=feature(proc_macro_hygiene)", "-Aunused_variables",
    "-Aunused_assignments", "-Aunreachable_patterns", "-Adead_code", "-Aunreachable_code",
    "-Aunused_labels", "-Aunused_attributes", "-Anon_shorthand_field_patterns"]
  let argv := if libstdAvailable then argv else argv ++ [noStdFlag]
  { argv := argv
    inputName := "input.rs"
    input := src
    cfg := [("verus_keep_ghost", none)]
      ++ (if keepGhost then [("verus_keep_ghost_body", none)] else [])
      ++ [("verus_only", none), ("feature", some "alloc")]
      ++ (if libstdAvailable then [("feature", some "std")] else []) }

section Config

variable {features : List String → Bool → Bool → List String}

/-- Rustc is told that there is no `std` exactly when there is none. -/
lemma noStd_mem_argv
    (h : ∀ argv macros erase, noStdFlag ∈ features argv macros erase ↔ noStdFlag ∈ argv)
    (stdMode : Bool) (src : List Char) (mode : RustcMode) :
    noStdFlag ∈ (buildRustcConfig features stdMode src mode).argv
      ↔ ¬(stdMode = true ∨ mode = .execute) := by
  cases mode <;> cases stdMode <;> simp [buildRustcConfig, h] <;> simp [noStdFlag]

lemma std_mem_cfg (stdMode : Bool) (src : List Char) (mode : RustcMode) :
    ("feature", some "std") ∈ (buildRustcConfig features stdMode src mode).cfg
      ↔ (stdMode = true ∨ mode = .execute) := by
  cases mode <;> cases stdMode <;> simp [buildRustcConfig]

end Config

end VerusExplorer
