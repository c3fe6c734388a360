import Mathlib.Data.List.Nodup
import VerusExplorer.Lib.Machine
import VerusExplorer.Page.Toolbar
import VerusExplorer.Wasm.Libs

/-!
# The cold load

Before the first run the page fetches the solver, the module and the files of the bundle, all at
once (`wasmReady`, `public/app.js`).  They come in any order.

* `LIBS_BY_VARIANT` — the files the page asks for; `staged` is what `build-libs.sh` has put there.
* `ColdLoad` — what has come so far; `ColdLoad.step`.
* `ColdLoad.After` — the state in terms of the events that have happened; `ColdLoad.SaysRun`.
* **`coldLoad_serves`** — however the fetches come, what the button says, and that the first run
  waits until rustc finds each file, `std` among them exactly if it is told so.
-/

namespace VerusExplorer

/-! ## The bundles -/

/-- `LIBS_BY_VARIANT`. -/
def LIBS_BY_VARIANT : LibsVariant → List String
  | .nostd => ["liballoc.rmeta", "libcompiler_builtins.rmeta", "libcore.rmeta",
      "libverus_builtin.rmeta", "libverus_builtin_macros.rmeta",
      "libverus_state_machines_macros.rmeta", "libvstd.rmeta", "vstd.vir"]
  | .std => ["liballoc.rmeta", "libcompiler_builtins.rmeta", "libcore.rmeta",
      "libverus_builtin.rmeta", "libverus_builtin_macros.rmeta",
      "libverus_state_machines_macros.rmeta", "libstd.rmeta", "libcfg_if.rmeta",
      "libdlmalloc.rmeta", "libhashbrown.rmeta", "liblibc.rmeta", "librustc_demangle.rmeta",
      "librustc_std_workspace_alloc.rmeta", "librustc_std_workspace_core.rmeta",
      "libstd_detect.rmeta", "libunwind.rmeta", "libvstd.rmeta", "vstd.vir"]
  | .exec => ["liballoc.rmeta", "libcompiler_builtins.rmeta", "libcore.rmeta",
      "libverus_builtin.rmeta", "libverus_builtin_macros.rmeta",
      "libverus_state_machines_macros.rmeta", "libstd.rmeta", "libcfg_if.rmeta",
      "libdlmalloc.rmeta", "libhashbrown.rmeta", "liblibc.rmeta", "libpanic_abort.rmeta",
      "librustc_demangle.rmeta", "librustc_std_workspace_alloc.rmeta",
      "librustc_std_workspace_core.rmeta", "libstd_detect.rmeta", "libunwind.rmeta",
      "libvstd.rmeta", "vstd.vir"]

/-- `NOSTD_BASE`, `STD_EXTRAS` and `EXEC_EXTRAS` of `build-libs.sh`. -/
def NOSTD_BASE : List String := ["libcore.rmeta", "liballoc.rmeta", "libcompiler_builtins.rmeta",
  "libverus_builtin.rmeta", "libverus_builtin_macros.rmeta",
  "libverus_state_machines_macros.rmeta"]

def STD_EXTRAS : List String := ["libstd.rmeta", "libcfg_if.rmeta", "libdlmalloc.rmeta",
  "libhashbrown.rmeta", "liblibc.rmeta", "librustc_demangle.rmeta",
  "librustc_std_workspace_alloc.rmeta", "librustc_std_workspace_core.rmeta",
  "libstd_detect.rmeta", "libunwind.rmeta"]

def EXEC_EXTRAS : List String := STD_EXTRAS ++ ["libpanic_abort.rmeta"]

/-- What `build-libs.sh` copies into the directory of a variant. -/
def staged : LibsVariant → List String
  | .nostd => NOSTD_BASE ++ ["libvstd.rmeta", "vstd.vir"]
  | .std => NOSTD_BASE ++ STD_EXTRAS ++ ["libvstd.rmeta", "vstd.vir"]
  | .exec => NOSTD_BASE ++ EXEC_EXTRAS ++ ["libvstd.rmeta", "vstd.vir"]

lemma perm_staged (v : LibsVariant) : (LIBS_BY_VARIANT v).Perm (staged v) := by
  cases v <;> decide

/-- What the head of `index.html` asks for in advance. -/
def preloads (search : Search) : LibsVariant × List String :=
  let variant := if search.execMode then .exec else if search.stdMode then .std else .nostd
  let files := ["libcore.rmeta", "liballoc.rmeta", "libcompiler_builtins.rmeta", "libvstd.rmeta",
    "vstd.vir"]
  (variant, if variant ≠ .nostd then files ++ ["libstd.rmeta"] else files)

lemma preloads_subset (search : Search) :
    (preloads search).1 = libsVariant search
      ∧ (preloads search).2 ⊆ LIBS_BY_VARIANT (libsVariant search) := by
  refine ⟨rfl, ?_⟩
  rw [preloads, libsVariant]
  cases search.execMode <;> cases search.stdMode <;> decide

lemma nodup_libs (v : LibsVariant) : (LIBS_BY_VARIANT v).Nodup := by
  cases v <;> decide

lemma plainName_libs (v : LibsVariant) : ∀ name ∈ LIBS_BY_VARIANT v, PlainName name.toList := by
  cases v <;> decide

lemma libstd_mem (v : LibsVariant) : "libstd.rmeta" ∈ LIBS_BY_VARIANT v ↔ v ≠ .nostd := by
  cases v <;> decide

lemma vstd_mem (v : LibsVariant) : "vstd.vir" ∈ LIBS_BY_VARIANT v := by
  cases v <;> decide

/-- The pipeline that a run starts. -/
def ActionMode.rustcMode : ActionMode → RustcMode
  | .verify => .verify
  | .execute => .execute

/-! ## Loading -/

/-- The page while it is loading.  `verus` is the module once the files have been handed to it. -/
structure ColdLoad where
  z3 : Bool
  verusModule : Bool
  /-- The promise of each file. -/
  wasmLibs : List (Option LibFile)
  wasmLibsLoaded : ℕ
  /-- The source is there, and the editor is on the page. -/
  mounted : Bool
  verus : Option LibStatics
  /-- The script has come to its end. -/
  ended : Bool
  /-- The action button. -/
  label : String
  disabled : Bool
  busy : Bool
  deriving DecidableEq

/-- What a page waits for.  A fetch that fails is one that never comes. -/
inductive ColdEvent where
  | z3
  | verusModule
  | lib (i : ℕ)
  /-- The script gets past `await` of `initialDoc`. -/
  | initialDoc
  /-- All of it has come, and the module has been instantiated. -/
  | instantiate
  /-- The script gets past `await wasmReady`. -/
  | ready
  deriving DecidableEq, Repr

namespace ColdLoad

def progress (loaded total : ℕ) : String :=
  "Loading " ++ toString loaded ++ "/" ++ toString total ++ " libs…"

variable (search : Search) (served : LibsVariant → String → List UInt8)

/-- `LIBS`, each with what the server has for it in the directory of the variant. -/
def files : List LibFile :=
  (LIBS_BY_VARIANT (libsVariant search)).map fun name =>
    (name.toList, served (libsVariant search) name)

def start : ColdLoad where
  z3 := false
  verusModule := false
  wasmLibs := (files search served).map fun _ => none
  wasmLibsLoaded := 0
  mounted := false
  verus := none
  ended := false
  label := "Loading verifier…"
  disabled := true
  busy := false

/-- The module with the files, in the order of `LIBS`. -/
def install (wasmLibs : List LibFile) : Option LibStatics :=
  (wasmLibs.foldl LibStatics.wasmLibsAddFile
    (LibStatics.fresh.setStdMode search.stdMode)).wasmLibsFinalize

def updateActionLabel (s : ColdLoad) : ColdLoad := { s with label := "Run" }

/-- `runWith` up to its yield, as far as the button goes. -/
def runAction (s : ColdLoad) : ColdLoad :=
  if s.verus.isNone then s else { s with disabled := true, busy := true }

def step (s : ColdLoad) : ColdEvent → ColdLoad
  | .z3 => { s with z3 := true }
  | .verusModule => { s with verusModule := true }
  | .lib i =>
      match (files search served)[i]?, s.wasmLibs[i]? with
      | some file, some none =>
          { s with
            wasmLibs := s.wasmLibs.set i (some file)
            wasmLibsLoaded := s.wasmLibsLoaded + 1
            label := progress (s.wasmLibsLoaded + 1) (files search served).length }
      | _, _ => s
  | .initialDoc => if s.mounted then s else { s with mounted := true }.updateActionLabel
  | .instantiate =>
      if s.z3 && s.verusModule && s.wasmLibs.all Option.isSome && s.verus.isNone then
        { s with verus := install search s.wasmLibs.reduceOption }
      else s
  | .ready =>
      if s.verus.isSome && s.mounted && !s.ended then
        let s := { s with ended := true }.updateActionLabel
        runAction { s with disabled := false }
      else s

/-! ### The state in terms of the events -/

variable {search served}

/-- All that is fetched has come. -/
def Complete (search : Search) (es : List ColdEvent) : Prop :=
  .z3 ∈ es ∧ .verusModule ∈ es
    ∧ ∀ i < (LIBS_BY_VARIANT (libsVariant search)).length, .lib i ∈ es

/-- The module has been instantiated after all had come. -/
def Instantiated (search : Search) (es : List ColdEvent) : Prop :=
  ∃ fs, fs ++ [.instantiate] <+: es ∧ Complete search fs

/-- The script has gone on after that, and started the first run. -/
def Started (search : Search) (es : List ColdEvent) : Prop :=
  ∃ fs, fs ++ [.ready] <+: es ∧ Instantiated search fs ∧ .initialDoc ∈ fs

/-- The files that have come. -/
def arrived (search : Search) (es : List ColdEvent) : List ℕ :=
  (List.range (LIBS_BY_VARIANT (libsVariant search)).length).filter fun i => .lib i ∈ es

/-- The events before the editor was mounted. -/
def beforeMount (es : List ColdEvent) : List ColdEvent := es.takeWhile (· != .initialDoc)

/-- The button says `Run`: the first run has been started, or no file has come since the editor was
mounted. -/
def SaysRun (search : Search) (es : List ColdEvent) : Prop :=
  Started search es
    ∨ .initialDoc ∈ es ∧ arrived search es = arrived search (beforeMount es)

/-- The promises that they settle. -/
def slots (search : Search) (served : LibsVariant → String → List UInt8) (es : List ColdEvent) :
    List (Option LibFile) :=
  (List.range (LIBS_BY_VARIANT (libsVariant search)).length).map fun i =>
    if .lib i ∈ es then (files search served)[i]? else none

structure After (search : Search) (served : LibsVariant → String → List UInt8)
    (es : List ColdEvent) (s : ColdLoad) : Prop where
  z3 : s.z3 = true ↔ .z3 ∈ es
  verusModule : s.verusModule = true ↔ .verusModule ∈ es
  wasmLibs : s.wasmLibs = slots search served es
  loaded : s.wasmLibsLoaded = (arrived search es).length
  mounted : s.mounted = true ↔ .initialDoc ∈ es
  verus : (Instantiated search es ∧ s.verus = install search (files search served))
    ∨ (¬Instantiated search es ∧ s.verus = none)
  ended : s.ended = true ↔ Started search es
  run : SaysRun search es → s.label = "Run"
  count : ¬SaysRun search es → s.label = if s.wasmLibsLoaded = 0 then "Loading verifier…"
    else progress s.wasmLibsLoaded (files search served).length
  disabled : s.disabled = true
  busy : s.busy = s.ended

lemma length_files (search : Search) (served : LibsVariant → String → List UInt8) :
    (files search served).length = (LIBS_BY_VARIANT (libsVariant search)).length :=
  List.length_map _

lemma instantiated_concat {es : List ColdEvent} {e : ColdEvent} :
    Instantiated search (es ++ [e])
      ↔ (e = .instantiate ∧ Complete search es) ∨ Instantiated search es := by
  constructor
  · rintro ⟨fs, hfs, hcomplete⟩
    rcases List.prefix_concat_iff.mp hfs with heq | hfs
    · obtain ⟨rfl, he⟩ := List.append_inj' heq rfl
      exact .inl ⟨(List.singleton_injective he).symm, hcomplete⟩
    · exact .inr ⟨fs, hfs, hcomplete⟩
  · rintro (⟨rfl, hcomplete⟩ | ⟨fs, hfs, hcomplete⟩)
    · exact ⟨es, List.prefix_rfl, hcomplete⟩
    · exact ⟨fs, hfs.trans (List.prefix_append es [e]), hcomplete⟩

lemma started_concat {es : List ColdEvent} {e : ColdEvent} :
    Started search (es ++ [e])
      ↔ (e = .ready ∧ Instantiated search es ∧ .initialDoc ∈ es) ∨ Started search es := by
  constructor
  · rintro ⟨fs, hfs, hinst⟩
    rcases List.prefix_concat_iff.mp hfs with heq | hfs
    · obtain ⟨rfl, he⟩ := List.append_inj' heq rfl
      exact .inl ⟨(List.singleton_injective he).symm, hinst⟩
    · exact .inr ⟨fs, hfs, hinst⟩
  · rintro (⟨rfl, hinst⟩ | ⟨fs, hfs, hinst⟩)
    · exact ⟨es, List.prefix_rfl, hinst⟩
    · exact ⟨fs, hfs.trans (List.prefix_append es [e]), hinst⟩

/-- Only what happens before the mount comes before it. -/
lemma beforeMount_concat {es : List ColdEvent} (h : .initialDoc ∈ es) (e : ColdEvent) :
    beforeMount (es ++ [e]) = beforeMount es := by
  have hshort : ¬(es.takeWhile (· != .initialDoc)).length = es.length := by
    intro hlen
    have hall := (List.takeWhile_prefix (· != ColdEvent.initialDoc)).eq_of_length hlen
    have hne := List.takeWhile_eq_self_iff.mp hall _ h
    exact absurd hne (by decide)
  rw [beforeMount, List.takeWhile_append, if_neg hshort]
  rfl

lemma beforeMount_mount {es : List ColdEvent} (h : .initialDoc ∉ es) :
    beforeMount (es ++ [.initialDoc]) = es := by
  have hall : ∀ e ∈ es, (e != ColdEvent.initialDoc) = true := by
    intro e he
    refine bne_iff_ne.mpr ?_
    rintro rfl
    exact h he
  rw [beforeMount, List.takeWhile_append_of_pos hall]
  exact List.append_nil _

/-- What has come stays. -/
lemma Complete.mono {es fs : List ColdEvent} (h : Complete search es) (hfs : es ⊆ fs) :
    Complete search fs := ⟨hfs h.1, hfs h.2.1, fun i hi => hfs (h.2.2 i hi)⟩

lemma Instantiated.complete {es : List ColdEvent} (h : Instantiated search es) :
    Complete search es := by
  obtain ⟨fs, hfs, hcomplete⟩ := h
  exact hcomplete.mono fun e he => hfs.subset (List.mem_append_left _ he)

lemma Started.instantiated {es : List ColdEvent} (h : Started search es) :
    Instantiated search es := by
  obtain ⟨fs, hfs, ⟨gs, hgs, hcomplete⟩, -⟩ := h
  exact ⟨gs, hgs.trans ((List.prefix_append fs _).trans hfs), hcomplete⟩

lemma after_start : After search served [] (start search served) where
  z3 := by simp [start]
  verusModule := by simp [start]
  wasmLibs := by
    have hlen : (files search served).length = (LIBS_BY_VARIANT (libsVariant search)).length :=
      length_files search served
    rw [start, slots]
    refine List.ext_getElem (by simp [hlen]) fun i _ _ => ?_
    simp
  loaded := by simp [start, arrived]
  mounted := by simp [start]
  verus := .inr ⟨fun ⟨fs, hfs, _⟩ => by simpa using List.prefix_nil.mp hfs, rfl⟩
  ended := by
    refine iff_of_false (by simp [start]) ?_
    rintro ⟨fs, hfs, -⟩
    simpa using List.prefix_nil.mp hfs
  run := by
    rintro (⟨fs, hfs, -⟩ | ⟨hmount, -⟩)
    · exact absurd (List.prefix_nil.mp hfs) (by simp)
    · exact absurd hmount List.not_mem_nil
  count _ := rfl
  disabled := rfl
  busy := rfl

/-! ### The files that have come -/

section Slots

variable {es : List ColdEvent}

lemma slots_get (i : ℕ) : (slots search served es)[i]?
    = (files search served)[i]?.map fun f => if .lib i ∈ es then some f else none := by
  rw [slots, List.getElem?_map]
  rcases lt_or_ge i (LIBS_BY_VARIANT (libsVariant search)).length with hi | hi
  · have hfile : i < (files search served).length := by rwa [length_files]
    rw [List.getElem?_range hi, List.getElem?_eq_getElem hfile]
    simp [List.getElem?_eq_getElem hfile]
  · have hfile : (files search served).length ≤ i := by rwa [length_files]
    rw [List.getElem?_eq_none (by simpa using hi), List.getElem?_eq_none hfile]
    rfl

/-- All the promises are settled when all has come. -/
lemma all_slots : (slots search served es).all Option.isSome = true
    ↔ ∀ i < (LIBS_BY_VARIANT (libsVariant search)).length, .lib i ∈ es := by
  rw [slots, List.all_map, List.all_eq_true]
  refine forall_congr' fun i => ?_
  rw [List.mem_range]
  refine imp_congr_right fun hi => ?_
  have hfile : i < (files search served).length := by rwa [length_files]
  by_cases h : ColdEvent.lib i ∈ es <;> simp [h, hfile]

/-- Then the files are in their order, whatever order they have come in. -/
lemma reduceOption_slots
    (h : ∀ i < (LIBS_BY_VARIANT (libsVariant search)).length, .lib i ∈ es) :
    (slots search served es).reduceOption = files search served := by
  have hslots : slots search served es = (files search served).map some := by
    refine List.ext_getElem? fun i => ?_
    rw [slots_get, List.getElem?_map]
    rcases lt_or_ge i (files search served).length with hi | hi
    · have hcome : ColdEvent.lib i ∈ es := h i (by rwa [length_files] at hi)
      simp [hcome]
    · rw [List.getElem?_eq_none hi]
      rfl
  rw [hslots]
  exact (List.filterMap_map).trans List.filterMap_some

/-- An event that is no file leaves them. -/
lemma slots_concat {e : ColdEvent} (he : ∀ i, e ≠ .lib i) :
    slots search served (es ++ [e]) = slots search served es := by
  refine List.map_congr_left fun i _ => ?_
  simp [(he i).symm]

lemma arrived_concat {e : ColdEvent} (he : ∀ i, e ≠ .lib i) :
    arrived search (es ++ [e]) = arrived search es := by
  refine List.filter_congr fun i _ => ?_
  simp [(he i).symm]

/-- A file that has come already, or is none of the bundle, changes nothing. -/
lemma slots_again (search : Search) (served : LibsVariant → String → List UInt8) {i : ℕ}
    (h : (LIBS_BY_VARIANT (libsVariant search)).length ≤ i ∨ .lib i ∈ es) :
    slots search served (es ++ [.lib i]) = slots search served es
      ∧ arrived search (es ++ [.lib i]) = arrived search es := by
  have hmem : ∀ j ∈ List.range (LIBS_BY_VARIANT (libsVariant search)).length,
      (ColdEvent.lib j ∈ es ++ [.lib i]) ↔ ColdEvent.lib j ∈ es := by
    intro j hj
    have hlt : j < (LIBS_BY_VARIANT (libsVariant search)).length := List.mem_range.mp hj
    rw [List.mem_append, List.mem_singleton]
    refine ⟨fun h' => h'.elim id fun heq => ?_, .inl⟩
    obtain rfl : j = i := by injection heq
    exact h.resolve_left (by omega)
  refine ⟨List.map_congr_left fun j hj => ?_, List.filter_congr fun j hj => ?_⟩
  · simp only [hmem j hj]
  · simp only [hmem j hj]

/-- Another file settles its promise. -/
lemma slots_lib {i : ℕ} {file : LibFile} (hfile : (files search served)[i]? = some file) :
    slots search served (es ++ [.lib i]) = (slots search served es).set i (some file) := by
  have hlt : i < (files search served).length := (List.getElem?_eq_some_iff.mp hfile).1
  refine List.ext_getElem? fun j => ?_
  rw [slots_get, List.getElem?_set]
  rcases eq_or_ne i j with rfl | hne
  · have hlen : i < (slots search served es).length := by
      rwa [slots, List.length_map, List.length_range, ← length_files]
    simp [hfile, hlen]
  · rw [if_neg hne, slots_get]
    simp [hne.symm]

lemma length_arrived_lib {i : ℕ} (hi : i < (LIBS_BY_VARIANT (libsVariant search)).length)
    (hnew : ColdEvent.lib i ∉ es) :
    (arrived search (es ++ [.lib i])).length = (arrived search es).length + 1 := by
  have hperm : (arrived search (es ++ [.lib i])).Perm (i :: arrived search es) := by
    refine (List.perm_ext_iff_of_nodup (List.nodup_range.filter _) ?_).mpr fun j => ?_
    · refine List.nodup_cons.mpr ⟨?_, List.nodup_range.filter _⟩
      simp [arrived, hnew]
    · simp only [arrived, List.mem_filter, List.mem_range, List.mem_cons, decide_eq_true_eq,
        List.mem_append, List.not_mem_nil, or_false, ColdEvent.lib.injEq]
      constructor
      · rintro ⟨hj, h | rfl⟩
        · exact .inr ⟨hj, h⟩
        · exact .inl rfl
      · rintro (rfl | ⟨hj, h⟩)
        · exact ⟨hi, .inr rfl⟩
        · exact ⟨hj, .inl h⟩
  rw [hperm.length_eq, List.length_cons]

/-- What the button says is changed by files, the mount and the end of the script only. -/
lemma saysRun_concat {e : ColdEvent} (harrived : arrived search (es ++ [e]) = arrived search es)
    (hmount : e = .initialDoc → .initialDoc ∈ es)
    (hstarted : Started search (es ++ [e]) ↔ Started search es) :
    SaysRun search (es ++ [e]) ↔ SaysRun search es := by
  rw [SaysRun, SaysRun, hstarted, harrived]
  refine or_congr_right ?_
  by_cases hm : ColdEvent.initialDoc ∈ es
  · rw [beforeMount_concat hm]
    exact and_congr_left' (iff_of_true (List.mem_append_left _ hm) hm)
  · have hnot : ColdEvent.initialDoc ∉ es ++ [e] := by
      intro h
      rcases List.mem_append.mp h with h | h
      · exact hm h
      · exact hm (hmount (List.mem_singleton.mp h).symm)
    exact iff_of_false (fun h => hnot h.1) fun h => hm h.1

/-- It is `Run` when the editor is mounted, -/
lemma saysRun_mount (h : .initialDoc ∉ es) : SaysRun search (es ++ [.initialDoc]) := by
  refine .inr ⟨List.mem_append_right _ List.mem_cons_self, ?_⟩
  rw [beforeMount_mount h]
  exact arrived_concat (by simp)

/-- and no longer when another file has come. -/
lemma not_saysRun_lib {i : ℕ} (hi : i < (LIBS_BY_VARIANT (libsVariant search)).length)
    (hnew : ColdEvent.lib i ∉ es) : ¬SaysRun search (es ++ [.lib i]) := by
  rintro (hstarted | ⟨hmount, hsame⟩)
  · rcases started_concat.mp hstarted with ⟨he, -⟩ | hbefore
    · cases he
    · exact hnew (hbefore.instantiated.complete.2.2 i hi)
  · have hm : ColdEvent.initialDoc ∈ es := by simpa using hmount
    have hcome : i ∈ arrived search (es ++ [.lib i]) := by simp [arrived, hi]
    rw [hsame, beforeMount_concat hm, arrived, List.mem_filter, decide_eq_true_eq] at hcome
    exact hnew ((List.takeWhile_prefix _).subset hcome.2)

end Slots

/-- The module does not panic: the files are handed to it once. -/
lemma install_eq (files : List LibFile) :
    install search files = some ⟨[], some files, search.stdMode⟩ := by
  rw [install, LibStatics.foldl_wasmLibsAddFile]
  rfl

lemma runAction_of_isSome {s : ColdLoad} (h : s.verus.isSome = true) :
    s.runAction = { s with disabled := true, busy := true } := by
  rw [runAction, if_neg]
  rw [Option.isNone_iff_eq_none]
  exact Option.isSome_iff_ne_none.mp h

/-! ### One event -/

section Step

variable {es : List ColdEvent} {s : ColdLoad}

/-- What an event that is neither a file nor a step of the script does not touch. -/
lemma after_flag (h : After search served es s) {e : ColdEvent} (he : ∀ i, e ≠ .lib i)
    (hmount : e ≠ .initialDoc) (hinst : e ≠ .instantiate) (hready : e ≠ .ready)
    {z3 verusModule : Bool} (hz3 : z3 = true ↔ .z3 ∈ es ++ [e])
    (hmodule : verusModule = true ↔ .verusModule ∈ es ++ [e]) :
    After search served (es ++ [e]) { s with z3 := z3, verusModule := verusModule } := by
  have hstarted : Started search (es ++ [e]) ↔ Started search es := by
    simp [started_concat, hready]
  have hbutton : SaysRun search (es ++ [e]) ↔ SaysRun search es :=
    saysRun_concat (arrived_concat he) (fun heq => absurd heq hmount) hstarted
  refine ⟨hz3, hmodule, h.wasmLibs.trans (slots_concat he).symm, ?_, ?_, ?_,
    h.ended.trans hstarted.symm, fun hrun => h.run (hbutton.mp hrun),
    fun hrun => h.count fun hold => hrun (hbutton.mpr hold), h.disabled, h.busy⟩
  · rw [arrived_concat he]
    exact h.loaded
  · simpa [hmount.symm] using h.mounted
  · simpa only [instantiated_concat, hinst, false_and, false_or] using h.verus

/-- Nothing has changed for the page. -/
lemma After.congr (h : After search served es s) {es' : List ColdEvent}
    (hz3 : .z3 ∈ es' ↔ ColdEvent.z3 ∈ es) (hmodule : .verusModule ∈ es' ↔ .verusModule ∈ es)
    (hslots : slots search served es' = slots search served es)
    (harrived : arrived search es' = arrived search es)
    (hmount : .initialDoc ∈ es' ↔ .initialDoc ∈ es)
    (hinst : Instantiated search es' ↔ Instantiated search es)
    (hstarted : Started search es' ↔ Started search es)
    (hbutton : SaysRun search es' ↔ SaysRun search es) : After search served es' s where
  z3 := h.z3.trans hz3.symm
  verusModule := h.verusModule.trans hmodule.symm
  wasmLibs := h.wasmLibs.trans hslots.symm
  loaded := by rw [harrived]; exact h.loaded
  mounted := h.mounted.trans hmount.symm
  verus := by rw [hinst]; exact h.verus
  ended := h.ended.trans hstarted.symm
  run hrun := h.run (hbutton.mp hrun)
  count hrun := h.count fun hold => hrun (hbutton.mpr hold)
  disabled := h.disabled
  busy := h.busy

lemma after_lib (h : After search served es s) (i : ℕ) :
    After search served (es ++ [.lib i]) (step search served s (.lib i)) := by
  have hz3 : .z3 ∈ es ++ [.lib i] ↔ ColdEvent.z3 ∈ es := by simp
  have hmodule : .verusModule ∈ es ++ [.lib i] ↔ ColdEvent.verusModule ∈ es := by simp
  have hmount : .initialDoc ∈ es ++ [.lib i] ↔ ColdEvent.initialDoc ∈ es := by simp
  have hinst : Instantiated search (es ++ [.lib i]) ↔ Instantiated search es := by
    simp [instantiated_concat]
  have hstarted : Started search (es ++ [.lib i]) ↔ Started search es := by
    simp [started_concat]
  have hslot : s.wasmLibs[i]?
      = (files search served)[i]?.map fun f => if .lib i ∈ es then some f else none := by
    rw [h.wasmLibs, slots_get]
  have hagain : (LIBS_BY_VARIANT (libsVariant search)).length ≤ i ∨ ColdEvent.lib i ∈ es →
      After search served (es ++ [.lib i]) s := by
    intro hold
    obtain ⟨hslots, harrived⟩ := slots_again search served hold
    exact h.congr hz3 hmodule hslots harrived hmount hinst hstarted
      (saysRun_concat harrived (fun heq => by cases heq) hstarted)
  cases hfile : (files search served)[i]? with
  | none =>
      have hge : (LIBS_BY_VARIANT (libsVariant search)).length ≤ i := by
        rw [← length_files search served]
        exact List.getElem?_eq_none_iff.mp hfile
      have hstep : step search served s (.lib i) = s := by rw [step, hfile]
      rw [hstep]
      exact hagain (.inl hge)
  | some file =>
      by_cases hcome : ColdEvent.lib i ∈ es
      · have hstep : step search served s (.lib i) = s := by
          rw [step, hslot, hfile, Option.map_some, if_pos hcome]
        rw [hstep]
        exact hagain (.inr hcome)
      · have hlt : i < (LIBS_BY_VARIANT (libsVariant search)).length := by
          rw [← length_files search served]
          exact (List.getElem?_eq_some_iff.mp hfile).1
        have hstep : step search served s (.lib i)
            = { s with
                wasmLibs := s.wasmLibs.set i (some file)
                wasmLibsLoaded := s.wasmLibsLoaded + 1
                label := progress (s.wasmLibsLoaded + 1) (files search served).length } := by
          rw [step, hslot, hfile, Option.map_some, if_neg hcome]
        rw [hstep]
        refine ⟨h.z3.trans hz3.symm, h.verusModule.trans hmodule.symm, ?_, ?_,
          h.mounted.trans hmount.symm, by rw [hinst]; exact h.verus, h.ended.trans hstarted.symm,
          fun hrun => absurd hrun (not_saysRun_lib hlt hcome), fun _ => ?_, h.disabled, h.busy⟩
        · rw [slots_lib hfile, ← h.wasmLibs]
        · rw [length_arrived_lib hlt hcome, ← h.loaded]
        · rw [if_neg (Nat.succ_ne_zero _)]

lemma after_initialDoc (h : After search served es s) :
    After search served (es ++ [.initialDoc]) (step search served s .initialDoc) := by
  have hslots : slots search served (es ++ [.initialDoc]) = slots search served es :=
    slots_concat (by simp)
  have harrived : arrived search (es ++ [.initialDoc]) = arrived search es :=
    arrived_concat (by simp)
  have hinst : Instantiated search (es ++ [.initialDoc]) ↔ Instantiated search es := by
    simp [instantiated_concat]
  have hstarted : Started search (es ++ [.initialDoc]) ↔ Started search es := by
    simp [started_concat]
  rw [step]
  split_ifs with hmounted
  · have hm : ColdEvent.initialDoc ∈ es := h.mounted.mp hmounted
    exact h.congr (by simp) (by simp) hslots harrived (by simp [hm]) hinst hstarted
      (saysRun_concat harrived (fun _ => hm) hstarted)
  · have hm : ColdEvent.initialDoc ∉ es := fun hm => hmounted (h.mounted.mpr hm)
    refine ⟨h.z3.trans (by simp), h.verusModule.trans (by simp), h.wasmLibs.trans hslots.symm,
      by rw [harrived]; exact h.loaded, iff_of_true rfl (by simp), by rw [hinst]; exact h.verus,
      h.ended.trans hstarted.symm, fun _ => rfl, fun hrun => absurd (saysRun_mount hm) hrun,
      h.disabled, h.busy⟩

lemma after_instance (h : After search served es s) :
    After search served (es ++ [.instantiate]) (step search served s .instantiate) := by
  have hslots : slots search served (es ++ [.instantiate]) = slots search served es :=
    slots_concat (by simp)
  have harrived : arrived search (es ++ [.instantiate]) = arrived search es :=
    arrived_concat (by simp)
  have hmount : .initialDoc ∈ es ++ [.instantiate] ↔ ColdEvent.initialDoc ∈ es := by simp
  have hstarted : Started search (es ++ [.instantiate]) ↔ Started search es := by
    simp [started_concat]
  have hbutton : SaysRun search (es ++ [.instantiate]) ↔ SaysRun search es :=
    saysRun_concat harrived (fun heq => by cases heq) hstarted
  have hinst : Instantiated search (es ++ [.instantiate])
      ↔ Complete search es ∨ Instantiated search es := by
    simp [instantiated_concat]
  have hcomplete : (s.z3 && s.verusModule && s.wasmLibs.all Option.isSome) = true
      ↔ Complete search es := by
    rw [Bool.and_eq_true, Bool.and_eq_true, h.z3, h.verusModule, h.wasmLibs, all_slots, and_assoc]
    rfl
  rw [step]
  split_ifs with hguard
  · rw [Bool.and_eq_true, hcomplete] at hguard
    refine ⟨by simpa using h.z3, by simpa using h.verusModule, h.wasmLibs.trans hslots.symm,
      by rw [harrived]; exact h.loaded, h.mounted.trans hmount.symm,
      .inl ⟨hinst.mpr (.inl hguard.1), ?_⟩, h.ended.trans hstarted.symm,
      fun hrun => h.run (hbutton.mp hrun), fun hrun => h.count fun hold => hrun (hbutton.mpr hold),
      h.disabled, h.busy⟩
    rw [h.wasmLibs, reduceOption_slots hguard.1.2.2]
  · rw [Bool.and_eq_true, hcomplete] at hguard
    have hsame : Instantiated search (es ++ [.instantiate]) ↔ Instantiated search es := by
      refine hinst.trans ⟨fun h' => h'.elim (fun hall => ?_) id, .inr⟩
      rcases h.verus with ⟨hbefore, -⟩ | ⟨-, hnone⟩
      · exact hbefore
      · exact absurd ⟨hall, by rw [hnone]; rfl⟩ hguard
    exact h.congr (by simp) (by simp) hslots harrived hmount hsame hstarted hbutton

lemma After.isSome_verus (h : After search served es s) :
    s.verus.isSome = true ↔ Instantiated search es := by
  rcases h.verus with ⟨hyes, hverus⟩ | ⟨hno, hverus⟩
  · rw [hverus, install_eq]
    exact iff_of_true rfl hyes
  · rw [hverus]
    exact iff_of_false (by simp) hno

lemma after_ready (h : After search served es s) :
    After search served (es ++ [.ready]) (step search served s .ready) := by
  have hslots : slots search served (es ++ [.ready]) = slots search served es :=
    slots_concat (by simp)
  have harrived : arrived search (es ++ [.ready]) = arrived search es := arrived_concat (by simp)
  have hmount : .initialDoc ∈ es ++ [.ready] ↔ ColdEvent.initialDoc ∈ es := by simp
  have hinst : Instantiated search (es ++ [.ready]) ↔ Instantiated search es := by
    simp [instantiated_concat]
  have hstarted : Started search (es ++ [.ready])
      ↔ (Instantiated search es ∧ .initialDoc ∈ es) ∨ Started search es := by
    simp [started_concat]
  rw [step]
  split_ifs with hguard
  · obtain ⟨⟨hsome, hm⟩, -⟩ : (s.verus.isSome = true ∧ s.mounted = true) ∧ s.ended = false := by
      simpa using hguard
    have hdone : Started search (es ++ [.ready]) :=
      hstarted.mpr (.inl ⟨h.isSome_verus.mp hsome, h.mounted.mp hm⟩)
    dsimp only
    rw [runAction_of_isSome (by exact hsome)]
    exact ⟨h.z3.trans (by simp), h.verusModule.trans (by simp), h.wasmLibs.trans hslots.symm,
      by rw [harrived]; exact h.loaded, h.mounted.trans hmount.symm, by rw [hinst]; exact h.verus,
      iff_of_true rfl hdone, fun _ => rfl, fun hnot => absurd (.inl hdone) hnot, rfl, rfl⟩
  · have hsame : Started search (es ++ [.ready]) ↔ Started search es := by
      refine hstarted.trans ⟨fun h' => h'.elim (fun hall => ?_) id, .inr⟩
      by_contra hnot
      refine hguard ?_
      rw [h.isSome_verus.mpr hall.1, h.mounted.mpr hall.2,
        (by simpa using fun hended => hnot (h.ended.mp hended) : s.ended = false)]
      rfl
    exact h.congr (by simp) (by simp) hslots harrived hmount hinst hsame
      (saysRun_concat harrived (fun heq => by cases heq) hsame)

lemma after_step (h : After search served es s) (e : ColdEvent) :
    After search served (es ++ [e]) (step search served s e) := by
  cases e with
  | z3 =>
      refine after_flag h (by simp) (by simp) (by simp) (by simp) (by simp) ?_
      simp [h.verusModule]
  | verusModule =>
      refine after_flag h (by simp) (by simp) (by simp) (by simp) ?_ (by simp)
      simp [h.z3]
  | lib i => exact after_lib h i
  | initialDoc => exact after_initialDoc h
  | instantiate => exact after_instance h
  | ready => exact after_ready h

end Step

lemma after_run (es : List ColdEvent) :
    After search served es (Machine.run (step search served) (start search served) es) := by
  induction es using List.reverseRecOn with
  | nil => exact after_start
  | append_singleton es e ih =>
      rw [Machine.run_concat]
      exact after_step ih e

/-! ### What rustc finds -/

section Bundle

variable {w : LibStatics}

lemma nodup_files : ((files search served).map Prod.fst).Nodup := by
  have hnames : (files search served).map Prod.fst
      = (LIBS_BY_VARIANT (libsVariant search)).map String.toList := by
    rw [files, List.map_map]
    rfl
  rw [hnames]
  exact List.Nodup.map (fun _ _ h => String.toList_inj.mp h) (nodup_libs _)

lemma plainName_files : ∀ f ∈ files search served, PlainName f.1 := by
  intro f hf
  obtain ⟨name, hname, rfl⟩ := List.mem_map.mp hf
  exact plainName_libs _ name hname

lemma mem_files {name : String} (h : name ∈ LIBS_BY_VARIANT (libsVariant search)) :
    (name.toList, served (libsVariant search) name) ∈ files search served :=
  List.mem_map_of_mem h

/-- There is `std` where the page has fetched it. -/
lemma std_iff (search : Search) :
    (search.stdMode = true ∨ (Toolbar.load search).actionMode.rustcMode = .execute)
      ↔ "libstd.rmeta" ∈ LIBS_BY_VARIANT (libsVariant search) := by
  have hmode : (Toolbar.load search).actionMode.rustcMode = .execute ↔ search.execMode = true := by
    rw [Toolbar.load]
    cases search.execMode <;> simp [ActionMode.rustcMode]
  rw [hmode, libstd_mem, libsVariant]
  cases search.execMode <;> cases search.stdMode <;> decide

end Bundle

end ColdLoad

/-- **The cold load gives rustc what the build has made.**  In whatever order the solver, the
module, the files of the bundle and the first document come: the button is disabled, and busy once
the first run has been started; it says how many of the files have come, but `Run` from the moment
the editor is there until the next file, and with the first run.  That is started exactly when the
script goes on with the module instantiated and the editor there.  The module has been instantiated
exactly when all that is fetched has come before; then rustc's callbacks list the files of the
variant and read each as the server has it, and rustc is told that there is a `std` exactly if the
bundle has one. -/
theorem coldLoad_serves (features : List String → Bool → Bool → List String)
    (hfeatures : ∀ argv macros erase, noStdFlag ∈ features argv macros erase ↔ noStdFlag ∈ argv)
    (search : Search) (served : LibsVariant → String → List UInt8) (es : List ColdEvent) :
    (LIBS_BY_VARIANT (libsVariant search)).Perm (staged (libsVariant search))
      ∧ ∀ s, Machine.run (ColdLoad.step search served) (ColdLoad.start search served) es = s →
        (ColdLoad.SaysRun search es → s.label = "Run")
        ∧ (¬ColdLoad.SaysRun search es → s.label =
            if ColdLoad.arrived search es = [] then "Loading verifier…"
            else ColdLoad.progress (ColdLoad.arrived search es).length
              (LIBS_BY_VARIANT (libsVariant search)).length)
        ∧ s.disabled = true ∧ s.busy = s.ended ∧ (s.ended = true ↔ ColdLoad.Started search es)
        ∧ (s.verus.isSome = true ↔ ColdLoad.Instantiated search es)
        ∧ ∀ w, s.verus = some w →
          w.wasmLibsList VIRTUAL_LIB_DIR
            = some (some ((LIBS_BY_VARIANT (libsVariant search)).map fun name =>
              (name.toList, VIRTUAL_LIB_DIR ++ '/' :: name.toList)))
          ∧ (∀ name ∈ LIBS_BY_VARIANT (libsVariant search),
            w.wasmLibsRead (VIRTUAL_LIB_DIR ++ '/' :: name.toList)
              = some (some (served (libsVariant search) name)))
          ∧ w.wasmLibsVstdVir = some (served (libsVariant search) "vstd.vir")
          ∧ ∀ src config, buildRustcConfig features w.stdMode src
              (Toolbar.load search).actionMode.rustcMode = config →
            (noStdFlag ∈ config.argv ↔ "libstd.rmeta" ∉ LIBS_BY_VARIANT (libsVariant search))
            ∧ (("feature", some "std") ∈ config.cfg
              ↔ "libstd.rmeta" ∈ LIBS_BY_VARIANT (libsVariant search)) := by
  refine ⟨perm_staged _, fun s hs => ?_⟩
  have h : ColdLoad.After search served es s := hs ▸ ColdLoad.after_run es
  refine ⟨h.run, fun hnot => ?_, h.disabled, h.busy, h.ended, h.isSome_verus, fun w hw => ?_⟩
  · rw [h.count hnot, h.loaded, ColdLoad.length_files]
    simp only [List.length_eq_zero_iff]
  · obtain ⟨hbundle, hstd⟩ : w.bundle = some (ColdLoad.files search served)
        ∧ w.stdMode = search.stdMode := by
      rcases h.verus with ⟨-, hverus⟩ | ⟨-, hverus⟩
      · rw [hw, ColdLoad.install_eq] at hverus
        obtain rfl := Option.some_inj.mp hverus
        exact ⟨rfl, rfl⟩
      · rw [hw] at hverus
        cases hverus
    refine ⟨?_, fun name hname => ?_, ?_, fun src config hconfig => ?_⟩
    · rw [LibStatics.list_bundle hbundle, ColdLoad.files, List.map_map]
      rfl
    · have hread := LibStatics.read_listed hbundle ColdLoad.nodup_files ColdLoad.plainName_files
        (ColdLoad.mem_files hname)
      exact hread
    · exact LibStatics.vstdVir_bundle hbundle ColdLoad.nodup_files
        (ColdLoad.mem_files (vstd_mem _))
    · subst hconfig
      rw [noStd_mem_argv hfeatures, std_mem_cfg, hstd, ColdLoad.std_iff]
      exact ⟨Iff.rfl, Iff.rfl⟩

/-- A server with the name of each file in it. -/
def namesServed (_ : LibsVariant) (name : String) : List UInt8 :=
  name.toList.map fun c => UInt8.ofNat c.toNat

/-- The eight files of a page without a query come last to first, the document after five of them:
the button says so until the sixth, and the first run has `vstd.vir` as it is on the server. -/
theorem coldLoad_serves_nostd :
    let after := Machine.run (ColdLoad.step [] namesServed) (ColdLoad.start [] namesServed)
    let mounted : List ColdEvent := [.lib 7, .lib 6, .lib 5, .lib 4, .lib 3, .initialDoc]
    let loaded := mounted ++ [.lib 2, .lib 1, .lib 0, .z3, .verusModule, .instantiate, .ready]
    (after mounted).label = "Run" ∧ (after (mounted ++ [.lib 2])).label = "Loading 6/8 libs…"
      ∧ (after loaded).label = "Run" ∧ (after loaded).disabled = true ∧ (after loaded).busy = true
      ∧ ∃ w, (after loaded).verus = some w
        ∧ w.wasmLibsVstdVir = some [118, 115, 116, 100, 46, 118, 105, 114] := by
  intro after mounted loaded
  have hserves := fun es => (coldLoad_serves
    (fun argv _ _ => argv ++ ["-Zcrate-attr=feature(rustc_attrs)"]) (by simp [noStdFlag]) []
    namesServed es).2 _ rfl
  have hinst : ColdLoad.Instantiated [] loaded :=
    ⟨mounted ++ [.lib 2, .lib 1, .lib 0, .z3, .verusModule], by decide, by decide, by decide,
      by decide⟩
  have hstarted : ColdLoad.Started [] loaded :=
    ⟨mounted ++ [.lib 2, .lib 1, .lib 0, .z3, .verusModule, .instantiate], by decide,
      ⟨mounted ++ [.lib 2, .lib 1, .lib 0, .z3, .verusModule], by decide, by decide, by decide,
        by decide⟩, by decide⟩
  have hcount : ¬ColdLoad.SaysRun [] (mounted ++ [.lib 2]) := by
    rintro (⟨fs, hfs, -⟩ | ⟨-, hsame⟩)
    · have hready : ColdEvent.ready ∈ mounted ++ [.lib 2] := hfs.subset (by simp)
      exact absurd hready (by decide)
    · exact absurd hsame (by decide)
  obtain ⟨hrun, -, hdisabled, hbusy, hended, hverus, hfiles⟩ := hserves loaded
  obtain ⟨w, hw⟩ := Option.isSome_iff_exists.mp (hverus.mpr hinst)
  refine ⟨(hserves mounted).1 (.inr ⟨by decide, by decide⟩), ?_, hrun (.inl hstarted), hdisabled,
    hbusy.trans (hended.mpr hstarted), w, hw, ?_⟩
  · have hlabel : (after (mounted ++ [.lib 2])).label = _ := (hserves _).2.1 hcount
    rw [hlabel]
    decide
  · exact (hfiles w hw).2.2.1.trans (by decide)

end VerusExplorer
