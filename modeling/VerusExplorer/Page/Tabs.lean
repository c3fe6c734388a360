import VerusExplorer.Lib.OrderedMap
import VerusExplorer.Lib.Utf16

/-!
# Tabs and examples

The manifests of the page (`public/app.js`): the tab groups with their variants, and the files of
the shipped examples.  In execute mode the Verus stages are missing and those of MIR are there.
-/

namespace VerusExplorer

open Utf16

/-- A group of tabs: one stage of the pipeline, in several variants. -/
structure TabGroup where
  id : JsString
  variants : List JsString
  deriving DecidableEq, Repr

def tabGroup (id : String) (variants : List String) : TabGroup := ⟨js id, variants.map js⟩

/-- `TAB_GROUPS`. -/
def tabGroups (execMode : Bool) : List TabGroup :=
  [tabGroup "AST" ["AST_PRE", "AST"], tabGroup "HIR" ["HIR", "HIR_TYPED"]]
    ++ if execMode then [tabGroup "MIR" ["MIR_BUILT", "MIR_DROPS", "MIR_OPT"]]
      else
        [tabGroup "VIR" ["VIR_RAW", "VIR_SIMPLE", "VIR_PRUNED", "SST_AST", "SST_POLY"],
          tabGroup "AIR" ["AIR_INITIAL", "AIR_MIDDLE", "AIR_FINAL"],
          tabGroup "Z3" ["SMT_TRANSCRIPT", "SMT_QUERY", "SMT_RESPONSE"]]

/-- `SECTION_ORDER`. -/
def sectionOrder (execMode : Bool) : List JsString := (tabGroups execMode).flatMap TabGroup.variants

/-- `GROUP_OF`. -/
def groupOf (execMode : Bool) (tab : JsString) : Option JsString :=
  ((tabGroups execMode).find? fun g => g.variants.contains tab).map TabGroup.id

/-- The files of `EXAMPLES`, in order. -/
def examples : List JsString :=
  ["arith.rs", "requires_ensures.rs", "collections.rs", "loop.rs", "recursion.rs",
    "struct_invariant.rs"].map js

end VerusExplorer
