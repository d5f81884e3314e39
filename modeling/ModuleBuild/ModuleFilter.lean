import ModuleBuild.Error
import ModuleBuild.Pattern.Parser

/-!
# Module filters

Which modules the input plugin compiles: those with one of the extensions, among them the ones that
an include pattern occurs in, if there is any, and no exclude pattern occurs in.

## Main definitions

* `ModuleFilter.ofPatterns` — the filter for extensions and patterns.
* `ModuleFilter.accepts` — whether a module is compiled.
-/

namespace ModuleBuild

/-- Rules for the identifiers of modules. -/
structure ModuleFilter where
  extensions : Pattern
  included : List Pattern
  excluded : List Pattern
  deriving Inhabited

namespace ModuleFilter

/-- One of the extensions, taken literally, at the end of the text. -/
def extensionPattern (extensions : List String) : Pattern :=
  .seq (.oneOf (extensions.map fun e => .literal e.toList)) (.anchor .textEnd)

/-- Reads the patterns of a list; the first malformed one fails. -/
def readPatterns (texts : List String) : Except PluginError (List Pattern) :=
  texts.mapM fun text =>
    match Pattern.parse? text with
    | some p => .ok p
    | none => .error (.config (.pattern text))

/-- The filter for extensions, include patterns and exclude patterns. -/
def ofPatterns (extensions included excluded : List String) : Except PluginError ModuleFilter := do
  let included ← readPatterns included
  let excluded ← readPatterns excluded
  return { extensions := extensionPattern extensions, included, excluded }

/-- Whether a module is virtual: it belongs to the plugin that made it. -/
def isVirtual (id : String) : Bool :=
  id.toList.head? == some '\x00'

/-- Whether the module is compiled. -/
def accepts (filter : ModuleFilter) (id : String) : Bool :=
  !isVirtual id && filter.extensions.occursIn id &&
    (filter.included.isEmpty || filter.included.any (·.occursIn id)) &&
    !filter.excluded.any (·.occursIn id)

end ModuleFilter

end ModuleBuild
