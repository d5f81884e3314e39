import ModuleBuild.Text.Words

/-!
# Helpers

The functions that compiled code calls in place of syntax or of newer library functions. Each is a
declaration of its own, named after the helper with `_` before it, and may call others by such names.

## Main definitions

* `Helper`, `Registry` — a helper, and a list of them.
* `Registry.closure` — the helpers that some names need, dependencies first.
* `helperRegistry` — the helpers of this compiler.
-/

namespace ModuleBuild

/-- A helper function. -/
structure Helper where
  name : String
  /-- The names of the helpers that the body calls. -/
  dependencies : List String
  /-- The text of the declaration. -/
  body : String
  deriving DecidableEq, Inhabited, Repr

/-- The binding under which the helper of this name is declared. -/
def helperLocal (name : String) : String := "_" ++ name

/-- The binding under which a helper is declared. -/
def Helper.localName (h : Helper) : String := helperLocal h.name

/-- Helpers that can be asked for by name. -/
abbrev Registry := List Helper

namespace Registry

/-- The helper of this name. -/
def get? (registry : Registry) (name : String) : Option Helper :=
  registry.find? (·.name == name)

/-- Whether there is a helper of this name. -/
def has (registry : Registry) (name : String) : Bool :=
  (registry.get? name).isSome

/-- What a search has met so far: the names of the helpers entered, and the helpers left, in order. -/
structure Search where
  entered : List String
  found : List Helper

/-- Adds a helper behind everything it needs. `fuel` bounds the length of chains of dependencies. -/
def visit (registry : Registry) : Nat → Search → String → Search
  | 0, s, _ => s
  | fuel + 1, s, name =>
    match registry.get? name with
    | none => s
    | some h =>
      if s.entered.contains h.name then s
      else
        let s := h.dependencies.foldl (visit registry fuel) { s with entered := h.name :: s.entered }
        { s with found := s.found ++ [h] }

/-- The helpers that the names need, each once and behind its dependencies. No chain of helpers not
yet entered is longer than the registry. -/
def closure (registry : Registry) (names : List String) : List Helper :=
  (names.foldl (registry.visit (registry.length + 1)) ⟨[], []⟩).found

end Registry

/-- The `extends` helper. -/
def extendsHelper : Helper where
  name := "extends"
  dependencies := []
  body := String.intercalate "\n" [
    "function _extends() \x7b",
    "  _extends = Object.assign ? Object.assign.bind() : function (target) \x7b",
    "    for (var i = 1; i < arguments.length; i++) \x7b",
    "      var source = arguments[i];",
    "      for (var key in source) \x7b",
    "        if (Object.prototype.hasOwnProperty.call(source, key)) \x7b",
    "          target[key] = source[key];",
    "        \x7d",
    "      \x7d",
    "    \x7d",
    "    return target;",
    "  \x7d;",
    "  return _extends.apply(this, arguments);",
    "\x7d"]

/-- The `setPrototypeOf` helper. -/
def setPrototypeOf : Helper where
  name := "setPrototypeOf"
  dependencies := []
  body := String.intercalate "\n" [
    "function _setPrototypeOf(o, p) \x7b",
    "  _setPrototypeOf = Object.setPrototypeOf ? Object.setPrototypeOf.bind() : function " ++
      "(o, p) \x7b",
    "    o.__proto__ = p;",
    "    return o;",
    "  \x7d;",
    "  return _setPrototypeOf(o, p);",
    "\x7d"]

/-- The `inherits` helper. -/
def inheritsHelper : Helper where
  name := "inherits"
  dependencies := ["setPrototypeOf"]
  body := String.intercalate "\n" [
    "function _inherits(subClass, superClass) \x7b",
    "  if (typeof superClass !== \"function\" && superClass !== null) \x7b",
    "    throw new TypeError(\"Super expression must either be null or a function\");",
    "  \x7d",
    "  subClass.prototype = Object.create(superClass && superClass.prototype, \x7b",
    "    constructor: \x7b value: subClass, writable: true, configurable: true \x7d",
    "  \x7d);",
    "  Object.defineProperty(subClass, \"prototype\", \x7b writable: false \x7d);",
    "  if (superClass) _setPrototypeOf(subClass, superClass);",
    "\x7d"]

/-- The `classCallCheck` helper. -/
def classCallCheck : Helper where
  name := "classCallCheck"
  dependencies := []
  body := String.intercalate "\n" [
    "function _classCallCheck(instance, Constructor) \x7b",
    "  if (!(instance instanceof Constructor)) \x7b",
    "    throw new TypeError(\"Cannot call a class as a function\");",
    "  \x7d",
    "\x7d"]

/-- The `typeof` helper. -/
def typeofHelper : Helper where
  name := "typeof"
  dependencies := []
  body := String.intercalate "\n" [
    "function _typeof(o) \x7b",
    "  return _typeof = \"function\" == typeof Symbol && \"symbol\" == typeof " ++
      "Symbol.iterator ? function (o) \x7b",
    "    return typeof o;",
    "  \x7d : function (o) \x7b",
    "    return o && \"function\" == typeof Symbol && o.constructor === Symbol && o !== " ++
      "Symbol.prototype ? \"symbol\" : typeof o;",
    "  \x7d, _typeof(o);",
    "\x7d"]

/-- The `defineProperty` helper. -/
def defineProperty : Helper where
  name := "defineProperty"
  dependencies := []
  body := String.intercalate "\n" [
    "function _defineProperty(obj, key, value) \x7b",
    "  if (key in obj) \x7b",
    "    Object.defineProperty(obj, key, \x7b value: value, enumerable: true, " ++
      "configurable: true, writable: true \x7d);",
    "  \x7d else \x7b",
    "    obj[key] = value;",
    "  \x7d",
    "  return obj;",
    "\x7d"]

/-- The helpers of this compiler, in their order. -/
def helperRegistry : Registry :=
  [extendsHelper, setPrototypeOf, inheritsHelper, classCallCheck, typeofHelper, defineProperty]

end ModuleBuild
