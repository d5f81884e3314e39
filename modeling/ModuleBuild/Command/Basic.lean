import ModuleBuild.Command.Arguments
import ModuleBuild.Helper.Bundle
import ModuleBuild.Options.Basic

/-!
# Commands

What users ask of the program on its command line.

## Main definitions

* `Command` — a request.
* `CommandTopic` — what help is given on.
* `Command.ofWords` — the request that words stand for.
-/

namespace ModuleBuild

/-- What help is given on: the program, or one of its commands. -/
inductive CommandTopic where
  | program
  | transform
  | check
  | bundle
  | helpers
  deriving DecidableEq, Inhabited, Repr

/-- What users ask for. -/
inductive Command where
  /-- Compile one module as the input plugin does. -/
  | transform (input : Path) (output options : Option Path) (writeMap : Bool)
  /-- Check the configuration of a module. -/
  | check (input : Path) (options : Option Path)
  /-- Bundle entries into one chunk. -/
  | bundle (entries : List Path) (output : Option Path) (format : OutputFormat) (name : Option String)
    (options outputOptions : Option Path)
  /-- Print helpers as a unit of their own. -/
  | helpers (whitelist : Option (List String)) (shape : HelperBundleShape)
  | help (topic : CommandTopic)
  | version
  deriving DecidableEq, Inhabited, Repr

namespace Command

/-- Whether a word can be a path. -/
def isPath (word : String) : Bool :=
  !word.isEmpty

/-- An option whose value is a path. -/
def pathOption (name : String) (letter : Option Char) : OptionRule :=
  { name, letter, accepts := isPath }

/-- What `transform` takes. -/
def transformRules : ArgumentRules where
  options := [pathOption "output" (some 'o'), pathOption "options" none,
    { name := "map", takesValue := false }]
  operandLimit := some 1
  acceptsOperand := isPath

/-- What `check` takes. -/
def checkRules : ArgumentRules where
  options := [pathOption "options" none]
  operandLimit := some 1
  acceptsOperand := isPath

/-- What `bundle` takes. -/
def bundleRules : ArgumentRules where
  options := [pathOption "output" (some 'o'),
    { name := "format", accepts := fun word => (OutputFormat.ofText? word).isSome },
    { name := "name" }, pathOption "options" none, pathOption "output-options" none]
  operandLimit := none
  acceptsOperand := isPath

/-- What `helpers` takes. -/
def helpersRules : ArgumentRules where
  options := [{ name := "whitelist", repeats := true },
    { name := "output-type", accepts := fun word => (HelperBundleShape.ofName? word).isSome }]

/-- The words between commas. -/
def commaSeparated (words : List String) : List String :=
  words.flatMap (·.splitOn ",")

/-- The path that an option has as its value. -/
def pathOf (args : Arguments) (name : String) : Option Path :=
  (args.value? name).map .mk

/-- The `transform` command that arguments stand for. -/
def ofTransform (args : Arguments) : Option Command :=
  args.operands.head?.map fun input =>
    .transform ⟨input⟩ (pathOf args "output") (pathOf args "options") (args.has "map")

/-- The `check` command that arguments stand for. -/
def ofCheck (args : Arguments) : Option Command :=
  args.operands.head?.map fun input => .check ⟨input⟩ (pathOf args "options")

/-- The `bundle` command that arguments stand for. -/
def ofBundle (args : Arguments) : Option Command :=
  if args.operands.isEmpty then none
  else
    let format := ((args.value? "format").bind OutputFormat.ofText?).getD .es
    some (.bundle (args.operands.map .mk) (pathOf args "output") format (args.value? "name")
      (pathOf args "options") (pathOf args "output-options"))

/-- The `helpers` command that arguments stand for. -/
def ofHelpers (args : Arguments) : Option Command :=
  let shape := ((args.value? "output-type").bind HelperBundleShape.ofName?).getD .module
  some (.helpers ((args.values? "whitelist").map commaSeparated) shape)

/-- The command of this name. -/
def topic? : String → Option CommandTopic
  | "transform" => some .transform
  | "check" => some .check
  | "bundle" => some .bundle
  | "helpers" => some .helpers
  | _ => none

/-- The request for a command with some words behind its name; none if they do not fit. -/
def ofTopic (topic : CommandTopic) (words : List String) : Option Command :=
  let request (rules : ArgumentRules) (make : Arguments → Option Command) : Option Command :=
    match rules.read words with
    | .ok args => make args
    | .error .help => some (.help topic)
    | .error .usage => none
  match topic with
  | .program => none
  | .transform => request transformRules ofTransform
  | .check => request checkRules ofCheck
  | .bundle => request bundleRules ofBundle
  | .helpers => request helpersRules ofHelpers

/-- The request that words stand for; none if they do not fit. -/
def ofWords : List String → Option Command
  | [] => none
  | ["help"] => some (.help .program)
  | ["help", name] => (topic? name).map .help
  | "-h" :: _ | "--help" :: _ => some (.help .program)
  | "-V" :: _ | "--version" :: _ => some .version
  | name :: words => (topic? name).bind fun topic => ofTopic topic words

end Command

end ModuleBuild
