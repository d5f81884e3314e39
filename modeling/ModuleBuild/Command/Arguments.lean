/-!
# Arguments

The words behind the name of a command: options with or without a value, and operands. They are read
from left to right, and the first word that does not fit ends the reading.

## Main definitions

* `OptionRule`, `ArgumentRules` — what a command takes.
* `Arguments` — what was given.
* `ArgumentRules.read` — reads the words.
-/

namespace ModuleBuild

/-- An option of a command. -/
structure OptionRule where
  name : String
  /-- The letter that stands for the option behind a single dash. -/
  letter : Option Char := none
  /-- Whether a value follows the option. -/
  takesValue : Bool := true
  /-- Whether the option may be given more than once. -/
  repeats : Bool := false
  /-- The values that the option takes. -/
  accepts : String → Bool := fun _ => true

/-- What a command takes. -/
structure ArgumentRules where
  options : List OptionRule
  /-- The number of operands, if there is a limit. -/
  operandLimit : Option Nat := some 0
  /-- The operands that the command takes. -/
  acceptsOperand : String → Bool := fun _ => true

/-- What was given to a command. -/
structure Arguments where
  /-- The options with their values, in order. -/
  options : List (String × String) := []
  operands : List String := []
  deriving DecidableEq, Inhabited, Repr

namespace Arguments

/-- Whether an option was given. -/
def has (args : Arguments) (name : String) : Bool :=
  (args.options.lookup name).isSome

/-- The value of an option. -/
def value? (args : Arguments) (name : String) : Option String :=
  args.options.lookup name

/-- All values of an option, if it was given. -/
def values? (args : Arguments) (name : String) : Option (List String) :=
  if args.has name then some ((args.options.filter (·.1 == name)).map (·.2)) else none

end Arguments

/-- Why the reading of words ends early. -/
inductive ArgumentStop where
  /-- The user asks for help. -/
  | help
  /-- The words do not fit. -/
  | usage
  deriving DecidableEq, Inhabited, Repr

/-- What a word is. -/
inductive Word where
  | operand
  /-- All words behind it are operands. -/
  | endOfOptions
  | help
  /-- An option, with a value in the same word if there is one. -/
  | option (rule : OptionRule) (attached : Option String)
  | unknown

/-- A text without a character at its start, if it starts so. -/
def withoutLead (c : Char) : List Char → Option (List Char)
  | d :: rest => if c == d then some rest else none
  | [] => none

namespace ArgumentRules

/-- What a word with two dashes is. -/
def longWord (rules : ArgumentRules) (cs : List Char) : Word :=
  let name := String.ofList (cs.takeWhile (· != '='))
  let attached := (withoutLead '=' (cs.dropWhile (· != '='))).map String.ofList
  if name == "help" then if attached.isSome then .unknown else .help
  else
    match rules.options.find? (·.name == name) with
    | some rule => .option rule attached
    | none => .unknown

/-- What a word with one dash is. -/
def shortWord (rules : ArgumentRules) (letter : Char) (rest : List Char) : Word :=
  if letter == 'h' then .help
  else
    match rules.options.find? (·.letter == some letter) with
    | some rule =>
      .option rule (if rest.isEmpty then none
        else some (String.ofList ((withoutLead '=' rest).getD rest)))
    | none => .unknown

/-- What a word is. -/
def classify (rules : ArgumentRules) (word : String) : Word :=
  match word.toList with
  | ['-', '-'] => .endOfOptions
  | '-' :: '-' :: cs => rules.longWord cs
  | '-' :: c :: cs => rules.shortWord c cs
  | _ => .operand

/-- Adds an operand, if the command takes one more. -/
def addOperand (rules : ArgumentRules) (args : Arguments) (word : String) :
    Except ArgumentStop Arguments :=
  let isFull := rules.operandLimit.any (· ≤ args.operands.length)
  if isFull || !rules.acceptsOperand word then .error .usage
  else .ok { args with operands := args.operands ++ [word] }

/-- Adds an option with its value. -/
def addOption (args : Arguments) (rule : OptionRule) (value : String) : Except ArgumentStop Arguments :=
  if (args.has rule.name && !rule.repeats) || !rule.accepts value then .error .usage
  else .ok { args with options := args.options ++ [(rule.name, value)] }

/-- Reads words into what was given before them. -/
def readFrom (rules : ArgumentRules) : Arguments → List String → Except ArgumentStop Arguments
  | args, [] => .ok args
  | args, word :: rest =>
    match rules.classify word with
    | .help => .error .help
    | .unknown => .error .usage
    | .endOfOptions => rest.foldlM rules.addOperand args
    | .operand => do rules.readFrom (← rules.addOperand args word) rest
    | .option rule (some value) =>
      if rule.takesValue then do rules.readFrom (← addOption args rule value) rest
      else .error .usage
    | .option rule none =>
      if !rule.takesValue then do rules.readFrom (← addOption args rule "") rest
      else
        match rest with
        | [] => .error .usage
        | value :: rest =>
          match rules.classify value with
          | .operand => do rules.readFrom (← addOption args rule value) rest
          | _ => .error .usage

/-- Reads the words of a command. -/
def read (rules : ArgumentRules) (words : List String) : Except ArgumentStop Arguments :=
  rules.readFrom {} words

end ArgumentRules

end ModuleBuild
