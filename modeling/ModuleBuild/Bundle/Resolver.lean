import ModuleBuild.FileTree
import ModuleBuild.Json.Parser

/-!
# Resolving module specifiers

A specifier names a module as seen from another one: by a path, by the name of a package in a
directory `node_modules` on the way up, or by a name that a package gives to one of its own modules.

## Main definitions

* `isBare` — whether a specifier names a package.
* `ModuleResolver` — the files and how their names may be completed.
* `ModuleResolver.resolve?` — the file that a specifier leads to.
-/

namespace ModuleBuild

open Json

/-- Whether a specifier names a package and not a path. -/
def isBare (specifier : String) : Bool :=
  !("./".toList.isPrefixOf specifier.toList || "../".toList.isPrefixOf specifier.toList ||
    specifier == "." || specifier == ".." || Path.isAbsolute ⟨specifier⟩)

/-- Why a search ends without looking further. -/
inductive SearchStop where
  | invalidPackage
  | invalidTarget
  | notExported
  | notFound
  deriving DecidableEq, Inhabited, Repr

/-- A search, which goes on if it finds nothing, or ends at once. -/
abbrev Search : Type → Type := Except SearchStop

/-- The first result of several searches. -/
def firstFound {α β : Type} (search : α → Search (Option β)) : List α → Search (Option β)
  | [] => .ok none
  | a :: rest => do
    match ← search a with
    | some b => return some b
    | none => firstFound search rest

/-- How modules are found. -/
structure ModuleResolver where
  files : FileTree
  /-- The directory that modules without one of their own refer to. -/
  basePath : Path
  /-- What may be added to the end of a name, in order. -/
  extensions : List String
  deriving Inhabited

namespace ModuleResolver

/-- A resolver that also finds data. -/
def create (files : FileTree) (basePath : Path) (extensions : List String) : ModuleResolver where
  files
  basePath
  extensions := if extensions.contains ".json" then extensions else extensions ++ [".json"]

/-- The conditions under which packages may offer different files. -/
def conditions : List String := ["import", "module", "default"]

/-- The fields of a package that may name its main file. -/
def mainFields : List String := ["module", "main"]

/-- A path behind a directory, with the steps up taken. -/
def descend (directory : Path) (steps : String) : Path :=
  (Path.components ⟨steps⟩).foldl (fun p c =>
    match c with
    | .root | .current => p
    | .up => p.parent?.getD p
    | .name name => p.join ⟨name⟩) directory

/-- A path with text added to its end. -/
def extended (p : Path) (extension : String) : Path :=
  ⟨p.text ++ extension⟩

/-- The file of a path, with an extension if need be. -/
def asFile (r : ModuleResolver) (p : Path) : Option Path :=
  (p :: r.extensions.map (extended p)).find? r.files.isFile

/-- The file that stands for a directory. -/
def asIndex (r : ModuleResolver) (directory : Path) : Option Path :=
  r.asFile (directory.join ⟨"index"⟩)

/-- The description of the package in a directory. -/
def package? (r : ModuleResolver) (directory : Path) : Search (Option Json) :=
  let path := directory.join ⟨"package.json"⟩
  if r.files.isFile path then
    match r.files.readText path with
    | .error _ => .error .invalidPackage
    | .ok content =>
      match Json.parse? content with
      | some j => .ok (some j)
      | none => .error .invalidPackage
  else .ok none

/-- The file of a directory: the main file of its package, or its index. -/
def asDirectory (r : ModuleResolver) (directory : Path) : Search (Option Path) := do
  let package ← r.package? directory
  let mains := mainFields.filterMap fun name => (package.bind (·.find? name)).bind (·.text?)
  let main := mains.findSome? fun name =>
    let p := descend directory name
    (r.asFile p).or (r.asIndex p)
  return main.or (r.asIndex directory)

/-- The file or directory of a path; only a directory if the specifier says so. -/
def asFileOrDirectory (r : ModuleResolver) (p : Path) (specifier : String) : Search (Option Path) := do
  let isDirectory := specifier == "." || specifier.toList.getLast? == some '/'
  match if isDirectory then none else r.asFile p with
  | some file => return some file
  | none => if r.files.isDirectory p then r.asDirectory p else return none

/-! ## Exports of packages -/

/-- A text in which each asterisk is replaced. -/
def substitute (image : String) (text : String) : String :=
  String.ofList (text.toList.flatMap fun c => if c == '*' then image.toList else [c])

/-- Whether a path behind a package leaves it, or looks into its own packages. -/
def leavesPackage (target : String) : Bool :=
  ((Path.splitSegments target.toList).drop 1).any fun s =>
    s == ['.'] || s == ['.', '.'] || s == "node_modules".toList

/-- Whether a key names a module of the package. -/
def isModuleKey (key : String) : Bool :=
  match key.toList with
  | '.' :: _ | '#' :: _ => true
  | _ => false

/-- The part of a specifier that an asterisk of a key stands for, if the key fits. -/
def matchKey? (key specifier : String) : Option String :=
  let ks := key.toList
  let ss := specifier.toList
  let before := ks.takeWhile (· != '*')
  let behind := ks.drop (before.length + 1)
  if before.length == ks.length || behind.contains '*' then none
  else if !before.isPrefixOf ss then none
  else if behind.isEmpty || (ks.length ≤ ss.length && behind.isSuffixOf ss) then
    some (String.ofList ((ss.drop before.length).take (ss.length - before.length - behind.length)))
  else none

/-- Whether a key says more about a specifier than another one. -/
def isMoreSpecific (key other : String) : Bool :=
  let base (s : String) : Nat := (s.toList.takeWhile (· != '*')).length
  base other < base key || (base key == base other && other.length < key.length)

/-- The most specific key with an asterisk that fits, with what the asterisk stands for. -/
def bestKey? (members : List (String × Json)) (specifier : String) : Option (String × Json) :=
  members.foldl (fun best (key, target) =>
    match matchKey? key specifier with
    | none => best
    | some image =>
      match best with
      | some (bestName, _, _) =>
        if isMoreSpecific key bestName then some (key, image, target) else best
      | none => some (key, image, target))
    (none : Option (String × String × Json)) |>.map fun (_, image, target) => (image, target)

/-- The path that a target of a package leads to. `image` is what asterisks stand for, and `outside`
finds targets in other packages. -/
def target (directory : Path) (image : Option String) (outside : Option (String → Search (Option Path))) :
    Nat → Json → Search (Option Path)
  | 0, _ => .error .invalidTarget
  | fuel + 1, x =>
    match x with
    | .text t =>
      let full := (image.map fun i => substitute i t).getD t
      if "./".toList.isPrefixOf t.toList then
        if leavesPackage full then .error .invalidTarget else .ok (some (descend directory full))
      else
        match outside with
        | some search =>
          if isBare t then search full else .error .invalidTarget
        | none => .error .invalidTarget
    | .object members =>
      firstFound (fun (m : String × Json) =>
        if conditions.contains m.1 then target directory image outside fuel m.2 else .ok none)
        members
    | .array [] => .error .notExported
    | .array items =>
      firstFound (fun j =>
        match target directory image outside fuel j with
        | .ok found => .ok found
        | .error _ => .ok none) items
    | _ => .ok none

/-- The greatest depth of conditions inside of each other. -/
def targetDepth : Nat := 200

/-- The path that a specifier has among the modules that a package names. -/
def namedTarget (directory : Path) (members : List (String × Json)) (specifier : String)
    (outside : Option (String → Search (Option Path))) : Search (Option Path) :=
  if specifier.toList.getLast? == some '/' then .ok none
  else
    match if specifier.contains '*' then none else members.lookup specifier with
    | some x => target directory none outside targetDepth x
    | none =>
      match bestKey? members specifier with
      | some (image, x) => target directory (some image) outside targetDepth x
      | none => .ok none

/-- The path that a package exports under a name that starts with a point. -/
def exported (directory : Path) (exports : Json) (name : String) : Search (Option Path) := do
  let members := (exports.members?).getD []
  let named := members.filter fun m => isModuleKey m.1
  if !named.isEmpty && named.length != members.length then throw .invalidPackage
  let main? : Option Json :=
    match exports with
    | .object _ => (exports.find? ".").or (if named.isEmpty then some exports else none)
    | .text _ | .array _ => some exports
    | _ => none
  let main ← match main? with
    | some x => if name == "." then target directory none none targetDepth x else pure none
    | none => pure none
  match main with
  | some p => return some p
  | none =>
    match ← namedTarget directory members name none with
    | some p => return some p
    | none => throw .notExported

/-- The file at a path that a package leads to, which has to exist. -/
def existing (r : ModuleResolver) (p : Path) : Search (Option Path) := do
  match ← r.asFileOrDirectory p "" with
  | some file => return some file
  | none => throw .notFound

/-! ## Packages -/

/-- The name of the package in a specifier, and what follows it. -/
def packageName (specifier : String) : String × String :=
  let cs := specifier.toList
  let first := cs.takeWhile (· != '/')
  let name := if cs.head? == some '@' && first.length < cs.length then
      first ++ '/' :: (cs.drop (first.length + 1)).takeWhile (· != '/')
    else first
  (String.ofList name, String.ofList (cs.drop name.length))

/-- What a package exports, if it says so. -/
def packageExports (r : ModuleResolver) (directory : Path) (rest : String) : Search (Option Path) := do
  match (← r.package? directory).bind (·.find? "exports") with
  | none | some .null => return none
  | some exports =>
    match ← exported directory exports ("." ++ rest) with
    | some p => r.existing p
    | none => return none

/-- A module in one directory of packages. -/
def inPackages (r : ModuleResolver) (specifier : String) (packages : Path) : Search (Option Path) := do
  let (name, rest) := packageName specifier
  let directory := descend packages name
  if !r.files.isDirectory packages then return none
  else
    let isPackage := r.files.isDirectory directory
    if !isPackage && !rest.isEmpty then return none
    else
      let exported ← if isPackage then r.packageExports directory rest else pure none
      match exported with
      | some p => return some p
      | none =>
        let p := descend packages specifier
        let inDirectory ← if r.files.isDirectory p then r.asDirectory p else pure none
        return inDirectory.or (r.asFile p)

/-- The directories on the way up from one, itself included. -/
def upwards (directory : Path) : List Path :=
  directory :: (if directory.text.isEmpty then [] else directory.ancestors)

/-- The nearest package above a directory, with its description. -/
def scope (r : ModuleResolver) (directory : Path) : Search (Option (Path × Json)) :=
  firstFound (fun d => do return (← r.package? d).map fun j => (d, j)) (upwards directory)

/-- A module that a package refers to by its own name. -/
def ownPackage (r : ModuleResolver) (directory : Path) (specifier : String) : Search (Option Path) := do
  let (name, rest) := packageName specifier
  match ← r.scope directory with
  | none => return none
  | some (d, package) =>
    if (package.find? "name").bind (·.text?) == some name then r.packageExports d rest
    else return none

/-- A module in a package. -/
def fromPackages (r : ModuleResolver) (directory : Path) (specifier : String) : Search (Option Path) := do
  match ← r.ownPackage directory specifier with
  | some p => return some p
  | none =>
    firstFound (fun d => r.inPackages specifier (d.join ⟨"node_modules"⟩)) (upwards directory)

/-- A module to which the package around gives a name that starts with `#`. -/
def fromImports (r : ModuleResolver) (directory : Path) (specifier : String) : Search (Option Path) := do
  match ← r.scope directory with
  | none => return none
  | some (d, package) =>
    match (package.find? "imports").bind (·.members?) with
    | none => return none
    | some members =>
      match ← namedTarget d members specifier (some (r.fromPackages d)) with
      | some p => r.existing p
      | none => throw .notExported

/-! ## Specifiers -/

/-- A specifier without the query and the fragment behind it. -/
def plainSpecifier (specifier : String) : String :=
  match specifier.toList with
  | [] => ""
  | c :: rest => String.ofList (c :: rest.takeWhile fun d => d != '?' && d != '#')

/-- The path of the module that a specifier without a query leads to. -/
def search (r : ModuleResolver) (directory : Path) (specifier : String) : Search (Option Path) :=
  match (Path.components ⟨specifier⟩).head? with
  | some .root => r.asFileOrDirectory ⟨specifier⟩ specifier
  | some .current | some .up => r.asFileOrDirectory (descend directory specifier) specifier
  | _ =>
    if specifier.toList.head? == some '#' then do
      match ← r.fromImports directory specifier with
      | some p => return some p
      | none => r.fromPackages directory specifier
    else r.fromPackages directory specifier

/-- The file that a specifier leads to from the directory of a module, all links followed. -/
def resolveFrom? (r : ModuleResolver) (directory : Path) (specifier : String) : Option Path :=
  let found (specifier : String) : Option Path :=
    if specifier.isEmpty then none
    else
      match r.search directory specifier with
      | .ok (some p) => (r.files.canonical p).toOption
      | _ => none
  let hasQuery := specifier.contains '?'
  if hasQuery then found (plainSpecifier specifier)
  else (found specifier).or (found (plainSpecifier specifier))

/-- The file that a specifier leads to from a module. -/
def resolve? (r : ModuleResolver) (specifier : String) (referrer : Path) : Option Path :=
  r.resolveFrom? (referrer.parent?.getD r.basePath) specifier

/-- What users are told about a specifier that leads nowhere. -/
def unresolvedMessage (specifier : String) : String :=
  "Failed to resolve module '" ++ specifier ++ "': "

end ModuleResolver

end ModuleBuild
