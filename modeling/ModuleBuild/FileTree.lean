import ModuleBuild.Path.Basic

/-!
# File trees

A snapshot of the files that a build may read, with symbolic links. Each access either answers or
says why it cannot, as a file system would.

## Main definitions

* `FileTree` — the snapshot and the directory that relative paths start from.
* `FileTree.canonical` — the place a path leads to, all links followed.
* `FileTree.readText`, `FileTree.isFile` — reading.
* `FileTree.write`, `FileTree.createDirectories`, `FileTree.remove` — changes.
* `FileTree.textsSince` — what changes have written.
-/

namespace ModuleBuild

/-- What stands at a place of the tree. -/
inductive FileTree.Entry where
  | text (content : String)
  /-- A file whose bytes are not text. -/
  | binary
  | directory
  /-- A symbolic link. -/
  | link (target : Path)
  deriving Inhabited

/-- Why an access fails. -/
inductive FileError where
  | notFound
  | isDirectory
  | notDirectory
  | notText
  | linkLoop
  deriving DecidableEq, Inhabited, Repr

/-- The names from the root down to an entry. -/
abbrev FileTree.Place := List String

/-- A snapshot of files. -/
structure FileTree where
  /-- The entries, an earlier one before a later one of the same place. -/
  entries : List (FileTree.Place × FileTree.Entry)
  /-- Where relative paths start; none if they name nothing. -/
  workingDirectory : Option FileTree.Place
  deriving Inhabited

namespace FileTree

/-- The tree without any file. -/
def empty : FileTree := ⟨[], none⟩

/-- The entry at a place. A place above an entry is a directory. -/
def entryAt? (tree : FileTree) (place : Place) : Option Entry :=
  match tree.entries.find? (·.1 == place) with
  | some (_, e) => some e
  | none =>
    if place.isEmpty || tree.entries.any (fun e => place.isPrefixOf e.1) then some .directory
    else none

/-- The path of a place. -/
def pathOf (place : Place) : Path :=
  ⟨"/" ++ String.intercalate "/" place⟩

/-- A step on the way to an entry. -/
inductive Step where
  | up
  | down (name : String)

/-- The steps of a path below its root or start, and whether a directory has to stand at its end. -/
def stepsOf (p : Path) : List Step :=
  p.components.filterMap fun
    | .root | .current => none
    | .up => some .up
    | .name s => some (.down s)

/-- Walks from a place along steps and follows links; `fuel` bounds the steps taken. -/
def walk (tree : FileTree) : Nat → Place → List Step → Except FileError Place
  | 0, _, _ => .error .linkLoop
  | _ + 1, place, [] => .ok place
  | fuel + 1, place, .up :: rest => walk tree fuel place.dropLast rest
  | fuel + 1, place, .down name :: rest =>
    let next := place ++ [name]
    match tree.entryAt? next with
    | none => .error .notFound
    | some .directory => walk tree fuel next rest
    | some (.link target) =>
      walk tree fuel (if target.isAbsolute then [] else place) (stepsOf target ++ rest)
    | some _ => if rest.isEmpty then .ok next else .error .notDirectory

/-- The greatest number of steps of one look-up. -/
def walkLimit : Nat := 10000

/-- Whether the text of a path ends in a way that only a directory can have. -/
def endsAsDirectory (p : Path) : Bool :=
  match p.text.toList.reverse with
  | '/' :: _ | '.' :: '/' :: _ => true
  | _ => false

/-- The place a path leads to. -/
def locate (tree : FileTree) (p : Path) : Except FileError Place :=
  let start : Option Place := if p.isAbsolute then some [] else tree.workingDirectory
  match start with
  | none => .error .notFound
  | some start =>
    if p.text.isEmpty then .error .notFound
    else
      match tree.walk walkLimit start (stepsOf p) with
      | .error e => .error e
      | .ok place =>
        match tree.entryAt? place with
        | some .directory => .ok place
        | some _ => if endsAsDirectory p then .error .notDirectory else .ok place
        | none => .error .notFound

/-- The path of the place that a path leads to. -/
def canonical (tree : FileTree) (p : Path) : Except FileError Path :=
  (tree.locate p).map pathOf

/-- The text of a file. -/
def readText (tree : FileTree) (p : Path) : Except FileError String := do
  let place ← tree.locate p
  match tree.entryAt? place with
  | some (.text s) => .ok s
  | some .binary => .error .notText
  | some .directory => .error .isDirectory
  | _ => .error .notFound

/-- Whether a path leads to a file. -/
def isFile (tree : FileTree) (p : Path) : Bool :=
  match tree.locate p with
  | .error _ => false
  | .ok place =>
    match tree.entryAt? place with
    | some (.text _) | some .binary => true
    | _ => false

/-- Whether a path leads to a directory. -/
def isDirectory (tree : FileTree) (p : Path) : Bool :=
  match tree.locate p with
  | .error _ => false
  | .ok place =>
    match tree.entryAt? place with
    | some .directory => true
    | _ => false

/-- Puts an entry at a place. -/
def put (tree : FileTree) (place : Place) (e : Entry) : FileTree :=
  { tree with entries := tree.entries.filter (·.1 != place) ++ [(place, e)] }

/-- Writes a text file. Its directory has to exist. -/
def write (tree : FileTree) (p : Path) (content : String) : Except FileError FileTree := do
  match tree.locate p with
  | .ok place =>
    match tree.entryAt? place with
    | some .directory => .error .isDirectory
    | _ => .ok (tree.put place (.text content))
  | .error .notFound =>
    let some name := p.fileName? | .error .notFound
    if endsAsDirectory p then .error .isDirectory
    let some parent := p.parent? | .error .notFound
    let place ← if parent.text.isEmpty then
        match tree.workingDirectory with
        | some place => .ok place
        | none => .error .notFound
      else tree.locate parent
    match tree.entryAt? place with
    | some .directory => .ok (tree.put (place ++ [name]) (.text content))
    | _ => .error .notDirectory
  | .error e => .error e

/-- Creates the directories of a place that do not exist yet, names in `rest` below `place`. -/
def createBelow (tree : FileTree) (place : Place) : List String → Except FileError FileTree
  | [] => .ok tree
  | name :: rest =>
    let next := place ++ [name]
    match tree.entryAt? next with
    | none => createBelow (tree.put next .directory) next rest
    | some .directory => createBelow tree next rest
    | some _ => .error .notDirectory

/-- Creates a directory and the ones above it. -/
def createDirectories (tree : FileTree) (p : Path) : Except FileError FileTree :=
  if tree.isDirectory p then .ok tree
  else
    let start : Option Place := if p.isAbsolute then some [] else tree.workingDirectory
    match start with
    | none => .error .notFound
    | some start =>
      let names := p.components.filterMap fun
        | .name s => some s
        | _ => none
      createBelow tree start names

/-- Removes the entry at a path, the link itself if it is one. -/
def remove (tree : FileTree) (p : Path) : FileTree :=
  match p.fileName?, p.parent?.map tree.locate with
  | some name, some (.ok place) =>
    { tree with entries := tree.entries.filter (·.1 != place ++ [name]) }
  | _, _ => tree

/-- The text files that are not the same in an earlier tree. -/
def textsSince (tree earlier : FileTree) : List (Place × String) :=
  tree.entries.filterMap fun (place, e) =>
    match e, earlier.entryAt? place with
    | .text s, some (.text t) => if s == t then none else some (place, s)
    | .text s, _ => some (place, s)
    | _, _ => none

end FileTree

end ModuleBuild
