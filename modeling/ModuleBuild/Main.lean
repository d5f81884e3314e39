import ModuleBuild.Command.Run

/-!
# The program

Reads the files around the working directory, runs one command on them, and carries out what the run
has printed and written. Nothing is decided here.

## Main definitions

* `main` — the program.
-/

namespace ModuleBuild

/-- The place of an absolute path. -/
def placeOf (path : String) : FileTree.Place :=
  (path.splitOn "/").filter (!·.isEmpty)

/-- What a file holds. -/
def readEntry (path : String) : IO FileTree.Entry := do
  match String.fromUTF8? (← IO.FS.readBinFile path) with
  | some content => return .text content
  | none => return .binary

/-- The entries of a directory; those of the directories in it too, if `deep` says so. -/
partial def readDirectory (deep : Bool) (directory : String) :
    IO (List (FileTree.Place × FileTree.Entry)) := do
  let here ← IO.FS.realPath directory
  let mut found := [(placeOf here.toString, FileTree.Entry.directory)]
  for item in ← here.readDir do
    let path := item.path.toString
    match (← item.path.symlinkMetadata).type with
    | .file => found := found ++ [(placeOf path, ← readEntry path)]
    | .symlink =>
      let target := (← IO.FS.realPath path).toString
      found := found ++ [(placeOf path, .link ⟨target⟩)]
    | .dir => if deep then found := found ++ (← readDirectory true path)
    | _ => pure ()
  return found

/-- The files that a command may read: all below the working directory, and those that lie directly in
a directory above it. -/
def readFiles : IO FileTree := do
  let start ← IO.currentDir
  let mut entries ← readDirectory true start.toString
  for above in (Path.ancestors ⟨start.toString⟩) do
    entries := entries ++ (← readDirectory false above.text)
  return { entries, workingDirectory := some (placeOf start.toString) }

/-- Writes a file and the directories above it. -/
def writeText (place : FileTree.Place) (content : String) : IO Unit := do
  let path := (FileTree.pathOf place).text
  IO.FS.createDirAll (FileTree.pathOf place.dropLast).text
  IO.FS.writeFile path content

/-- Tells the user why a run failed. -/
def report (failure : Failure) : IO Unit := do
  IO.eprintln ("Error: " ++ failure.code.getD failure.message)
  if failure.code.isSome then IO.eprintln ("\n  " ++ failure.message)
  match failure.help with
  | some help => IO.eprintln ("  help: " ++ help)
  | none => pure ()

end ModuleBuild

open ModuleBuild in
/-- Runs the command that the words stand for. The exit code is 0 for success, 1 for a failure and 2 if
the words do not fit. -/
def main (words : List String) : IO UInt32 := do
  match Command.ofWords words with
  | none =>
    IO.eprintln CommandTopic.program.help
    return 2
  | some command =>
    let files ← readFiles
    let (answer, console) := (Run.command command).run.run { files }
    for (place, content) in console.files.textsSince files do writeText place content
    IO.print console.output
    IO.eprint console.notes
    match answer with
    | .ok _ => return 0
    | .error failure =>
      report failure
      return 1
