import JackSyntax.CommandLine.Run

/-!
# The command line

Copies the part of the file system that a run can look at into a `Store`, runs on the copy, and
carries out on the file system what the run changed.
-/

namespace JackSyntax

/-- The locations that a path passes through, in order, and the one it leads to. -/
def trail (loc : Location) : List String → List Location
  | [] => [loc]
  | name :: names =>
    loc :: trail (if name = ".." then loc.dropLast else loc ++ [name]) names

/-- The locations that a path passes through, seen from the working directory. -/
def pathTrail (working : Location) (p : Path) : List Location :=
  trail (if p.root = .relative then working else []) p.names

/-- The text of a location. -/
def locationText (loc : Location) : String :=
  "/" ++ "/".intercalate loc

/-- Copies what is at the location, if anything is. -/
def copyNode (s : Store) (loc : Location) : IO Store := do
  let file := (← IO.currentDir) / locationText loc
  if loc.isEmpty || (s.node? loc).isSome then return s
  else if ← file.isDir then return s.put loc .directory
  else if ← file.pathExists then return s.put loc (.file (← IO.FS.readBinFile file))
  else return s

/-- Copies what is directly in the directory at the location. -/
def copyChildren (s : Store) (loc : Location) : IO Store := do
  let file := (← IO.currentDir) / locationText loc
  if ← file.isDir then
    (← file.readDir).foldlM (fun s entry ↦ copyNode s (loc ++ [entry.fileName])) s
  else return s

/-- Copies what a path passes through and what is directly in the directory that it leads to. -/
def copyPath (s : Store) (p : Path) : IO Store := do
  let locations := pathTrail s.working p
  copyChildren (← locations.foldlM copyNode s) (locations.getLastD [])

/-- The paths that a run with the arguments can look at. -/
def pathsOf (a : Arguments) : List Path :=
  let source := Path.ofString a.source
  [source, source.parent] ++ (pathArgument? a.config).toList ++
    (pathArgument? a.outputDir).toList

/-- Where the artifacts of a run with the arguments go. -/
def artifactPaths (s : Store) (a : Arguments) : List Path :=
  match resolveSettings s a with
  | .error _ => []
  | .ok settings =>
    match s.sources settings.source with
    | .error _ => []
    | .ok paths =>
      let o := settings.artifacts
      paths.flatMap fun p ↦ [outputPath p o o.tokenSuffix, outputPath p o ""]

/-- Carries out what is new or different in the second tree. -/
def carryOut (before after : Store) : IO Unit :=
  after.table.forM fun (loc, node) ↦ do
    unless before.node? loc = some node do
      match node with
      | .directory => IO.FS.createDir (locationText loc)
      | .file content => IO.FS.writeBinFile (locationText loc) content

/-- How the program is called. -/
def usage : String :=
  "usage: jackanalyzer [-h] [-o DIR] [--tokens] [--config FILE] [--max-tokens N] [--debug] [-v]\n" ++
    "                    source\n"

/-- Runs with the arguments on the file system; the answer is the status. -/
def runProgram (arguments : List String) : IO UInt32 := do
  let working := (Path.ofString (← IO.currentDir).toString).names
  let start ← (pathTrail [] { root := .absolute, names := working }).foldlM copyNode { working }
  let before ← match Arguments.ofStrings arguments with
    | .ok a =>
      let inputs ← (pathsOf a).foldlM copyPath start
      (artifactPaths inputs a).foldlM copyPath inputs
    | .error _ => pure start
  let (outcome, after) := runArguments arguments before
  carryOut before after
  match outcome with
  | .finished status messages =>
    IO.eprint messages
    return status.toUInt32
  | .refused .help =>
    IO.print usage
    return 0
  | .refused .misuse =>
    IO.eprint usage
    return 2
  | .broken b =>
    IO.eprintln b.message
    return 1

end JackSyntax

/-- The program. -/
def main (arguments : List String) : IO UInt32 :=
  JackSyntax.runProgram arguments
