import JackSyntax.CommandLine.Settings
import JackSyntax.Diagnostic.Snippet
import JackSyntax.Dump

/-!
# Runs

A run analyzes its sources one after the other and reports each that is at fault; the others are not
affected. A failed operation on files ends it. What it reports goes to standard error; nothing goes
to standard output. The status is 0 if all sources were analyzed, 1 if some were at fault, and 2 if
the settings or an operation on files failed.
-/

namespace JackSyntax

/-- A run in progress. -/
structure Progress where
  /-- The file tree now. -/
  store : Store
  /-- What has been reported. -/
  messages : String := ""
  /-- Whether a source was at fault. -/
  failed : Bool := false

/-- Adds to what has been reported. -/
def Progress.report (g : Progress) (message : String) : Progress :=
  { g with messages := g.messages ++ message }

/-- Reports a source at fault. -/
def Progress.fail (g : Progress) (message : String) : Progress :=
  { g.report message with failed := true }

/-- What ends a run early. -/
inductive Abort where
  /-- A failed operation on files. -/
  | file (e : FileError)
  /-- What is not reported. -/
  | breakdown (b : Breakdown)
deriving DecidableEq, Repr

/-- A failed operation on files as the end of a run. -/
def Abort.ofFileError : FileError → Abort
  | .nullByte => breakdown .nullByte
  | e => file e

/-- Reports the error of a source, or ends the run if it is not the source that is at fault. -/
def Progress.settle (g : Progress) (p : Path) : UnitError → Except Abort Progress
  | .diagnostic d => .ok (g.fail (d.text ++ "\n"))
  | .encoding e =>
    .ok (g.fail ("error: " ++ p.text ++ " is not valid UTF-8 (" ++ e.fault.message ++ " at byte " ++
      toString e.offset ++ ")\n"))
  | .file e => .error (.ofFileError e)
  | .markup e => .error (.breakdown (.markup e))

/-- The dump of a source: its tokens as far as they can be read, and its events. With it comes the
complaint that cuts it short, if one does. -/
def debugDump (source : Source) (limits : Limits) : String × Option Diagnostic :=
  let reading := source.reading limits
  let tokens := "== " ++ source.name ++ "\n" ++ dumpTokens reading.tokens
  match reading.failure with
  | some e => (tokens, some (e.diagnostic source))
  -- Events are dumped only as a whole.
  | none =>
    match source.events limits with
    | .error d => (tokens, some d)
    | .ok events => (tokens ++ dumpEvents events, none)

/-- Dumps the source at the path, if dumps are asked for; an error is what cuts the dump short. -/
def runDump (settings : Settings) (g : Progress) (p : Path) : Except UnitError Unit × Progress :=
  if settings.debug then
    match readSource g.store p with
    | .error e => (.error e, g)
    | .ok source =>
      match debugDump source settings.artifacts.limits with
      | (dump, some d) => (.error (.diagnostic d), g.report dump)
      | (dump, none) => (.ok (), g.report dump)
  else (.ok (), g)

/-- What is reported of written files. -/
def writtenReport (settings : Settings) (written : List Path) : String :=
  if settings.verbose then String.join (written.map fun p ↦ "Wrote " ++ p.text ++ "\n") else ""

/-- Analyzes the source at the path. -/
def runUnit (settings : Settings) (g : Progress) (p : Path) : Option Abort × Progress :=
  let settle := fun (g : Progress) (e : UnitError) ↦
    match g.settle p e with
    | .ok g => (none, g)
    | .error abort => (some abort, g)
  match runDump settings g p with
  | (.error e, g) => settle g e
  | (.ok (), g) =>
    match analyzeFile g.store p settings.artifacts with
    | (.error e, store) => settle { g with store } e
    | (.ok written, store) => (none, { g with store }.report (writtenReport settings written))

/-- Analyzes the sources in order, up to one that ends the run. -/
def runUnits (settings : Settings) (g : Progress) : List Path → Option Abort × Progress
  | [] => (none, g)
  | p :: paths =>
    match runUnit settings g p with
    | (none, g) => runUnits settings g paths
    | (some abort, g) => (some abort, g)

/-- How a run ends. -/
inductive Outcome where
  /-- With a status, after reports. -/
  | finished (status : Nat) (messages : String)
  /-- With an answer about the arguments alone. -/
  | refused (r : Refusal)
  /-- With what is not reported. -/
  | broken (b : Breakdown)
deriving DecidableEq, Repr

/-- Reports why a run ends early. -/
def Progress.finish (g : Progress) : Option Abort → Outcome
  | none => .finished (if g.failed then 1 else 0) g.messages
  | some (.file e) => .finished 2 (g.messages ++ "error: " ++ e.message ++ "\n")
  | some (.breakdown b) => .broken b

/-- A run by its settings, and the file tree after it. -/
def run (settings : Settings) (store : Store) : Outcome × Store :=
  match store.sources settings.source with
  | .error e => (.finished 2 ("error: " ++ e.message ++ "\n"), store)
  | .ok paths =>
    let (abort, g) := runUnits settings { store } paths
    (g.finish abort, g.store)

/-- What is reported of a malformed configuration file in place of the words of its format. -/
def malformedMessage : String := "<toml>"

/-- A run by its arguments, and the file tree after it. -/
def runArguments (arguments : List String) (store : Store) : Outcome × Store :=
  match Arguments.ofStrings arguments with
  | .error r => (.refused r, store)
  | .ok a =>
    match resolveSettings store a with
    | .error (.fault f) => (.finished 2 ("error: " ++ f.message ++ "\n"), store)
    | .error .malformed => (.finished 2 ("error: " ++ malformedMessage ++ "\n"), store)
    | .error (.file e) => (.finished 2 ("error: " ++ e.message ++ "\n"), store)
    | .error (.breakdown b) => (.broken b, store)
    | .ok settings => run settings store

end JackSyntax
