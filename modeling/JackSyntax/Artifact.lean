import JackSyntax.Analysis
import JackSyntax.Store.Basic
import JackSyntax.Text.Lines
import JackSyntax.Text.Utf8

/-!
# Sources and artifacts in a file tree

Which files of a tree are sources, where the artifacts of a source go and what they hold. A source
is read and analyzed as a whole before anything is written (`unitArtifacts`), so a source at fault
leaves the tree as it was; `analyzeFile` then writes.
-/

namespace JackSyntax

/-- Where artifacts go and which ones there are. -/
structure ArtifactOptions where
  /-- The directory for all artifacts, in place of that of each source. -/
  outputDir : Option Path := none
  /-- The ending of artifact names, without its dot. -/
  extension : String := "xml"
  /-- What the name of a listing has after the name of its source. -/
  tokenSuffix : String := "T"
  /-- Whether there are listings. -/
  writeTokens : Bool := false
  /-- The limit on tokens. -/
  maxTokens : Int := ({} : Limits).maxTokens
deriving DecidableEq, Repr

/-- The bounds within which sources are read. -/
def ArtifactOptions.limits (o : ArtifactOptions) : Limits :=
  { maxTokens := o.maxTokens }

/-- The ending of the names of sources. -/
def sourceSuffix : String := ".jack"

/-- Where an artifact of the source goes: its name without ending, then the suffix and the ending of
artifacts. -/
def outputPath (p : Path) (o : ArtifactOptions) (suffix : String) : Path :=
  (o.outputDir.getD p.parent).join (.ofString (p.stem ++ suffix ++ "." ++ o.extension))

/-- Why there are no sources at a path. -/
inductive SourcesError where
  /-- There is nothing at the path. -/
  | missing (path : Path)
  /-- A failed operation on files. -/
  | file (e : FileError)
deriving DecidableEq, Repr

/-- The wording of the error. -/
def SourcesError.message : SourcesError → String
  | missing path => "no such file or directory: " ++ path.text
  | file e => e.message

namespace Store

/-- The sources among the paths, which are files with the ending of sources. -/
def onlySources (s : Store) : List Path → Except FileError (List Path)
  | [] => .ok []
  | p :: paths => do
    let isSource := (← s.isFile p) && p.suffix == sourceSuffix
    let others ← s.onlySources paths
    return if isSource then p :: others else others

/-- The sources at the path: the sources directly in a directory, by name, or the file itself. -/
def sources (s : Store) (p : Path) : Except SourcesError (List Path) :=
  match s.at? p with
  | .error e => .error (.file e)
  | .ok none => .error (.missing p)
  | .ok (some (.file _)) => .ok [p]
  | .ok (some .directory) =>
    (do s.onlySources (← s.children p)).mapError .file

end Store

/-- Why a source has no artifacts. -/
inductive UnitError where
  /-- A complaint about the source. -/
  | diagnostic (d : Diagnostic)
  /-- Bytes that are not UTF-8. -/
  | encoding (e : Utf8.DecodeError)
  /-- A failed operation on files. -/
  | file (e : FileError)
  /-- Events that make no tree. -/
  | markup (e : MarkupError)
deriving DecidableEq, Repr

/-- A failed analysis as the error of a unit. -/
def UnitError.ofFailure : Source.Failure → UnitError
  | .diagnostic d => diagnostic d
  | .markup e => markup e

/-- The source that the file at the path holds. Its lines end in single line feeds, however they end
in the file. -/
def readSource (s : Store) (p : Path) : Except UnitError Source :=
  match s.read p with
  | .error e => .error (.file e)
  | .ok bytes =>
    match Utf8.decode bytes with
    | .error e => .error (.encoding e)
    | .ok text => .ok { name := p.text, text := String.ofList (unixLines text) }

/-- A text and where it goes. -/
structure Artifact where
  /-- Where it goes. -/
  path : Path
  /-- The text. -/
  text : String
deriving DecidableEq, Repr

/-- The artifacts of a source: its listing, if there are listings, and its tree. -/
def sourceArtifacts (source : Source) (p : Path) (o : ArtifactOptions) :
    Except UnitError (List Artifact) := do
  let listing ←
    if o.writeTokens then
      match source.listing o.limits with
      | .error d => .error (.diagnostic d)
      | .ok text => pure [⟨outputPath p o o.tokenSuffix, text⟩]
    else pure []
  let tree ← (source.tree o.limits).mapError .ofFailure
  return listing ++ [⟨outputPath p o "", tree⟩]

/-- The artifacts of the file at the path. -/
def unitArtifacts (s : Store) (p : Path) (o : ArtifactOptions) :
    Except UnitError (List Artifact) := do
  sourceArtifacts (← readSource s p) p o

/-- Writes artifacts in order, up to the first that cannot be written. -/
def writeArtifacts (s : Store) : List Artifact → Except FileError Unit × Store
  | [] => (.ok (), s)
  | a :: artifacts =>
    match s.write a.path a.text.toUTF8 with
    | .error e => (.error e, s)
    | .ok s => writeArtifacts s artifacts

/-- Makes the output directory, if one is asked for. -/
def makeOutputDir (s : Store) (o : ArtifactOptions) : Except FileError Unit × Store :=
  match o.outputDir with
  | none => (.ok (), s)
  | some dir => s.ensureDirectory dir

/-- Analyzes the file at the path and writes its artifacts; the answer is where they are. -/
def analyzeFile (s : Store) (p : Path) (o : ArtifactOptions) :
    Except UnitError (List Path) × Store :=
  match unitArtifacts s p o with
  -- Nothing has been written yet.
  | .error e => (.error e, s)
  | .ok artifacts =>
    match makeOutputDir s o with
    | (.error e, s) => (.error (.file e), s)
    | (.ok (), s) =>
      match writeArtifacts s artifacts with
      | (.error e, s) => (.error (.file e), s)
      | (.ok (), s) => (.ok (artifacts.map Artifact.path), s)

end JackSyntax
