import JackSyntax.Analysis

/-!
# Diagnostics in an editor

What an editor is told about a document each time it is opened or changed: all complaints about it,
none or one, with places that count from zero.
-/

namespace JackSyntax

namespace Editor

/-- A place in a document, both numbers from zero. -/
structure Place where
  /-- The line. -/
  line : Int
  /-- The character in the line. -/
  character : Int
deriving DecidableEq, Repr

/-- The place of a position. -/
def Place.ofPosition (p : Position) : Place :=
  ⟨p.line - 1, p.column - 1⟩

/-- A complaint as an editor shows it. All complaints are errors. -/
structure Mark where
  /-- Where the marked text begins. -/
  start : Place
  /-- Where it has ended. -/
  stop : Place
  /-- What is wrong. -/
  message : String
  /-- How grave it is, one being an error. -/
  severity : Nat
  /-- Who says so. -/
  source : String
deriving DecidableEq, Repr

/-- The complaint as an editor shows it. -/
def Mark.ofDiagnostic (d : Diagnostic) : Mark where
  start := .ofPosition d.span.start
  stop := .ofPosition d.span.stop
  message := d.message
  severity := 1
  source := "jackanalyzer"

/-- What is told of a document. -/
structure Publication where
  /-- The document. -/
  uri : String
  /-- All complaints about it. -/
  marks : List Mark
deriving DecidableEq, Repr

/-- The name under which a document is analyzed: the last segment of its address. -/
def documentName (uri : String) : String :=
  String.ofList (uri.toList.reverse.takeWhile (· != '/')).reverse

/-- What is told of a document that holds the text. -/
def publish (uri text : String) : Publication where
  uri
  marks :=
    match ({ name := documentName uri, text } : Source).events {} with
    | .ok _ => []
    | .error d => [.ofDiagnostic d]

end Editor

end JackSyntax
