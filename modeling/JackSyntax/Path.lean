/-!
# File paths

Paths in normal form: a root, if there is one, and the names below it. Empty names and single dots
are dropped when a path is read; double dots are kept, since what they mean depends on the files.
-/

namespace JackSyntax

/-- Where a path starts. -/
inductive Path.Root where
  /-- At the working directory. -/
  | relative
  /-- At the root directory. -/
  | absolute
  /-- At the root directory, written with exactly two slashes. -/
  | doubled
deriving DecidableEq, Repr

/-- A path in normal form. -/
structure Path where
  /-- Where it starts. -/
  root : Path.Root
  /-- The names on the way, none of them empty or a single dot. -/
  names : List String
deriving DecidableEq, Repr

namespace Path

/-- The parts of a text between slashes. -/
def segments : List Char → List (List Char)
  | [] => [[]]
  | c :: rest =>
    if c = '/' then [] :: segments rest
    else
      match segments rest with
      | [] => [[c]]
      | part :: parts => (c :: part) :: parts

/-- The root that a text asks for: two slashes differ from one, three or more do not. -/
def rootOf : List Char → Root
  | '/' :: '/' :: '/' :: _ => .absolute
  | '/' :: '/' :: _ => .doubled
  | '/' :: _ => .absolute
  | _ => .relative

/-- The path that a text writes. -/
def ofString (text : String) : Path where
  root := rootOf text.toList
  names := ((segments text.toList).map String.ofList).filter fun name ↦ name != "" && name != "."

/-- The slashes that write a root. -/
def Root.text : Root → String
  | relative => ""
  | absolute => "/"
  | doubled => "//"

/-- The text of the path. The path without names that starts nowhere is a single dot. -/
def text (p : Path) : String :=
  if p.root = .relative && p.names.isEmpty then "." else p.root.text ++ "/".intercalate p.names

/-- The last name, empty if there is none. -/
def name (p : Path) : String :=
  p.names.getLast?.getD ""

/-- The path without its last name, and the path itself where there is none. -/
def parent (p : Path) : Path :=
  { p with names := p.names.dropLast }

/-- A name before and from its last dot. A dot at either end of the name does not count. -/
def splitName (name : String) : String × String :=
  let chars := name.toList
  let ending := chars.reverse.takeWhile (· != '.')
  let stem := (chars.reverse.dropWhile (· != '.')).drop 1
  if ending.isEmpty || stem.isEmpty then (name, "")
  else (String.ofList stem.reverse, String.ofList ('.' :: ending.reverse))

/-- The last name without its ending. -/
def stem (p : Path) : String :=
  (splitName p.name).1

/-- The ending of the last name, with its dot. -/
def suffix (p : Path) : String :=
  (splitName p.name).2

/-- The second path as seen from the first. An absolute path is seen from nowhere. -/
def join (p q : Path) : Path :=
  if q.root = .relative then { p with names := p.names ++ q.names } else q

/-- The path of a direct child. -/
def child (p : Path) (name : String) : Path :=
  { p with names := p.names ++ [name] }

end Path

end JackSyntax
