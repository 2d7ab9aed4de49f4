import JackSyntax.Path
import JackSyntax.Text.Quoted

/-!
# File trees

A `Store` is a tree of directories and files as a table from locations to nodes, together with the
working directory. A location lists the names from the root directory down, without dots; the root
directory is always there. A path leads to a location if every name before its last leads to a
directory (`Store.locate`); the location itself may be vacant. Paths and the names on them must not
be too long.

Operations that change the tree return the new one, and their errors cite the path they were given.
-/

namespace JackSyntax

/-- The names from the root directory down. -/
abbrev Location := List String

/-- What a location holds. -/
inductive Node where
  /-- A file with its bytes. -/
  | file (content : ByteArray)
  /-- A directory. -/
  | directory

instance : DecidableEq Node
  | .file a, .file b => @decidable_of_iff _ (a = b) (by simp) (ByteArray.instDecidableEq a b)
  | .directory, .directory => isTrue rfl
  | .file _, .directory => isFalse (by simp)
  | .directory, .file _ => isFalse (by simp)

/-- Whether the node is a file. -/
def Node.isFile : Node → Bool
  | file _ => true
  | directory => false

/-- Why an operation on files fails. -/
inductive FileFault where
  | notFound | exists | notDirectory | isDirectory | nameTooLong
deriving DecidableEq, Repr

namespace FileFault

/-- The number of the fault. -/
def code : FileFault → Nat
  | notFound => 2
  | «exists» => 17
  | notDirectory => 20
  | isDirectory => 21
  | nameTooLong => 36

/-- The fault in words. -/
def text : FileFault → String
  | notFound => "No such file or directory"
  | «exists» => "File exists"
  | notDirectory => "Not a directory"
  | isDirectory => "Is a directory"
  | nameTooLong => "File name too long"

end FileFault

/-- A failed operation on files. -/
inductive FileError where
  /-- A fault, at the path that the operation was given. -/
  | fault (fault : FileFault) (path : Path)
  /-- A path that holds a null character, which no operation takes. -/
  | nullByte
deriving DecidableEq, Repr

/-- The wording of the error. -/
def FileError.message : FileError → String
  | fault f path => "[Errno " ++ toString f.code ++ "] " ++ f.text ++ ": " ++ quoted path.text
  | nullByte => "embedded null byte"

/-- The most bytes of a name. -/
def maxNameBytes : Nat := 255

/-- The most bytes of a path as it is written. -/
def maxPathBytes : Nat := 4095

/-! ### Tables of nodes -/

/-- The table with the node at the location, in place of any other there. -/
def setNode (loc : Location) (node : Node) : List (Location × Node) → List (Location × Node)
  | [] => [(loc, node)]
  | (l, n) :: rest => if l = loc then (loc, node) :: rest else (l, n) :: setNode loc node rest

/-- Setting a node changes what is at its location and nothing else. -/
theorem lookup_setNode (loc l : Location) (node : Node) (table : List (Location × Node)) :
    (setNode loc node table).lookup l = if l = loc then some node else table.lookup l := by
  induction table with
  | nil => by_cases h : l = loc <;> simp [setNode, List.lookup_cons, h, beq_eq_false_iff_ne.2]
  | cons entry rest ih =>
    obtain ⟨k, n⟩ := entry
    by_cases hk : k = loc
    · subst hk
      by_cases h : l = k
      · simp [setNode, h]
      · simp [setNode, List.lookup_cons, beq_eq_false_iff_ne.2 h, h]
    · by_cases h : l = k
      · subst h
        simp [setNode, hk]
      · simp [setNode, hk, List.lookup_cons, beq_eq_false_iff_ne.2 h, ih]

/-- No other location becomes one of the table. -/
theorem mem_keys_setNode {loc l : Location} {node : Node} {table : List (Location × Node)}
    (h : l ∈ (setNode loc node table).map Prod.fst) : l = loc ∨ l ∈ table.map Prod.fst := by
  induction table with
  | nil => simpa [setNode] using h
  | cons entry rest ih =>
    obtain ⟨k, n⟩ := entry
    by_cases hk : k = loc
    · subst hk
      simpa [setNode] using h
    · simp only [setNode, hk, if_false, List.map_cons, List.mem_cons] at h
      rcases h with rfl | h
      · simp
      · rcases ih h with rfl | h
        · exact .inl rfl
        · exact .inr (List.mem_cons_of_mem _ h)

/-- Each location stays in the table once. -/
theorem nodup_setNode {loc : Location} {node : Node} {table : List (Location × Node)}
    (h : (table.map Prod.fst).Nodup) : ((setNode loc node table).map Prod.fst).Nodup := by
  induction table with
  | nil => simp [setNode]
  | cons entry rest ih =>
    obtain ⟨k, n⟩ := entry
    simp only [List.map_cons, List.nodup_cons] at h
    by_cases hk : k = loc
    · subst hk
      simpa [setNode] using h
    · simp only [setNode, hk, if_false, List.map_cons, List.nodup_cons]
      refine ⟨fun hmem ↦ ?_, ih h.2⟩
      rcases mem_keys_setNode hmem with rfl | hmem
      · exact hk rfl
      · exact h.1 hmem

/-! ### The store -/

/-- A file tree and the working directory. -/
structure Store where
  /-- The nodes at their locations. -/
  table : List (Location × Node) := []
  /-- Each location has one node. -/
  table_nodup : (table.map Prod.fst).Nodup := by exact List.nodup_nil
  /-- The working directory. -/
  working : Location := []

namespace Store

/-- What the location holds. -/
def node? (s : Store) (loc : Location) : Option Node :=
  if loc = [] then some .directory else s.table.lookup loc

/-- The store with the node at the location. -/
def put (s : Store) (loc : Location) (node : Node) : Store :=
  { s with table := setNode loc node s.table, table_nodup := nodup_setNode s.table_nodup }

/-- The store without what the location holds. -/
def erase (s : Store) (loc : Location) : Store :=
  { s with
    table := s.table.filter fun entry ↦ entry.1 != loc
    table_nodup := (List.filter_sublist.map Prod.fst).nodup s.table_nodup }

/-- Putting a node somewhere changes what is there and nothing else. -/
theorem node?_put (s : Store) {loc : Location} (h : loc ≠ []) (l : Location) (node : Node) :
    (s.put loc node).node? l = if l = loc then some node else s.node? l := by
  by_cases hl : l = []
  · subst hl
    simp [node?, h.symm]
  · simp [node?, put, hl, lookup_setNode]

/-- The location that the names lead to from another one: each of them is looked up in a directory,
where it must not be too long, and a double dot leads one up. -/
def locateFrom (s : Store) (loc : Location) : List String → Except FileFault Location
  | [] => .ok loc
  | name :: names =>
    match s.node? loc with
    | none => .error .notFound
    | some (.file _) => .error .notDirectory
    | some .directory =>
      -- A name is measured only where it is looked up, after the directory was found.
      if maxNameBytes < name.utf8ByteSize then .error .nameTooLong
      else locateFrom s (if name = ".." then loc.dropLast else loc ++ [name]) names

/-- The location that a path leads to. -/
def locate (s : Store) (p : Path) : Except FileError Location :=
  if p.names.any (·.toList.contains '\x00') then .error .nullByte
  else if maxPathBytes < p.text.utf8ByteSize then .error (.fault .nameTooLong p)
  else
    (s.locateFrom (if p.root = .relative then s.working else []) p.names).mapError (.fault · p)

/-- What the path leads to. A path that leads nowhere leads to nothing, but one that is too long is
an error. -/
def at? (s : Store) (p : Path) : Except FileError (Option Node) :=
  match s.locate p with
  | .ok loc => .ok (s.node? loc)
  | .error (.fault .nameTooLong q) => .error (.fault .nameTooLong q)
  | .error _ => .ok none

/-- Whether the path leads to a directory. -/
def isDirectory (s : Store) (p : Path) : Except FileError Bool :=
  (s.at? p).map fun node ↦ decide (node = some .directory)

/-- Whether the path leads to a file. -/
def isFile (s : Store) (p : Path) : Except FileError Bool :=
  (s.at? p).map fun node ↦ node.any Node.isFile

/-- The bytes of the file at the path. -/
def read (s : Store) (p : Path) : Except FileError ByteArray :=
  match s.locate p with
  | .error e => .error e
  | .ok loc =>
    match s.node? loc with
    | some (.file content) => .ok content
    | some .directory => .error (.fault .isDirectory p)
    | none => .error (.fault .notFound p)

/-- Writes the file at the path, new or in place of an older one. -/
def write (s : Store) (p : Path) (content : ByteArray) : Except FileError Store :=
  match s.locate p with
  | .error e => .error e
  | .ok loc =>
    match s.node? loc with
    | some .directory => .error (.fault .isDirectory p)
    | _ => .ok (s.put loc (.file content))

/-- Makes the directory at the path, where nothing may be yet. -/
def makeDirectory (s : Store) (p : Path) : Except FileError Store :=
  match s.locate p with
  | .error e => .error e
  | .ok loc =>
    match s.node? loc with
    | none => .ok (s.put loc .directory)
    | some _ => .error (.fault .exists p)

/-- Passes over the error of making a directory if it is there. -/
def allowDirectory (s : Store) (p : Path) (e : FileError) : Except FileError Unit :=
  match s.isDirectory p with
  | .ok true => .ok ()
  | .ok false => .error e
  | .error e => .error e

/-- Makes the directory at the path unless it is there. -/
def keepDirectory (s : Store) (p : Path) : Except FileError Unit × Store :=
  match s.makeDirectory p with
  | .ok s => (.ok (), s)
  | .error e => (s.allowDirectory p e, s)

/-- Makes the directory at the path unless it is there, after the directories above it. -/
def ensureDirectory (s : Store) (p : Path) : Except FileError Unit × Store :=
  match s.makeDirectory p with
  | .ok s => (.ok (), s)
  -- Only a missing directory above is made good; any other error is final.
  | .error (.fault .notFound q) =>
    if _ : p.names = [] then (.error (.fault .notFound q), s)
    else
      match s.ensureDirectory p.parent with
      | (.error e, s) => (.error e, s)
      | (.ok (), s) => s.keepDirectory p
  | .error e => (s.allowDirectory p e, s)
termination_by p.names.length
decreasing_by
  rename_i h
  have := List.length_pos_iff.2 h
  simp only [Path.parent, List.length_dropLast]
  omega

/-- Removes the file at the path. -/
def remove (s : Store) (p : Path) : Except FileError Store :=
  match s.locate p with
  | .error e => .error e
  | .ok loc =>
    match s.node? loc with
    | some (.file _) => .ok (s.erase loc)
    | some .directory => .error (.fault .isDirectory p)
    | none => .error (.fault .notFound p)

/-- The names directly below the location, ascending. -/
def childNames (s : Store) (loc : Location) : List String :=
  let names := s.table.filterMap fun entry ↦
    if entry.1 ≠ [] ∧ entry.1.dropLast = loc then entry.1.getLast? else none
  names.mergeSort fun a b ↦ a ≤ b

/-- The paths of what is in the directory at the path, by name. -/
def children (s : Store) (p : Path) : Except FileError (List Path) :=
  match s.locate p with
  | .error e => .error e
  | .ok loc =>
    match s.node? loc with
    | some .directory => .ok ((s.childNames loc).map p.child)
    | some (.file _) => .error (.fault .notDirectory p)
    | none => .error (.fault .notFound p)

end Store

end JackSyntax
