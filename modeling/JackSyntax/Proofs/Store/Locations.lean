import JackSyntax.Proofs.Artifact.NullCharacter

/-!
# Where paths lead as a store changes

A path leads somewhere by directories alone, so it still leads there in every store that has these
directories (`Store.Keeps`). In particular files may come, go and change their content.

## Main statements

* `Store.Keeps.locate`: a path leads where it did as long as the directories are kept.
* `Store.locate_child`: a name in a directory leads to the location below it.
-/

namespace JackSyntax

/-- Whether the path is one that operations on files take: it has no null character and is not too
long. -/
def Path.IsUsable (p : Path) : Prop :=
  ¬ p.HasNull ∧ ¬ maxPathBytes < p.text.utf8ByteSize

namespace Store

variable {s s' s'' : Store} {loc l : Location} {name : String} {names more : List String} {p : Path}

/-! ### Following names -/

/-- A name that is followed is followed from a directory. -/
theorem locateFrom_cons_ok (h : s.locateFrom loc (name :: names) = .ok l) :
    s.node? loc = some .directory ∧ ¬ maxNameBytes < name.utf8ByteSize ∧
      s.locateFrom (if name = ".." then loc.dropLast else loc ++ [name]) names = .ok l := by
  rw [locateFrom] at h
  split at h
  · simp at h
  · simp at h
  · rename_i hnode
    split at h
    · simp at h
    · rename_i hshort
      exact ⟨hnode, hshort, h⟩

/-- One name is followed from a directory: two dots lead back, and any other name leads on. -/
theorem locateFrom_cons_of_directory (hnode : s.node? loc = some .directory)
    (hshort : ¬ maxNameBytes < name.utf8ByteSize) :
    s.locateFrom loc (name :: names) =
      s.locateFrom (if name = ".." then loc.dropLast else loc ++ [name]) names := by
  rw [locateFrom, hnode]
  simp only [hshort, if_false]

/-- Names are followed one after the other, so a path may be cut anywhere. -/
theorem locateFrom_append (hl : s.locateFrom loc names = .ok l) :
    s.locateFrom loc (names ++ more) = s.locateFrom l more := by
  induction names generalizing loc with
  | nil =>
    obtain rfl := Except.ok.inj hl
    rfl
  | cons name names ih =>
    obtain ⟨hnode, hshort, hl⟩ := locateFrom_cons_ok hl
    rw [List.cons_append, locateFrom_cons_of_directory hnode hshort]
    exact ih hl

/-- A path that can be followed can be followed up to any of its names. -/
theorem exists_locateFrom_of_append (h : s.locateFrom loc (names ++ more) = .ok l) :
    ∃ l', s.locateFrom loc names = .ok l' ∧ s.locateFrom l' more = .ok l := by
  induction names generalizing loc with
  | nil => exact ⟨loc, rfl, h⟩
  | cons name names ih =>
    obtain ⟨hnode, hshort, h⟩ := locateFrom_cons_ok h
    rw [locateFrom_cons_of_directory hnode hshort]
    exact ih h

/-! ### Following paths -/

/-- Where the names of a path are looked up from. -/
def startOf (s : Store) (p : Path) : Location :=
  if p.root = .relative then s.working else []

/-- With a usable path nothing but its names can go wrong. -/
theorem locate_of_usable (h : p.IsUsable) :
    s.locate p = (s.locateFrom (s.startOf p) p.names).mapError (.fault · p) := by
  have hany : ¬ p.names.any (·.toList.contains '\x00') = true := by
    simpa [Path.HasNull] using h.1
  rw [locate, if_neg hany, if_neg h.2]
  rfl

/-- A path that no operation takes is refused for itself, whatever the store. -/
theorem locate_of_not_usable (h : ¬ p.IsUsable) : ∃ e, ∀ s : Store, s.locate p = .error e := by
  by_cases hnull : p.HasNull
  · exact ⟨.nullByte, fun s ↦ locate_eq_nullByte_iff.2 hnull⟩
  · have hany : ¬ p.names.any (·.toList.contains '\x00') = true := by
      simpa [Path.HasNull] using hnull
    have hlong : maxPathBytes < p.text.utf8ByteSize := by
      simpa [Path.IsUsable, hnull] using h
    exact ⟨.fault .nameTooLong p, fun s ↦ by rw [locate, if_neg hany, if_pos hlong]⟩

/-- A path that leads somewhere is usable, and its names lead there. -/
theorem locate_eq_ok_iff : s.locate p = .ok l ↔
    p.IsUsable ∧ s.locateFrom (s.startOf p) p.names = .ok l := by
  by_cases husable : p.IsUsable
  · rw [locate_of_usable husable]
    cases s.locateFrom (s.startOf p) p.names <;> simp [husable]
  · obtain ⟨e, he⟩ := locate_of_not_usable husable
    simp [he, husable]

/-- What is found at a path is found at its location. -/
theorem locate_of_at? {node : Node} (h : s.at? p = .ok (some node)) :
    ∃ loc, s.locate p = .ok loc ∧ s.node? loc = some node := by
  unfold at? at h
  split at h
  · rename_i loc hloc
    exact ⟨loc, hloc, Except.ok.inj h⟩
  · simp at h
  · simp at h

/-- A path is that of a directory if one is at its location. -/
theorem isDirectory_eq_true_iff : s.isDirectory p = .ok true ↔
    ∃ loc, s.locate p = .ok loc ∧ s.node? loc = some .directory := by
  constructor
  · intro h
    unfold isDirectory at h
    cases hat : s.at? p with
    | error e => simp [hat, Except.map] at h
    | ok node =>
      obtain rfl : node = some .directory := by simpa [hat, Except.map] using h
      exact locate_of_at? hat
  · rintro ⟨loc, hloc, hnode⟩
    simp [isDirectory, at?, hloc, hnode, Except.map]

/-- A path is that of a regular file if one is at its location. -/
theorem isFile_eq_true_iff : s.isFile p = .ok true ↔
    ∃ loc content, s.locate p = .ok loc ∧ s.node? loc = some (.file content) := by
  constructor
  · intro h
    obtain ⟨node, hat⟩ := exists_node_of_isFile h
    obtain ⟨loc, hloc, hnode⟩ := locate_of_at? hat
    cases node with
    | file content => exact ⟨loc, content, hloc, hnode⟩
    | directory => simp [isFile, hat, Except.map, Node.isFile] at h
  · rintro ⟨loc, content, hloc, hnode⟩
    simp [isFile, at?, hloc, hnode, Except.map, Node.isFile]

/-- Whether a path can be tested depends on where it leads only. -/
theorem exists_isFile_congr (h : s'.locate p = s.locate p) (hfile : ∃ b, s.isFile p = .ok b) :
    ∃ b, s'.isFile p = .ok b := by
  rw [isFile, at?] at hfile ⊢
  rw [h]
  generalize s.locate p = answer at hfile ⊢
  rcases answer with (⟨f, q⟩ | _) | loc
  · cases f <;> simp_all [Except.map]
  · simp [Except.map]
  · simp [Except.map]

/-- A name in a directory leads to the location below it. -/
theorem locate_child (hp : s.locate p = .ok loc) (hname : name ≠ "..")
    (hl : s.locate (p.child name) = .ok l) : l = loc ++ [name] := by
  obtain ⟨-, hp⟩ := locate_eq_ok_iff.1 hp
  obtain ⟨-, hl⟩ := locate_eq_ok_iff.1 hl
  change s.locateFrom (s.startOf p) (p.names ++ [name]) = .ok l at hl
  rw [locateFrom_append hp] at hl
  obtain ⟨-, -, hl⟩ := locateFrom_cons_ok hl
  rw [if_neg hname] at hl
  exact (Except.ok.inj hl).symm

/-- Different names lead to different places from one path. -/
theorem eq_of_locate_child {name' : String} (h : s.locate (p.child name) = .ok l)
    (h' : s.locate (p.child name') = .ok l) : name = name' := by
  obtain ⟨-, h⟩ := locate_eq_ok_iff.1 h
  obtain ⟨-, h'⟩ := locate_eq_ok_iff.1 h'
  obtain ⟨loc, hloc, hname⟩ := exists_locateFrom_of_append h
  obtain ⟨loc', hloc', hname'⟩ := exists_locateFrom_of_append h'
  obtain rfl := Except.ok.inj (hloc.symm.trans hloc')
  obtain ⟨-, -, hname⟩ := locateFrom_cons_ok hname
  obtain ⟨-, -, hname'⟩ := locateFrom_cons_ok hname'
  have hplace := Except.ok.inj (hname.trans hname'.symm)
  -- A double dot leads to a shorter location, any other name to a longer one.
  have hlonger : ∀ last, loc.dropLast ≠ loc ++ [last] := fun last h ↦ by
    have hlength := congrArg List.length h
    simp only [List.length_dropLast, List.length_append, List.length_singleton] at hlength
    omega
  by_cases hdots : name = ".." <;> by_cases hdots' : name' = ".."
  · exact hdots.trans hdots'.symm
  · rw [if_pos hdots, if_neg hdots'] at hplace
    exact absurd hplace (hlonger name')
  · rw [if_neg hdots, if_pos hdots'] at hplace
    exact absurd hplace.symm (hlonger name)
  · rw [if_neg hdots, if_neg hdots'] at hplace
    simpa using hplace

/-! ### Stores that keep directories -/

/-- Whether the second store has the directories of the first one, and its working directory. -/
structure Keeps (s s' : Store) : Prop where
  /-- Relative paths start at the same place. -/
  working_eq : s'.working = s.working
  /-- A directory stays one. -/
  directory : ∀ loc, s.node? loc = some .directory → s'.node? loc = some .directory

theorem Keeps.refl (s : Store) : s.Keeps s :=
  ⟨rfl, fun _ ↦ id⟩

theorem Keeps.trans (h : s.Keeps s') (h' : s'.Keeps s'') : s.Keeps s'' :=
  ⟨h'.working_eq.trans h.working_eq, fun loc hloc ↦ h'.directory loc (h.directory loc hloc)⟩

/-- Where a path starts depends on the working directory alone. -/
theorem startOf_congr (h : s'.working = s.working) (p : Path) : s'.startOf p = s.startOf p := by
  rw [startOf, startOf, h]

/-- A store that keeps the directories of another one leads to the same locations. -/
theorem Keeps.locateFrom (h : s.Keeps s') (hl : s.locateFrom loc names = .ok l) :
    s'.locateFrom loc names = .ok l := by
  induction names generalizing loc with
  | nil => exact hl
  | cons name names ih =>
    obtain ⟨hnode, hshort, hl⟩ := locateFrom_cons_ok hl
    rw [locateFrom_cons_of_directory (h.directory _ hnode) hshort]
    exact ih hl

/-- A path leads to the same location in a store that keeps the directories. -/
theorem Keeps.locate (h : s.Keeps s') (hl : s.locate p = .ok l) : s'.locate p = .ok l := by
  obtain ⟨husable, hl⟩ := locate_eq_ok_iff.1 hl
  rw [← startOf_congr h.working_eq] at hl
  exact locate_eq_ok_iff.2 ⟨husable, h.locateFrom hl⟩

/-- Directories stay directories. -/
theorem Keeps.isDirectory (h : s.Keeps s') (hp : s.isDirectory p = .ok true) :
    s'.isDirectory p = .ok true := by
  obtain ⟨loc, hloc, hnode⟩ := isDirectory_eq_true_iff.1 hp
  exact isDirectory_eq_true_iff.2 ⟨loc, h.locate hloc, h.directory loc hnode⟩

/-- Where a path leads depends on what the locations hold, in whatever order the store has them. -/
theorem locate_congr (hworking : s'.working = s.working)
    (hnode : ∀ loc, s'.node? loc = s.node? loc) (p : Path) : s'.locate p = s.locate p := by
  have hnames : ∀ loc names, s'.locateFrom loc names = s.locateFrom loc names := by
    intro loc names
    induction names generalizing loc with
    | nil => rfl
    | cons name names ih =>
      rw [locateFrom, locateFrom, hnode]
      simp only [ih]
  by_cases husable : p.IsUsable
  · rw [locate_of_usable husable, locate_of_usable husable, startOf_congr hworking, hnames]
  · obtain ⟨e, hsame⟩ := locate_of_not_usable husable
    rw [hsame, hsame]

/-! ### Operations -/

/-- Reading succeeds exactly on a file, and answers its content. -/
theorem read_eq_ok_iff {content : ByteArray} : s.read p = .ok content ↔
    ∃ loc, s.locate p = .ok loc ∧ s.node? loc = some (.file content) := by
  rw [read]
  cases s.locate p with
  | error e => simp
  | ok loc =>
    simp only [Except.ok.injEq, exists_eq_left']
    split <;> simp_all

/-- Writing succeeds exactly where no directory is, and puts the file there. -/
theorem write_eq_ok_iff {content : ByteArray} : s.write p content = .ok s' ↔
    ∃ loc, s.locate p = .ok loc ∧ s.node? loc ≠ some .directory ∧
      s' = s.put loc (.file content) := by
  rw [write]
  cases s.locate p with
  | error e => simp
  | ok loc =>
    simp only [Except.ok.injEq, exists_eq_left']
    split <;> simp_all [eq_comm]

/-- A directory can be made exactly where nothing is. -/
theorem makeDirectory_eq_ok_iff : s.makeDirectory p = .ok s' ↔
    ∃ loc, s.locate p = .ok loc ∧ s.node? loc = none ∧ s' = s.put loc .directory := by
  rw [makeDirectory]
  cases s.locate p with
  | error e => simp
  | ok loc =>
    simp only [Except.ok.injEq, exists_eq_left']
    cases s.node? loc with
    | none => simp [eq_comm]
    | some node => simp

/-- A directory is missing above a path only if the path leads nowhere. -/
theorem makeDirectory_eq_notFound_iff {q : Path} :
    s.makeDirectory p = .error (.fault .notFound q) ↔ s.locate p = .error (.fault .notFound q) := by
  rw [makeDirectory]
  cases s.locate p with
  | error e => simp
  | ok loc =>
    simp only [reduceCtorEq, iff_false]
    split <;> simp

/-- A directory that is there is not made again. -/
theorem makeDirectory_of_isDirectory (h : s.isDirectory p = .ok true) :
    s.makeDirectory p = .error (.fault .exists p) := by
  obtain ⟨loc, hloc, hnode⟩ := isDirectory_eq_true_iff.1 h
  simp only [makeDirectory, hloc, hnode]

/-- An error on making a directory is passed over exactly if the directory exists. -/
theorem allowDirectory_eq_ok_iff {e : FileError} :
    s.allowDirectory p e = .ok () ↔ s.isDirectory p = .ok true := by
  unfold allowDirectory
  split <;> simp_all

/-- A directory is kept by making it, or because it is there. -/
theorem keepDirectory_eq_ok_iff : s.keepDirectory p = (.ok (), s') ↔
    s.makeDirectory p = .ok s' ∨ s.isDirectory p = .ok true ∧ s' = s := by
  rw [keepDirectory]
  cases hmake : s.makeDirectory p with
  | ok s₁ =>
    have hnot : ¬ s.isDirectory p = .ok true :=
      mt makeDirectory_of_isDirectory (by simp [hmake])
    simp [hnot]
  | error e =>
    rw [Prod.mk.injEq, allowDirectory_eq_ok_iff, eq_comm (a := s)]
    simp

/-- How a directory comes to be there: it is made, it is there, or it is kept once the one above it
is there. -/
theorem ensureDirectory_eq_ok_iff : s.ensureDirectory p = (.ok (), s') ↔
    s.makeDirectory p = .ok s' ∨ (s.isDirectory p = .ok true ∧ s' = s) ∨
      ∃ q s₁, s.locate p = .error (.fault .notFound q) ∧ p.names ≠ [] ∧
        s.ensureDirectory p.parent = (.ok (), s₁) ∧ s₁.keepDirectory p = (.ok (), s') := by
  rw [ensureDirectory]
  split
  · rename_i s₁ hmake
    have hnot : ¬ s.isDirectory p = .ok true :=
      mt makeDirectory_of_isDirectory (by simp [hmake])
    have hfound : ∀ q, s.locate p ≠ .error (.fault .notFound q) := fun q h ↦ by
      simp [makeDirectory_eq_notFound_iff.2 h] at hmake
    simp [hmake, hnot, hfound]
  · rename_i q hmake
    have hlocate := makeDirectory_eq_notFound_iff.1 hmake
    have hnot : ¬ s.isDirectory p = .ok true :=
      mt makeDirectory_of_isDirectory (by simp [hmake])
    by_cases hnames : p.names = []
    · simp [hmake, hnames, hnot]
    · rcases s.ensureDirectory p.parent with ⟨e | _, s₁⟩
      · simp [hmake, hnames, hnot]
      · simp [hmake, hnames, hnot, hlocate]
  · rename_i e hother hmake
    have hfound : ∀ q, s.locate p ≠ .error (.fault .notFound q) := fun q h ↦ by
      exact hother q (Except.error.inj (hmake.symm.trans (makeDirectory_eq_notFound_iff.2 h)))
    constructor
    · intro h
      exact .inr (.inl ⟨allowDirectory_eq_ok_iff.1 (congrArg Prod.fst h),
        (congrArg Prod.snd h).symm⟩)
    · rintro (h | ⟨h, rfl⟩ | ⟨q, s₁, h, -⟩)
      · simp [hmake] at h
      · rw [allowDirectory_eq_ok_iff.2 h]
      · exact absurd h (hfound q)

end Store

end JackSyntax
