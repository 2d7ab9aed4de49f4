import JackSyntax.Proofs.Store.Locations

/-!
# The sources in a directory

What is found in a directory does not depend on the order of the table that the store is: the names
below a location are ascending and each of them is there once. So the sources in a directory are
known by which paths they are (`Store.sources_eq_ok_iff`).

## Main statements

* `Store.mem_childNames`: a name is below a location if there is something at it.
* `Store.sources_eq_ok_iff`: the sources in a directory are the files directly in it that have the
  ending of sources, by name.
-/

namespace JackSyntax

variable {s : Store} {loc : Location} {name : String} {p q : Path}

namespace Path

@[simp]
theorem name_child (p : Path) (name : String) : (p.child name).name = name := by
  simp [Path.name, child]

/-- The double dot has no ending. -/
theorem ne_dots_of_suffix (h : (p.child name).suffix = sourceSuffix) : name ≠ ".." := by
  rintro rfl
  rw [suffix, name_child] at h
  exact absurd h (by decide +kernel)

end Path

/-! ### Ascending lists -/

section Ascending

variable {α : Type} {key : α → String} {items items' : List α}

theorem nodup_of_pairwise_lt (h : items.Pairwise fun a b ↦ key a < key b) : items.Nodup :=
  h.imp (by rintro a _ hlt rfl; exact String.lt_irrefl _ hlt)

/-- Lists with ascending keys are known by what is in them. -/
theorem eq_of_pairwise_lt (h : items.Pairwise fun a b ↦ key a < key b)
    (h' : items'.Pairwise fun a b ↦ key a < key b) (hmem : ∀ a, a ∈ items ↔ a ∈ items') :
    items = items' := by
  have hperm := (List.perm_ext_iff_of_nodup (nodup_of_pairwise_lt h) (nodup_of_pairwise_lt h')).2
    hmem
  refine hperm.eq_of_pairwise ?_ h h'
  intro a b _ _ hab hba
  exact absurd (String.lt_trans hab hba) (String.lt_irrefl _)

end Ascending

namespace Store

/-! ### Names below a location -/

/-- An entry of the table is below the location under the name if it is at the location below. -/
theorem childName_eq_some_iff {entry : Location × Node} :
    (if entry.1 ≠ [] ∧ entry.1.dropLast = loc then entry.1.getLast? else none) = some name ↔
      entry.1 = loc ++ [name] := by
  constructor
  · intro h
    split at h
    · rename_i hloc
      obtain ⟨above, habove⟩ := List.getLast?_eq_some_iff.1 h
      rw [habove, List.dropLast_concat] at hloc
      rw [habove, hloc.2]
    · simp at h
  · intro h
    simp [h]

theorem mem_childNames : name ∈ s.childNames loc ↔ (s.node? (loc ++ [name])).isSome := by
  rw [childNames, List.mem_mergeSort, node?, if_neg (by simp), List.lookup_isSome_iff,
    List.mem_filterMap]
  simp only [childName_eq_some_iff, beq_iff_eq, eq_comm (a := loc ++ [name])]

theorem childNames_pairwise (s : Store) (loc : Location) :
    (s.childNames loc).Pairwise (· < ·) := by
  -- Entries below one location with one last name are at one location.
  have hnodup : (s.childNames loc).Nodup := by
    refine (List.mergeSort_perm _ _).nodup_iff.2 ?_
    refine (List.pairwise_map.1 s.table_nodup).filterMap _ ?_
    rintro entry entry' hne name hname _ hname' rfl
    rw [childName_eq_some_iff] at hname hname'
    exact hne (hname.trans hname'.symm)
  have hsorted : (s.childNames loc).Pairwise (fun a b ↦ decide (a ≤ b) = true) :=
    List.pairwise_mergeSort
      (fun a b c hab hbc ↦ by
        simp only [decide_eq_true_eq] at hab hbc ⊢
        exact String.le_trans hab hbc)
      (fun a b ↦ by simpa using String.le_total a b) _
  refine (hsorted.and hnodup).imp fun ⟨hle, hne⟩ ↦ ?_
  exact String.not_le.1 fun hle' ↦ hne (String.le_antisymm (of_decide_eq_true hle) hle')

/-- Ascending names are those below a location if there is something at each of them and nowhere
else. -/
theorem childNames_eq {names : List String} (hsorted : names.Pairwise (· < ·))
    (hmem : ∀ name, name ∈ names ↔ (s.node? (loc ++ [name])).isSome) : s.childNames loc = names :=
  eq_of_pairwise_lt (s.childNames_pairwise loc) hsorted fun name ↦
    mem_childNames.trans (hmem name).symm

/-! ### Sources -/

/-- Whether the path is that of a file with the ending of sources. -/
def isSource (s : Store) (p : Path) : Bool :=
  match s.isFile p with
  | .ok isFile => isFile && p.suffix == sourceSuffix
  | .error _ => false

theorem isSource_iff : s.isSource p = true ↔ s.isFile p = .ok true ∧ p.suffix = sourceSuffix := by
  unfold isSource
  cases s.isFile p <;> simp

/-- Sources are looked for by a test of each path, which must not fail. -/
theorem onlySources_eq_ok_iff {paths only : List Path} : s.onlySources paths = .ok only ↔
    (∀ p ∈ paths, ∃ b, s.isFile p = .ok b) ∧ only = paths.filter s.isSource := by
  induction paths generalizing only with
  | nil => simp [onlySources, eq_comm]
  | cons p paths ih =>
    rw [onlySources, List.forall_mem_cons, List.filter_cons]
    cases hfile : s.isFile p with
    | error e => simp [bind, Except.bind]
    | ok isFile =>
      have hsource : s.isSource p = (isFile && p.suffix == sourceSuffix) := by
        simp [isSource, hfile]
      cases hothers : s.onlySources paths with
      | error e =>
        have hnone : ¬ ∀ p ∈ paths, ∃ b, s.isFile p = .ok b := fun hpaths ↦ by
          rw [ih.2 ⟨hpaths, rfl⟩] at hothers
          simp at hothers
        exact iff_of_false (by simp [bind, Except.bind]) fun h ↦ hnone h.1.2
      | ok others =>
        obtain ⟨hpaths, rfl⟩ := ih.1 hothers
        simp only [bind, Except.bind, pure, Except.pure, Except.ok.injEq, hsource]
        exact ⟨fun h ↦ ⟨⟨⟨_, rfl⟩, hpaths⟩, h.symm⟩, fun h ↦ h.2.symm⟩

theorem sources_of_directory (hloc : s.locate p = .ok loc)
    (hnode : s.node? loc = some .directory) :
    s.sources p = (s.onlySources ((s.childNames loc).map p.child)).mapError .file := by
  simp only [sources, at?, hloc, hnode, children]
  rfl

/-- The sources in a directory are the files directly in it that have the ending of sources, each
once and by name. They are found if no path in the directory is too long to be looked at. -/
theorem sources_eq_ok_iff {units : List Path} (hloc : s.locate p = .ok loc)
    (hnode : s.node? loc = some .directory) : s.sources p = .ok units ↔
      (∀ name, (s.node? (loc ++ [name])).isSome → ∃ b, s.isFile (p.child name) = .ok b) ∧
      units.Pairwise (·.name < ·.name) ∧
      ∀ q, q ∈ units ↔
        ∃ name, q = p.child name ∧ s.isFile q = .ok true ∧ q.suffix = sourceSuffix := by
  have hok : s.sources p = .ok units ↔
      s.onlySources ((s.childNames loc).map p.child) = .ok units := by
    rw [sources_of_directory hloc hnode]
    cases s.onlySources ((s.childNames loc).map p.child) <;> simp
  have hsorted : (((s.childNames loc).map p.child).filter s.isSource).Pairwise
      (·.name < ·.name) := by
    refine .filter _ (List.pairwise_map.2 ?_)
    simpa using s.childNames_pairwise loc
  have hmem : ∀ q, q ∈ ((s.childNames loc).map p.child).filter s.isSource ↔
      ∃ name, q = p.child name ∧ s.isFile q = .ok true ∧ q.suffix = sourceSuffix := by
    intro q
    rw [List.mem_filter, List.mem_map, isSource_iff]
    constructor
    · rintro ⟨⟨name, -, rfl⟩, hsource⟩
      exact ⟨name, rfl, hsource⟩
    · rintro ⟨name, rfl, hfile, hsuffix⟩
      obtain ⟨l, content, hl, hcontent⟩ := isFile_eq_true_iff.1 hfile
      rw [locate_child hloc (Path.ne_dots_of_suffix hsuffix) hl] at hcontent
      exact ⟨⟨name, mem_childNames.2 (by rw [hcontent]; rfl), rfl⟩, hfile, hsuffix⟩
  rw [hok, onlySources_eq_ok_iff, List.forall_mem_map]
  refine and_congr (forall_congr' fun name ↦ by rw [mem_childNames]) ⟨?_, ?_⟩
  · rintro rfl
    exact ⟨hsorted, hmem⟩
  · rintro ⟨hunits, hq⟩
    exact eq_of_pairwise_lt hunits hsorted fun q ↦ (hq q).trans (hmem q).symm

/-- Each source in a directory is a file below it. -/
theorem locate_of_mem_sources {units : List Path} (hloc : s.locate p = .ok loc)
    (hnode : s.node? loc = some .directory) (hunits : s.sources p = .ok units) (hq : q ∈ units) :
    q = p.child q.name ∧ s.locate q = .ok (loc ++ [q.name]) ∧
      ∃ content, s.node? (loc ++ [q.name]) = some (.file content) := by
  obtain ⟨-, -, hmem⟩ := (sources_eq_ok_iff hloc hnode).1 hunits
  obtain ⟨name, rfl, hfile, hsuffix⟩ := (hmem q).1 hq
  obtain ⟨l, content, hl, hcontent⟩ := isFile_eq_true_iff.1 hfile
  obtain rfl := locate_child hloc (Path.ne_dots_of_suffix hsuffix) hl
  rw [Path.name_child]
  exact ⟨rfl, hl, content, hcontent⟩

/-- Sources in a directory are different if they are at different places. -/
theorem mem_places_iff {units paths : List Path} (hloc : s.locate p = .ok loc)
    (hnode : s.node? loc = some .directory) (hunits : s.sources p = .ok units)
    (hpaths : ∀ q ∈ paths, q ∈ units) (hq : q ∈ units) :
    loc ++ [q.name] ∈ paths.map (fun q ↦ loc ++ [q.name]) ↔ q ∈ paths := by
  refine ⟨fun hmem ↦ ?_, fun hmem ↦ List.mem_map_of_mem hmem⟩
  obtain ⟨r, hr, hplace⟩ := List.mem_map.1 hmem
  have hname : r.name = q.name := by simpa using hplace
  rwa [(locate_of_mem_sources hloc hnode hunits hq).1, ← hname,
    ← (locate_of_mem_sources hloc hnode hunits (hpaths r hr)).1]

/-- The sources in a directory do not depend on the order in which the store has them. -/
theorem sources_congr {s' : Store} {units : List Path} (hloc : s.locate p = .ok loc)
    (hnode : s.node? loc = some .directory) (hunits : s.sources p = .ok units)
    (hworking : s'.working = s.working) (hnodes : ∀ loc, s'.node? loc = s.node? loc) :
    s'.sources p = .ok units := by
  have hlocate := locate_congr hworking hnodes
  have hfile : ∀ q, s'.isFile q = s.isFile q := fun q ↦ by
    rw [isFile, isFile, at?, at?, hlocate]
    simp only [hnodes]
  refine (sources_eq_ok_iff ((hlocate p).trans hloc) ((hnodes loc).trans hnode)).2 ?_
  simp only [hnodes, hfile]
  exact (sources_eq_ok_iff hloc hnode).1 hunits

end Store

end JackSyntax
