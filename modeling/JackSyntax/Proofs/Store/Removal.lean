import JackSyntax.Proofs.Artifact.Writing
import JackSyntax.Proofs.Store.Sources

/-!
# Stores without some of their files

A store that lacks files of another one (`Store.Lacks`) leads all the same paths to directories, so
what succeeds in the full store succeeds in it, with the same effect elsewhere. It need not be so
for what fails: a path through a file that is gone is no longer a path through a file. The relation
allows for files that are written anew, since a write may go to where a file is gone.

## Main statements

* `Store.exists_removeAll`: files of a store can be removed, and nothing else is changed by it.
* `Store.Lacks.ensureDirectory`, `Store.Lacks.write`: what succeeds succeeds without the files.
* `lacks_analyzeFile`: so does the analysis of a file that is not one of them.
* `Store.sources_of_removed`: the sources in a directory without some of them.
-/

namespace JackSyntax

namespace Store

variable {s s' s₁ : Store} {gone : List Location} {loc : Location} {p q : Path}

/-- The second store is the first one without the files at some locations, where others may have
been written since. -/
structure Lacks (gone : List Location) (s s' : Store) : Prop where
  /-- Relative paths start at the same place. -/
  working_eq : s'.working = s.working
  /-- Elsewhere the stores are the same. -/
  node?_eq : ∀ loc ∉ gone, s'.node? loc = s.node? loc
  /-- What may be gone are files. -/
  file : ∀ loc ∈ gone, ∃ content, s.node? loc = some (.file content)
  /-- No directory has taken their place. -/
  not_directory : ∀ loc ∈ gone, s'.node? loc ≠ some .directory

namespace Lacks

/-- Only files may be gone. -/
theorem not_mem (h : Lacks gone s s') (hloc : ∀ content, s.node? loc ≠ some (.file content)) :
    loc ∉ gone := by
  intro hmem
  obtain ⟨content, hcontent⟩ := h.file loc hmem
  exact hloc content hcontent

/-- Removed files are no directories. -/
theorem keeps (h : Lacks gone s s') : s.Keeps s' where
  working_eq := h.working_eq
  directory loc hloc := (h.node?_eq loc (h.not_mem (by simp [hloc]))).trans hloc

/-- A path that leads nowhere still does. -/
theorem locateFrom_notFound {names : List String} (h : Lacks gone s s')
    (he : s.locateFrom loc names = .error .notFound) :
    s'.locateFrom loc names = .error .notFound := by
  induction names generalizing loc with
  | nil => simp [locateFrom] at he
  | cons name names ih =>
    rw [locateFrom] at he
    split at he
    · rename_i hnode
      rw [locateFrom, h.node?_eq loc (h.not_mem (by simp [hnode])), hnode]
    · simp at he
    · rename_i hnode
      split at he
      · simp at he
      · rename_i hshort
        rw [locateFrom_cons_of_directory (h.keeps.directory loc hnode) hshort]
        exact ih he

/-- Where nothing was found before, nothing is found after the removal. -/
theorem locate_notFound (h : Lacks gone s s') (he : s.locate p = .error (.fault .notFound q)) :
    s'.locate p = .error (.fault .notFound q) := by
  by_cases husable : p.IsUsable
  · rw [locate_of_usable husable] at he ⊢
    rw [startOf_congr h.working_eq]
    cases hnames : s.locateFrom (s.startOf p) p.names with
    | ok loc => simp [hnames] at he
    | error f =>
      obtain ⟨rfl, rfl⟩ : f = .notFound ∧ p = q := by simpa [hnames] using he
      rw [h.locateFrom_notFound hnames]
      rfl
  · obtain ⟨e, hsame⟩ := locate_of_not_usable husable
    rw [hsame s']
    rw [hsame s] at he
    exact he

/-! ### Operations -/

/-- The same node put into both stores. What is put where a file may be gone is a file. -/
theorem put {node : Node} (h : Lacks gone s s') (hloc : s.node? loc ≠ some .directory)
    (hnode : loc ∈ gone → ∃ content, node = .file content) :
    Lacks gone (s.put loc node) (s'.put loc node) := by
  have hne := ne_nil_of_node? hloc
  constructor
  · exact h.working_eq
  · intro l hl
    rw [node?_put _ hne, node?_put _ hne, h.node?_eq l hl]
  · intro l hl
    rw [node?_put _ hne]
    split
    · rename_i heq
      obtain ⟨content, rfl⟩ := hnode (heq ▸ hl)
      exact ⟨content, rfl⟩
    · exact h.file l hl
  · intro l hl
    rw [node?_put _ hne]
    split
    · rename_i heq
      obtain ⟨content, rfl⟩ := hnode (heq ▸ hl)
      simp
    · exact h.not_directory l hl

/-- What could be written still can, with the same difference after it. -/
theorem write {content : ByteArray} (h : Lacks gone s s') (hwrite : s.write p content = .ok s₁) :
    ∃ s₁', s'.write p content = .ok s₁' ∧ Lacks gone s₁ s₁' := by
  obtain ⟨loc, hloc, hnode, rfl⟩ := write_eq_ok_iff.1 hwrite
  have hnode' : s'.node? loc ≠ some .directory := by
    by_cases hmem : loc ∈ gone
    · exact h.not_directory loc hmem
    · rwa [h.node?_eq loc hmem]
  exact ⟨_, write_eq_ok_iff.2 ⟨loc, h.keeps.locate hloc, hnode', rfl⟩,
    h.put hnode fun _ ↦ ⟨content, rfl⟩⟩

/-- A directory that could be made still can. -/
theorem makeDirectory (h : Lacks gone s s') (hmake : s.makeDirectory p = .ok s₁) :
    ∃ s₁', s'.makeDirectory p = .ok s₁' ∧ Lacks gone s₁ s₁' := by
  obtain ⟨loc, hloc, hnone, rfl⟩ := makeDirectory_eq_ok_iff.1 hmake
  have hmem : loc ∉ gone := h.not_mem (by simp [hnone])
  exact ⟨_, makeDirectory_eq_ok_iff.2
    ⟨loc, h.keeps.locate hloc, (h.node?_eq loc hmem).trans hnone, rfl⟩,
    h.put (by simp [hnone]) fun hgone ↦ absurd hgone hmem⟩

/-- A directory that could be made or existed still can or does. -/
theorem keepDirectory (h : Lacks gone s s') (hkeep : s.keepDirectory p = (.ok (), s₁)) :
    ∃ s₁', s'.keepDirectory p = (.ok (), s₁') ∧ Lacks gone s₁ s₁' := by
  rcases keepDirectory_eq_ok_iff.1 hkeep with hmake | ⟨hthere, rfl⟩
  · obtain ⟨s₁', hmake', h'⟩ := h.makeDirectory hmake
    exact ⟨s₁', keepDirectory_eq_ok_iff.2 (.inl hmake'), h'⟩
  · exact ⟨s', keepDirectory_eq_ok_iff.2 (.inr ⟨h.keeps.isDirectory hthere, rfl⟩), h⟩

/-- A directory that can be had can be had without the files. -/
theorem ensureDirectory (h : Lacks gone s s') (hensure : s.ensureDirectory p = (.ok (), s₁)) :
    ∃ s₁', s'.ensureDirectory p = (.ok (), s₁') ∧ Lacks gone s₁ s₁' := by
  induction hlength : p.names.length using Nat.strongRecOn generalizing p s₁ with
  | ind n ih =>
    rcases ensureDirectory_eq_ok_iff.1 hensure with
      hmake | ⟨hthere, rfl⟩ | ⟨q, s₂, hlocate, hnames, hparent, hkeep⟩
    · obtain ⟨s₁', hmake', h'⟩ := h.makeDirectory hmake
      exact ⟨s₁', ensureDirectory_eq_ok_iff.2 (.inl hmake'), h'⟩
    · exact ⟨s', ensureDirectory_eq_ok_iff.2 (.inr (.inl ⟨h.keeps.isDirectory hthere, rfl⟩)), h⟩
    · have hpos := List.length_pos_iff.2 hnames
      have hshorter : p.parent.names.length < n := by
        rw [Path.parent, List.length_dropLast]
        omega
      obtain ⟨s₂', hparent', h₂⟩ := ih _ hshorter hparent rfl
      obtain ⟨s₁', hkeep', h'⟩ := h₂.keepDirectory hkeep
      exact ⟨s₁', ensureDirectory_eq_ok_iff.2
        (.inr (.inr ⟨q, s₂', h.locate_notFound hlocate, hnames, hparent', hkeep'⟩)), h'⟩

/-- A file elsewhere reads the same. -/
theorem read (h : Lacks gone s s') (hloc : s.locate p = .ok loc) (hmem : loc ∉ gone) :
    s'.read p = s.read p := by
  rw [Store.read, Store.read, h.keeps.locate hloc, hloc]
  simp only [h.node?_eq loc hmem]

end Lacks

/-! ### Removing files -/

/-- The store without the files at the paths. -/
def removeAll (s : Store) : List Path → Except FileError Store
  | [] => .ok s
  | p :: paths =>
    match s.remove p with
    | .error e => .error e
    | .ok s => s.removeAll paths

/-- Taking a location out of a table changes nothing elsewhere. -/
theorem lookup_filter_ne (loc l : Location) (table : List (Location × Node)) :
    (table.filter fun entry ↦ entry.1 != loc).lookup l =
      if l = loc then none else table.lookup l := by
  induction table with
  | nil => simp
  | cons entry table ih =>
    obtain ⟨k, node⟩ := entry
    by_cases hk : k = loc
    · subst hk
      by_cases hl : l = k
      · simpa [hl] using ih
      · simpa [List.lookup_cons, hl, beq_eq_false_iff_ne.2 hl] using ih
    · by_cases hl : l = k
      · subst hl
        simp [hk]
      · simpa [hk, List.lookup_cons, beq_eq_false_iff_ne.2 hl] using ih

/-- Erasing a location changes what is there and nothing else. -/
theorem node?_erase (s : Store) (hne : loc ≠ []) (l : Location) :
    (s.erase loc).node? l = if l = loc then none else s.node? l := by
  by_cases hl : l = []
  · subst hl
    simp [node?, hne.symm]
  · simp [node?, erase, hl, lookup_filter_ne]

/-- Files at different places can be removed one after the other, and nothing else changes. -/
theorem exists_removeAll {place : Path → Location} {paths : List Path}
    (hplace : ∀ p ∈ paths, s.locate p = .ok (place p) ∧
      ∃ content, s.node? (place p) = some (.file content))
    (hnodup : (paths.map place).Nodup) :
    ∃ s', s.removeAll paths = .ok s' ∧ s'.working = s.working ∧
      ∀ loc, s'.node? loc = if loc ∈ paths.map place then none else s.node? loc := by
  induction paths generalizing s with
  | nil => exact ⟨s, rfl, rfl, by simp⟩
  | cons p paths ih =>
    obtain ⟨⟨hlocate, content, hfile⟩, hplaces⟩ := List.forall_mem_cons.1 hplace
    rw [List.map_cons, List.nodup_cons] at hnodup
    have hremove : s.remove p = .ok (s.erase (place p)) := by
      simp only [remove, hlocate, hfile]
    have hne : s.node? (place p) ≠ some .directory := by simp [hfile]
    have hnode := s.node?_erase (ne_nil_of_node? hne)
    -- The other files are elsewhere, and the directories above them are no files.
    have hkeeps : s.Keeps (s.erase (place p)) := by
      refine ⟨rfl, fun loc hloc ↦ ?_⟩
      rw [hnode, if_neg]
      · exact hloc
      · rintro rfl
        simp [hfile] at hloc
    have hothers : ∀ q ∈ paths, (s.erase (place p)).locate q = .ok (place q) ∧
        ∃ content, (s.erase (place p)).node? (place q) = some (.file content) := by
      intro q hq
      obtain ⟨hlocate, content, hfile⟩ := hplaces q hq
      refine ⟨hkeeps.locate hlocate, content, ?_⟩
      rw [hnode, if_neg]
      · exact hfile
      · exact fun heq ↦ hnodup.1 (heq ▸ List.mem_map_of_mem hq)
    obtain ⟨s', hremoveAll, hworking, hnode'⟩ := ih hothers hnodup.2
    refine ⟨s', ?_, hworking, fun loc ↦ ?_⟩
    · simp only [removeAll, hremove]
      exact hremoveAll
    · rw [hnode', hnode]
      by_cases hloc : loc = place p <;> simp [hloc]

/-- A name in a directory leads to the same place in all stores with the directory. -/
theorem locate_child_congr {name : String} (hp : s.locate p = .ok loc)
    (hnode : s.node? loc = some .directory) (hp' : s'.locate p = .ok loc)
    (hnode' : s'.node? loc = some .directory) :
    s'.locate (p.child name) = s.locate (p.child name) := by
  by_cases husable : (p.child name).IsUsable
  · have hstart : ∀ s : Store, s.startOf (p.child name) = s.startOf p := fun _ ↦ rfl
    rw [locate_of_usable husable, locate_of_usable husable, hstart, hstart, Path.child,
      locateFrom_append (locate_eq_ok_iff.1 hp).2, locateFrom_append (locate_eq_ok_iff.1 hp').2]
    by_cases hlong : maxNameBytes < name.utf8ByteSize
    · simp only [locateFrom, hnode, hnode', hlong, if_true]
    · rw [locateFrom_cons_of_directory hnode hlong, locateFrom_cons_of_directory hnode' hlong,
        locateFrom, locateFrom]
  · obtain ⟨e, hsame⟩ := locate_of_not_usable husable
    rw [hsame, hsame]

/-- The sources in a directory after some of them were removed. -/
theorem sources_of_removed {units removed : List Path} (hloc : s.locate p = .ok loc)
    (hdirectory : s.node? loc = some .directory) (hunits : s.sources p = .ok units)
    (hremoved : ∀ q ∈ removed, q ∈ units) (hworking : s'.working = s.working)
    (hnode : ∀ l, s'.node? l =
      if l ∈ removed.map (fun q ↦ loc ++ [q.name]) then none else s.node? l) :
    Lacks (removed.map fun q ↦ loc ++ [q.name]) s s' ∧
      s'.sources p = .ok (units.filter (· ∉ removed)) := by
  have hunit := fun q (hq : q ∈ units) ↦ locate_of_mem_sources hloc hdirectory hunits hq
  have hlacks : Lacks (removed.map fun q ↦ loc ++ [q.name]) s s' := by
    refine ⟨hworking, fun l hl ↦ (hnode l).trans (if_neg hl), fun l hl ↦ ?_, fun l hl ↦ ?_⟩
    · obtain ⟨q, hq, rfl⟩ := List.mem_map.1 hl
      exact (hunit q (hremoved q hq)).2.2
    · rw [hnode, if_pos hl]
      simp
  have hloc' := hlacks.keeps.locate hloc
  have hdirectory' := hlacks.keeps.directory loc hdirectory
  have hchild : ∀ name, s'.locate (p.child name) = s.locate (p.child name) := fun name ↦
    locate_child_congr hloc hdirectory hloc' hdirectory'
  have hgone := fun q (hq : q ∈ units) ↦ mem_places_iff hloc hdirectory hunits hremoved hq
  obtain ⟨htest, hsorted, hmem⟩ := (sources_eq_ok_iff hloc hdirectory).1 hunits
  refine ⟨hlacks, (sources_eq_ok_iff hloc' hdirectory').2 ⟨fun name hname ↦ ?_,
    hsorted.filter _, fun q ↦ ?_⟩⟩
  · refine exists_isFile_congr (hchild name) (htest name ?_)
    rw [hnode] at hname
    split at hname
    · simp at hname
    · exact hname
  · rw [List.mem_filter, decide_eq_true_eq]
    constructor
    · rintro ⟨hq, hkept⟩
      obtain ⟨hname, hlocate, content, hfile⟩ := hunit q hq
      obtain ⟨-, -, -, hsuffix⟩ := (hmem q).1 hq
      refine ⟨q.name, hname, isFile_eq_true_iff.2 ⟨_, content, hlacks.keeps.locate hlocate, ?_⟩,
        hsuffix⟩
      rw [hnode, if_neg (mt (hgone q hq).1 hkept)]
      exact hfile
    · rintro ⟨name, rfl, hfile, hsuffix⟩
      obtain ⟨l, content, hl, hcontent⟩ := isFile_eq_true_iff.1 hfile
      rw [hnode] at hcontent
      split at hcontent
      · simp at hcontent
      · rename_i hkept
        have hq : p.child name ∈ units := (hmem _).2
          ⟨name, rfl, isFile_eq_true_iff.2 ⟨l, content, hchild name ▸ hl, hcontent⟩, hsuffix⟩
        obtain rfl := Except.ok.inj ((hchild name ▸ hl).symm.trans (hunit _ hq).2.1)
        exact ⟨hq, mt (hgone _ hq).2 hkept⟩

end Store

/-! ### The analysis of a file -/

section Analysis

variable {s s' s₁ : Store} {gone : List Location} {loc : Location} {p : Path} {o : ArtifactOptions}

/-- The directory for artifacts can still be made. -/
theorem lacks_makeOutputDir (h : s.Lacks gone s') (hmake : makeOutputDir s o = (.ok (), s₁)) :
    ∃ s₁', makeOutputDir s' o = (.ok (), s₁') ∧ s₁.Lacks gone s₁' := by
  cases hdir : o.outputDir with
  | none =>
    rw [makeOutputDir, hdir] at hmake ⊢
    obtain ⟨-, rfl⟩ := Prod.mk.inj hmake
    exact ⟨s', rfl, h⟩
  | some dir =>
    rw [makeOutputDir, hdir] at hmake ⊢
    exact h.ensureDirectory hmake

/-- Artifacts can still be written. -/
theorem lacks_writeArtifacts {artifacts : List Artifact} (h : s.Lacks gone s')
    (hwrite : writeArtifacts s artifacts = (.ok (), s₁)) :
    ∃ s₁', writeArtifacts s' artifacts = (.ok (), s₁') ∧ s₁.Lacks gone s₁' := by
  induction artifacts generalizing s s' with
  | nil =>
    obtain ⟨-, rfl⟩ := Prod.mk.inj hwrite
    exact ⟨s', rfl, h⟩
  | cons a artifacts ih =>
    cases hfirst : s.write a.path a.text.toUTF8 with
    | error e =>
      simp only [writeArtifacts, hfirst] at hwrite
      simp at hwrite
    | ok s₂ =>
      simp only [writeArtifacts, hfirst] at hwrite
      obtain ⟨s₂', hfirst', h₂⟩ := h.write hfirst
      simp only [writeArtifacts, hfirst']
      exact ih h₂ hwrite

/-- A file elsewhere is analyzed the same, if its analysis is not stopped. -/
theorem lacks_analyzeFile (h : s.Lacks gone s') (hloc : s.locate p = .ok loc)
    (hmem : loc ∉ gone) (hstopped : ∀ e, unitVerdict s p o ≠ .stopped e) :
    (analyzeFile s p o).2.Lacks gone (analyzeFile s' p o).2 ∧
      unitVerdict s' p o = unitVerdict s p o := by
  have hread : readSource s' p = readSource s p := by
    rw [readSource, readSource, h.read hloc hmem]
  cases hverdict : unitVerdict s p o with
  | written =>
    obtain ⟨written, s₁, hok⟩ := unitVerdict_eq_written_iff.1 hverdict
    obtain ⟨artifacts, s₂, hartifacts, hmake, hwrite, hpaths⟩ := analyzeFile_eq_ok_iff.1 hok
    obtain ⟨s₂', hmake', h₂⟩ := lacks_makeOutputDir h hmake
    obtain ⟨s₁', hwrite', h₁⟩ := lacks_writeArtifacts h₂ hwrite
    rw [unitArtifacts, ← hread] at hartifacts
    have hok' := analyzeFile_eq_ok_iff.2 ⟨artifacts, s₂', hartifacts, hmake', hwrite', hpaths⟩
    rw [hok, hok']
    exact ⟨h₁, unitVerdict_eq_written_iff.2 ⟨written, s₁', hok'⟩⟩
  | atFault =>
    have hverdict' : unitVerdict s' p o = .atFault := by
      rw [unitVerdict_eq_atFault_iff, hread]
      exact unitVerdict_eq_atFault_iff.1 hverdict
    rw [store_of_atFault hverdict, store_of_atFault hverdict']
    exact ⟨h, hverdict'⟩
  | stopped e => exact absurd hverdict (hstopped e)

end Analysis

end JackSyntax
