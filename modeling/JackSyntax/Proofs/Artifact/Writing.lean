import JackSyntax.Proofs.Artifact.Unit
import JackSyntax.Proofs.Store.Locations

/-!
# What writing artifacts changes

A store changes as artifacts are written one after the other, and directories are made for them
(`Store.Written`). Directories stay, a file is left as it was unless an artifact goes to it, and
where several go to one file it holds the last of them.

## Main statements

* `Store.Written.node?_cases`: a file that no artifact goes to is left as it was.
* `Store.Written.read_last`: a file holds the last artifact that goes to it.
* `Store.Written.read_of_nodup`: artifacts of different names in one directory are all kept.
* `analyzeFile_written`: what the analysis of a file writes.
-/

namespace JackSyntax

namespace Store

/-- The second store is what the first one becomes as artifacts are written, in order, and as
directories are made before and between them. -/
inductive Written : Store → List Artifact → Store → Prop
  | refl (s : Store) : Written s [] s
  | directory {s s₁ s₂ : Store} {p : Path} {artifacts : List Artifact}
    (hmake : s.makeDirectory p = .ok s₁) (hrest : Written s₁ artifacts s₂) : Written s artifacts s₂
  | artifact {s s₁ s₂ : Store} {a : Artifact} {artifacts : List Artifact}
    (hwrite : s.write a.path a.text.toUTF8 = .ok s₁) (hrest : Written s₁ artifacts s₂) :
    Written s (a :: artifacts) s₂

variable {s s₁ s₂ : Store} {p : Path} {loc : Location} {a : Artifact}
  {artifacts earlier later : List Artifact}

/-- Artifacts that were written in two goes were written. -/
theorem Written.trans (h : Written s earlier s₁) (h' : Written s₁ later s₂) :
    Written s (earlier ++ later) s₂ := by
  induction h with
  | refl s => exact h'
  | directory hmake _ ih => exact .directory hmake (ih h')
  | artifact hwrite _ ih => exact .artifact hwrite (ih h')

/-! ### Directories stay -/

/-- The top of the tree is a directory. -/
theorem ne_nil_of_node? (h : s.node? loc ≠ some .directory) : loc ≠ [] := by
  rintro rfl
  exact h rfl

/-- Putting a node somewhere changes nothing elsewhere. -/
theorem node?_put_of_ne {l : Location} {node : Node} (h : s.node? loc ≠ some .directory)
    (hne : l ≠ loc) : (s.put loc node).node? l = s.node? l := by
  rw [node?_put _ (ne_nil_of_node? h), if_neg hne]

/-- Directories stay what they are when something is put where none is. -/
theorem keeps_put {node : Node} (h : s.node? loc ≠ some .directory) :
    s.Keeps (s.put loc node) :=
  ⟨rfl, fun l hl ↦ by rwa [node?_put_of_ne h (by rintro rfl; exact h hl)]⟩

theorem keeps_of_makeDirectory (h : s.makeDirectory p = .ok s₁) : s.Keeps s₁ := by
  obtain ⟨loc, -, hnone, rfl⟩ := makeDirectory_eq_ok_iff.1 h
  exact keeps_put (by simp [hnone])

theorem keeps_of_write {content : ByteArray} (h : s.write p content = .ok s₁) : s.Keeps s₁ := by
  obtain ⟨loc, -, hnode, rfl⟩ := write_eq_ok_iff.1 h
  exact keeps_put hnode

/-- Writing artifacts keeps the directories there are. -/
theorem Written.keeps (h : Written s artifacts s₁) : s.Keeps s₁ := by
  induction h with
  | refl s => exact .refl s
  | directory hmake _ ih => exact (keeps_of_makeDirectory hmake).trans ih
  | artifact hwrite _ ih => exact (keeps_of_write hwrite).trans ih

/-! ### Files -/

/-- A file is left as it was, or it holds an artifact that goes to it. -/
theorem Written.node?_cases {content : ByteArray} (h : Written s artifacts s₁)
    (hfile : s.node? loc = some (.file content)) :
    s₁.node? loc = some (.file content) ∨ ∃ a ∈ artifacts, s₁.locate a.path = .ok loc ∧
      s₁.node? loc = some (.file a.text.toUTF8) := by
  induction h generalizing content with
  | refl s => exact .inl hfile
  | directory hmake _ ih =>
    obtain ⟨l, -, hnone, rfl⟩ := makeDirectory_eq_ok_iff.1 hmake
    have hl : loc ≠ l := by
      rintro rfl
      simp [hnone] at hfile
    exact ih ((node?_put_of_ne (by simp [hnone]) hl).trans hfile)
  | @artifact s s₂ s₁ b artifacts hwrite hrest ih =>
    have hkeeps := (keeps_of_write hwrite).trans hrest.keeps
    obtain ⟨l, hlocate, hnode, rfl⟩ := write_eq_ok_iff.1 hwrite
    by_cases hl : loc = l
    · subst hl
      have hput : (s.put loc (.file b.text.toUTF8)).node? loc = some (.file b.text.toUTF8) := by
        rw [node?_put _ (ne_nil_of_node? hnode), if_pos rfl]
      rcases ih hput with hkept | ⟨a, ha, hlast⟩
      · exact .inr ⟨b, List.mem_cons_self, hkeeps.locate hlocate, hkept⟩
      · exact .inr ⟨a, List.mem_cons_of_mem _ ha, hlast⟩
    · rcases ih ((node?_put_of_ne hnode hl).trans hfile) with hkept | ⟨a, ha, hlast⟩
      · exact .inl hkept
      · exact .inr ⟨a, List.mem_cons_of_mem _ ha, hlast⟩

/-- A file that no artifact goes to is left as it was. -/
theorem Written.node?_of_ne {content : ByteArray} (h : Written s artifacts s₁)
    (hfile : s.node? loc = some (.file content))
    (hne : ∀ a ∈ artifacts, s₁.locate a.path ≠ .ok loc) :
    s₁.node? loc = some (.file content) := by
  rcases h.node?_cases hfile with hkept | ⟨a, ha, hlocate, -⟩
  · exact hkept
  · exact absurd hlocate (hne a ha)

/-- Every artifact that is written leads somewhere. -/
theorem Written.exists_locate (h : Written s artifacts s₁) (ha : a ∈ artifacts) :
    ∃ loc, s₁.locate a.path = .ok loc := by
  induction h with
  | refl s => simp at ha
  | directory _ _ ih => exact ih ha
  | artifact hwrite hrest ih =>
    rcases List.mem_cons.1 ha with rfl | ha
    · obtain ⟨l, hl, -, -⟩ := write_eq_ok_iff.1 hwrite
      exact ⟨l, ((keeps_of_write hwrite).trans hrest.keeps).locate hl⟩
    · exact ih ha

/-- A file holds the last artifact that goes to it. -/
theorem Written.read_last (h : Written s (earlier ++ a :: later) s₁)
    (hlast : ∀ b ∈ later, s₁.locate b.path ≠ s₁.locate a.path) :
    s₁.read a.path = .ok a.text.toUTF8 := by
  generalize hartifacts : earlier ++ a :: later = artifacts at h
  induction h generalizing earlier with
  | refl s => simp at hartifacts
  | directory _ _ ih => exact ih hlast hartifacts
  | @artifact s s₂ s₁ b artifacts hwrite hrest ih =>
    cases earlier with
    | cons first earlier =>
      obtain ⟨rfl, rfl⟩ := List.cons.inj hartifacts
      exact ih hlast rfl
    | nil =>
      obtain ⟨rfl, rfl⟩ := List.cons.inj hartifacts
      have hkeeps := (keeps_of_write hwrite).trans hrest.keeps
      obtain ⟨l, hl, hnode, rfl⟩ := write_eq_ok_iff.1 hwrite
      have hlocate := hkeeps.locate hl
      refine read_eq_ok_iff.2 ⟨l, hlocate, hrest.node?_of_ne ?_ fun b hb ↦ ?_⟩
      · rw [node?_put _ (ne_nil_of_node? hnode), if_pos rfl]
      · exact hlocate ▸ hlast b hb

/-- Artifacts of different names in one directory are all there in the end. -/
theorem Written.read_of_nodup {dir : Path} (h : Written s artifacts s₁)
    (hnames : ∀ a ∈ artifacts, ∃ name, a.path = dir.child name)
    (hnodup : (artifacts.map Artifact.path).Nodup) (ha : a ∈ artifacts) :
    s₁.read a.path = .ok a.text.toUTF8 := by
  obtain ⟨l, hl⟩ := h.exists_locate ha
  obtain ⟨earlier, later, rfl⟩ := List.append_of_mem ha
  refine h.read_last fun b hb hplace ↦ ?_
  have hl' := hplace.trans hl
  obtain ⟨name, hname⟩ := hnames a ha
  obtain ⟨name', hname'⟩ := hnames b (List.mem_append_right _ (List.mem_cons_of_mem _ hb))
  have hsame : a.path = b.path := by
    rw [hname] at hl
    rw [hname'] at hl'
    rw [hname, hname', eq_of_locate_child hl hl']
  rw [List.map_append, List.map_cons] at hnodup
  exact (List.nodup_cons.1 (List.nodup_append.1 hnodup).2.1).1 (hsame ▸ List.mem_map_of_mem hb)

/-! ### The output directory -/

/-- Making a directory unless it exists writes no artifacts. -/
theorem keepDirectory_written (s : Store) (p : Path) : Written s [] (s.keepDirectory p).2 := by
  rw [keepDirectory]
  split
  · rename_i hmake
    exact .directory hmake (.refl _)
  · exact .refl s

/-- Making a directory and those above it writes no artifacts. -/
theorem ensureDirectory_written (s : Store) (p : Path) : Written s [] (s.ensureDirectory p).2 := by
  induction p using ensureDirectory.induct s with
  | case1 p s' hmake =>
    rw [ensureDirectory, hmake]
    exact .directory hmake (.refl _)
  | case2 p q hmake hnames =>
    have h : s.ensureDirectory p = (.error (.fault .notFound q), s) := by
      simp [ensureDirectory, hmake, hnames]
    rw [h]
    exact .refl s
  | case3 p q hmake hnames e s' hparent ih =>
    have h : s.ensureDirectory p = (.error e, s') := by
      simp [ensureDirectory, hmake, hnames, hparent]
    rw [hparent] at ih
    rw [h]
    exact ih
  | case4 p q hmake hnames s' hparent ih =>
    have h : s.ensureDirectory p = s'.keepDirectory p := by
      simp [ensureDirectory, hmake, hnames, hparent]
    rw [hparent] at ih
    rw [h]
    exact ih.trans (keepDirectory_written s' p)
  | case5 p e hother hmake =>
    rw [ensureDirectory, hmake]
    split
    · simp_all
    · simp_all
    · exact .refl s

end Store

/-! ### The analysis of a file -/

section Analysis

variable {s s' : Store} {p : Path} {o : ArtifactOptions} {artifacts : List Artifact}

/-- Making the directory for artifacts writes none. -/
theorem makeOutputDir_written (s : Store) (o : ArtifactOptions) :
    s.Written [] (makeOutputDir s o).2 := by
  unfold makeOutputDir
  split
  · exact .refl s
  · exact s.ensureDirectory_written _

/-- Artifacts are written in order, up to the first that cannot be written. -/
theorem writeArtifacts_written (s : Store) (artifacts : List Artifact) :
    ∃ done, done <+: artifacts ∧ s.Written done (writeArtifacts s artifacts).2 ∧
      ((writeArtifacts s artifacts).1 = .ok () → done = artifacts) := by
  induction artifacts generalizing s with
  | nil => exact ⟨[], List.prefix_refl _, .refl s, fun _ ↦ rfl⟩
  | cons a artifacts ih =>
    cases hwrite : s.write a.path a.text.toUTF8 with
    | error e =>
      simp only [writeArtifacts, hwrite]
      exact ⟨[], List.nil_prefix, .refl s, by simp⟩
    | ok s₁ =>
      obtain ⟨done, hprefix, hwritten, hall⟩ := ih s₁
      simp only [writeArtifacts, hwrite]
      exact ⟨a :: done, List.cons_prefix_cons.2 ⟨rfl, hprefix⟩, .artifact hwrite hwritten,
        fun h ↦ by rw [hall h]⟩

/-- The analysis of a file succeeds if it has artifacts and they are written, below the output
directory if there is one. -/
theorem analyzeFile_eq_ok_iff {written : List Path} : analyzeFile s p o = (.ok written, s') ↔
    ∃ artifacts s₁, unitArtifacts s p o = .ok artifacts ∧ makeOutputDir s o = (.ok (), s₁) ∧
      writeArtifacts s₁ artifacts = (.ok (), s') ∧ written = artifacts.map Artifact.path := by
  rw [analyzeFile]
  cases unitArtifacts s p o with
  | error e => simp
  | ok artifacts =>
    rcases makeOutputDir s o with ⟨e | _, s₁⟩
    · simp
    · rcases hwrite : writeArtifacts s₁ artifacts with ⟨e | _, s₂⟩
      · simp [hwrite]
      · simp [hwrite, eq_comm, and_comm]

/-- The analysis of a source whose artifacts go beside it, if they can be written. -/
theorem analyzeFile_of_artifacts {source : Source} (hread : readSource s p = .ok source)
    (hartifacts : sourceArtifacts source p o = .ok artifacts) (hdir : o.outputDir = none)
    (hwrite : (writeArtifacts s artifacts).1 = .ok ()) :
    analyzeFile s p o = (.ok (artifacts.map Artifact.path), (writeArtifacts s artifacts).2) := by
  refine analyzeFile_eq_ok_iff.2 ⟨artifacts, s, (unitArtifacts_of_source hread).trans hartifacts,
    ?_, Prod.ext hwrite rfl, rfl⟩
  rw [makeOutputDir, hdir]

/-- The artifacts that a file has, none if it is at fault. -/
def artifactsOf (o : ArtifactOptions) (s : Store) (p : Path) : List Artifact :=
  match unitArtifacts s p o with
  | .ok artifacts => artifacts
  | .error _ => []

/-- The analysis of a file writes its artifacts in order, all of them unless an operation on files
fails. -/
theorem analyzeFile_written (s : Store) (p : Path) (o : ArtifactOptions) :
    ∃ done, done <+: artifactsOf o s p ∧ s.Written done (analyzeFile s p o).2 ∧
      ((∀ e, unitVerdict s p o ≠ .stopped e) → done = artifactsOf o s p) := by
  have hanalyzed := analyzeFile_analyzed s p o
  rw [artifactsOf]
  rw [analyzeFile] at hanalyzed ⊢
  cases hartifacts : unitArtifacts s p o with
  | error e => exact ⟨[], List.prefix_refl _, .refl s, fun _ ↦ rfl⟩
  | ok artifacts =>
    simp only [hartifacts] at hanalyzed ⊢
    have hmade := makeOutputDir_written s o
    rcases hmake : makeOutputDir s o with ⟨e | _, s₁⟩
    · simp only [hmake] at hanalyzed hmade ⊢
      refine ⟨[], List.nil_prefix, hmade, fun hstopped ↦ ?_⟩
      generalize unitVerdict s p o = verdict at hstopped hanalyzed
      cases hanalyzed
      exact absurd rfl (hstopped e)
    · simp only [hmake] at hanalyzed hmade ⊢
      obtain ⟨done, hprefix, hwritten, hall⟩ := writeArtifacts_written s₁ artifacts
      rcases hwrite : writeArtifacts s₁ artifacts with ⟨e | _, s₂⟩
      · simp only [hwrite] at hanalyzed hwritten hall ⊢
        refine ⟨done, hprefix, hmade.trans hwritten, fun hstopped ↦ ?_⟩
        generalize unitVerdict s p o = verdict at hstopped hanalyzed
        cases hanalyzed
        exact absurd rfl (hstopped e)
      · simp only [hwrite] at hwritten hall ⊢
        exact ⟨done, hprefix, hmade.trans hwritten, fun _ ↦ hall trivial⟩

end Analysis

end JackSyntax
