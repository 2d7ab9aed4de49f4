import JackSyntax.Proofs.Artifact.Names
import JackSyntax.Proofs.Artifact.Writing

/-!
# What the analysis of a file touches

Between two stores little may differ: directories that were made, and files at places that were
written to (`Store.Confined`). Such changes add up, and those of the analysis of a file are the
output directory, the directories above it, and the places of the artifacts. Nothing is touched
before all artifacts are there, so a file at fault leaves the store as it was.

## Main statements

* `analyzeFile_confined`: the analysis of a file touches its targets and directories for them.
* `analyzeFile_effects`: what the analysis of a file answers, and what it leaves behind.
-/

namespace JackSyntax

/-- The path is the other one or leads to it by further names. -/
def Path.IsAbove (p q : Path) : Prop :=
  p.root = q.root ∧ p.names <+: q.names

theorem Path.isAbove_refl (p : Path) : p.IsAbove p :=
  ⟨rfl, List.prefix_refl _⟩

/-- What is above the parent of a path is above the path. -/
theorem Path.IsAbove.of_parent {p q : Path} (h : p.IsAbove q.parent) : p.IsAbove q :=
  ⟨h.1, h.2.trans (List.dropLast_prefix _)⟩

namespace Store

/-- All that is new in the second store is directories at some paths and what places hold that other
paths lead to. -/
structure Confined (s s' : Store) (made written : Path → Prop) : Prop where
  keeps : s.Keeps s'
  node?_cases : ∀ loc, s'.node? loc = s.node? loc ∨
    (s.node? loc = none ∧ s'.node? loc = some .directory ∧
      ∃ p, made p ∧ s'.locate p = .ok loc) ∨
    ∃ p, written p ∧ s'.locate p = .ok loc

variable {s s₁ s₂ : Store} {p : Path} {made made' written written' : Path → Prop}

theorem Confined.refl (s : Store) : s.Confined s made written :=
  ⟨.refl s, fun _ ↦ .inl rfl⟩

/-- Effects may be confined more loosely. -/
theorem Confined.mono (h : s.Confined s₁ made written) (hmade : ∀ p, made p → made' p)
    (hwritten : ∀ p, written p → written' p) : s.Confined s₁ made' written' where
  keeps := h.keeps
  node?_cases loc := by
    rcases h.node?_cases loc with hsame | ⟨hnone, hnew, p, hp, hloc⟩ | ⟨p, hp, hloc⟩
    · exact .inl hsame
    · exact .inr (.inl ⟨hnone, hnew, p, hmade p hp, hloc⟩)
    · exact .inr (.inr ⟨p, hwritten p hp, hloc⟩)

/-- A place that is written to may have been vacant or not; a directory is made only at a vacant
one. -/
theorem Confined.trans (h : s.Confined s₁ made written) (h' : s₁.Confined s₂ made written) :
    s.Confined s₂ made written where
  keeps := h.keeps.trans h'.keeps
  node?_cases loc := by
    rcases h'.node?_cases loc with hsame' | ⟨hnone, hnew, hmade⟩ | hwritten
    · rw [hsame']
      rcases h.node?_cases loc with hsame | ⟨hnone, hnew, p, hp, hloc⟩ | ⟨p, hp, hloc⟩
      · exact .inl hsame
      · exact .inr (.inl ⟨hnone, hnew, p, hp, h'.keeps.locate hloc⟩)
      · exact .inr (.inr ⟨p, hp, h'.keeps.locate hloc⟩)
    · rcases h.node?_cases loc with hsame | ⟨-, hdirectory, -⟩ | ⟨p, hp, hloc⟩
      · exact .inr (.inl ⟨hsame.symm.trans hnone, hnew, hmade⟩)
      · exact absurd (hnone.symm.trans hdirectory) (by simp)
      · exact .inr (.inr ⟨p, hp, h'.keeps.locate hloc⟩)
    · exact .inr (.inr hwritten)

/-- Making a directory has no other effect than that. -/
theorem confined_of_makeDirectory (h : s.makeDirectory p = .ok s₁) (hp : made p) :
    s.Confined s₁ made written where
  keeps := keeps_of_makeDirectory h
  node?_cases l := by
    have hkeeps := keeps_of_makeDirectory h
    obtain ⟨loc, hloc, hnone, rfl⟩ := makeDirectory_eq_ok_iff.1 h
    have hdirectory : s.node? loc ≠ some .directory := by simp [hnone]
    by_cases hl : l = loc
    · subst hl
      refine .inr (.inl ⟨hnone, ?_, p, hp, hkeeps.locate hloc⟩)
      rw [node?_put _ (ne_nil_of_node? hdirectory), if_pos rfl]
    · exact .inl (node?_put_of_ne hdirectory hl)

/-- Writing a file has no other effect than that. -/
theorem confined_of_write {content : ByteArray} (h : s.write p content = .ok s₁)
    (hp : written p) : s.Confined s₁ made written where
  keeps := keeps_of_write h
  node?_cases l := by
    have hkeeps := keeps_of_write h
    obtain ⟨loc, hloc, hnode, rfl⟩ := write_eq_ok_iff.1 h
    by_cases hl : l = loc
    · subst hl
      exact .inr (.inr ⟨p, hp, hkeeps.locate hloc⟩)
    · exact .inl (node?_put_of_ne hnode hl)

/-! ### The output directory -/

/-- Making a directory unless it exists has no other effect. -/
theorem keepDirectory_confined (s : Store) (hp : made p) :
    s.Confined (s.keepDirectory p).2 made written := by
  rw [keepDirectory]
  split
  · rename_i hmake
    exact confined_of_makeDirectory hmake hp
  · exact .refl s

/-- A directory is made with those above it. -/
theorem ensureDirectory_confined (s : Store) (p : Path) :
    s.Confined (s.ensureDirectory p).2 (Path.IsAbove · p) written := by
  induction p using ensureDirectory.induct s with
  | case1 p s₁ hmake =>
    rw [ensureDirectory, hmake]
    exact confined_of_makeDirectory hmake p.isAbove_refl
  | case2 p q hmake hnames =>
    have h : s.ensureDirectory p = (.error (.fault .notFound q), s) := by
      simp [ensureDirectory, hmake, hnames]
    rw [h]
    exact .refl s
  | case3 p q hmake hnames e s₁ hparent ih =>
    have h : s.ensureDirectory p = (.error e, s₁) := by
      simp [ensureDirectory, hmake, hnames, hparent]
    rw [hparent] at ih
    rw [h]
    exact ih.mono (fun _ ↦ Path.IsAbove.of_parent) fun _ ↦ id
  | case4 p q hmake hnames s₁ hparent ih =>
    have h : s.ensureDirectory p = s₁.keepDirectory p := by
      simp [ensureDirectory, hmake, hnames, hparent]
    rw [hparent] at ih
    rw [h]
    have habove := ih.mono (fun _ ↦ Path.IsAbove.of_parent) fun _ ↦ id
    exact habove.trans (keepDirectory_confined s₁ p.isAbove_refl)
  | case5 p e hother hmake =>
    rw [ensureDirectory, hmake]
    split
    · simp_all
    · simp_all
    · exact .refl s

/-! ### Artifacts -/

/-- What was written last is read back. -/
theorem Written.read_final {earlier : List Artifact} {q : Path} {text : String}
    (h : s.Written (earlier ++ [⟨q, text⟩]) s₁) : s₁.read q = .ok text.toUTF8 :=
  h.read_last fun _ hb ↦ absurd hb List.not_mem_nil

/-- The first of two artifacts stays, unless the other one goes to the same file. -/
theorem Written.read_first {q : Path} {first second : String}
    (h : s.Written ([⟨p, first⟩] ++ [⟨q, second⟩]) s₁) (hne : s₁.locate p ≠ s₁.locate q) :
    s₁.read p = .ok first.toUTF8 := by
  have hsplit : s.Written ([] ++ ⟨p, first⟩ :: [⟨q, second⟩]) s₁ := h
  refine hsplit.read_last fun b hb ↦ ?_
  rw [List.mem_singleton.1 hb]
  exact hne.symm

end Store

/-! ### The analysis of a file -/

section Analysis

variable {s : Store} {p : Path} {o : ArtifactOptions} {made : Path → Prop}

/-- Writing artifacts touches nothing but their paths. -/
theorem writeArtifacts_confined (s : Store) (artifacts : List Artifact) :
    s.Confined (writeArtifacts s artifacts).2 made (· ∈ artifacts.map Artifact.path) := by
  induction artifacts generalizing s with
  | nil => exact .refl s
  | cons a artifacts ih =>
    cases hwrite : s.write a.path a.text.toUTF8 with
    | error e =>
      simp only [writeArtifacts, hwrite]
      exact .refl s
    | ok s₁ =>
      simp only [writeArtifacts, hwrite]
      have hfirst : s.Confined s₁ made (· ∈ (a :: artifacts).map Artifact.path) :=
        Store.confined_of_write hwrite List.mem_cons_self
      exact hfirst.trans ((ih s₁).mono (fun _ ↦ id) fun _ ↦ List.mem_cons_of_mem _)

/-- Making the directory for artifacts touches nothing but it and the directories above it. -/
theorem makeOutputDir_confined {written : Path → Prop} (s : Store) (o : ArtifactOptions) :
    s.Confined (makeOutputDir s o).2 (fun q ↦ ∃ dir ∈ o.outputDir, q.IsAbove dir) written := by
  unfold makeOutputDir
  split
  · exact .refl s
  · rename_i dir hdir
    exact (s.ensureDirectory_confined dir).mono (fun _ habove ↦ ⟨dir, hdir, habove⟩) fun _ ↦ id

/-- A source is read from a file of UTF-8, with its line ends made uniform. -/
theorem readSource_eq_ok_iff {source : Source} : readSource s p = .ok source ↔
    ∃ bytes text, s.read p = .ok bytes ∧ Utf8.decode bytes = .ok text ∧
      source = ⟨p.text, String.ofList (unixLines text)⟩ := by
  rw [readSource]
  cases s.read p with
  | error e => simp
  | ok bytes =>
    cases hdecode : Utf8.decode bytes with
    | error e => simp [hdecode]
    | ok text => simp [hdecode, eq_comm]

/-- What goes wrong in the analysis of a file is an operation on files, or nothing is touched. -/
theorem Analyzed.error_cases {verdict : UnitVerdict} {e : UnitError} {s' : Store}
    (h : Analyzed s verdict (.error e) s') :
    (∃ e', e = .file e') ∨ s' = s ∧ ((∃ e', e = .encoding e') ∨ ∃ d, e = .diagnostic d) := by
  cases h with
  | encoding => exact .inr ⟨rfl, .inl ⟨_, rfl⟩⟩
  | diagnostic => exact .inr ⟨rfl, .inr ⟨_, rfl⟩⟩
  | stopped => exact .inl ⟨_, rfl⟩

/-- The analysis of a file, however it ends, touches its targets and directories for them. -/
theorem analyzeFile_confined (s : Store) (p : Path) (o : ArtifactOptions) :
    s.Confined (analyzeFile s p o).2 (fun q ↦ ∃ dir ∈ o.outputDir, q.IsAbove dir)
      (· ∈ targets o p) := by
  rw [analyzeFile]
  cases hread : readSource s p with
  | error e =>
    rw [unitArtifacts_of_error hread]
    exact .refl s
  | ok source =>
    rw [unitArtifacts_of_source hread]
    cases hartifacts : sourceArtifacts source p o with
    | error e => exact .refl s
    | ok artifacts =>
      have hpaths := map_path_sourceArtifacts hartifacts
      have hmade : s.Confined _ _ (· ∈ targets o p) := makeOutputDir_confined s o
      rcases hmake : makeOutputDir s o with ⟨e | _, s₁⟩
      · simp only [hmake] at hmade ⊢
        exact hmade
      · simp only [hmake] at hmade ⊢
        have hwritten : s₁.Confined _ (fun q ↦ ∃ dir ∈ o.outputDir, q.IsAbove dir) _ :=
          writeArtifacts_confined s₁ artifacts
        rw [hpaths] at hwritten
        rcases hwrite : writeArtifacts s₁ artifacts with ⟨e | _, s₂⟩
        · simp only [hwrite] at hwritten ⊢
          exact hmade.trans hwritten
        · simp only [hwrite] at hwritten ⊢
          exact hmade.trans hwritten

/-- Artifacts are all written where that succeeds. -/
theorem written_of_writeArtifacts {artifacts : List Artifact} {s' : Store}
    (h : writeArtifacts s artifacts = (.ok (), s')) : s.Written artifacts s' := by
  obtain ⟨done, -, hwritten, hall⟩ := writeArtifacts_written s artifacts
  rw [h] at hwritten hall
  exact hall rfl ▸ hwritten

/-- Where the analysis of a file succeeds, its tree is where it says, and so is its listing unless
the tree has taken its place. -/
theorem artifacts_of_analyzeFile {paths : List Path} {s' : Store}
    (h : analyzeFile s p o = (.ok paths, s')) :
    ∃ source tree, readSource s p = .ok source ∧ source.tree o.limits = .ok tree ∧
      paths = targets o p ∧ s'.read (outputPath p o "") = .ok tree.toUTF8 ∧
      (o.writeTokens = true → ∃ listing, source.listing o.limits = .ok listing ∧
        (s'.locate (outputPath p o o.tokenSuffix) ≠ s'.locate (outputPath p o "") →
          s'.read (outputPath p o o.tokenSuffix) = .ok listing.toUTF8)) := by
  obtain ⟨artifacts, s₁, hunit, -, hwrite, rfl⟩ := analyzeFile_eq_ok_iff.1 h
  cases hread : readSource s p with
  | error e => simp [unitArtifacts_of_error hread] at hunit
  | ok source =>
    rw [unitArtifacts_of_source hread] at hunit
    have hpaths := map_path_sourceArtifacts hunit
    obtain ⟨listing, tree, hlisting, htree, rfl⟩ := Source.artifacts_eq hunit
    have hwritten := written_of_writeArtifacts hwrite
    refine ⟨source, tree, rfl, htree, hpaths, hwritten.read_final, fun htokens ↦ ?_⟩
    rw [if_pos htokens] at hwritten
    exact ⟨listing, hlisting, hwritten.read_first⟩

/-- The analysis of a file at fault leaves the store as it was, and it never complains that events
make no tree. If it succeeds it says where the listing, if there are listings, and the tree are. The
tree is there, and so is the listing unless the tree has taken its place. However it ends, it leaves
everything else as it was, but that the output directory and directories above it may be new. -/
theorem analyzeFile_effects (s : Store) (p : Path) (o : ArtifactOptions) :
    let answer := (analyzeFile s p o).1
    let s' := (analyzeFile s p o).2
    (∀ d, answer = .error (.diagnostic d) → s' = s) ∧
    (∀ e, answer = .error (.encoding e) → s' = s) ∧
    (∀ e, answer ≠ .error (.markup e)) ∧
    (∀ paths, answer = .ok paths → ∃ bytes text tree,
      let source : Source := ⟨p.text, String.ofList (unixLines text)⟩
      s.read p = .ok bytes ∧ Utf8.decode bytes = .ok text ∧ source.tree o.limits = .ok tree ∧
      paths = (if o.writeTokens then [outputPath p o o.tokenSuffix] else []) ++
        [outputPath p o ""] ∧
      s'.read (outputPath p o "") = .ok tree.toUTF8 ∧
      (o.writeTokens = true → ∃ listing, source.listing o.limits = .ok listing ∧
        (s'.locate (outputPath p o o.tokenSuffix) ≠ s'.locate (outputPath p o "") →
          s'.read (outputPath p o o.tokenSuffix) = .ok listing.toUTF8))) ∧
    s'.working = s.working ∧
    ∀ loc, (∀ target ∈ targets o p, s'.locate target ≠ .ok loc) →
      s'.node? loc = s.node? loc ∨
        s.node? loc = none ∧ s'.node? loc = some .directory ∧
          ∃ dir ∈ o.outputDir, ∃ q : Path, q.IsAbove dir ∧ s'.locate q = .ok loc := by
  intro answer s'
  have hanalyzed : Analyzed s (unitVerdict s p o) answer s' := analyzeFile_analyzed s p o
  have hconfined : s.Confined s' _ _ := analyzeFile_confined s p o
  refine ⟨fun d hd ↦ ?_, fun e he ↦ ?_, fun e he ↦ ?_, fun paths hpaths ↦ ?_,
    hconfined.keeps.working_eq, fun loc hloc ↦ ?_⟩
  · rcases (hd ▸ hanalyzed).error_cases with ⟨e', he'⟩ | ⟨hstore, -⟩
    · simp at he'
    · exact hstore
  · rcases (he ▸ hanalyzed).error_cases with ⟨e', he'⟩ | ⟨hstore, -⟩
    · simp at he'
    · exact hstore
  · rcases (he ▸ hanalyzed).error_cases with ⟨e', he'⟩ | ⟨-, ⟨e', he'⟩ | ⟨d, hd⟩⟩
    · simp at he'
    · simp at he'
    · simp at hd
  · have h : analyzeFile s p o = (.ok paths, s') := Prod.ext hpaths rfl
    obtain ⟨source, tree, hread, htree, hwhere, htreeRead, hlisting⟩ := artifacts_of_analyzeFile h
    obtain ⟨bytes, text, hbytes, htext, rfl⟩ := readSource_eq_ok_iff.1 hread
    exact ⟨bytes, text, tree, hbytes, htext, htree, hwhere, htreeRead, hlisting⟩
  · rcases hconfined.node?_cases loc with hsame | ⟨hnone, hnew, q, ⟨dir, hdir, habove⟩, hq⟩ |
      ⟨target, htarget, hplace⟩
    · exact .inl hsame
    · exact .inr ⟨hnone, hnew, dir, hdir, q, habove, hq⟩
    · exact absurd hplace (hloc target htarget)

end Analysis

end JackSyntax
