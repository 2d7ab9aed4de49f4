import JackSyntax.Proofs.Artifact.Unit

/-!
# Null characters in paths

No operation on files takes a path with a null character, and a path without one never meets with
that error (`Store.locate_eq_nullByte_iff` and what follows from it). The paths of sources have
none, since there is something at them, so a null character can only come from where artifacts
should go and what they are called.

## Main statements

* `Store.not_hasNull_of_mem_sources`: there is no null character in the path of a source.
* `not_hasNull_outputPath`: nor is there in that of an artifact, unless it was asked for.
* `analyzeFile_ne_nullByte`: then the analysis of a file meets with none.
-/

namespace JackSyntax

/-- Whether there is a null character on the path. -/
def Path.HasNull (p : Path) : Prop :=
  ∃ name ∈ p.names, '\x00' ∈ name.toList

variable {p q : Path}

/-! ### Texts of paths -/

/-- Segments hold no characters that the text does not. -/
theorem mem_of_mem_segments {text part : List Char} {c : Char} (hpart : part ∈ Path.segments text)
    (hc : c ∈ part) : c ∈ text := by
  induction text generalizing part with
  | nil =>
    obtain rfl := List.mem_singleton.1 hpart
    exact hc
  | cons c' text ih =>
    rw [Path.segments] at hpart
    split at hpart
    · rcases List.mem_cons.1 hpart with rfl | hpart
      · simp at hc
      · exact List.mem_cons_of_mem _ (ih hpart hc)
    · split at hpart
      · obtain rfl := List.mem_singleton.1 hpart
        exact List.mem_cons.2 (.inl (List.mem_singleton.1 hc))
      · rename_i first parts hsegments
        rw [hsegments] at ih
        rcases List.mem_cons.1 hpart with rfl | hpart
        · rcases List.mem_cons.1 hc with rfl | hc
          · exact List.mem_cons_self
          · exact List.mem_cons_of_mem _ (ih List.mem_cons_self hc)
        · exact List.mem_cons_of_mem _ (ih (List.mem_cons_of_mem _ hpart) hc)

namespace Path

/-- A path has a null character only if its text has one. -/
theorem not_hasNull_ofString {text : String} (h : '\x00' ∉ text.toList) :
    ¬ (ofString text).HasNull := by
  rintro ⟨name, hname, hnull⟩
  obtain ⟨part, hpart, rfl⟩ := List.mem_map.1 (List.mem_filter.1 hname).1
  rw [String.toList_ofList] at hnull
  exact h (mem_of_mem_segments hpart hnull)

/-- The path of a parent has fewer names. -/
theorem not_hasNull_parent (h : ¬ p.HasNull) : ¬ p.parent.HasNull :=
  fun ⟨name, hname, hnull⟩ ↦ h ⟨name, List.dropLast_subset _ hname, hnull⟩

/-- Joining paths adds no null character. -/
theorem not_hasNull_join (hp : ¬ p.HasNull) (hq : ¬ q.HasNull) : ¬ (p.join q).HasNull := by
  unfold join
  split
  · rintro ⟨name, hname, hnull⟩
    rcases List.mem_append.1 hname with hname | hname
    · exact hp ⟨name, hname, hnull⟩
    · exact hq ⟨name, hname, hnull⟩
  · exact hq

/-- A name without its ending has no other characters. -/
theorem mem_of_mem_splitName {name : String} {c : Char} (h : c ∈ (splitName name).1.toList) :
    c ∈ name.toList := by
  unfold splitName at h
  simp only at h
  split at h
  · exact h
  · rw [String.toList_ofList, List.mem_reverse] at h
    exact List.mem_reverse.1 (List.dropWhile_subset _ (List.mem_of_mem_drop h))

/-- The stem is part of the last name. -/
theorem not_mem_stem (h : ¬ p.HasNull) : '\x00' ∉ p.stem.toList := by
  intro hmem
  have hname : '\x00' ∈ p.name.toList := mem_of_mem_splitName hmem
  unfold name at hname
  cases hlast : p.names.getLast? with
  | none =>
    rw [hlast] at hname
    simp at hname
  | some name =>
    rw [hlast] at hname
    exact h ⟨name, List.mem_of_getLast? hlast, hname⟩

end Path

/-! ### Operations on files -/

namespace Store

variable {s s' : Store} {e : FileError}

/-- Whether a path is refused for a null character depends on nothing but the path. -/
theorem locate_eq_nullByte_iff : s.locate p = .error .nullByte ↔ p.HasNull := by
  have hany : p.names.any (·.toList.contains '\x00') = true ↔ p.HasNull := by
    simp [Path.HasNull]
  rw [locate]
  split
  · rename_i hnull
    exact iff_of_true rfl (hany.1 hnull)
  · rename_i hnull
    refine iff_of_false ?_ (mt hany.2 hnull)
    split
    · simp
    · cases s.locateFrom (if p.root = .relative then s.working else []) p.names <;>
        simp

/-- A path that can be located has no null character. -/
theorem not_hasNull_of_locate {loc : Location} (h : s.locate p = .ok loc) : ¬ p.HasNull := by
  intro hnull
  rw [locate_eq_nullByte_iff.2 hnull] at h
  simp at h

/-- Something can be at a path only if there is no null character on it. -/
theorem not_hasNull_of_at? {node : Node} (h : s.at? p = .ok (some node)) : ¬ p.HasNull := by
  unfold at? at h
  split at h
  · rename_i hlocate
    exact not_hasNull_of_locate hlocate
  · simp at h
  · simp at h

/-- Asking what is at a path reports that there is nothing, and no null character. -/
theorem at?_ne_nullByte : s.at? p ≠ .error .nullByte := by
  unfold at?
  split <;> simp

/-- A path without a null character is refused for other reasons only. -/
theorem ne_nullByte_of_locate (h : ¬ p.HasNull) (hlocate : s.locate p = .error e) :
    e ≠ .nullByte := by
  rintro rfl
  exact h (locate_eq_nullByte_iff.1 hlocate)

/-- Reading a file meets with a null character only in its path. -/
theorem read_ne_nullByte (h : ¬ p.HasNull) : s.read p ≠ .error .nullByte := by
  unfold read
  split
  · rename_i hlocate
    simpa using ne_nullByte_of_locate h hlocate
  · split <;> simp

theorem write_ne_nullByte (h : ¬ p.HasNull) (content : ByteArray) :
    s.write p content ≠ .error .nullByte := by
  unfold write
  split
  · rename_i hlocate
    simpa using ne_nullByte_of_locate h hlocate
  · split <;> simp

theorem makeDirectory_ne_nullByte (h : ¬ p.HasNull) : s.makeDirectory p ≠ .error .nullByte := by
  unfold makeDirectory
  split
  · rename_i hlocate
    simpa using ne_nullByte_of_locate h hlocate
  · split <;> simp

/-- A directory that exists already is no error; any other error stays what it is. -/
theorem allowDirectory_ne_nullByte (he : e ≠ .nullByte) :
    s.allowDirectory p e ≠ .error .nullByte := by
  unfold allowDirectory
  split
  · simp
  · simpa using he
  · rename_i hdirectory
    rintro hnull
    obtain rfl := Except.error.inj hnull
    unfold isDirectory at hdirectory
    cases hat : s.at? p with
    | error e =>
      rw [hat] at hdirectory
      obtain rfl := Except.error.inj hdirectory
      exact at?_ne_nullByte hat
    | ok node => simp [hat, Except.map] at hdirectory

/-- Making one directory, unless it exists, meets with no null character. -/
theorem keepDirectory_ne_nullByte (h : ¬ p.HasNull) :
    (s.keepDirectory p).1 ≠ .error .nullByte := by
  unfold keepDirectory
  split
  · simp
  · rename_i hmake
    exact allowDirectory_ne_nullByte fun he ↦ makeDirectory_ne_nullByte h (he ▸ hmake)

/-- Making a directory makes those above it, whose paths have fewer names. -/
theorem ensureDirectory_ne_nullByte (h : ¬ p.HasNull) :
    (s.ensureDirectory p).1 ≠ .error .nullByte := by
  induction p using ensureDirectory.induct s with
  | case1 p s' hmake => simp [ensureDirectory, hmake]
  | case2 p q hmake hnames => simp [ensureDirectory, hmake, hnames]
  | case3 p q hmake hnames e s' hparent ih =>
    have hne := ih (Path.not_hasNull_parent h)
    rw [hparent] at hne
    simpa [ensureDirectory, hmake, hnames, hparent] using hne
  | case4 p q hmake hnames s' hparent ih =>
    simpa [ensureDirectory, hmake, hnames, hparent] using keepDirectory_ne_nullByte h
  | case5 p e hother hmake =>
    have hne : e ≠ .nullByte := fun he ↦ makeDirectory_ne_nullByte h (he ▸ hmake)
    rw [ensureDirectory, hmake]
    split
    · simp_all
    · simp_all
    · rename_i heq
      obtain rfl := Except.error.inj heq
      exact allowDirectory_ne_nullByte hne

/-- A regular file is something. -/
theorem exists_node_of_isFile (h : s.isFile p = .ok true) : ∃ node, s.at? p = .ok (some node) := by
  unfold isFile at h
  cases hat : s.at? p with
  | error e => simp [hat, Except.map] at h
  | ok node =>
    cases node with
    | none => simp [hat, Except.map] at h
    | some node => exact ⟨node, rfl⟩

/-- There is something at the path of a source in a directory. -/
theorem exists_node_of_mem_onlySources {paths only : List Path}
    (h : s.onlySources paths = .ok only) (hq : q ∈ only) : ∃ node, s.at? q = .ok (some node) := by
  induction paths generalizing only with
  | nil =>
    obtain rfl := Except.ok.inj h
    simp at hq
  | cons p paths ih =>
    rw [onlySources] at h
    cases hfile : s.isFile p with
    | error e => simp [hfile, bind, Except.bind] at h
    | ok isFile =>
      cases hothers : s.onlySources paths with
      | error e => simp [hfile, hothers, bind, Except.bind] at h
      | ok others =>
        simp only [hfile, hothers, bind, Except.bind, pure, Except.pure, Except.ok.injEq] at h
        by_cases hsource : isFile && p.suffix == sourceSuffix
        · rw [if_pos hsource] at h
          subst h
          rcases List.mem_cons.1 hq with rfl | hq
          · rw [Bool.and_eq_true] at hsource
            obtain rfl := hsource.1
            exact exists_node_of_isFile hfile
          · exact ih hothers hq
        · rw [if_neg hsource] at h
          exact ih hothers (h ▸ hq)

/-- There is no null character in the path of a source. -/
theorem not_hasNull_of_mem_sources {paths : List Path} (h : s.sources p = .ok paths)
    (hq : q ∈ paths) : ¬ q.HasNull := by
  unfold sources at h
  split at h
  · simp at h
  · simp at h
  · rename_i hat
    obtain rfl := Except.ok.inj h
    obtain rfl := List.mem_singleton.1 hq
    exact not_hasNull_of_at? hat
  · rename_i hat
    cases hchildren : s.children p with
    | error e => simp [hchildren, bind, Except.bind] at h
    | ok children =>
      cases honly : s.onlySources children with
      | error e => simp [hchildren, honly, bind, Except.bind] at h
      | ok only =>
        simp [hchildren, honly, bind, Except.bind] at h
        subst h
        obtain ⟨node, hnode⟩ := exists_node_of_mem_onlySources honly hq
        exact not_hasNull_of_at? hnode

end Store

/-! ### Artifacts -/

/-- Whether there is a null character in where artifacts go or what they are called. -/
def ArtifactOptions.HasNull (o : ArtifactOptions) : Prop :=
  (∃ dir ∈ o.outputDir, dir.HasNull) ∨ '\x00' ∈ o.extension.toList ∨ '\x00' ∈ o.tokenSuffix.toList

variable {s : Store} {o : ArtifactOptions}

/-- Artifacts go to paths without a null character if neither the source nor the options have one.
-/
theorem not_hasNull_outputPath (hp : ¬ p.HasNull) (ho : ¬ o.HasNull) {suffix : String}
    (hsuffix : suffix = "" ∨ suffix = o.tokenSuffix) : ¬ (outputPath p o suffix).HasNull := by
  obtain ⟨hdir, hextension, htokens⟩ : ¬ (∃ dir ∈ o.outputDir, dir.HasNull) ∧
      '\x00' ∉ o.extension.toList ∧ '\x00' ∉ o.tokenSuffix.toList := by
    simpa [ArtifactOptions.HasNull] using ho
  have hsuffix : '\x00' ∉ suffix.toList := by
    rcases hsuffix with rfl | rfl
    · simp
    · exact htokens
  refine Path.not_hasNull_join ?_ (Path.not_hasNull_ofString ?_)
  · cases hout : o.outputDir with
    | none => exact Path.not_hasNull_parent hp
    | some dir => exact fun hnull ↦ hdir ⟨dir, hout, hnull⟩
  · have hstem := Path.not_mem_stem hp
    simp [String.toList_append, hstem, hsuffix, hextension]

/-- Writing artifacts meets with a null character only in their paths. -/
theorem writeArtifacts_ne_nullByte {artifacts : List Artifact}
    (h : ∀ a ∈ artifacts, ¬ a.path.HasNull) :
    (writeArtifacts s artifacts).1 ≠ .error .nullByte := by
  induction artifacts generalizing s with
  | nil => simp [writeArtifacts]
  | cons a artifacts ih =>
    obtain ⟨ha, h⟩ := List.forall_mem_cons.1 h
    rw [writeArtifacts]
    split
    · rename_i hwrite
      have hne := Store.write_ne_nullByte (s := s) ha a.text.toUTF8
      rw [hwrite] at hne
      simpa using hne
    · exact ih h

/-- Artifacts go to two paths: that of the listing and that of the tree. -/
theorem path_of_mem_sourceArtifacts {source : Source} {artifacts : List Artifact} {a : Artifact}
    (h : sourceArtifacts source p o = .ok artifacts) (ha : a ∈ artifacts) :
    a.path = outputPath p o o.tokenSuffix ∨ a.path = outputPath p o "" := by
  cases hevents : source.events o.limits with
  | error d =>
    have herror := Source.sourceArtifacts_of_events_error hevents p
    simp [h] at herror
  | ok events =>
    obtain ⟨tree, -, hok⟩ := Source.sourceArtifacts_of_events hevents p
    obtain rfl := Except.ok.inj (h.symm.trans hok)
    rcases List.mem_append.1 ha with ha | ha
    · split at ha
      · exact .inl (by rw [List.mem_singleton.1 ha])
      · simp at ha
    · exact .inr (by rw [List.mem_singleton.1 ha])

/-- Making the directory for artifacts meets with one only in its path. -/
theorem makeOutputDir_ne_nullByte (ho : ¬ o.HasNull) :
    (makeOutputDir s o).1 ≠ .error .nullByte := by
  unfold makeOutputDir
  split
  · simp
  · rename_i dir hdir
    exact Store.ensureDirectory_ne_nullByte fun hnull ↦ ho (.inl ⟨dir, hdir, hnull⟩)

/-- A file without a null character on its path meets with none. -/
theorem analyzeFile_ne_nullByte (hp : ¬ p.HasNull) (ho : ¬ o.HasNull) :
    (analyzeFile s p o).1 ≠ .error (.file .nullByte) := by
  intro h
  rcases analyzeFile_file_error h with hread | ⟨source, artifacts, hartifacts, hmake | ⟨s', hwrite⟩⟩
  · exact Store.read_ne_nullByte hp hread
  · exact makeOutputDir_ne_nullByte ho hmake
  · refine writeArtifacts_ne_nullByte (fun a ha ↦ ?_) hwrite
    rcases path_of_mem_sourceArtifacts hartifacts ha with hpath | hpath <;> rw [hpath]
    · exact not_hasNull_outputPath hp ho (.inr rfl)
    · exact not_hasNull_outputPath hp ho (.inl rfl)

end JackSyntax
