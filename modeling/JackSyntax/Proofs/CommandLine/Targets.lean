import Mathlib.Data.List.Nodup
import JackSyntax.Proofs.Artifact.Names
import JackSyntax.Proofs.CommandLine.Turns
import JackSyntax.Proofs.Store.Sources

/-!
# Where artifacts go and what they replace

Where the artifacts of a file go (`targets`) is worked out from its name and the settings, and is
not compared with where sources are. So a run leaves its sources as they are unless one of these
places is that of a source, which then holds an artifact. That is all a run can do to its sources,
however it ends, since it changes the store only by writing artifacts (`run_written`).

## Main statements

* `run_written`: a run writes the artifacts of its sources in order.
* `runArguments_keeps_sources`: a source is kept, or replaced with an artifact that goes where it
  is.
-/

namespace JackSyntax

variable {settings : Settings} {o : ArtifactOptions} {s : Store} {p q : Path} {source : Source}
  {paths units : List Path} {artifacts : List Artifact} {a : Artifact}

/-! ### Targets -/

/-- The artifacts of a turn are those of its file, of a source that was read there. -/
theorem Turn.exists_of_mem_artifacts {t : Turn} (h : a ∈ t.artifacts o) :
    ∃ source artifacts, t.source = .ok source ∧ sourceArtifacts source t.path o = .ok artifacts ∧
      t.artifacts o = artifacts := by
  rw [artifacts] at h
  split at h
  · rename_i source hsource
    cases hartifacts : sourceArtifacts source t.path o with
    | error e => simp [hartifacts, Except.toOption] at h
    | ok artifacts =>
      refine ⟨source, artifacts, hsource, hartifacts, ?_⟩
      simp [Turn.artifacts, hsource, hartifacts, Except.toOption]
  · simp at h

/-! ### What a run writes -/

/-- A run writes the artifacts of its sources in order, all of them unless a source stops it. -/
theorem run_written (h : s.sources settings.source = .ok paths) :
    ∃ done, done <+: (turns settings s paths).flatMap (Turn.artifacts settings.artifacts) ∧
      s.Written done (run settings s).2 ∧
      ((∀ e, .stopped e ∉ unitVerdicts settings.artifacts s paths) →
        done = (turns settings s paths).flatMap (Turn.artifacts settings.artifacts)) := by
  rw [run_of_sources h]
  exact runUnits_written settings { store := s } paths

/-- Each source is a file. -/
theorem Store.exists_file_of_mem_sources (h : s.sources p = .ok units) (hq : q ∈ units) :
    ∃ loc content, s.locate q = .ok loc ∧ s.node? loc = some (.file content) := by
  rcases hat : s.at? p with e | _ | content | _
  · simp [Store.sources, hat] at h
  · simp [Store.sources, hat] at h
  · obtain ⟨loc, hloc, hnode⟩ := Store.locate_of_at? hat
    obtain rfl : [p] = units := by simpa [Store.sources, hat] using h
    obtain rfl := List.mem_singleton.1 hq
    exact ⟨loc, content, hloc, hnode⟩
  · obtain ⟨loc, hloc, hnode⟩ := Store.locate_of_at? hat
    obtain ⟨-, hq, content, hcontent⟩ := Store.locate_of_mem_sources hloc hnode h hq
    exact ⟨_, content, hq, hcontent⟩

/-! ### What becomes of the sources of a run -/

/-- In place of the source at the path there is an artifact, of a source of the run that has a
target there. -/
inductive Replaced (o : ArtifactOptions) (units : List Path) (after : Store) (p : Path) : Prop
  | intro {q : Path} {source : Source} {artifacts : List Artifact} {a : Artifact} (hq : q ∈ units)
    (hartifacts : sourceArtifacts source q o = .ok artifacts) (ha : a ∈ artifacts)
    (htarget : a.path ∈ targets o q) (hplace : after.locate a.path = after.locate p)
    (hread : after.read p = .ok a.text.toUTF8)

theorem mem_of_mem_turns {t : Turn} (h : t ∈ turns settings s paths) : t.path ∈ paths :=
  map_path_turns settings s paths ▸ List.mem_map_of_mem h

/-- A source is kept by a run, or replaced. -/
theorem source_kept_or_replaced (hunits : s.sources settings.source = .ok units) (hp : p ∈ units) :
    ∃ content, s.read p = .ok content ∧ ((run settings s).2.read p = .ok content ∨
      Replaced settings.artifacts units (run settings s).2 p) := by
  obtain ⟨loc, content, hloc, hnode⟩ := Store.exists_file_of_mem_sources hunits hp
  obtain ⟨done, hdone, hwritten, -⟩ := run_written hunits
  have hloc' := hwritten.keeps.locate hloc
  refine ⟨content, Store.read_eq_ok_iff.2 ⟨loc, hloc, hnode⟩, ?_⟩
  rcases hwritten.node?_cases hnode with hkept | ⟨a, ha, hplace, hlast⟩
  · exact .inl (Store.read_eq_ok_iff.2 ⟨loc, hloc', hkept⟩)
  · obtain ⟨t, ht, hat⟩ := List.mem_flatMap.1 (hdone.subset ha)
    obtain ⟨source, artifacts, -, hartifacts, heq⟩ := Turn.exists_of_mem_artifacts hat
    rw [heq] at hat
    exact .inr (.intro (mem_of_mem_turns ht) hartifacts hat
      (map_path_sourceArtifacts hartifacts ▸ List.mem_map_of_mem hat)
      (hplace.trans hloc'.symm) (Store.read_eq_ok_iff.2 ⟨loc, hloc', hlast⟩))

/-- However a run ends, each of its sources holds what it held before, unless it is replaced with an
artifact. -/
theorem runArguments_keeps_sources {arguments : List String} {a : Arguments}
    (harguments : Arguments.ofStrings arguments = .ok a)
    (hsettings : resolveSettings s a = .ok settings)
    (hunits : s.sources settings.source = .ok units) (hp : p ∈ units) :
    ∃ content, s.read p = .ok content ∧ ((runArguments arguments s).2.read p = .ok content ∨
      Replaced settings.artifacts units (runArguments arguments s).2 p) := by
  simp only [runArguments, harguments, hsettings]
  exact source_kept_or_replaced hunits hp

/-- A source on its own. -/
theorem runArguments_keeps_sources_single :
    let s : Store := {
      table := [(["A.jack"], .file "class A\x7b\x7d".toUTF8)]
      table_nodup := by decide }
    let p : Path := .ofString "A.jack"
    ∃ content, s.read p = .ok content ∧ ((runArguments ["A.jack"] s).2.read p = .ok content ∨
      Replaced {} [p] (runArguments ["A.jack"] s).2 p) := by
  intro s p
  let a : Arguments := { source := "A.jack" }
  let settings : Settings := { source := p, artifacts := {}, debug := false, verbose := false }
  have harguments : Arguments.ofStrings ["A.jack"] = .ok a := by decide +kernel
  have hsettings : resolveSettings s a = .ok settings := by decide +kernel
  have hunits : s.sources settings.source = .ok [p] := by decide +kernel
  exact runArguments_keeps_sources harguments hsettings hunits List.mem_cons_self

/-- A source that is replaced with its own tree, because artifacts have the ending of sources. -/
theorem runArguments_replaces_source :
    let s : Store := {
      table := [
        (["A.jack"], .file "class A\x7b\x7d".toUTF8),
        (["jackanalyzer.toml"], .file "[output]\nextension = \"jack\"\n".toUTF8)]
      table_nodup := by decide }
    let p : Path := .ofString "A.jack"
    let settings : Settings :=
      { source := p, artifacts := { extension := "jack" }, debug := false, verbose := false }
    (∃ a, Arguments.ofStrings ["A.jack"] = .ok a ∧ resolveSettings s a = .ok settings) ∧
      s.sources settings.source = .ok [p] ∧
      (runArguments ["A.jack"] s).1 = .finished 0 "" ∧
      s.read p = .ok "class A\x7b\x7d".toUTF8 ∧
      (runArguments ["A.jack"] s).2.read p = .ok Source.emptyClassTree.toUTF8 ∧
      (runArguments ["A.jack"] s).2.read p ≠ s.read p := by
  intro s p settings
  let source : Source := ⟨"A.jack", "class A\x7b\x7d"⟩
  let artifacts : List Artifact := [⟨p, Source.emptyClassTree⟩]
  have harguments : Arguments.ofStrings ["A.jack"] = .ok { source := "A.jack" } := by decide +kernel
  have hsettings : resolveSettings s { source := "A.jack" } = .ok settings := by decide +kernel
  have hunits : s.sources settings.source = .ok [p] := by decide +kernel
  have hread : readSource s p = .ok source := by decide +kernel
  have hartifacts : sourceArtifacts source p settings.artifacts = .ok artifacts := by
    rw [Source.sourceArtifacts_emptyClass rfl]
    decide +kernel
  have hanalyzed := analyzeFile_of_artifacts hread hartifacts rfl (by decide +kernel)
  have hunit : runUnit settings { store := s } p =
      (none, { store := (writeArtifacts s artifacts).2 }) :=
    runUnit_of_analyzed rfl hanalyzed
  have hend : runArguments ["A.jack"] s = (.finished 0 "", (writeArtifacts s artifacts).2) := by
    simp only [runArguments, harguments, hsettings, run_of_sources hunits, runUnits, hunit]
    rfl
  rw [hend]
  exact ⟨⟨_, harguments, hsettings⟩, hunits, rfl, by decide +kernel, by decide +kernel,
    by decide +kernel⟩

end JackSyntax
