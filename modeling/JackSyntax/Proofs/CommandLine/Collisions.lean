import Mathlib.Data.List.Flatten
import JackSyntax.Proofs.CommandLine.Targets

/-!
# Artifacts of one run

A run over a directory writes the artifacts of its sources one after the other, each to where its
name says. Where several go to one place, the last of them stays and the others are lost without a
complaint. This cannot happen if no listing is named like the tree of a source (`PlainNames`): then
each place holds its own artifact in the end.

## Main statements

* `own_of_mem_turns`: what a run reports to have written of a source are the source's own listing
  and tree.
* `run_artifacts`: what the places hold in the end that a run has reported.
-/

namespace JackSyntax

variable {settings : Settings} {s : Store} {p : Path} {units : List Path}

/-- What a turn reports to have written are the listing, if there are listings, and the tree of the
source that was read. -/
structure Turn.Own (o : ArtifactOptions) (t : Turn) (written : List Path) : Prop where
  artifacts_eq : ∃ source listing tree, t.source = .ok source ∧
    source.listing o.limits = .ok listing ∧ source.tree o.limits = .ok tree ∧
    t.artifacts o = (if o.writeTokens then [⟨outputPath t.path o o.tokenSuffix, listing⟩] else []) ++
      [⟨outputPath t.path o "", tree⟩]
  written_eq : written = (t.artifacts o).map Artifact.path

theorem Turn.own_of_answer {written : List Path}
    (h : (Turn.of settings s p).answer = .ok written) :
    (Turn.of settings s p).Own settings.artifacts written := by
  have hanalyze : (analyzeFile s p settings.artifacts).1 = .ok written := by
    cases hdump : (runDump settings { store := s } p).1 with
    | error e => simp [answer_of_runDump_error hdump] at h
    | ok => rwa [answer_of_runDump_ok hdump] at h
  obtain ⟨artifacts, _, hartifacts, -, -, rfl⟩ := analyzeFile_eq_ok_iff.1 (Prod.ext hanalyze rfl)
  have hturn : (Turn.of settings s p).artifacts settings.artifacts = artifacts := by
    rw [Turn.artifacts_of, artifactsOf, hartifacts]
  refine ⟨?_, by rw [hturn]⟩
  cases hread : readSource s p with
  | error e => simp [unitArtifacts_of_error hread] at hartifacts
  | ok source =>
    rw [unitArtifacts_of_source hread] at hartifacts
    obtain ⟨listing, tree, hlisting, htree, rfl⟩ := Source.artifacts_eq hartifacts
    exact ⟨source, listing, tree, hread, hlisting, htree, hturn⟩

/-- What a run reports to have written of its files. -/
theorem own_of_mem_turns {t : Turn} {written : List Path} {paths : List Path}
    (ht : t ∈ turns settings s paths) (h : t.answer = .ok written) :
    t.Own settings.artifacts written := by
  obtain ⟨s', hturn⟩ := exists_of_mem_turns ht
  rw [hturn] at h ⊢
  exact Turn.own_of_answer h

/-- Where a turn reports artifacts. -/
def Turn.reported (t : Turn) : List Path :=
  match t.answer with
  | .ok written => written
  | .error _ => []

/-! ### Targets of one run -/

section Targets

variable {o : ArtifactOptions} {source : Path}

@[simp]
theorem Path.parent_child (p : Path) (name : String) : (p.child name).parent = p := by
  simp [Path.parent, Path.child]

/-- The targets of the sources in a directory are different names in one directory. -/
theorem exists_targetNames {loc : Location} (hloc : s.locate source = .ok loc)
    (hnode : s.node? loc = some .directory) (hunits : s.sources source = .ok units)
    (hplain : PlainNames o units) : ∃ names : List String, names.Nodup ∧
      units.flatMap (targets o) = names.map (o.outputDir.getD source).child := by
  obtain ⟨-, hsorted, hmem⟩ := (Store.sources_eq_ok_iff hloc hnode).1 hunits
  have hsuffix : ∀ q ∈ units, q.suffix = sourceSuffix := fun q hq ↦ by
    obtain ⟨_, -, -, hsuffix⟩ := (hmem q).1 hq
    exact hsuffix
  refine ⟨_, nodup_targetNames hplain hsorted hsuffix, ?_⟩
  rw [List.map_flatMap]
  refine List.flatMap_congr fun q hq ↦ ?_
  obtain ⟨name, rfl, -, -⟩ := (hmem q).1 hq
  rw [targets_eq hplain hq (hsuffix _ hq), Path.parent_child]

end Targets

/-- Turns have artifacts for the targets of their files only. -/
theorem Turn.artifacts_sublist (o : ArtifactOptions) (t : Turn) :
    ((t.artifacts o).map Artifact.path).Sublist (targets o t.path) := by
  rcases hartifacts : t.artifacts o with _ | ⟨a, artifacts⟩
  · exact List.nil_sublist _
  · obtain ⟨source, artifacts', -, hok, heq⟩ :=
      Turn.exists_of_mem_artifacts (hartifacts ▸ List.mem_cons_self)
    rw [← hartifacts, heq, map_path_sourceArtifacts hok]

/-- So all artifacts of a run go to targets of its files, in order. -/
theorem flatMap_sublist_targets (settings : Settings) (s : Store) (units : List Path)
    {f : Turn → List Path}
    (hf : ∀ t ∈ turns settings s units, (f t).Sublist (targets settings.artifacts t.path)) :
    ((turns settings s units).flatMap f).Sublist (units.flatMap (targets settings.artifacts)) := by
  rw [← map_path_turns settings s units, List.flatMap_map, map_path_turns]
  exact List.Sublist.flatMap_right _ hf

/-! ### Runs whose artifacts are apart -/

/-- What is left of the artifacts of a run over the files. -/
structure ArtifactsLeft (settings : Settings) (s : Store) (units : List Path) : Prop where
  /-- What is reported of a file are its own artifacts. -/
  own : ∀ t ∈ turns settings s units, ∀ written, t.answer = .ok written →
    t.Own settings.artifacts written
  /-- In the end a place holds the last artifact that went there. -/
  last : ∀ earlier a later,
    (turns settings s units).flatMap (Turn.artifacts settings.artifacts) = earlier ++ a :: later →
    (∀ b ∈ later, (run settings s).2.locate b.path ≠ (run settings s).2.locate a.path) →
    (run settings s).2.read a.path = .ok a.text.toUTF8
  /-- Where names are plain and no listing is named like a tree, no place is reported twice, -/
  nodup : PlainNames settings.artifacts units →
    ((turns settings s units).flatMap Turn.reported).Nodup
  /-- and each of them holds its own artifact in the end. -/
  kept : PlainNames settings.artifacts units → ∀ t ∈ turns settings s units,
    ∀ a ∈ t.artifacts settings.artifacts, (run settings s).2.read a.path = .ok a.text.toUTF8

/-- What a run over a directory leaves of its artifacts if no failed operation on files ends it. -/
theorem run_artifacts {status : Nat} {messages : String}
    (hdirectory : s.isDirectory settings.source = .ok true)
    (hrun : (run settings s).1 = .finished status messages) (hstatus : status ≠ 2) :
    ∃ units, s.sources settings.source = .ok units ∧ ArtifactsLeft settings s units := by
  obtain ⟨loc, hloc, hnode⟩ := Store.isDirectory_eq_true_iff.1 hdirectory
  obtain ⟨units, hunits, hstopped⟩ := not_stopped_of_run hrun hstatus
  obtain ⟨done, -, hwritten, hall⟩ := run_written hunits
  obtain rfl := hall hstopped
  refine ⟨units, hunits, {
    own := fun t ht written ↦ own_of_mem_turns ht
    last := fun earlier a later hsplit hlater ↦ (hsplit ▸ hwritten).read_last hlater
    nodup := fun hplain ↦ ?nodup
    kept := fun hplain t ht a ha ↦ ?kept }⟩
  case nodup =>
    obtain ⟨names, hnames, htargets⟩ := exists_targetNames hloc hnode hunits hplain
    have hdistinct : (units.flatMap (targets settings.artifacts)).Nodup := by
      rw [htargets]
      exact hnames.map fun _ _ ↦ Path.child_injective _
    refine (flatMap_sublist_targets settings s units fun t ht ↦ ?_).nodup hdistinct
    rw [Turn.reported]
    split
    · rename_i written hanswer
      rw [(own_of_mem_turns ht hanswer).written_eq]
      exact t.artifacts_sublist _
    · exact List.nil_sublist _
  case kept =>
    obtain ⟨names, hnames, htargets⟩ := exists_targetNames hloc hnode hunits hplain
    have hpaths := flatMap_sublist_targets settings s units fun t _ ↦
      t.artifacts_sublist settings.artifacts
    rw [htargets, ← List.map_flatMap] at hpaths
    have hdistinct := hpaths.nodup (hnames.map fun _ _ ↦ Path.child_injective _)
    have hchildren : ∀ b ∈ (turns settings s units).flatMap (Turn.artifacts settings.artifacts),
        ∃ name, b.path = (settings.artifacts.outputDir.getD settings.source).child name := by
      intro b hb
      obtain ⟨name, -, hname⟩ := List.mem_map.1 (hpaths.subset (List.mem_map_of_mem hb))
      exact ⟨name, hname.symm⟩
    exact hwritten.read_of_nodup hchildren hdistinct (List.mem_flatMap.2 ⟨t, ht, ha⟩)

/-- A directory with one source, which has a listing. -/
theorem run_artifacts_single :
    let s : Store := {
      table := [(["A.jack"], .file "class A\x7b\x7d".toUTF8)]
      table_nodup := by decide }
    let o : ArtifactOptions := { writeTokens := true }
    let settings : Settings :=
      { source := .ofString ".", artifacts := o, debug := false, verbose := false }
    PlainNames o [.ofString "A.jack"] ∧ s.isDirectory settings.source = .ok true ∧
      (run settings s).1 = .finished 0 "" ∧
      ∃ units, s.sources settings.source = .ok units ∧ ArtifactsLeft settings s units := by
  intro s o settings
  let p : Path := .ofString "A.jack"
  let source : Source := ⟨"A.jack", "class A\x7b\x7d"⟩
  have hplain : PlainNames o [p] := by
    constructor <;> decide +kernel
  have hdirectory : s.isDirectory settings.source = .ok true := by decide +kernel
  have hunits : s.sources settings.source = .ok [p] := by
    have hloc : s.locate settings.source = .ok [] := by decide +kernel
    have hnames : s.childNames [] = ["A.jack"] :=
      Store.childNames_eq (by decide) fun name ↦ by simp [Store.node?, s]
    rw [Store.sources_of_directory hloc rfl, hnames]
    decide +kernel
  have hread : readSource s p = .ok source := by decide +kernel
  have hartifacts : sourceArtifacts source p o =
      .ok [⟨.ofString "AT.xml", Source.emptyClassListing⟩,
        ⟨.ofString "A.xml", Source.emptyClassTree⟩] := by
    rw [Source.sourceArtifacts_emptyClass rfl]
    decide +kernel
  have hanalyze := analyzeFile_of_artifacts hread hartifacts rfl (by decide +kernel)
  have hunit : runUnit settings { store := s } p = _ := runUnit_of_analyzed rfl hanalyze
  have hrun : (run settings s).1 = .finished 0 "" := by
    simp only [run_of_sources hunits, runUnits, hunit]
    rfl
  exact ⟨hplain, hdirectory, hrun, run_artifacts hdirectory hrun (by decide)⟩

/-- A directory with two sources, of which one has the name that a listing of the other one has. The
listing is lost, and there is no complaint. -/
theorem run_loses_listing :
    let s : Store := {
      table := [
        (["AT.jack"], .file "class A\x7b\x7d".toUTF8), (["A.jack"], .file "class A\x7b\x7d".toUTF8)]
      table_nodup := by decide }
    let settings : Settings :=
      { source := .ofString ".", artifacts := { writeTokens := true }, debug := false, verbose := false }
    let source : Source := ⟨"A.jack", "class A\x7b\x7d"⟩
    let target : Path := .ofString "AT.xml"
    s.isDirectory settings.source = .ok true ∧
      s.sources settings.source = .ok [.ofString "A.jack", .ofString "AT.jack"] ∧
      (run settings s).1 = .finished 0 "" ∧ readSource s (.ofString "A.jack") = .ok source ∧
      source.listing settings.artifacts.limits = .ok Source.emptyClassListing ∧
      outputPath (.ofString "A.jack") settings.artifacts settings.artifacts.tokenSuffix = target ∧
      (turns settings s [.ofString "A.jack", .ofString "AT.jack"]).map Turn.reported =
        [[target, .ofString "A.xml"], [.ofString "ATT.xml", target]] ∧
      (run settings s).2.read target = .ok Source.emptyClassTree.toUTF8 ∧
      (run settings s).2.read target ≠ .ok Source.emptyClassListing.toUTF8 := by
  intro s settings source target
  let o : ArtifactOptions := { writeTokens := true }
  let p : Path := .ofString "A.jack"
  let q : Path := .ofString "AT.jack"
  let artifacts : List Artifact :=
    [⟨target, Source.emptyClassListing⟩, ⟨.ofString "A.xml", Source.emptyClassTree⟩]
  let others : List Artifact :=
    [⟨.ofString "ATT.xml", Source.emptyClassListing⟩, ⟨target, Source.emptyClassTree⟩]
  let s₁ : Store := (writeArtifacts s artifacts).2
  have hdirectory : s.isDirectory settings.source = .ok true := by decide +kernel
  have hunits : s.sources settings.source = .ok [p, q] := by
    have hloc : s.locate settings.source = .ok [] := by decide +kernel
    have hnames : s.childNames [] = ["A.jack", "AT.jack"] :=
      Store.childNames_eq (by decide) fun name ↦ by simp [Store.node?, s, or_comm]
    rw [Store.sources_of_directory hloc rfl, hnames]
    decide +kernel
  have hread : readSource s p = .ok source := by decide +kernel
  have hread' : readSource s₁ q = .ok ⟨"AT.jack", "class A\x7b\x7d"⟩ := by decide +kernel
  have hartifacts : sourceArtifacts source p o = .ok artifacts := by
    rw [Source.sourceArtifacts_emptyClass rfl]
    decide +kernel
  have hothers : sourceArtifacts ⟨"AT.jack", "class A\x7b\x7d"⟩ q o = .ok others := by
    rw [Source.sourceArtifacts_emptyClass rfl]
    decide +kernel
  have hanalyze := analyzeFile_of_artifacts hread hartifacts rfl (by decide +kernel)
  have hanalyze' := analyzeFile_of_artifacts hread' hothers rfl (by decide +kernel)
  have hfirst : runUnit settings { store := s } p = (none, { store := s₁ }) :=
    runUnit_of_analyzed rfl hanalyze
  have hsecond : runUnit settings { store := s₁ } q =
      (none, { store := (writeArtifacts s₁ others).2 }) :=
    runUnit_of_analyzed rfl hanalyze'
  have hend : run settings s = (.finished 0 "", (writeArtifacts s₁ others).2) := by
    simp only [run_of_sources hunits, runUnits, hfirst, hsecond]
    rfl
  have hturns : (turns settings s [p, q]).map Turn.reported =
      [artifacts.map Artifact.path, others.map Artifact.path] := by
    have hstore : (analyzeFile s p settings.artifacts).2 = s₁ := congrArg Prod.snd hanalyze
    have hanswer : (Turn.of settings s p).answer = _ :=
      (answer_of_runDump_ok rfl).trans (congrArg Prod.fst hanalyze)
    have hanswer' : (Turn.of settings s₁ q).answer = _ :=
      (answer_of_runDump_ok rfl).trans (congrArg Prod.fst hanalyze')
    simp only [turns, hstore, List.map_cons, List.map_nil, Turn.reported, hanswer, hanswer']
  rw [hend, hturns]
  exact ⟨hdirectory, hunits, rfl, hread, by decide +kernel, by decide +kernel, by decide +kernel,
    by decide +kernel, by decide +kernel⟩

end JackSyntax
