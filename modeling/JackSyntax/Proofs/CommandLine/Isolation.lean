import Mathlib.Data.List.Nodup
import JackSyntax.Proofs.CommandLine.Turns
import JackSyntax.Proofs.Store.Removal

/-!
# Files at fault do not concern the others

A run over a directory finds its files before it writes anything, and a file at fault changes
nothing. So files at fault may as well be removed before the run: the other files are treated the
same, and what the run leaves elsewhere is the same. This holds although artifacts may go to where
other sources are, since a run without some files has room wherever a run with them has.

## Main statements

* `storeAfter_lacks`: the stores after two runs, the second without files that are at fault in the
  first.
* `run_isolated`: which files of a directory a run treats, what it reports of them, and that it
  leaves the same without those at fault.
-/

namespace JackSyntax

open Store (Lacks)

variable {settings : Settings} {o : ArtifactOptions} {s s' : Store} {p : Path}
  {paths removed : List Path} {gone : List Location}

/-- The analysis of a file keeps all directories. -/
theorem analyzeFile_keeps (s : Store) (p : Path) (o : ArtifactOptions) :
    s.Keeps (analyzeFile s p o).2 := by
  obtain ⟨done, -, hwritten, -⟩ := analyzeFile_written s p o
  exact hwritten.keeps

/-- The stores after two runs of which the second does without files that are at fault in the first:
they differ at these files at most. The second run is not stopped either. -/
theorem storeAfter_lacks (h : Lacks gone s s')
    (hplace : ∀ p ∈ paths, p ∉ removed → ∃ loc, s.locate p = .ok loc ∧ loc ∉ gone)
    (hfails : ∀ t ∈ turns settings s paths, t.path ∈ removed → t.fails = true)
    (hstopped : ∀ e, .stopped e ∉ unitVerdicts settings.artifacts s paths) :
    Lacks gone (storeAfter settings.artifacts s paths)
        (storeAfter settings.artifacts s' (paths.filter (· ∉ removed))) ∧
      ∀ e, .stopped e ∉ unitVerdicts settings.artifacts s' (paths.filter (· ∉ removed)) := by
  induction paths generalizing s s' with
  | nil => exact ⟨h, by simp [unitVerdicts]⟩
  | cons p paths ih =>
    obtain ⟨hp, hplaces⟩ := List.forall_mem_cons.1 hplace
    obtain ⟨hfail, hfails⟩ := List.forall_mem_cons.1 hfails
    simp only [unitVerdicts, List.mem_cons, not_or] at hstopped
    -- Where the other files are found does not change with the analysis of this one.
    have hplaces' : ∀ q ∈ paths, q ∉ removed →
        ∃ loc, (analyzeFile s p settings.artifacts).2.locate q = .ok loc ∧ loc ∉ gone := by
      intro q hq hkept
      obtain ⟨loc, hloc, hmem⟩ := hplaces q hq hkept
      exact ⟨loc, (analyzeFile_keeps s p settings.artifacts).locate hloc, hmem⟩
    by_cases hremoved : p ∈ removed
    · have hstore := store_of_atFault (Turn.fails_of_iff.1 (hfail hremoved))
      rw [List.filter_cons_of_neg (by simpa using hremoved)]
      rw [hstore] at hplaces' hfails hstopped
      rw [storeAfter, List.foldl_cons, hstore]
      exact ih h hplaces' hfails fun e ↦ (hstopped e).2
    · obtain ⟨loc, hloc, hmem⟩ := hp hremoved
      obtain ⟨hafter, hverdict⟩ := lacks_analyzeFile (o := settings.artifacts) h hloc hmem
        fun e he ↦ (hstopped e).1 he.symm
      obtain ⟨hlacks, hnone⟩ := ih hafter hplaces' hfails fun e ↦ (hstopped e).2
      rw [List.filter_cons_of_pos (by simpa using hremoved)]
      refine ⟨hlacks, fun e ↦ ?_⟩
      rw [unitVerdicts, hverdict, List.mem_cons, not_or]
      exact ⟨(hstopped e).1, hnone e⟩

/-- What a run over a directory makes of the files in it. -/
structure IsolatedRun (settings : Settings) (s : Store) (units : List Path) (status : Nat)
    (messages : String) : Prop where
  sources_eq : s.sources settings.source = .ok units
  /-- The files treated are those directly in the directory that have the ending of sources. -/
  mem_iff : ∀ q, q ∈ units ↔ ∃ name, q = settings.source.child name ∧ s.isFile q = .ok true ∧
    q.suffix = sourceSuffix
  /-- They are treated by name, -/
  sorted : units.Pairwise (·.name < ·.name)
  /-- in whatever order the store has them, -/
  sources_congr : ∀ s' : Store, s'.working = s.working → (∀ loc, s'.node? loc = s.node? loc) →
    s'.sources settings.source = .ok units
  /-- each of them once. -/
  treated : (turns settings s units).map Turn.path = units
  /-- The status tells whether one was at fault. -/
  status_eq : status = if (turns settings s units).any Turn.fails then 1 else 0
  /-- What is reported of each file comes in the same order, -/
  messages_eq : messages = String.join
    ((turns settings s units).map fun t ↦ t.dump ++ t.block?.getD "" ++ t.notes settings)
  /-- with one error block for each file at fault. -/
  isSome_block? : ∀ t ∈ turns settings s units, t.block?.isSome = t.fails
  /-- Without any of the files at fault, the run leaves the same everywhere else. -/
  removal : ∀ removed : List Path, removed.Nodup →
    (∀ q ∈ removed, ∃ t ∈ turns settings s units, t.path = q ∧ t.fails = true) →
    ∃ s' status' messages', s.removeAll removed = .ok s' ∧
      (run settings s').1 = .finished status' messages' ∧ status' ≠ 2 ∧
      ∀ loc, (∀ q ∈ removed, s.locate q ≠ .ok loc) →
        (run settings s').2.node? loc = (run settings s).2.node? loc

/-- A file has one turn, so if any turn of it fails then this one does. -/
theorem fails_of_mem_turns {t : Turn} (hnodup : paths.Nodup) (ht : t ∈ turns settings s paths)
    (hfails : ∃ t' ∈ turns settings s paths, t'.path = t.path ∧ t'.fails = true) :
    t.fails = true := by
  obtain ⟨t', ht', hpath, hfail⟩ := hfails
  have hdistinct : ((turns settings s paths).map Turn.path).Nodup := by
    rwa [map_path_turns]
  exact List.inj_on_of_nodup_map hdistinct ht' ht hpath ▸ hfail

/-- A run over a directory that no failed operation on files ends treats each file for itself. (A
run that breaks off at a null character in a name ends with no status at all.) -/
theorem run_isolated {status : Nat} {messages : String}
    (hdirectory : s.isDirectory settings.source = .ok true)
    (hrun : (run settings s).1 = .finished status messages) (hstatus : status ≠ 2) :
    ∃ units, IsolatedRun settings s units status messages := by
  obtain ⟨loc, hloc, hnode⟩ := Store.isDirectory_eq_true_iff.1 hdirectory
  obtain ⟨units, hunits, hstopped⟩ := not_stopped_of_run hrun hstatus
  obtain ⟨htest, hsorted, hmem⟩ := (Store.sources_eq_ok_iff hloc hnode).1 hunits
  have hnodup := nodup_of_pairwise_lt hsorted
  have hend := run_of_not_stopped hunits hstopped
  rw [hend] at hrun
  obtain ⟨rfl, rfl⟩ := Outcome.finished.inj hrun
  refine ⟨units, {
    sources_eq := hunits
    mem_iff := hmem
    sorted := hsorted
    sources_congr := fun s' hworking hnodes ↦
      Store.sources_congr hloc hnode hunits hworking hnodes
    treated := map_path_turns _ _ _
    status_eq := rfl
    messages_eq := rfl
    isSome_block? := fun t _ ↦ t.isSome_block?
    removal := fun removed hremovedNodup hfails ↦ ?_ }⟩
  have hunit := fun q (hq : q ∈ units) ↦ Store.locate_of_mem_sources hloc hnode hunits hq
  have hremoved : ∀ q ∈ removed, q ∈ units := by
    intro q hq
    obtain ⟨t, ht, rfl, -⟩ := hfails q hq
    exact map_path_turns settings s units ▸ List.mem_map_of_mem ht
  have hplaces : (removed.map fun q ↦ loc ++ [q.name]).Nodup := by
    refine List.pairwise_map.2 (hremovedNodup.imp_of_mem fun {q r} hq hr hne hplace ↦ hne ?_)
    have hname : q.name = r.name := by simpa using hplace
    rw [(hunit q (hremoved q hq)).1, hname, ← (hunit r (hremoved r hr)).1]
  obtain ⟨s', hremove, hworking, hnodes⟩ := Store.exists_removeAll
    (fun q hq ↦ (hunit q (hremoved q hq)).2) hplaces
  obtain ⟨hlacks, hunits'⟩ := Store.sources_of_removed hloc hnode hunits hremoved hworking hnodes
  obtain ⟨hafter, hstopped'⟩ := storeAfter_lacks hlacks
    (fun q hq hkept ↦
      ⟨_, (hunit q hq).2.1, mt (Store.mem_places_iff hloc hnode hunits hremoved hq).1 hkept⟩)
    (fun t ht htremoved ↦ fails_of_mem_turns hnodup ht (hfails t.path htremoved)) hstopped
  have hend' := run_of_not_stopped hunits' hstopped'
  refine ⟨s', _, _, hremove, congrArg Prod.fst hend', by split <;> decide, fun l hl ↦ ?_⟩
  rw [hend, hend']
  refine hafter.node?_eq l fun hmem ↦ ?_
  obtain ⟨q, hq, rfl⟩ := List.mem_map.1 hmem
  exact hl q hq (hunit q (hremoved q hq)).2.1

/-- A directory with a source that is no UTF-8 and one that is a class. -/
theorem run_isolated_two :
    let s : Store := {
      table := [(["B.jack"], .file "class A\x7b\x7d".toUTF8), (["A.jack"], .file ⟨#[0xff]⟩)]
      table_nodup := by decide }
    let settings : Settings :=
      { source := .ofString ".", artifacts := {}, debug := false, verbose := true }
    ∃ messages, s.isDirectory settings.source = .ok true ∧
      (run settings s).1 = .finished 1 messages ∧
      ∃ units, IsolatedRun settings s units 1 messages := by
  intro s settings
  have hdirectory : s.isDirectory settings.source = .ok true := by decide +kernel
  have hunits : s.sources settings.source = .ok [.ofString "A.jack", .ofString "B.jack"] := by
    have hloc : s.locate settings.source = .ok [] := by decide +kernel
    have hnames : s.childNames [] = ["A.jack", "B.jack"] :=
      Store.childNames_eq (by decide) fun name ↦ by simp [Store.node?, s, or_comm]
    rw [Store.sources_of_directory hloc rfl, hnames]
    decide +kernel
  have hfault : unitVerdict s (.ofString "A.jack") {} = .atFault := by decide +kernel
  have hwritten : unitVerdict s (.ofString "B.jack") {} = .written := by
    let source : Source := ⟨"B.jack", "class A\x7b\x7d"⟩
    have hartifacts := Source.sourceArtifacts_emptyClass
      (show settings.artifacts.limits = {} from rfl) "B.jack" (.ofString "B.jack")
    have hread : readSource s (.ofString "B.jack") = .ok source := by decide +kernel
    exact unitVerdict_eq_written_iff.2
      ⟨_, _, analyzeFile_of_artifacts hread hartifacts rfl (by decide +kernel)⟩
  have hend := run_of_not_stopped hunits (by
    rw [unitVerdicts, unitVerdicts, unitVerdicts, store_of_atFault hfault, hfault, hwritten]
    simp)
  rw [turns, List.any_cons, Turn.fails_of_iff.2 hfault, Bool.true_or, if_pos rfl] at hend
  have hrun := congrArg Prod.fst hend
  exact ⟨_, hdirectory, hrun, run_isolated hdirectory hrun (by decide)⟩

end JackSyntax
