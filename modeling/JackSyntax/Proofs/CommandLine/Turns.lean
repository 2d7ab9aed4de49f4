import JackSyntax.Proofs.Artifact.Writing
import JackSyntax.Proofs.CommandLine.Units

/-!
# The turns of a run

A run takes its files in turn. What it makes of one (`Turn`) is what it dumps, then an error or the
paths of artifacts; a file at fault has one error block. What a run reports and leaves is a matter
of its turns (`runUnit_eq`). If no operation on files fails, the run ends with the reports of all of
them, one after the other, and with the store that the analyses leave. Otherwise it ends in the
first turn in which one fails (`RunEnds`).

## Main statements

* `Turn.analyzed`: a turn answers as what comes of the file says, with a dump or without one.
* `runUnit_eq`: what a run has reported after a file, what it leaves, and whether it goes on.
* `run_of_not_stopped`: how a run ends that no operation on files stops.
* `runEnds`: how any run over its files ends.
-/

namespace JackSyntax

/-- What a run makes of one of its files. -/
structure Turn where
  /-- The file. -/
  path : Path
  /-- What is read there. -/
  source : Except UnitError Source
  /-- What is dumped of it. -/
  dump : String
  /-- The error that it meets with, or where its artifacts are written. -/
  answer : Except UnitError (List Path)

/-- What is printed of the error of a file, unless it ends the run. -/
def errorBlock (p : Path) : UnitError → Option String
  | .diagnostic d => some (d.text ++ "\n")
  | .encoding e => some ("error: " ++ p.text ++ " is not valid UTF-8 (" ++ e.fault.message ++
      " at byte " ++ toString e.offset ++ ")\n")
  | .file _ => none
  | .markup _ => none

namespace Turn

/-- What a run makes of the file at the path. -/
def of (settings : Settings) (s : Store) (p : Path) : Turn :=
  let dumped := runDump settings { store := s } p
  { path := p
    source := readSource s p
    dump := dumped.2.messages
    answer := do
      dumped.1
      (analyzeFile s p settings.artifacts).1 }

/-- Whether the file is at fault: there is a complaint about its text, or it is no UTF-8. -/
def fails (t : Turn) : Bool :=
  match t.answer with
  | .error (.diagnostic _) => true
  | .error (.encoding _) => true
  | _ => false

/-- The error block of the file, if it is at fault. -/
def block? (t : Turn) : Option String :=
  match t.answer with
  | .error e => errorBlock t.path e
  | .ok _ => none

/-- The failed operation on files that ends the run with this turn, if one does. -/
def stop? (t : Turn) : Option FileError :=
  match t.answer with
  | .error (.file e) => some e
  | _ => none

/-- What is reported of the files written. -/
def notes (settings : Settings) (t : Turn) : String :=
  match t.answer with
  | .error _ => ""
  | .ok written => writtenReport settings written

/-- The artifacts of the file, none if it is at fault. -/
def artifacts (o : ArtifactOptions) (t : Turn) : List Artifact :=
  match t.source with
  | .ok source => ((sourceArtifacts source t.path o).toOption).getD []
  | .error _ => []

/-- All that is printed of the file. -/
def report (settings : Settings) (t : Turn) : String :=
  t.dump ++ t.block?.getD "" ++ t.notes settings

theorem isSome_block? (t : Turn) : t.block?.isSome = t.fails := by
  unfold block? fails
  rcases t.answer with (_ | _ | _ | _) | _ <;> rfl

end Turn

/-- What a run makes of each file, one after the other. -/
def turns (settings : Settings) (s : Store) : List Path → List Turn
  | [] => []
  | p :: paths => .of settings s p :: turns settings (analyzeFile s p settings.artifacts).2 paths

/-- The store after the analysis of each file, one after the other. -/
def storeAfter (o : ArtifactOptions) (s : Store) (paths : List Path) : Store :=
  paths.foldl (fun s p ↦ (analyzeFile s p o).2) s

variable {settings : Settings} {g : Progress} {s : Store} {p : Path} {paths : List Path}

theorem map_path_turns (settings : Settings) (s : Store) (paths : List Path) :
    (turns settings s paths).map Turn.path = paths := by
  induction paths generalizing s with
  | nil => rfl
  | cons p paths ih => exact congrArg (p :: ·) (ih _)

/-- Each turn of a run is that of its file, at some store. -/
theorem exists_of_mem_turns {t : Turn} (ht : t ∈ turns settings s paths) :
    ∃ s', t = Turn.of settings s' t.path := by
  induction paths generalizing s with
  | nil => simp [turns] at ht
  | cons p paths ih =>
    rcases List.mem_cons.1 ht with rfl | ht
    · exact ⟨s, rfl⟩
    · exact ih ht

/-! ### One file -/

/-- What is dumped comes after what was reported before. -/
theorem runDump_eq (settings : Settings) (g : Progress) (p : Path) : runDump settings g p =
    ((runDump settings { store := g.store } p).1, g.report (Turn.of settings g.store p).dump) := by
  simp only [Turn.of, runDump]
  split
  · cases readSource g.store p with
    | error e => simp [Progress.report]
    | ok source =>
      simp only
      rcases debugDump source settings.artifacts.limits with ⟨dump, _ | d⟩ <;>
        simp [Progress.report]
  · simp [Progress.report]

/-- What cuts a dump short also keeps the analysis from writing. -/
theorem store_of_runDump_error {e : UnitError} (h : (runDump settings g p).1 = .error e) :
    (analyzeFile g.store p settings.artifacts).2 = g.store := by
  cases hread : readSource g.store p with
  | error e' => rw [analyzeFile, unitArtifacts_of_error hread]
  | ok source =>
    obtain ⟨after, hanalyzed⟩ := runDump_error h
    refine store_of_atFault ?_
    simp only [runDump, hread] at h
    split at h
    · split at h
      · rename_i d hdump
        obtain ⟨d', hevents⟩ := events_of_debugDump hdump
        simp only [unitVerdict, hread, hevents]
      · simp at h
    · simp at h

/-- The progress of a run after it has dumped and analyzed a file. -/
def Progress.past (settings : Settings) (g : Progress) (p : Path) : Progress :=
  { g.report (Turn.of settings g.store p).dump with
    store := (analyzeFile g.store p settings.artifacts).2 }

theorem answer_of_runDump_error {e : UnitError}
    (h : (runDump settings { store := s } p).1 = .error e) :
    (Turn.of settings s p).answer = .error e := by
  rw [Turn.of, h]
  rfl

theorem answer_of_runDump_ok (h : (runDump settings { store := s } p).1 = .ok ()) :
    (Turn.of settings s p).answer = (analyzeFile s p settings.artifacts).1 := by
  rw [Turn.of, h]
  rfl

/-- An error of a file is settled, whether it comes up with the dump or with the analysis. -/
theorem runUnit_of_error {e : UnitError} (h : (Turn.of settings g.store p).answer = .error e) :
    runUnit settings g p =
      match (g.past settings p).settle p e with
      | .ok g' => (none, g')
      | .error abort => (some abort, g.past settings p) := by
  rw [runUnit, runDump_eq]
  rcases hdump : (runDump settings { store := g.store } p).1 with e' | _
  · rw [answer_of_runDump_error hdump] at h
    obtain rfl := Except.error.inj h
    have hpast : g.past settings p = g.report (Turn.of settings g.store p).dump := by
      rw [Progress.past, store_of_runDump_error hdump]
      rfl
    cases hsettle : (g.report (Turn.of settings g.store p).dump).settle p e' <;>
      simp only [hpast, hsettle]
  · rw [answer_of_runDump_ok hdump] at h
    simp only [Progress.past]
    rcases hanalyze : analyzeFile g.store p settings.artifacts with ⟨answer, s'⟩
    rw [hanalyze] at h
    obtain rfl := h
    cases hsettle : Progress.settle
        ⟨s', g.messages ++ (Turn.of settings g.store p).dump, g.failed⟩ p e <;>
      simp only [Progress.report, hanalyze, hsettle]

theorem runUnit_of_written {written : List Path}
    (h : (Turn.of settings g.store p).answer = .ok written) : runUnit settings g p =
      (none, (g.past settings p).report (writtenReport settings written)) := by
  rw [runUnit, runDump_eq]
  rcases hdump : (runDump settings { store := g.store } p).1 with e' | _
  · rw [answer_of_runDump_error hdump] at h
    simp at h
  · rw [answer_of_runDump_ok hdump] at h
    simp only [Progress.past]
    rcases hanalyze : analyzeFile g.store p settings.artifacts with ⟨answer, s'⟩
    rw [hanalyze] at h
    obtain rfl := h
    simp only [Progress.report, hanalyze]

/-- Without dumps, a file that is analyzed changes the store and is reported. -/
theorem runUnit_of_analyzed {written : List Path} {after : Store} (hdebug : settings.debug = false)
    (h : analyzeFile g.store p settings.artifacts = (.ok written, after)) :
    runUnit settings g p =
      (none, { g with store := after }.report (writtenReport settings written)) := by
  simp only [runUnit, runDump, hdebug, Bool.false_eq_true, if_false, h]

theorem Turn.artifacts_of (settings : Settings) (s : Store) (p : Path) :
    (Turn.of settings s p).artifacts settings.artifacts = artifactsOf settings.artifacts s p := by
  rw [artifacts, artifactsOf, of]
  simp only
  cases hread : readSource s p with
  | error e => simp only [unitArtifacts_of_error hread]
  | ok source =>
    rw [unitArtifacts_of_source hread]
    simp only
    cases sourceArtifacts source p settings.artifacts <;> rfl

/-- A turn answers as what comes of the file says. -/
theorem Turn.analyzed (settings : Settings) (s : Store) (p : Path) : ∃ after,
    Analyzed s (unitVerdict s p settings.artifacts) (Turn.of settings s p).answer after := by
  rw [Turn.of]
  rcases hdump : (runDump settings { store := s } p).1 with e | _
  · exact runDump_error hdump
  · exact ⟨_, analyzeFile_analyzed s p settings.artifacts⟩

/-- A file is at fault in its turn if that is what comes of it. -/
theorem Turn.fails_of_iff :
    (Turn.of settings s p).fails = true ↔ unitVerdict s p settings.artifacts = .atFault := by
  obtain ⟨after, hanalyzed⟩ := Turn.analyzed settings s p
  generalize unitVerdict s p settings.artifacts = verdict at hanalyzed ⊢
  unfold Turn.fails
  generalize (Turn.of settings s p).answer = answer at hanalyzed
  cases hanalyzed <;> simp

/-- A turn ends the run if an operation on files fails, which is what comes of the file then. -/
theorem Turn.stop?_eq_some_iff {e : FileError} : (Turn.of settings s p).stop? = some e ↔
    unitVerdict s p settings.artifacts = .stopped e := by
  obtain ⟨after, hanalyzed⟩ := Turn.analyzed settings s p
  generalize unitVerdict s p settings.artifacts = verdict at hanalyzed ⊢
  unfold Turn.stop?
  generalize (Turn.of settings s p).answer = answer at hanalyzed
  cases hanalyzed <;> simp

theorem Turn.stop?_eq_none (h : ∀ e, unitVerdict s p settings.artifacts ≠ .stopped e) :
    (Turn.of settings s p).stop? = none :=
  Option.eq_none_iff_forall_ne_some.2 fun e he ↦ h e (stop?_eq_some_iff.1 he)

/-- A turn that ends the run reports nothing but its dump. -/
theorem Turn.report_of_stop? {t : Turn} {e : FileError} (h : t.stop? = some e) :
    t.report settings = t.dump := by
  unfold stop? at h
  split at h
  · rename_i hanswer
    simp [report, block?, notes, hanswer, errorBlock]
  · simp at h

/-- After a file a run has reported its turn, and goes on unless that turn ends it. -/
theorem runUnit_eq (settings : Settings) (g : Progress) (p : Path) : runUnit settings g p =
    ((Turn.of settings g.store p).stop?.map .ofFileError, {
      store := (analyzeFile g.store p settings.artifacts).2
      messages := g.messages ++ (Turn.of settings g.store p).report settings
      failed := g.failed || (Turn.of settings g.store p).fails }) := by
  obtain ⟨after, hanalyzed⟩ := Turn.analyzed settings g.store p
  generalize unitVerdict g.store p settings.artifacts = verdict at hanalyzed
  rw [Turn.report, Turn.fails, Turn.block?, Turn.notes, Turn.stop?]
  rcases hanswer : (Turn.of settings g.store p).answer with e | written
  · rw [hanswer] at hanalyzed
    rw [runUnit_of_error hanswer]
    cases hanalyzed with
    | encoding =>
      simp [Progress.settle, errorBlock, Progress.fail, Progress.past, Progress.report, Turn.of,
        String.append_assoc]
    | diagnostic =>
      simp [Progress.settle, errorBlock, Progress.fail, Progress.past, Progress.report, Turn.of,
        String.append_assoc]
    | stopped => simp [Progress.settle, errorBlock, Progress.past, Progress.report]
  · rw [runUnit_of_written hanswer]
    simp [Progress.past, Progress.report, String.append_assoc]

/-- What ends a run at a file, by what comes of the file. -/
def UnitVerdict.abort? : UnitVerdict → Option Abort
  | stopped e => some (.ofFileError e)
  | _ => none

/-- What a run does with a file depends on what comes of the file, apart from messages. -/
theorem runUnit_by_verdict (settings : Settings) (g : Progress) (p : Path) :
    let verdict := unitVerdict g.store p settings.artifacts
    (runUnit settings g p).1 = verdict.abort? ∧
      (runUnit settings g p).2.store = (analyzeFile g.store p settings.artifacts).2 ∧
      (runUnit settings g p).2.failed = (g.failed || decide (verdict = .atFault)) := by
  intro verdict
  rw [runUnit_eq]
  refine ⟨?_, rfl, congrArg (g.failed || ·) (Bool.eq_iff_iff.2 ?_)⟩
  · cases hverdict : verdict with
    | written =>
      rw [Turn.stop?_eq_none fun e he ↦ UnitVerdict.noConfusion (hverdict.symm.trans he)]
      rfl
    | atFault =>
      rw [Turn.stop?_eq_none fun e he ↦ UnitVerdict.noConfusion (hverdict.symm.trans he)]
      rfl
    | stopped e =>
      rw [Turn.stop?_eq_some_iff.2 hverdict]
      rfl
  · rw [Turn.fails_of_iff, decide_eq_true_iff]

/-! ### All files -/

/-- No turn ends a run if no operation on files fails. -/
theorem stop?_of_mem_turns (h : ∀ e, .stopped e ∉ unitVerdicts settings.artifacts s paths) :
    ∀ t ∈ turns settings s paths, t.stop? = none := by
  induction paths generalizing s with
  | nil => simp [turns]
  | cons p paths ih =>
    simp only [unitVerdicts, List.mem_cons, not_or] at h
    refine List.forall_mem_cons.2 ⟨?_, ih fun e ↦ (h e).2⟩
    exact Turn.stop?_eq_none fun e he ↦ (h e).1 he.symm

/-- A run has gone through files whose turns do not end it. -/
theorem runUnits_of_stop? (h : ∀ t ∈ turns settings g.store paths, t.stop? = none) :
    runUnits settings g paths = (none, {
      store := storeAfter settings.artifacts g.store paths
      messages := g.messages ++ String.join ((turns settings g.store paths).map (·.report settings))
      failed := g.failed || (turns settings g.store paths).any Turn.fails }) := by
  induction paths generalizing g with
  | nil => simp [runUnits, storeAfter, turns]
  | cons p paths ih =>
    obtain ⟨hgoes, hrest⟩ := List.forall_mem_cons.1 h
    rw [runUnits, runUnit_eq, hgoes]
    simp only [Option.map_none]
    rw [ih hrest]
    simp [storeAfter, turns, String.append_assoc, Bool.or_assoc]

theorem runUnits_append {done : List Path} {g' : Progress}
    (h : runUnits settings g done = (none, g')) (rest : List Path) :
    runUnits settings g (done ++ rest) = runUnits settings g' rest := by
  induction done generalizing g with
  | nil =>
    obtain ⟨-, rfl⟩ := Prod.mk.inj h
    rfl
  | cons p done ih =>
    rw [List.cons_append, runUnits]
    rw [runUnits] at h
    rcases hunit : runUnit settings g p with ⟨_ | abort, g₁⟩
    · rw [hunit] at h
      exact ih h
    · simp [hunit] at h

/-- Some turn is the first that ends the run, or none does. -/
theorem turns_split (settings : Settings) (s : Store) (paths : List Path) :
    (∀ t ∈ turns settings s paths, t.stop? = none) ∨
      ∃ done p rest e, paths = done ++ p :: rest ∧
        (∀ t ∈ turns settings s done, t.stop? = none) ∧
        (Turn.of settings (storeAfter settings.artifacts s done) p).stop? = some e := by
  induction paths generalizing s with
  | nil => exact .inl (by simp [turns])
  | cons p paths ih =>
    cases hstop : (Turn.of settings s p).stop? with
    | some e => exact .inr ⟨[], p, paths, e, rfl, by simp [turns], hstop⟩
    | none =>
      rcases ih (analyzeFile s p settings.artifacts).2 with
        hgoes | ⟨done, q, rest, e, rfl, hgoes, hq⟩
      · exact .inl (List.forall_mem_cons.2 ⟨hstop, hgoes⟩)
      · exact .inr ⟨p :: done, q, rest, e, rfl, List.forall_mem_cons.2 ⟨hstop, hgoes⟩, hq⟩

/-- A run over files writes their artifacts in order, all of them unless a file stops it. -/
theorem runUnits_written (settings : Settings) (g : Progress) (paths : List Path) :
    ∃ done, done <+: (turns settings g.store paths).flatMap (Turn.artifacts settings.artifacts) ∧
      g.store.Written done (runUnits settings g paths).2.store ∧
      ((∀ e, .stopped e ∉ unitVerdicts settings.artifacts g.store paths) →
        done = (turns settings g.store paths).flatMap (Turn.artifacts settings.artifacts)) := by
  induction paths generalizing g with
  | nil => exact ⟨[], List.prefix_refl _, .refl _, fun _ ↦ rfl⟩
  | cons p paths ih =>
    obtain ⟨first, hfirst, hwritten, hall⟩ := analyzeFile_written g.store p settings.artifacts
    obtain ⟨habort, hstore, -⟩ := runUnit_by_verdict settings g p
    rw [runUnits, turns, List.flatMap_cons, Turn.artifacts_of, unitVerdicts]
    rcases hunit : runUnit settings g p with ⟨abort, g₁⟩
    simp only [hunit] at habort hstore
    rw [← hstore] at hwritten ⊢
    cases abort with
    | none =>
      have hgoes : ∀ e, unitVerdict g.store p settings.artifacts ≠ .stopped e := fun e h ↦ by
        simp [h, UnitVerdict.abort?] at habort
      obtain rfl := hall hgoes
      obtain ⟨rest, hrest, hwritten', hall'⟩ := ih g₁
      refine ⟨_, (List.prefix_append_right_inj _).2 hrest, hwritten.trans hwritten', fun h ↦ ?_⟩
      rw [hall' fun e he ↦ h e (List.mem_cons_of_mem _ he)]
    | some abort =>
      refine ⟨first, hfirst.trans (List.prefix_append _ _), hwritten, fun h ↦ absurd habort ?_⟩
      generalize unitVerdict g.store p settings.artifacts = verdict at h
      cases verdict with
      | stopped e => exact absurd List.mem_cons_self (h e)
      | _ => simp [UnitVerdict.abort?]

theorem run_of_sources (h : s.sources settings.source = .ok paths) : run settings s =
    ((runUnits settings { store := s } paths).2.finish (runUnits settings { store := s } paths).1,
      (runUnits settings { store := s } paths).2.store) := by
  rw [run, h]

/-- A run whose files do not stop it ends with the reports of all turns. -/
theorem run_of_not_stopped (hsources : s.sources settings.source = .ok paths)
    (h : ∀ e, .stopped e ∉ unitVerdicts settings.artifacts s paths) : run settings s =
      (.finished (if (turns settings s paths).any Turn.fails then 1 else 0)
        (String.join ((turns settings s paths).map (·.report settings))),
        storeAfter settings.artifacts s paths) := by
  rw [run_of_sources hsources, runUnits_of_stop? (g := { store := s }) (stop?_of_mem_turns h)]
  simp [Progress.finish]

/-- How a run over its files ends, and the store then. What it prints are the reports of the turns
that it comes to, and its status says whether there was a file at fault or an operation on files
failed. -/
inductive RunEnds (settings : Settings) (s : Store) : List Path → Outcome × Store → Prop
  /-- All files have had their turn. -/
  | finished {paths : List Path} (hgoes : ∀ t ∈ turns settings s paths, t.stop? = none) :
    RunEnds settings s paths
      (.finished (if (turns settings s paths).any Turn.fails then 1 else 0)
        (String.join ((turns settings s paths).map (·.report settings))),
        storeAfter settings.artifacts s paths)
  /-- An operation on files fails in the turn of one of them, which is reported after its dump. -/
  | stopped {done rest : List Path} {p : Path} {e : FileError} (he : e ≠ .nullByte)
    (hgoes : ∀ t ∈ turns settings s done, t.stop? = none)
    (hstop : (Turn.of settings (storeAfter settings.artifacts s done) p).stop? = some e) :
    RunEnds settings s (done ++ p :: rest)
      (.finished 2 (String.join ((turns settings s done).map (·.report settings)) ++
        (Turn.of settings (storeAfter settings.artifacts s done) p).dump ++
          "error: " ++ e.message ++ "\n"),
        storeAfter settings.artifacts s (done ++ [p]))
  /-- A null character in a name breaks the run off. -/
  | broken {done rest : List Path} {p : Path}
    (hgoes : ∀ t ∈ turns settings s done, t.stop? = none)
    (hstop : (Turn.of settings (storeAfter settings.artifacts s done) p).stop? = some .nullByte) :
    RunEnds settings s (done ++ p :: rest)
      (.broken .nullByte, storeAfter settings.artifacts s (done ++ [p]))

/-- A run over its files ends in one of these ways. -/
theorem runEnds (h : s.sources settings.source = .ok paths) :
    RunEnds settings s paths (run settings s) := by
  rw [run_of_sources h]
  rcases turns_split settings s paths with hgoes | ⟨done, p, rest, e, rfl, hgoes, hstop⟩
  · rw [runUnits_of_stop? (g := { store := s }) hgoes]
    simpa [Progress.finish] using RunEnds.finished hgoes
  · have hend : runUnits settings { store := s } (done ++ p :: rest) = _ :=
      runUnits_append (runUnits_of_stop? (g := { store := s }) hgoes) (p :: rest)
    have hstore : (analyzeFile (storeAfter settings.artifacts s done) p settings.artifacts).2 =
        storeAfter settings.artifacts s (done ++ [p]) := by
      simp [storeAfter]
    rw [hend, runUnits, runUnit_eq, hstop, Turn.report_of_stop? hstop]
    simp only [Option.map_some, hstore]
    cases e with
    | nullByte => exact .broken hgoes hstop
    | fault f q =>
      have hended : RunEnds settings s (done ++ p :: rest) _ := .stopped (by simp) hgoes hstop
      simpa [Progress.finish, Abort.ofFileError] using hended

/-- A run that ends with a status other than 2 has sources, none of which stops it. -/
theorem not_stopped_of_run {status : Nat} {messages : String}
    (h : (run settings s).1 = .finished status messages) (hstatus : status ≠ 2) :
    ∃ paths, s.sources settings.source = .ok paths ∧
      ∀ e, .stopped e ∉ unitVerdicts settings.artifacts s paths := by
  cases hsources : s.sources settings.source with
  | error e =>
    rw [run, hsources] at h
    exact absurd (Outcome.finished.inj h).1.symm hstatus
  | ok paths =>
    refine ⟨paths, rfl, ?_⟩
    rw [run_of_sources hsources] at h
    have hends := runUnits_ends settings { store := s } paths
    generalize runUnits settings { store := s } paths = ending at h hends
    cases hends with
    | finished hstopped _ => exact hstopped
    | @stopped e g' _ =>
      cases e with
      | nullByte => exact Outcome.noConfusion h
      | fault f q => exact absurd (Outcome.finished.inj h).1.symm hstatus

end JackSyntax
