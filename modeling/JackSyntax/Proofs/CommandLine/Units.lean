import JackSyntax.CommandLine.Run
import JackSyntax.Proofs.Artifact.Unit

/-!
# How a run treats its files

What comes of a file (`unitVerdict`) depends neither on dumps nor on reports. A run passes over a
file at fault, which leaves the store as it is, and notes that there was one; only an operation on
files that fails ends it (`runUnit_ends`). So a run over files ends as their verdicts say
(`runUnits_ends`).

## Main statements

* `runUnit_ends`: what a run does after a file, by what comes of the file.
* `runUnits_ends`: whether a run ends early, and whether a source was at fault.
-/

namespace JackSyntax

/-! ### One file -/

/-- The progress of a run after a file, by what comes of the file, and what ends the run there, if
anything does. -/
inductive UnitEnds (g : Progress) (after : Store) : UnitVerdict → Option Abort × Progress → Prop
  | written {g' : Progress} (hstore : g'.store = after) (hfailed : g'.failed = g.failed) :
    UnitEnds g after .written (none, g')
  | atFault {g' : Progress} (hstore : g'.store = after) (hfailed : g'.failed = true) :
    UnitEnds g after .atFault (none, g')
  | stopped {e : FileError} {g' : Progress} :
    UnitEnds g after (.stopped e) (some (.ofFileError e), g')

section Unit

variable {settings : Settings} {g g' : Progress} {p : Path} {s : Store}

/-- A dump leaves the store and the record of faults as they are. -/
theorem runDump_progress (settings : Settings) (g : Progress) (p : Path) :
    (runDump settings g p).2.store = g.store ∧ (runDump settings g p).2.failed = g.failed := by
  unfold runDump
  split
  · split
    · exact ⟨rfl, rfl⟩
    · split <;> exact ⟨rfl, rfl⟩
  · exact ⟨rfl, rfl⟩

/-- A source whose dump is cut short has no events. -/
theorem events_of_debugDump {source : Source} {limits : Limits} {dump : String} {d : Diagnostic}
    (h : debugDump source limits = (dump, some d)) : ∃ d', source.events limits = .error d' := by
  cases hevents : source.events limits with
  | error d' => exact ⟨d', rfl⟩
  | ok events =>
    obtain ⟨hfailure, -⟩ := (source.events_ok_iff limits events).1 hevents
    simp [debugDump, hfailure, hevents] at h

/-- What cuts a dump short also keeps the file from being analyzed. -/
theorem runDump_error {e : UnitError} (h : (runDump settings g p).1 = .error e) :
    ∃ after, Analyzed g.store (unitVerdict g.store p settings.artifacts) (.error e) after := by
  unfold runDump at h
  split at h
  · split at h
    · rename_i hread
      obtain rfl := Except.error.inj h
      have hanalyzed := analyzeFile_analyzed g.store p settings.artifacts
      rw [analyzeFile, unitArtifacts_of_error hread] at hanalyzed
      exact ⟨_, hanalyzed⟩
    · rename_i source hread
      split at h
      · rename_i dump d hdump
        obtain rfl := Except.error.inj h
        obtain ⟨d', hevents⟩ := events_of_debugDump hdump
        refine ⟨g.store, ?_⟩
        simp only [unitVerdict, hread, hevents]
        exact .diagnostic
      · simp at h
  · simp at h

/-- A file that is not analyzed is reported if it is at fault and ends the run otherwise. -/
theorem unitEnds_settle {e : UnitError} {verdict : UnitVerdict} {s' after : Store}
    (he : Analyzed s verdict (.error e) s') (hstore : verdict = .atFault → g'.store = after) :
    UnitEnds g after verdict (match g'.settle p e with
      | .ok g => (none, g)
      | .error abort => (some abort, g')) := by
  cases he with
  | encoding => exact .atFault (hstore rfl) rfl
  | diagnostic => exact .atFault (hstore rfl) rfl
  | stopped => exact .stopped

/-- A file is treated as what comes of it says, with a dump or without one. -/
theorem runUnit_ends (settings : Settings) (g : Progress) (p : Path) :
    UnitEnds g (analyzeFile g.store p settings.artifacts).2
      (unitVerdict g.store p settings.artifacts) (runUnit settings g p) := by
  obtain ⟨hstore, hfailed⟩ := runDump_progress settings g p
  rw [runUnit]
  rcases hdump : runDump settings g p with ⟨e | _, g'⟩
  · rw [hdump] at hstore
    obtain ⟨after, hanalyzed⟩ := runDump_error (congrArg Prod.fst hdump)
    exact unitEnds_settle hanalyzed fun hfault ↦ hstore.trans (store_of_atFault hfault).symm
  · simp only [hdump] at hstore hfailed ⊢
    rw [hstore]
    have hanalyzed := analyzeFile_analyzed g.store p settings.artifacts
    rcases hanalyze : analyzeFile g.store p settings.artifacts with ⟨e | written, s'⟩
    · rw [hanalyze] at hanalyzed
      exact unitEnds_settle hanalyzed fun _ ↦ rfl
    · simp only [hanalyze] at hanalyzed ⊢
      generalize unitVerdict g.store p settings.artifacts = verdict at hanalyzed ⊢
      cases hanalyzed
      exact .written rfl hfailed

end Unit

/-! ### All files -/

/-- What comes of each file, one after the other. -/
def unitVerdicts (o : ArtifactOptions) (s : Store) : List Path → List UnitVerdict
  | [] => []
  | p :: paths => unitVerdict s p o :: unitVerdicts o (analyzeFile s p o).2 paths

/-- A run ends early at an operation on files that fails. If none does, it has met with a fault if
it had before or comes to a file at fault. -/
inductive UnitsEnd (g : Progress) (verdicts : List UnitVerdict) : Option Abort × Progress → Prop
  | finished {g' : Progress} (hstopped : ∀ e, .stopped e ∉ verdicts)
    (hfailed : g'.failed = true ↔ g.failed = true ∨ .atFault ∈ verdicts) :
    UnitsEnd g verdicts (none, g')
  | stopped {e : FileError} {g' : Progress} (hstopped : .stopped e ∈ verdicts) :
    UnitsEnd g verdicts (some (.ofFileError e), g')

/-- How files end after one that does not end the run. -/
theorem UnitsEnd.cons {g g₁ : Progress} {verdict : UnitVerdict} {verdicts : List UnitVerdict}
    {ending : Option Abort × Progress} (hrest : UnitsEnd g₁ verdicts ending)
    (hverdict : ∀ e, verdict ≠ .stopped e)
    (hfailed : g₁.failed = true ↔ g.failed = true ∨ verdict = .atFault) :
    UnitsEnd g (verdict :: verdicts) ending := by
  cases hrest with
  | stopped hmem => exact .stopped (List.mem_cons_of_mem _ hmem)
  | finished hstopped hfault =>
    refine .finished (fun e hmem ↦ ?_) ?_
    · rcases List.mem_cons.1 hmem with he | hmem
      · exact hverdict e he.symm
      · exact hstopped e hmem
    · rw [hfault, hfailed, List.mem_cons, or_assoc, eq_comm (a := verdict)]

theorem runUnits_ends (settings : Settings) (g : Progress) (paths : List Path) :
    UnitsEnd g (unitVerdicts settings.artifacts g.store paths) (runUnits settings g paths) := by
  induction paths generalizing g with
  | nil => exact .finished (by simp [unitVerdicts]) (by simp [unitVerdicts])
  | cons p paths ih =>
    have hunit := runUnit_ends settings g p
    rw [unitVerdicts, runUnits]
    rcases hrun : runUnit settings g p with ⟨abort, g₁⟩
    rw [hrun] at hunit
    have hrest := ih g₁
    generalize unitVerdict g.store p settings.artifacts = verdict at hunit ⊢
    cases hunit with
    | stopped => exact .stopped List.mem_cons_self
    | written hstore hfailed => exact .cons (hstore ▸ hrest) (by simp) (by simp [hfailed])
    | atFault hstore hfailed => exact .cons (hstore ▸ hrest) (by simp) (by simp [hfailed])

end JackSyntax
