import Mathlib.Control.Monad.Basic
import JackSyntax.Proofs.Artifact.NullCharacter
import JackSyntax.Proofs.CommandLine.Units

/-!
# The status of a run

A run that is given arguments it understands ends with one of three statuses: 2 if there are no
settings or no sources or an operation on files fails, else 1 if a source file is at fault, else 0
(`promisedStatus`). It ends otherwise, without a report, only for one of the causes that
`BreakdownCause` lists. Events that make no tree are none of them.

## Main statements

* `breakdownCause_of_settings`: why there may be no settings without a report.
* `runArguments_status`: a run ends with the promised status, or breaks down for a listed cause.
* `run_breaks_down`: a configuration file that is no UTF-8.
-/

namespace JackSyntax

/-! ### Settings -/

/-- Where the configuration file is looked for. -/
def configPath (s : Store) (a : Arguments) : Path :=
  let source := Path.ofString a.source
  let sourceDir :=
    match s.isDirectory source with
    | .ok true => source
    | _ => source.parent
  (pathArgument? a.config).getD (sourceDir.child configName)

/-- What makes a run end without a report. -/
inductive BreakdownCause (s : Store) (a : Arguments) : Breakdown → Prop
  /-- The configuration file is no UTF-8. -/
  | encoding {bytes : ByteArray} {e : Utf8.DecodeError}
    (hfile : s.at? (configPath s a) = .ok (some (.file bytes)))
    (hdecode : Utf8.decode bytes = .error e) : BreakdownCause s a (.encoding e)
  /-- An integer in the configuration file has too many digits to be read. -/
  | digits {bytes : ByteArray} {text : List Char} {e : DigitError}
    (hfile : s.at? (configPath s a) = .ok (some (.file bytes)))
    (hdecode : Utf8.decode bytes = .ok text) (hdocument : Toml.document text = .error (.digits e)) :
    BreakdownCause s a (.digits e)
  /-- An integer in the configuration file has too many digits to be part of a name. -/
  | name {config output : Toml.Table} {value : Toml} {e : DigitError}
    (hconfig : loadConfig s (configPath s a) = .ok config)
    (houtput : section? config "output" = .ok output)
    (hvalue : output.lookup "extension" = some value ∨ output.lookup "token_suffix" = some value)
    (htext : value.text = .error e) : BreakdownCause s a (.digits e)
  /-- The limit on tokens in the arguments has no value. -/
  | valueless (hlimit : a.maxTokens = .valueless) : BreakdownCause s a .valuelessLimit
  /-- Artifacts should go to a path with a null character. -/
  | nullByte {settings : Settings} (hsettings : resolveSettings s a = .ok settings)
    (hnull : settings.artifacts.HasNull) : BreakdownCause s a .nullByte

section Settings

variable {s : Store} {a : Arguments} {b : Breakdown}

/-- What fails in a sequence fails in its first part or after it. -/
theorem error_of_bind {ε α β : Type} {x : Except ε α} {f : α → Except ε β} {e : ε}
    (h : x >>= f = .error e) : x = .error e ∨ ∃ value, x = .ok value ∧ f value = .error e := by
  cases x with
  | error e' => exact .inl (congrArg Except.error (Except.error.inj h))
  | ok value => exact .inr ⟨value, rfl, h⟩

theorem loadConfig_breakdown {p : Path} (h : loadConfig s p = .error (.breakdown b)) :
    ∃ bytes, s.at? p = .ok (some (.file bytes)) ∧
      ((∃ e, Utf8.decode bytes = .error e ∧ b = .encoding e) ∨
        ∃ text e, Utf8.decode bytes = .ok text ∧ Toml.document text = .error (.digits e) ∧
          b = .digits e) := by
  unfold loadConfig at h
  split at h
  · simp at h
  · rename_i bytes hfile
    refine ⟨bytes, hfile, ?_⟩
    split at h
    · rename_i e hdecode
      exact .inl ⟨e, hdecode, (SettingsError.breakdown.inj (Except.error.inj h)).symm⟩
    · rename_i text hdecode
      split at h
      · simp at h
      · rename_i e hdocument
        exact .inr ⟨text, e, hdecode, hdocument,
          (SettingsError.breakdown.inj (Except.error.inj h)).symm⟩
      · simp at h
  · simp at h

theorem table_ne_breakdown {config : Toml.Table} {name : String} :
    ¬ section? config name = .error (.breakdown b) := by
  unfold section?
  split <;> simp

theorem maxTokensSetting_breakdown {configured : Option Toml} {given : TokenLimit}
    (h : maxTokensSetting configured given = .error (.breakdown b)) :
    given = .valueless ∧ b = .valuelessLimit := by
  rcases error_of_bind h with h | ⟨base, -, h⟩
  · unfold configuredLimit at h
    split at h
    · simp at h
    · split at h <;> simp at h
    · simp at h
  · split at h
    · simp [pure, Except.pure] at h
    · exact ⟨rfl, (SettingsError.breakdown.inj (Except.error.inj h)).symm⟩
    · split at h <;> simp [pure, Except.pure] at h

theorem writeTokensSetting_ne_breakdown {configured : Option Toml} {given : Bool} :
    writeTokensSetting configured given ≠ .error (.breakdown b) := by
  unfold writeTokensSetting
  split <;> simp

theorem textSetting_breakdown {configured : Option Toml} {default : String}
    (h : textSetting configured default = .error (.breakdown b)) :
    ∃ value e, configured = some value ∧ value.text = .error e ∧ b = .digits e := by
  unfold textSetting at h
  split at h
  · simp at h
  · rename_i value
    cases htext : value.text with
    | ok text => simp [htext] at h
    | error e =>
      simp only [htext, Session.mapError_error, Except.error.injEq,
        SettingsError.breakdown.injEq] at h
      exact ⟨value, e, rfl, htext, h.symm⟩

/-- Why settings may break down once the configuration is there. -/
theorem mergeSettings_breakdown {config : Toml.Table} {dir : Option Path}
    (h : mergeSettings config a dir = .error (.breakdown b)) :
    (a.maxTokens = .valueless ∧ b = .valuelessLimit) ∨
      ∃ output value e, section? config "output" = .ok output ∧
        (output.lookup "extension" = some value ∨ output.lookup "token_suffix" = some value) ∧
        value.text = .error e ∧ b = .digits e := by
  obtain h | ⟨analyzer, -, h⟩ := error_of_bind h
  · exact absurd h table_ne_breakdown
  obtain h | ⟨output, houtput, h⟩ := error_of_bind h
  · exact absurd h table_ne_breakdown
  obtain h | ⟨maxTokens, -, h⟩ := error_of_bind h
  · exact .inl (maxTokensSetting_breakdown h)
  obtain h | ⟨writeTokens, -, h⟩ := error_of_bind h
  · exact absurd h writeTokensSetting_ne_breakdown
  obtain h | ⟨extension, -, h⟩ := error_of_bind h
  · obtain ⟨value, e, hlookup, htext, hb⟩ := textSetting_breakdown h
    exact .inr ⟨output, value, e, houtput, .inl hlookup, htext, hb⟩
  obtain h | ⟨tokenSuffix, -, h⟩ := error_of_bind h
  · obtain ⟨value, e, hlookup, htext, hb⟩ := textSetting_breakdown h
    exact .inr ⟨output, value, e, houtput, .inr hlookup, htext, hb⟩
  · simp [pure, Except.pure] at h

/-- Settings break down when the configuration is loaded, or after that. -/
theorem resolveSettings_breakdown (h : resolveSettings s a = .error (.breakdown b)) :
    loadConfig s (configPath s a) = .error (.breakdown b) ∨
      ∃ config, loadConfig s (configPath s a) = .ok config ∧
        mergeSettings config a (pathArgument? a.outputDir) = .error (.breakdown b) := by
  unfold resolveSettings at h
  unfold configPath
  cases hdirectory : s.isDirectory (.ofString a.source) with
  | error e => simp [hdirectory, bind, Except.bind] at h
  | ok isDirectory =>
    simp only [hdirectory] at h ⊢
    cases isDirectory with
    | true => exact error_of_bind h
    | false => exact error_of_bind h

/-- Why there may be no settings without a report. -/
theorem breakdownCause_of_settings (h : resolveSettings s a = .error (.breakdown b)) :
    BreakdownCause s a b := by
  rcases resolveSettings_breakdown h with h | ⟨config, hconfig, h⟩
  · obtain ⟨bytes, hfile, ⟨e, hdecode, rfl⟩ | ⟨text, e, hdecode, hdocument, rfl⟩⟩ :=
      loadConfig_breakdown h
    · exact .encoding hfile hdecode
    · exact .digits hfile hdecode hdocument
  · rcases mergeSettings_breakdown h with
      ⟨hlimit, rfl⟩ | ⟨output, value, e, houtput, hvalue, htext, rfl⟩
    · exact .valueless hlimit
    · exact .name hconfig houtput hvalue htext

end Settings

/-! ### Runs -/

/-- Whether an operation on files failed. -/
def UnitVerdict.isStopped : UnitVerdict → Bool
  | stopped _ => true
  | _ => false

/-- The status of a run over files, by what comes of them. -/
def statusOf (verdicts : List UnitVerdict) : Nat :=
  if verdicts.any UnitVerdict.isStopped then 2 else if .atFault ∈ verdicts then 1 else 0

/-- The status that a run ends with unless it breaks down. -/
def promisedStatus (s : Store) (a : Arguments) : Nat :=
  match resolveSettings s a with
  | .error _ => 2
  | .ok settings =>
    match s.sources settings.source with
    | .error _ => 2
    | .ok paths => statusOf (unitVerdicts settings.artifacts s paths)

/-- Sources meet with a null character only where artifacts should go to one. -/
theorem hasNull_of_stopped {o : ArtifactOptions} {s : Store} {paths : List Path}
    (h : .stopped .nullByte ∈ unitVerdicts o s paths) (hpaths : ∀ p ∈ paths, ¬ p.HasNull) :
    o.HasNull := by
  induction paths generalizing s with
  | nil => simp [unitVerdicts] at h
  | cons p paths ih =>
    obtain ⟨hp, hpaths⟩ := List.forall_mem_cons.1 hpaths
    rcases List.mem_cons.1 h with h | h
    · exact Classical.byContradiction fun ho ↦
        analyzeFile_ne_nullByte hp ho (analyzeFile_of_stopped h.symm)
    · exact ih h hpaths

/-- How a run over sources is finished, by what comes of them. -/
theorem finish_of_unitsEnd {g : Progress} {verdicts : List UnitVerdict}
    {ending : Option Abort × Progress} (h : UnitsEnd g verdicts ending)
    (hfailed : g.failed = false) :
    (∃ messages, ending.2.finish ending.1 = .finished (statusOf verdicts) messages) ∨
      ending.2.finish ending.1 = .broken .nullByte ∧ .stopped .nullByte ∈ verdicts := by
  cases h with
  | @finished g' hstopped hfault =>
    refine .inl ⟨g'.messages, ?_⟩
    have hany : verdicts.any UnitVerdict.isStopped = false := by
      rw [List.any_eq_false]
      rintro (_ | _ | e) hmem
      · simp [UnitVerdict.isStopped]
      · simp [UnitVerdict.isStopped]
      · exact absurd hmem (hstopped e)
    rw [hfailed] at hfault
    simp only [Progress.finish, statusOf, hany, hfault, Bool.false_eq_true, false_or, if_false]
  | @stopped e g' hmem =>
    cases e with
    | nullByte => exact .inr ⟨rfl, hmem⟩
    | fault f q =>
      refine .inl ⟨g'.messages ++ "error: " ++ (FileError.fault f q).message ++ "\n", ?_⟩
      have hany : verdicts.any UnitVerdict.isStopped = true := List.any_eq_true.2 ⟨_, hmem, rfl⟩
      simp only [statusOf, hany, if_true]
      rfl

/-- A run ends with the promised status, or breaks down for a cause that is known. -/
theorem runArguments_status {arguments : List String} {a : Arguments}
    (h : Arguments.ofStrings arguments = .ok a) (s : Store) :
    (∃ messages, (runArguments arguments s).1 = .finished (promisedStatus s a) messages) ∨
      ∃ b, (runArguments arguments s).1 = .broken b ∧ BreakdownCause s a b := by
  simp only [runArguments, h, promisedStatus]
  cases hsettings : resolveSettings s a with
  | error e =>
    cases e with
    | fault f => exact .inl ⟨_, rfl⟩
    | malformed => exact .inl ⟨_, rfl⟩
    | file e => exact .inl ⟨_, rfl⟩
    | breakdown b => exact .inr ⟨b, rfl, breakdownCause_of_settings hsettings⟩
  | ok settings =>
    simp only [run]
    cases hsources : s.sources settings.source with
    | error e => exact .inl ⟨_, rfl⟩
    | ok paths =>
      have hends := runUnits_ends settings { store := s } paths
      rcases finish_of_unitsEnd hends rfl with hfinished | ⟨hbroken, hmem⟩
      · exact .inl hfinished
      · have hnull := hasNull_of_stopped hmem fun p ↦ Store.not_hasNull_of_mem_sources hsources
        exact .inr ⟨.nullByte, hbroken, .nullByte hsettings hnull⟩

/-- A source that is no UTF-8. -/
theorem runArguments_status_no_text :
    let s : Store := { table := [(["A.jack"], .file ⟨#[0xff]⟩)], table_nodup := by decide }
    let a : Arguments := { source := "A.jack" }
    Arguments.ofStrings ["A.jack"] = .ok a ∧ promisedStatus s a = 1 ∧
      ((∃ messages, (runArguments ["A.jack"] s).1 = .finished (promisedStatus s a) messages) ∨
        ∃ b, (runArguments ["A.jack"] s).1 = .broken b ∧ BreakdownCause s a b) := by
  intro s a
  have harguments : Arguments.ofStrings ["A.jack"] = .ok a := by decide +kernel
  exact ⟨harguments, by decide +kernel, runArguments_status harguments s⟩

/-- A configuration file that is no UTF-8 ends the program without a report, although the source is
in order. -/
theorem run_breaks_down :
    let s : Store := {
      table := [
        (["A.jack"], .file "class A { }".toUTF8),
        (["jackanalyzer.toml"], .file ⟨#[0xff]⟩)]
      table_nodup := by decide }
    let a : Arguments := { source := "A.jack" }
    Arguments.ofStrings ["A.jack"] = .ok a ∧ promisedStatus s a = 2 ∧
      (runArguments ["A.jack"] s).1 = .broken (.encoding ⟨.invalidStart, 0⟩) := by
  decide +kernel

end JackSyntax
