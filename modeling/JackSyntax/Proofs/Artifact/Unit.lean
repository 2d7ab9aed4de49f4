import JackSyntax.Artifact
import JackSyntax.Proofs.Markup.Decoding
import JackSyntax.Proofs.Parser.WholeClass

/-!
# What comes of a source file

A file is at fault if it is no UTF-8 or its text has no events. Whether listings are asked for makes
no difference to that: a text with events can be read to its end (`Source.tokens_of_events`) and its
tree has markup (`Source.exists_tree`). Everything else that can go wrong is an operation on files.

## Main statements

* `Source.exists_tree`: the events of a source always make a tree.
* `analyzeFile_analyzed`: what the analysis of a file answers, by what comes of the file.
-/

namespace JackSyntax

/-! ### Artifacts of a source -/

namespace Source

variable {source : Source} {limits : Limits} {events : List Event} {d : Diagnostic}

/-- The events of a source make a tree. -/
theorem exists_tree (h : source.events limits = .ok events) :
    ∃ tree, source.tree limits = .ok tree := by
  obtain ⟨-, hclass⟩ := (source.events_ok_iff limits events).1 h
  obtain ⟨markup, hmarkup⟩ := exists_render_of_balanced hclass.rooted.balanced
  refine ⟨markup, ?_⟩
  simp only [tree, h, hmarkup]
  rfl

theorem tree_of_events_error (h : source.events limits = .error d) :
    source.tree limits = .error (.diagnostic d) := by
  rw [tree, h]

/-- A source with events can be read to its end. -/
theorem tokens_of_events (h : source.events limits = .ok events) :
    source.tokens limits = .ok (source.reading limits).tokens := by
  obtain ⟨hfailure, -⟩ := (source.events_ok_iff limits events).1 h
  simp only [tokens, hfailure]

theorem listing_of_events (h : source.events limits = .ok events) :
    source.listing limits = .ok (renderTokens (source.reading limits).tokens) := by
  rw [listing, tokens_of_events h]
  rfl

/-- A source with events has a tree and, if it is asked for, a listing. -/
theorem sourceArtifacts_of_events {o : ArtifactOptions} (h : source.events o.limits = .ok events)
    (p : Path) : ∃ tree, source.tree o.limits = .ok tree ∧
      sourceArtifacts source p o = .ok ((if o.writeTokens then
        [⟨outputPath p o o.tokenSuffix, renderTokens (source.reading o.limits).tokens⟩] else []) ++
          [⟨outputPath p o "", tree⟩]) := by
  obtain ⟨tree, htree⟩ := exists_tree h
  refine ⟨tree, htree, ?_⟩
  rw [sourceArtifacts, listing_of_events h, htree]
  cases o.writeTokens <;> rfl

/-- The listing of a class `A` without members. -/
def emptyClassListing : String :=
  "<tokens>\n<keyword> class </keyword>\n<identifier> A </identifier>\n" ++
    "<symbol> \x7b </symbol>\n<symbol> \x7d </symbol>\n</tokens>\n"

/-- The tree of a class `A` without members. -/
def emptyClassTree : String :=
  "<class>\n  <keyword> class </keyword>\n  <identifier> A </identifier>\n" ++
    "  <symbol> \x7b </symbol>\n  <symbol> \x7d </symbol>\n</class>\n"

/-- The artifacts of a class `A` without members. -/
theorem sourceArtifacts_emptyClass {o : ArtifactOptions} (hlimits : o.limits = {}) (name : String)
    (p : Path) : sourceArtifacts ⟨name, "class A\x7b\x7d"⟩ p o =
      .ok ((if o.writeTokens then [⟨outputPath p o o.tokenSuffix, emptyClassListing⟩] else []) ++
        [⟨outputPath p o "", emptyClassTree⟩]) := by
  let source : Source := ⟨name, "class A\x7b\x7d"⟩
  have hevents : source.events o.limits = .ok emptyClassEvents := by
    rw [hlimits]
    exact events_emptyClass name
  obtain ⟨tree, htree, hok⟩ := sourceArtifacts_of_events hevents p
  have hrender : render emptyClassEvents = .ok emptyClassTree := rfl
  obtain rfl : emptyClassTree = tree := by
    simpa [Source.tree, hevents, hrender] using htree
  have hlisting : renderTokens (tokenize "class A\x7b\x7d" {}).tokens = emptyClassListing := by
    decide +kernel
  have hreading : source.reading o.limits = tokenize "class A\x7b\x7d" {} := by
    rw [hlimits]
    rfl
  rw [hok, hreading, hlisting]

/-- The complaint about a source without events, by that of its parse. Where the text is read to its
end first, a lexical error comes before anything that the parse complains of. -/
def complaint (source : Source) (limits : Limits) (readFirst : Bool) (parsed : Diagnostic) :
    Diagnostic :=
  if readFirst then
    match (source.reading limits).failure with
    | some e => e.diagnostic source
    | none => parsed
  else parsed

/-- A source without events has a complaint instead. For a listing its text is read first. -/
theorem sourceArtifacts_of_events_error {o : ArtifactOptions}
    (h : source.events o.limits = .error d) (p : Path) :
    sourceArtifacts source p o =
      .error (.diagnostic (source.complaint o.limits o.writeTokens d)) := by
  rw [sourceArtifacts, tree_of_events_error h, complaint, listing, tokens]
  cases o.writeTokens with
  | false => rfl
  | true =>
    simp only
    cases (source.reading o.limits).failure <;> rfl

/-- The artifacts of a source are its listing, if there are listings, and its tree. -/
theorem artifacts_eq {o : ArtifactOptions} {p : Path} {artifacts : List Artifact}
    (h : sourceArtifacts source p o = .ok artifacts) :
    ∃ listing tree, source.listing o.limits = .ok listing ∧ source.tree o.limits = .ok tree ∧
      artifacts = (if o.writeTokens then [⟨outputPath p o o.tokenSuffix, listing⟩] else []) ++
        [⟨outputPath p o "", tree⟩] := by
  cases hevents : source.events o.limits with
  | error d =>
    rw [sourceArtifacts_of_events_error hevents p] at h
    simp at h
  | ok events =>
    obtain ⟨tree, htree, hok⟩ := sourceArtifacts_of_events hevents p
    exact ⟨_, tree, listing_of_events hevents, htree, Except.ok.inj (h.symm.trans hok)⟩

/-- Nothing but a complaint keeps a source from having artifacts. -/
theorem exists_diagnostic {o : ArtifactOptions} {p : Path} {e : UnitError}
    (h : sourceArtifacts source p o = .error e) : ∃ d, e = .diagnostic d := by
  cases hevents : source.events o.limits with
  | error d =>
    exact ⟨_, Except.error.inj (h.symm.trans (sourceArtifacts_of_events_error hevents p))⟩
  | ok events =>
    obtain ⟨tree, -, hok⟩ := sourceArtifacts_of_events hevents p
    simp [h] at hok

end Source

/-! ### Files -/

/-- What comes of a source file. -/
inductive UnitVerdict where
  /-- Its artifacts are written. -/
  | written
  /-- It is no UTF-8, or its text is at fault. -/
  | atFault
  /-- An operation on files fails. -/
  | stopped (e : FileError)
deriving DecidableEq, Repr

/-- What comes of the file at the path. -/
def unitVerdict (s : Store) (p : Path) (o : ArtifactOptions) : UnitVerdict :=
  match readSource s p with
  | .error (.file e) => .stopped e
  | .error _ => .atFault
  | .ok source =>
    match source.events o.limits with
    | .error _ => .atFault
    | .ok _ =>
      match (analyzeFile s p o).1 with
      | .error (.file e) => .stopped e
      | _ => .written

/-- The answer to the analysis of a file and the store after it, by what comes of the file. -/
inductive Analyzed (s : Store) : UnitVerdict → Except UnitError (List Path) → Store → Prop
  | written {paths : List Path} {s' : Store} : Analyzed s .written (.ok paths) s'
  /-- A file at fault leaves the store as it is. -/
  | encoding {e : Utf8.DecodeError} : Analyzed s .atFault (.error (.encoding e)) s
  | diagnostic {d : Diagnostic} : Analyzed s .atFault (.error (.diagnostic d)) s
  | stopped {e : FileError} {s' : Store} : Analyzed s (.stopped e) (.error (.file e)) s'

section Analyzed

variable {s s' : Store} {answer : Except UnitError (List Path)}

theorem Analyzed.store_eq (h : Analyzed s .atFault answer s') : s' = s := by
  cases h <;> rfl

theorem Analyzed.answer_eq {e : FileError} (h : Analyzed s (.stopped e) answer s') :
    answer = .error (.file e) := by
  cases h
  rfl

end Analyzed

variable {s : Store} {p : Path} {o : ArtifactOptions}

theorem readSource_error_cases {e : UnitError} (h : readSource s p = .error e) :
    (∃ e', s.read p = .error e' ∧ e = .file e') ∨ ∃ e', e = .encoding e' := by
  unfold readSource at h
  split at h
  · exact .inl ⟨_, ‹_›, (Except.error.inj h).symm⟩
  · split at h
    · exact .inr ⟨_, (Except.error.inj h).symm⟩
    · simp at h

theorem unitArtifacts_of_error {e : UnitError} (h : readSource s p = .error e) :
    unitArtifacts s p o = .error e := by
  rw [unitArtifacts, h]
  rfl

theorem unitArtifacts_of_source {source : Source} (h : readSource s p = .ok source) :
    unitArtifacts s p o = sourceArtifacts source p o := by
  rw [unitArtifacts, h]
  rfl

/-- A failed operation on files is one of reading, making the output directory and writing. -/
theorem analyzeFile_file_error {e : FileError} (h : (analyzeFile s p o).1 = .error (.file e)) :
    s.read p = .error e ∨
      ∃ source artifacts, sourceArtifacts source p o = .ok artifacts ∧
        ((makeOutputDir s o).1 = .error e ∨ ∃ s', (writeArtifacts s' artifacts).1 = .error e) := by
  rw [analyzeFile] at h
  cases hread : readSource s p with
  | error e' =>
    rw [unitArtifacts_of_error hread] at h
    obtain rfl := Except.error.inj h
    rcases readSource_error_cases hread with ⟨e', hfile, he⟩ | ⟨e', he⟩
    · obtain rfl := UnitError.file.inj he
      exact .inl hfile
    · simp at he
  | ok source =>
    rw [unitArtifacts_of_source hread] at h
    split at h
    · rename_i hartifacts
      obtain rfl := Except.error.inj h
      obtain ⟨d, hd⟩ := Source.exists_diagnostic hartifacts
      simp at hd
    · rename_i artifacts hartifacts
      refine .inr ⟨source, artifacts, hartifacts, ?_⟩
      split at h
      · rename_i hmake
        obtain rfl := UnitError.file.inj (Except.error.inj h)
        exact .inl (by rw [hmake])
      · rename_i s' hmake
        split at h
        · rename_i hwrite
          obtain rfl := UnitError.file.inj (Except.error.inj h)
          exact .inr ⟨s', by rw [hwrite]⟩
        · simp at h

/-- A file whose text has no events is complained of. -/
theorem analyzeFile_of_complaint {source : Source} {d : Diagnostic}
    (hread : readSource s p = .ok source) (hevents : source.events o.limits = .error d) :
    analyzeFile s p o = (.error (.diagnostic (source.complaint o.limits o.writeTokens d)), s) := by
  rw [analyzeFile, unitArtifacts_of_source hread,
    Source.sourceArtifacts_of_events_error hevents p]

/-- What the analysis of a file answers. -/
theorem analyzeFile_analyzed (s : Store) (p : Path) (o : ArtifactOptions) :
    Analyzed s (unitVerdict s p o) (analyzeFile s p o).1 (analyzeFile s p o).2 := by
  unfold unitVerdict
  cases hread : readSource s p with
  | error e =>
    have hanalyze : analyzeFile s p o = (.error e, s) := by
      rw [analyzeFile, unitArtifacts_of_error hread]
    rw [hanalyze]
    rcases readSource_error_cases hread with ⟨e', -, rfl⟩ | ⟨e', rfl⟩
    · exact .stopped
    · exact .encoding
  | ok source =>
    cases hevents : source.events o.limits with
    | error d =>
      have hanalyze := analyzeFile_of_complaint hread hevents
      simp only [hevents, hanalyze]
      exact .diagnostic
    | ok events =>
      obtain ⟨tree, -, hartifacts⟩ := Source.sourceArtifacts_of_events hevents p
      -- The artifacts are made, so only an operation on files can fail.
      have hanalyze : (∃ e s', analyzeFile s p o = (.error (.file e), s')) ∨
          ∃ paths s', analyzeFile s p o = (.ok paths, s') := by
        rw [analyzeFile, unitArtifacts_of_source hread, hartifacts]
        rcases makeOutputDir s o with ⟨e | _, s'⟩
        · exact .inl ⟨_, _, rfl⟩
        · simp only
          split
          · exact .inl ⟨_, _, rfl⟩
          · exact .inr ⟨_, _, rfl⟩
      rcases hanalyze with ⟨e, s', hanalyze⟩ | ⟨paths, s', hanalyze⟩
      · simp only [hevents, hanalyze]
        exact .stopped
      · simp only [hevents, hanalyze]
        exact .written

/-- A file at fault leaves the store as it is. -/
theorem store_of_atFault (h : unitVerdict s p o = .atFault) : (analyzeFile s p o).2 = s :=
  (h ▸ analyzeFile_analyzed s p o).store_eq

/-- A failed operation on files is what the analysis of the file answers. -/
theorem analyzeFile_of_stopped {e : FileError} (h : unitVerdict s p o = .stopped e) :
    (analyzeFile s p o).1 = .error (.file e) :=
  (h ▸ analyzeFile_analyzed s p o).answer_eq

theorem unitVerdict_eq_written_iff : unitVerdict s p o = .written ↔
    ∃ written s', analyzeFile s p o = (.ok written, s') := by
  have hanalyzed := analyzeFile_analyzed s p o
  rcases hanalyze : analyzeFile s p o with ⟨answer, s'⟩
  rw [hanalyze] at hanalyzed
  generalize unitVerdict s p o = verdict at hanalyzed ⊢
  cases hanalyzed <;> simp

/-- Whether a file is at fault depends on nothing but what is read there. -/
theorem unitVerdict_eq_atFault_iff : unitVerdict s p o = .atFault ↔
    (∃ e, readSource s p = .error (.encoding e)) ∨
      ∃ source d, readSource s p = .ok source ∧ source.events o.limits = .error d := by
  rw [unitVerdict]
  cases hread : readSource s p with
  | error e =>
    rcases readSource_error_cases hread with ⟨e', -, rfl⟩ | ⟨e', rfl⟩ <;> simp
  | ok source =>
    cases hevents : source.events o.limits with
    | error d => simp [hevents]
    | ok events =>
      simp only [hevents]
      split <;> simp [hevents]

end JackSyntax
