import Mathlib.Data.List.Basic
import JackSyntax.Proofs.Artifact.Complaints
import JackSyntax.Proofs.CommandLine.Turns

/-!
# Runs with dumps and listings

Dumps and listings make a run read the texts of its sources more often, and to their end. They
change which complaint about a source is printed (`Turn.answer_of_complaint`), but never whether
there is one: what a run does apart from its messages depends on what comes of each file
(`runUnit_by_verdict`), and that is the same for all of them. What a run prints and its status are
those of the turns of its files (`RunEnds`), so the complaint of each turn (`SaidOfSource`) is what
there is to know of them.

## Main statements

* `runUnits_congr`: runs over files that differ in nothing but messages, up to those.
* `run_with_debug`: a run with dumps and without them.
* `saidOfSource`: which complaint about a source is printed with dumps or listings.
* `flags_keep_verdict`: how runs end, with dumps and without them, and what they print.
-/

namespace JackSyntax

variable {settings : Settings} {g : Progress} {s : Store} {p : Path} {source : Source}
  {limits : Limits} {d : Diagnostic}

/-! ### The complaint about a file -/

/-- A dump is cut short by the complaint about a source whose text is read first. -/
theorem debugDump_of_complaint (h : source.events limits = .error d) :
    (debugDump source limits).2 = some (source.complaint limits true d) := by
  simp only [debugDump, Source.complaint, if_true, h]
  cases (source.reading limits).failure <;> rfl

/-- For a dump or a listing the text of a file is read first. -/
theorem Turn.answer_of_complaint (hread : readSource s p = .ok source)
    (hevents : source.events settings.artifacts.limits = .error d) :
    (Turn.of settings s p).answer = .error (.diagnostic (source.complaint settings.artifacts.limits
      (settings.debug || settings.artifacts.writeTokens) d)) := by
  have hdump := debugDump_of_complaint hevents
  simp only [Turn.of, runDump, hread, analyzeFile_of_complaint hread hevents]
  cases settings.debug with
  | false => rfl
  | true =>
    rcases hdumped : debugDump source settings.artifacts.limits with ⟨dump, _ | d'⟩
    · simp [hdumped] at hdump
    · rw [hdumped] at hdump
      obtain rfl := Option.some.inj hdump
      rfl

/-- What a run says in a turn of which the text can be read, with and without dumps and listings. -/
structure SaidOfSource (settings : Settings) (t : Turn) (source : Source) : Prop where
  /-- Whether the file fails depends on nothing but its text and the limit on tokens. -/
  fails_iff : t.fails = true ↔ ∃ d, source.events settings.artifacts.limits = .error d
  /-- A dump is that of the text, -/
  dump_eq : t.dump =
    if settings.debug then (debugDump source settings.artifacts.limits).1 else ""
  /-- and after it a file that fails has its complaint printed, which does not end the run. -/
  complained : t.fails = true → t.stop? = none ∧
    ∃ d, t.answer = .error (.diagnostic d) ∧ t.report settings = t.dump ++ d.text ++ "\n"
  /-- Without dumps and listings the first complaint of the parse is what is said. -/
  parsed : (settings.debug || settings.artifacts.writeTokens) = false →
    ∀ d, source.events settings.artifacts.limits = .error d →
      t.answer = .error (.diagnostic d)
  /-- With one of them it is the lexical error that the tokens end in, if they end in one, -/
  lexical : (settings.debug || settings.artifacts.writeTokens) = true →
    ∀ e, (source.reading settings.artifacts.limits).failure = some e →
      t.answer = .error (.diagnostic (e.diagnostic source))
  /-- and the complaint of the parse about a token or the end of the text otherwise. -/
  syntactic : (settings.debug || settings.artifacts.writeTokens) = true →
    (source.reading settings.artifacts.limits).failure = none →
      ∀ d, source.events settings.artifacts.limits = .error d →
        t.answer = .error (.diagnostic d) ∧ d.origin ≠ .lexical
  /-- So what is printed is different with them just where the parse complains of a token in front
  of a lexical error. -/
  text_ne_iff : (settings.debug || settings.artifacts.writeTokens) = true →
    ∀ d d', source.events settings.artifacts.limits = .error d →
      t.answer = .error (.diagnostic d') →
      (d'.text ≠ d.text ↔ d.origin ≠ .lexical ∧
        ∃ e, (source.reading settings.artifacts.limits).failure = some e ∧
          d.span.stop.offset ≤ e.position.offset)

/-- A text with a lexical error has no events. -/
theorem Source.exists_events_error {e : LexError} (h : (source.reading limits).failure = some e) :
    ∃ d, source.events limits = .error d := by
  cases hevents : source.events limits with
  | error d => exact ⟨d, rfl⟩
  | ok events =>
    obtain ⟨hnone, -⟩ := (source.events_ok_iff limits events).1 hevents
    simp [h] at hnone

/-- A file whose text can be read fails exactly if the text has no events. -/
theorem Turn.fails_iff_of_source (hread : readSource s p = .ok source) :
    (Turn.of settings s p).fails = true ↔
      ∃ d, source.events settings.artifacts.limits = .error d := by
  rw [Turn.fails_of_iff, unitVerdict_eq_atFault_iff, hread]
  simp

/-- The dump of a file whose text can be read is that of the text, if there are dumps. -/
theorem Turn.dump_of_source (hread : readSource s p = .ok source) : (Turn.of settings s p).dump =
    if settings.debug then (debugDump source settings.artifacts.limits).1 else "" := by
  simp only [Turn.of, runDump, hread]
  split
  · rcases debugDump source settings.artifacts.limits with ⟨dump, _ | d⟩ <;>
      simp [Progress.report]
  · rfl

/-- A turn that answers with a complaint prints it after the dump, and the run goes on. -/
theorem Turn.report_of_diagnostic (settings : Settings) {t : Turn}
    (h : t.answer = .error (.diagnostic d)) :
    t.stop? = none ∧ t.report settings = t.dump ++ d.text ++ "\n" := by
  rw [stop?, report, block?, notes, h]
  simp [errorBlock, String.append_assoc]

/-- What is said of a text is settled by the complaint about it. -/
theorem saidOfSource (hread : readSource s p = .ok source) :
    SaidOfSource settings (Turn.of settings s p) source where
  fails_iff := Turn.fails_iff_of_source hread
  dump_eq := Turn.dump_of_source hread
  complained hfails := by
    obtain ⟨d, hevents⟩ := (Turn.fails_iff_of_source hread).1 hfails
    have hanswer := Turn.answer_of_complaint hread hevents
    obtain ⟨hgoes, hreport⟩ := Turn.report_of_diagnostic settings hanswer
    exact ⟨hgoes, _, hanswer, hreport⟩
  parsed hflags d hevents := by
    rw [Turn.answer_of_complaint hread hevents, hflags]
    rfl
  lexical hflags e hfailure := by
    obtain ⟨d, hevents⟩ := Source.exists_events_error hfailure
    rw [Turn.answer_of_complaint hread hevents, hflags, Source.complaint, hfailure]
    rfl
  syntactic hflags hfailure d hevents := by
    refine ⟨?_, (Source.parsed_of_events hevents).origin_ne hfailure⟩
    rw [Turn.answer_of_complaint hread hevents, hflags, Source.complaint, hfailure]
    rfl
  text_ne_iff hflags d d' hevents hanswer := by
    rw [Turn.answer_of_complaint hread hevents, hflags] at hanswer
    obtain rfl := UnitError.diagnostic.inj (Except.error.inj hanswer)
    exact Source.text_complaint_ne_iff hevents

/-! ### Runs apart from their messages -/

/-- Two runs over the same files that differ in nothing but messages, so far, differ in nothing else
at their end. -/
theorem runUnits_congr {settings' : Settings} {g' : Progress} (paths : List Path)
    (hartifacts : settings'.artifacts = settings.artifacts) (hstore : g'.store = g.store)
    (hfailed : g'.failed = g.failed) :
    (runUnits settings' g' paths).1 = (runUnits settings g paths).1 ∧
      (runUnits settings' g' paths).2.store = (runUnits settings g paths).2.store ∧
      (runUnits settings' g' paths).2.failed = (runUnits settings g paths).2.failed := by
  induction paths generalizing g g' with
  | nil => exact ⟨rfl, hstore, hfailed⟩
  | cons p paths ih =>
    obtain ⟨habort, hafter, hfault⟩ := runUnit_by_verdict settings g p
    obtain ⟨habort', hafter', hfault'⟩ := runUnit_by_verdict settings' g' p
    rw [hartifacts, hstore] at habort' hafter' hfault'
    rw [runUnits, runUnits]
    rcases hunit : runUnit settings g p with ⟨abort, g₁⟩
    rcases hunit' : runUnit settings' g' p with ⟨abort', g₁'⟩
    simp only [hunit] at habort hafter hfault
    simp only [hunit'] at habort' hafter' hfault'
    have hstore₁ := hafter'.trans hafter.symm
    have hfailed₁ : g₁'.failed = g₁.failed := by rw [hfault, hfault', hfailed]
    obtain rfl := habort'.trans habort.symm
    cases abort' with
    | none => exact ih hstore₁ hfailed₁
    | some abort => exact ⟨rfl, hstore₁, hfailed₁⟩

/-- Two ends of runs that differ in nothing but messages. Where an operation on files failed, the
last message is about the same error. -/
inductive Outcome.Alike : Outcome → Outcome → Prop
  | status {status : Nat} {messages messages' : String} (hstatus : status ≠ 2) :
    Alike (.finished status messages) (.finished status messages')
  | error (e : SourcesError) (messages messages' : String) :
    Alike (.finished 2 (messages ++ "error: " ++ e.message ++ "\n"))
      (.finished 2 (messages' ++ "error: " ++ e.message ++ "\n"))
  | broken (b : Breakdown) : Alike (.broken b) (.broken b)

theorem alike_finish {g' : Progress} (abort : Option Abort) (hfailed : g'.failed = g.failed) :
    (g'.finish abort).Alike (g.finish abort) := by
  cases abort with
  | none =>
    rw [Progress.finish, Progress.finish, hfailed]
    exact .status (by split <;> decide)
  | some abort =>
    cases abort with
    | file e => exact .error (.file e) _ _
    | breakdown b => exact .broken b

/-- Dumps change nothing but messages. -/
theorem run_with_debug (settings : Settings) (s : Store) (debug : Bool) :
    (run { settings with debug } s).2 = (run settings s).2 ∧
      (run { settings with debug } s).1.Alike (run settings s).1 := by
  cases hsources : s.sources settings.source with
  | error e =>
    rw [run, run, hsources]
    exact ⟨rfl, .error e "" ""⟩
  | ok paths =>
    have hend : run { settings with debug } s = _ := run_of_sources hsources
    rw [hend, run_of_sources hsources]
    obtain ⟨habort, hstore, hfailed⟩ := @runUnits_congr settings { store := s }
      { settings with debug } { store := s } paths rfl rfl rfl
    rw [habort]
    exact ⟨hstore, alike_finish _ hfailed⟩

/-- A file that cannot be read is answered with why, and nothing of it is dumped. -/
theorem Turn.answer_of_unread {e : UnitError} (hread : readSource s p = .error e) :
    (Turn.of settings s p).dump = "" ∧ (Turn.of settings s p).answer = .error e := by
  have hanalyze : (analyzeFile s p settings.artifacts).1 = .error e := by
    rw [analyzeFile, unitArtifacts_of_error hread]
  simp only [Turn.of, runDump, hread]
  split
  · exact ⟨rfl, rfl⟩
  · exact ⟨rfl, hanalyze⟩

/-- Dumps change neither how a run ends nor what it leaves. A run prints the reports of the turns of
its files, and its status is 1 if one of them fails. Whether a file fails depends neither on dumps
nor on listings: one that cannot be read is answered with why in any case, and of a text only what
is said depends on them. -/
theorem flags_keep_verdict (settings : Settings) (s : Store) :
    (∀ debug, (run { settings with debug } s).2 = (run settings s).2 ∧
      (run { settings with debug } s).1.Alike (run settings s).1) ∧
    ∀ paths, s.sources settings.source = .ok paths →
      RunEnds settings s paths (run settings s) ∧
      ∀ t ∈ turns settings s paths,
        (∀ e, t.source = .error e → t.dump = "" ∧ t.answer = .error e) ∧
        ∀ source, t.source = .ok source → SaidOfSource settings t source := by
  refine ⟨run_with_debug settings s, fun paths hsources ↦ ⟨runEnds hsources, fun t ht ↦ ?_⟩⟩
  obtain ⟨s', hturn⟩ := exists_of_mem_turns ht
  rw [hturn]
  exact ⟨fun _ ↦ Turn.answer_of_unread, fun _ ↦ saidOfSource⟩

/-- A run with dumps over a text of which a parse complains at once, and which cannot be read to its
end. -/
theorem flags_keep_verdict_unread :
    let s : Store := { table := [(["A.jack"], .file "x ?".toUTF8)], table_nodup := by decide }
    let settings : Settings :=
      { source := .ofString "A.jack", artifacts := {}, debug := true, verbose := false }
    let t := Turn.of settings s settings.source
    s.sources settings.source = .ok [settings.source] ∧
      RunEnds settings s [settings.source] (run settings s) ∧
      t.source = .ok ⟨"A.jack", "x ?"⟩ ∧ SaidOfSource settings t ⟨"A.jack", "x ?"⟩ := by
  intro s settings t
  have hsources : s.sources settings.source = .ok [settings.source] := by decide +kernel
  have hread : t.source = .ok ⟨"A.jack", "x ?"⟩ := by decide +kernel
  obtain ⟨hends, hsaid⟩ := (flags_keep_verdict settings s).2 _ hsources
  exact ⟨hsources, hends, hread, (hsaid t List.mem_cons_self).2 _ hread⟩

end JackSyntax
