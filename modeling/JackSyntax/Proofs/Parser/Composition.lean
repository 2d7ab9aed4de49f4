import JackSyntax.Proofs.Parser.Acceptance

/-!
# Runs one after the other

An agenda in two parts is run part by part (`Session.run_append`). If the first part fails, so does
the whole, in the same session; only the rule that a syntax error names may then be one of the
second part, where the first has none in force.
-/

namespace JackSyntax

/-- The failure met within further rules: it names theirs if it is within no other. -/
def ParseFailure.around (rule : Option Rule) : ParseFailure → ParseFailure
  | .lexical e => .lexical e
  | .syntactic e => .syntactic { e with rule := e.rule.or rule }

theorem ParseFailure.around_none (failure : ParseFailure) : failure.around none = failure := by
  cases failure with
  | lexical e => rfl
  | syntactic e => rw [around, Option.or_none]

theorem innermostRule_append (agenda more : List Item) :
    innermostRule (agenda ++ more) = (innermostRule agenda).or (innermostRule more) :=
  List.findSome?_append

namespace Session

variable {s s' : Session} {items agenda more : List Item} {item : Item}

/-- A step does not look past its item, but for the rule that a failure names. -/
theorem step_append (s : Session) (agenda more : List Item) (item : Item) :
    s.step (agenda ++ more) item =
      (((s.step agenda item).1.map (· ++ more)).mapError (·.around (innermostRule more)),
        (s.step agenda item).2) := by
  have hunexpected : ∀ (s : Session) expected found,
      s.unexpected (agenda ++ more) expected found =
        (s.unexpected agenda expected found).around (innermostRule more) := by
    intro s expected found
    simp only [unexpected, innermostRule_append, ParseFailure.around]
  cases item with
  | terminal t =>
    simp only [step]
    rcases s.look 0 with ⟨e | (_ | token), s'⟩
    · rfl
    · simp only [hunexpected]
      rfl
    · by_cases hadmits : t.admits token.lexeme = true
      · simp only [if_pos hadmits]
        rfl
      · simp only [if_neg hadmits, hunexpected]
        rfl
  | rule r =>
    simp only [step, Except.map, mapError_ok, List.append_assoc, List.cons_append]
  | close r => rfl
  | choice c =>
    simp only [step]
    rcases s.look c.depth with ⟨e | ahead, s'⟩
    · rfl
    · cases hselect : c.select (ahead.map Token.lexeme) with
      | error expected =>
        simp only [hselect, hunexpected]
        rfl
      | ok items => simp only [hselect, Except.map, mapError_ok, List.append_assoc]
  | finish =>
    simp only [step]
    rcases s.look 0 with ⟨e | (_ | token), s'⟩
    · rfl
    · rfl
    · simp only [hunexpected]
      rfl

/-- An agenda in two parts is run part by part. -/
theorem run_append (s : Session) (agenda more : List Item) :
    s.run (agenda ++ more) =
      match s.run agenda with
      | (.ok (), s') => s'.run more
      | (.error failure, s') => (.error (failure.around (innermostRule more)), s') := by
  induction s, agenda using run.induct with
  | case1 s => rw [run_nil, List.nil_append]
  | case2 s item agenda failure s' hstep =>
    have happend := s.step_append agenda more item
    rw [hstep] at happend
    rw [run_of_step_error hstep, List.cons_append, run_of_step_error happend]
  | case3 s item agenda agenda' s' hstep ih =>
    have happend := s.step_append agenda more item
    rw [hstep] at happend
    rw [run_of_step_ok hstep, List.cons_append, run_of_step_ok happend]
    exact ih

/-- Where an agenda in two parts goes well, both parts do, one after the other. -/
theorem run_append_ok (h : s.run (agenda ++ more) = (.ok (), s')) :
    ∃ s₁, s.run agenda = (.ok (), s₁) ∧ s₁.run more = (.ok (), s') := by
  rw [run_append] at h
  rcases hrun : s.run agenda with ⟨failure | answer, s₁⟩
  · simp [hrun] at h
  · rw [hrun] at h
    exact ⟨s₁, rfl, h⟩

end Session

end JackSyntax
