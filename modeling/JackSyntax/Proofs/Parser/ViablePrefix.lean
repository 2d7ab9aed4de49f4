import JackSyntax.Proofs.Parser.Acceptance

/-!
# The parser complains of the first violation

A parser that reads from left to right may only go on while the tokens read so far still start a
class, and has to stop at the first token that leaves no way to go on. For an agenda in place of a
class this is `Session.Blames`. A step hands it back unchanged, since lexemes that are left start
something the agenda allows exactly when they do so after the step (`Session.Advance.extends_iff`).

The token after a name is the one exception to reading from left to right: it is looked at before
the name is consumed, and may be one that cannot be read. But any name starts a term, so the tokens
up to the name are viable even then (`Fit.extends_of_length_le`).

## Main statements

* `Source.first_violation`: a failed parse complains of the first token that no class can have
  there, of the end of a text that is no class yet, or of the lexical error if all tokens before it
  may stand there.
-/

namespace JackSyntax

variable {item : Item} {agenda agenda' : List Item} {lexemes u v : List Lexeme} {x : List Event}
  {s s' : Session} {failure : ParseFailure}

/-! ### Prefixes -/

/-- What starts a class also does so when it is cut short. -/
theorem Viable.of_prefix (h : Viable u) (hv : v <+: u) : Viable v := by
  obtain ⟨more, events, h⟩ := h
  obtain ⟨rest, rfl⟩ := hv
  exact ⟨rest ++ more, events, by rwa [← List.append_assoc]⟩

theorem extends_start : Extends [.rule .classDec, .finish] u ↔ Viable u := by
  simp only [Extends, completes_start, Viable]

/-- The token that makes the difference between a viable prefix and one that is not is unique. -/
theorem viable_take_unique {i j : Nat} (hi : Viable (u.take i)) (hi' : ¬ Viable (u.take (i + 1)))
    (hj : Viable (u.take j)) (hj' : ¬ Viable (u.take (j + 1))) : i = j := by
  rcases Nat.lt_trichotomy i j with hlt | heq | hlt
  · exact absurd (hj.of_prefix (List.take_prefix_take_left hlt)) hi'
  · exact heq
  · exact absurd (hi.of_prefix (List.take_prefix_take_left hlt)) hj'

/-! ### Lexemes before the one that decides -/

/-- Lexemes that end before the one that the item looks at are none, or they are a name and the item
is a term that starts with one. -/
theorem Fit.cases_of_length_le (hfit : Fit (item :: agenda) lexemes) (hv : v <+: lexemes)
    (hlength : v.length ≤ item.depth) :
    v = [] ∨ item = .choice .nameTerm ∧ ∃ name, v = [.identifier name] := by
  cases v with
  | nil => exact .inl rfl
  | cons l v =>
    obtain ⟨rest, rfl⟩ := hv
    cases item with
    | choice c =>
      cases c with
      | nameTerm =>
        have hnil : v = [] :=
          List.eq_nil_of_length_eq_zero (Nat.le_zero.1 (Nat.le_of_succ_le_succ hlength))
        have hname : l.isIdentifier = true := hfit.named rfl
        cases l with
        | identifier name => exact .inr ⟨rfl, name, by rw [hnil]⟩
        | _ => simp [Lexeme.isIdentifier] at hname
      | _ => exact absurd hlength (Nat.not_succ_le_zero _)
    | _ => exact absurd hlength (Nat.not_succ_le_zero _)

theorem Fit.extends_of_length_le (hfit : Fit (item :: agenda) lexemes) (hv : v <+: lexemes)
    (hlength : v.length ≤ item.depth) : Extends (item :: agenda) v := by
  rcases hfit.cases_of_length_le hv hlength with rfl | ⟨rfl, name, rfl⟩
  · exact hfit.completable
  · exact extends_nameTerm name (extends_nil_of_cons hfit.completable)

/-- Lexemes that are left start a choice just when they start the items selected for it. -/
theorem Fit.extends_select_iff {c : Choice} {items : List Item}
    (hfit : Fit (.choice c :: agenda) lexemes) (hitems : c.select lexemes[c.depth]? = .ok items)
    (hv : v <+: lexemes) : Extends (.choice c :: agenda) v ↔ Extends (items ++ agenda) v := by
  rcases Nat.lt_or_ge c.depth v.length with hlt | hge
  · -- The lexeme that decides is among them, whatever comes after.
    have hdecides : ∀ more, (v ++ more)[c.depth]? = lexemes[c.depth]? := by
      intro more
      rw [List.getElem?_append_left hlt]
      exact (List.prefix_iff_getElem?.1 hv c.depth hlt).symm ▸ List.getElem?_eq_getElem hlt
    constructor
    · rintro ⟨more, events, hcompletes⟩
      obtain ⟨items', hitems', hrest⟩ := exists_select_of_completes hfit.guarded hcompletes
      rw [hdecides] at hitems'
      obtain rfl := Except.ok.inj (hitems.symm.trans hitems')
      exact ⟨more, events, hrest⟩
    · rintro ⟨more, events, hrest⟩
      refine ⟨more, events, completes_of_select (by rwa [hdecides]) (fun hc ↦ ?_) hrest⟩
      have hname := hfit.named (by rw [hc]; rfl)
      obtain ⟨rest, rfl⟩ := hv
      cases v with
      | nil => exact absurd hlt (Nat.not_lt_zero _)
      | cons l v => exact hname
  · refine iff_of_true (hfit.extends_of_length_le hv hge) ?_
    rcases hfit.cases_of_length_le hv hge with rfl | ⟨hc, name, rfl⟩
    · exact (hfit.select hitems).completable
    · obtain rfl := Item.choice.inj hc
      exact extends_nameItems name hitems (extends_nil_of_cons hfit.completable)

namespace Session

/-! ### A step -/

/-- Lexemes that are left start what the agenda allows just when they do after the step. -/
theorem Advance.extends_iff (hfit : Fit (item :: agenda) s.lexemes)
    (h : s.Advance agenda item agenda' s') :
    ∃ tokens events, s.Moves s' tokens events ∧ ∀ v, v <+: s'.lexemes →
      (Extends (item :: agenda) (tokens.map Token.lexeme ++ v) ↔ Extends agenda' v) := by
  cases h with
  | @terminal t token _ hadmits hmoves =>
    refine ⟨_, _, hmoves, fun v _ ↦ ⟨?_, ?_⟩⟩
    · rintro ⟨more, events, hcompletes⟩
      obtain ⟨l, u, x, -, hu, -, hrest⟩ := Terminal.form_before.1 hcompletes
      obtain ⟨-, rfl⟩ := List.cons.inj hu
      exact ⟨more, x, hrest⟩
    · rintro ⟨more, x, hrest⟩
      exact ⟨more, _, Terminal.form_before.2 ⟨_, v ++ more, x, hadmits, rfl, rfl, hrest⟩⟩
  | @rule r _ hmoves =>
    refine ⟨_, _, hmoves, fun v _ ↦ ?_⟩
    show Extends (.rule r :: agenda) v ↔ _
    rw [Extends, completes_rule]
    exact ⟨fun ⟨more, _, x, _, hbody⟩ ↦ ⟨more, x, hbody⟩,
      fun ⟨more, x, hbody⟩ ↦ ⟨more, _, x, rfl, hbody⟩⟩
  | close hmoves =>
    refine ⟨_, _, hmoves, fun v _ ↦ ?_⟩
    exact ⟨fun ⟨more, _, x, _, hrest⟩ ↦ ⟨more, x, hrest⟩,
      fun ⟨more, x, hrest⟩ ↦ ⟨more, _, x, rfl, hrest⟩⟩
  | choice hitems _ hmoves =>
    refine ⟨_, _, hmoves, fun v hv ↦ ?_⟩
    have hlexemes : s.lexemes = s'.lexemes := hmoves.lexemes
    exact hfit.extends_select_iff hitems (hlexemes ▸ hv)
  | finish hpending _ hmoves =>
    refine ⟨_, _, hmoves, fun v hv ↦ ?_⟩
    have hlexemes : s.lexemes = s'.lexemes := hmoves.lexemes
    rw [← hlexemes, lexemes_of_pending_nil hpending] at hv
    obtain rfl := List.prefix_nil.1 hv
    exact iff_of_true hfit.completable (extends_nil_of_cons hfit.completable)

/-- The failure is the first reason why the tokens left do not complete the agenda. -/
inductive Blames (s : Session) (agenda : List Item) : ParseFailure → Prop
  | lexical {e : LexError} (hfailure : s.failure = some e) (hviable : Extends agenda s.lexemes) :
    Blames s agenda (.lexical e)
  | token {e : SyntaxError} {token : Token} {i : Nat} (htoken : s.pending[i]? = some token)
    (hfound : e.found = .token token) (hviable : Extends agenda (s.lexemes.take i))
    (hnot : ¬ Extends agenda (s.lexemes.take (i + 1))) : Blames s agenda (.syntactic e)
  | endOfInput {e : SyntaxError} (hfailure : s.failure = none)
    (hfound : e.found = .endOfInput s.endPosition) (hviable : Extends agenda s.lexemes)
    (hnot : ∀ x, ¬ Completes agenda s.lexemes x) : Blames s agenda (.syntactic e)

/-- An item that fails complains of what it looks at, and all before that may stand there. -/
theorem Halt.blames (hfit : Fit (item :: agenda) s.lexemes) (h : s.Halt agenda item failure) :
    s.Blames (item :: agenda) failure := by
  have hlength : s.lexemes.length = s.pending.length := List.length_map _
  cases h with
  | lexical hdepth hfailure =>
    refine .lexical hfailure (hfit.extends_of_length_le (List.prefix_refl _) ?_)
    rwa [hlength]
  | @token token expected htoken hrefusal =>
    refine .token htoken rfl (hfit.extends_of_length_le (List.take_prefix _ _) ?_) ?_
    · exact List.length_take_le _ _
    · rintro ⟨more, events, hcompletes⟩
      have hnone := refusal_of_completes hfit.guarded hcompletes
      have hlexeme : s.lexemes[item.depth]? = some token.lexeme := by
        rw [lexemes, List.getElem?_map, htoken, Option.map_some]
      obtain ⟨hlt, -⟩ := List.getElem?_eq_some_iff.1 hlexeme
      rw [List.getElem?_append_left (by rw [List.length_take]; omega),
        List.getElem?_take_of_lt (Nat.lt_succ_self _), hlexeme, hrefusal] at hnone
      simp at hnone
  | @endOfInput expected hdepth hfailure hrefusal =>
    refine .endOfInput hfailure rfl (hfit.extends_of_length_le (List.prefix_refl _) ?_) ?_
    · rwa [hlength]
    · intro x hcompletes
      have hnone := refusal_of_completes hfit.guarded hcompletes
      rw [List.getElem?_eq_none (by rwa [hlength]), hrefusal] at hnone
      simp at hnone

/-- What is to blame after the step was so before. -/
theorem Advance.blames (hfit : Fit (item :: agenda) s.lexemes)
    (h : s.Advance agenda item agenda' s') (hblames : s'.Blames agenda' failure) :
    s.Blames (item :: agenda) failure := by
  obtain ⟨tokens, events, hmoves, hextends⟩ := h.extends_iff hfit
  have hlexemes : s.lexemes = tokens.map Token.lexeme ++ s'.lexemes := hmoves.lexemes
  have htake : ∀ i, s.lexemes.take (tokens.length + i) =
      tokens.map Token.lexeme ++ s'.lexemes.take i := by
    intro i
    rw [hlexemes, ← List.length_map (f := Token.lexeme), List.take_length_add_append]
  cases hblames with
  | lexical hfailure hviable =>
    refine .lexical (hmoves.failure_eq.symm.trans hfailure) ?_
    rw [hlexemes]
    exact (hextends _ (List.prefix_refl _)).2 hviable
  | @token e token i htoken hfound hviable hnot =>
    refine .token (i := tokens.length + i) ?_ hfound ?_ ?_
    · rw [hmoves.pending_eq, List.getElem?_append_right (Nat.le_add_right _ _),
        Nat.add_sub_cancel_left, htoken]
    · rw [htake]
      exact (hextends _ (List.take_prefix _ _)).2 hviable
    · rw [Nat.add_assoc, htake]
      exact fun hextend ↦ hnot ((hextends _ (List.take_prefix _ _)).1 hextend)
  | endOfInput hfailure hfound hviable hnot =>
    refine .endOfInput (hmoves.failure_eq.symm.trans hfailure)
      (hmoves.endPosition_eq ▸ hfound) ?_ ?_
    · rw [hlexemes]
      exact (hextends _ (List.prefix_refl _)).2 hviable
    · intro x hcompletes
      obtain ⟨_, _, -, hiff⟩ := h.completes hfit
      obtain ⟨x', -, hrest⟩ := (hiff x).1 hcompletes
      exact hnot x' hrest

/-- A failed run complains of the first reason there is. -/
theorem run_blames (h : s.run agenda = (.error failure, s')) (hfit : Fit agenda s.lexemes) :
    s.Blames agenda failure := by
  refine run_induction (motive := fun s agenda outcome _ ↦ ∀ failure, outcome = .error failure →
    Fit agenda s.lexemes → s.Blames agenda failure) ?nil ?halt ?advance s agenda h failure rfl hfit
  case nil => simp
  case halt =>
    intro s agenda item failure s' hhalt _ failure' hfailure hfit
    obtain rfl := Except.error.inj hfailure
    exact hhalt.blames hfit
  case advance =>
    intro s agenda item agenda' s₁ outcome s' hadvance ih failure hfailure hfit
    exact hadvance.blames hfit (ih failure hfailure (hadvance.fit hfit))

/-! ### A whole class -/

/-- A session asked for a class complains of the first reason there is. -/
theorem runClass_blames (hfresh : s.used = false)
    (h : s.runClass.1 = .error (.parse failure)) :
    Blames s [.rule .classDec, .finish] failure := by
  obtain ⟨s', hrun⟩ := run_of_runClass_error hfresh h
  exact run_blames hrun (Fit.start _)

end Session

/-! ### The complaint of a source -/

/-- No token is described as the end of the text. -/
theorem Lexeme.describe_ne (l : Lexeme) : l.describe ≠ "end of input" := by
  have hfirst : ∀ first rest : String, first.toList.head? ∉ [none, some 'e'] →
      first ++ rest ≠ "end of input" := by
    intro first rest hfirst h
    have hchars := congrArg String.toList h
    rw [String.toList_append] at hchars
    cases hlist : first.toList with
    | nil => simp [hlist] at hfirst
    | cons c text => simp_all
  cases l with
  | string value =>
    show "string constant \"" ++ value ++ "\"" ≠ _
    rw [String.append_assoc]
    exact hfirst _ _ (by simp)
  | integer value => exact hfirst _ _ (by simp)
  | keyword k =>
    show "keyword" ++ " '" ++ _ ++ "'" ≠ _
    rw [String.append_assoc, String.append_assoc]
    exact hfirst _ _ (by simp)
  | symbol s =>
    show "symbol" ++ " '" ++ _ ++ "'" ≠ _
    rw [String.append_assoc, String.append_assoc]
    exact hfirst _ _ (by simp)
  | identifier name =>
    show "identifier" ++ " '" ++ _ ++ "'" ≠ _
    rw [String.append_assoc, String.append_assoc]
    exact hfirst _ _ (by simp)

/-- A failed parse complains of the first token that no class can have there, of the end of a text
that is no class yet, or of the lexical error if all tokens before it may stand there. -/
theorem Source.first_violation (source : Source) (limits : Limits) :
    let reading := source.reading limits
    let lexemes := reading.tokens.map Token.lexeme
    let outcome := (Session.ofText source.text limits).runClass.1
    (∀ e, outcome = .error (.parse (.syntactic e)) → e.found.text ≠ "end of input" →
      ∃ i token, reading.tokens[i]? = some token ∧ e.found = .token token ∧
        (e.diagnostic source).span = token.span ∧
        (e.diagnostic source).origin = .syntactic (e.rule.map Rule.name) (some e.expected.text)
          (some token.lexeme.describe) ∧
        Viable (lexemes.take i) ∧ ¬ Viable (lexemes.take (i + 1)) ∧
        ∀ j, Viable (lexemes.take j) → ¬ Viable (lexemes.take (j + 1)) → j = i) ∧
    (∀ e, outcome = .error (.parse (.syntactic e)) → e.found.text = "end of input" →
      reading.failure = none ∧ Viable lexemes ∧ (∀ events, ¬ IsClass lexemes events) ∧
        (e.diagnostic source).span = .empty (endPosition source.text)) ∧
    ∀ e, outcome = .error (.parse (.lexical e)) ↔ reading.failure = some e ∧ Viable lexemes := by
  intro reading lexemes outcome
  have hblames : ∀ failure, outcome = .error (.parse failure) →
      (Session.ofText source.text limits).Blames [.rule .classDec, .finish] failure :=
    fun _ ↦ Session.runClass_blames rfl
  refine ⟨?token, ?endOfInput, ?lexical⟩
  case token =>
    intro e he htext
    cases hblames _ he with
    | @token _ token i htoken hfound hviable hnot =>
      rw [extends_start] at hviable hnot
      refine ⟨i, token, htoken, hfound, ?_, ?_, hviable, hnot, ?_⟩
      · show e.found.span = token.span
        rw [hfound]
        rfl
      · show Diagnostic.Origin.syntactic _ _ (some e.found.text) = _
        rw [hfound]
        rfl
      · exact fun j hj hj' ↦ viable_take_unique hj hj' hviable hnot
    | endOfInput _ hfound _ _ =>
      rw [hfound] at htext
      exact absurd rfl htext
  case endOfInput =>
    intro e he htext
    cases hblames _ he with
    | token _ hfound _ _ =>
      rw [hfound] at htext
      exact absurd htext (Lexeme.describe_ne _)
    | endOfInput hfailure hfound hviable hnot =>
      refine ⟨hfailure, extends_start.1 hviable, fun events h ↦ ?_, ?_⟩
      · exact hnot events (completes_start.2 h)
      · show e.found.span = _
        rw [hfound]
        rfl
  case lexical =>
    intro e
    constructor
    · intro he
      cases hblames _ he with
      | lexical hfailure hviable => exact ⟨hfailure, extends_start.1 hviable⟩
    · rintro ⟨hfailure, hviable⟩
      let start : Session := { Session.ofText source.text limits with used := true }
      rcases hrun : start.run [.rule .classDec, .finish] with ⟨failure | _, s⟩
      · have houtcome : outcome = .error (.parse failure) :=
          congrArg Prod.fst (Session.runClass_of_run_error rfl hrun)
        rw [houtcome]
        -- Any other complaint would come before all tokens are read, or where no error is.
        cases hblames failure houtcome with
        | lexical hfailure' _ =>
          obtain rfl := Option.some.inj (hfailure.symm.trans hfailure')
          rfl
        | @token _ _ i _ _ _ hnot =>
          exact absurd (extends_start.2 (hviable.of_prefix (List.take_prefix _ _))) hnot
        | endOfInput hnone _ _ _ => exact absurd (hfailure.symm.trans hnone) (by simp)
      · obtain ⟨-, hnone⟩ := Session.end_of_run hrun (.inl (by simp))
        exact absurd (hnone.symm.trans hfailure) (by simp)

end JackSyntax
