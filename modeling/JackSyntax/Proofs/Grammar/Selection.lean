import JackSyntax.Proofs.Grammar.Follow

/-!
# Selection by a lexeme ahead

The items that a parser selects for a choice depend on one lexeme, or on two where a term starts
with a name. Nothing is lost and nothing gained by that: lexemes complete a guarded agenda that
begins with a choice exactly when they complete it with the items selected for them in place of the
choice (`exists_select_of_completes`, `completes_of_select`).

The items of a term shift whatever token is ahead, since the parser has looked at it by then. So the
items selected allow more than the choice does, and the second statement asks that the lexemes begin
with the one that was ahead. Where no token is shifted, other lexemes do as well
(`completes_of_select_of_head`).
-/

namespace JackSyntax

variable {u : List Lexeme} {x : List Event} {agenda items : List Item}

/-! ### The forms of a term -/

/-- The items of a term, by the lexeme it starts with. -/
theorem termItems_cases {l : Lexeme} (h : termItems l = .ok items) :
    (l.isLiteral = true ∨ l.isKeyword Keyword.constants = true) ∧ items = [.shift] ∨
      l.isSymbol [.leftParen] = true ∧ items = Item.parenthesized ∨
      l.isSymbol Symbol.unaryOps = true ∧ items = [.shift, .rule .term] ∨
      l.isIdentifier = true ∧ items = [.choice .nameTerm] := by
  unfold termItems at h
  split at h
  · rename_i hl
    exact .inl ⟨by simpa using hl, (Except.ok.inj h).symm⟩
  · split at h
    · rename_i hl
      exact .inr (.inl ⟨hl, (Except.ok.inj h).symm⟩)
    · split at h
      · rename_i hl
        exact .inr (.inr (.inl ⟨hl, (Except.ok.inj h).symm⟩))
      · split at h
        · rename_i hl
          exact .inr (.inr (.inr ⟨hl, (Except.ok.inj h).symm⟩))
        · simp at h

/-- A literal or constant is a term by itself. -/
theorem termItems_of_shift {l : Lexeme}
    (hl : l.isLiteral = true ∨ l.isKeyword Keyword.constants = true) :
    termItems l = .ok [.shift] := by
  rw [termItems, if_pos (by simpa using hl)]

/-- A parenthesis begins an expression between parentheses. -/
theorem termItems_of_leftParen {l : Lexeme} (hl : l.isSymbol [.leftParen] = true) :
    termItems l = .ok Item.parenthesized := by
  cases l <;> simp_all [termItems, Lexeme.isSymbol, Lexeme.isLiteral, Lexeme.isKeyword]

/-- A sign comes before another term. -/
theorem termItems_of_unaryOp {l : Lexeme} (hl : l.isSymbol Symbol.unaryOps = true) :
    termItems l = .ok [.shift, .rule .term] := by
  cases l with
  | symbol s =>
    cases s <;>
      simp_all [termItems, Lexeme.isSymbol, Lexeme.isLiteral, Lexeme.isKeyword, Symbol.unaryOps]
  | _ => simp [Lexeme.isSymbol] at hl

/-- What a name begins depends on the lexeme after it. -/
theorem termItems_of_identifier {l : Lexeme} (hl : l.isIdentifier = true) :
    termItems l = .ok [.choice .nameTerm] := by
  cases l <;> simp_all [termItems, Lexeme.isSymbol, Lexeme.isLiteral, Lexeme.isKeyword,
    Lexeme.isIdentifier]

/-- An agenda that shifts a token allows whatever lexeme comes first. -/
theorem completes_shift :
    Completes (.shift :: agenda) u x ↔
      ∃ l u' x', u = l :: u' ∧ x = .ofLexeme l :: x' ∧ Completes agenda u' x' := by
  rw [Completes, Item.before, Terminal.form_before]
  simp only [Terminal.admits, true_and]

/-- The items for parentheses allow what the grammar does. -/
theorem completes_parenthesized :
    Completes (Item.parenthesized ++ agenda) u x ↔
      Form.parenthesized.before (Completes agenda) u x := by
  simp only [Item.parenthesized, Form.parenthesized, List.cons_append, List.nil_append, Completes,
    Item.before, Form.before_seq, Terminal.symbol_before]

/-- What a term allows, the items selected for its first lexeme do. -/
theorem exists_termItems (h : Completes (.choice .term :: agenda) u x) :
    ∃ l items, u.head? = some l ∧ termItems l = .ok items ∧ Completes (items ++ agenda) u x := by
  simp only [Completes, Item.before, Choice.form, Rule.form, Form.before_either] at h
  rcases h with ((((h | h) | h) | h) | h) | h
  · obtain ⟨l, u', x', hl, rfl, rfl, hrest⟩ := Form.isSort_literal.before_iff.1 h
    exact ⟨l, _, rfl, termItems_of_shift (.inl hl), completes_shift.2 ⟨l, u', x', rfl, rfl, hrest⟩⟩
  · obtain ⟨l, u', x', hl, rfl, rfl, hrest⟩ := Form.isSort_keywordConstant.before_iff.1 h
    exact ⟨l, _, rfl, termItems_of_shift (.inr hl), completes_shift.2 ⟨l, u', x', rfl, rfl, hrest⟩⟩
  · obtain ⟨l, hu, hl⟩ := Form.opens_parenthesized _ u x h
    exact ⟨l, _, hu, termItems_of_leftParen hl, completes_parenthesized.2 h⟩
  · rw [Form.before_seq, Form.isSort_unaryOp.before_iff] at h
    obtain ⟨l, u', x', hl, rfl, rfl, hrest⟩ := h
    exact ⟨l, _, rfl, termItems_of_unaryOp hl, completes_shift.2 ⟨l, u', x', rfl, rfl, hrest⟩⟩
  · obtain ⟨l, hu, hl⟩ := Form.opens_variableTerm _ u x h
    exact ⟨l, _, hu, termItems_of_identifier hl, Form.before_either.2 (.inl h)⟩
  · obtain ⟨l, hu, hl⟩ := Form.opens_subroutineCall _ u x h
    exact ⟨l, _, hu, termItems_of_identifier hl, Form.before_either.2 (.inr h)⟩

/-- What the items of a term allow, the term does, if a lexeme that they only shift is the one that
selected them. -/
theorem completes_term_of_termItems {l : Lexeme} (hitems : termItems l = .ok items)
    (hu : items.head? = some .shift → u.head? = some l) (h : Completes (items ++ agenda) u x) :
    Completes (.choice .term :: agenda) u x := by
  simp only [Completes, Item.before, Choice.form, Rule.form, Form.before_either]
  rcases termItems_cases hitems with ⟨hl, rfl⟩ | ⟨hl, rfl⟩ | ⟨hl, rfl⟩ | ⟨hl, rfl⟩
  · obtain ⟨l', u', x', rfl, rfl, hrest⟩ := completes_shift.1 h
    obtain rfl := Option.some.inj (hu rfl)
    rcases hl with hl | hl
    · exact .inl (.inl (.inl (.inl (.inl
        (Form.isSort_literal.before_iff.2 ⟨l', u', x', hl, rfl, rfl, hrest⟩)))))
    · exact .inl (.inl (.inl (.inl (.inr
        (Form.isSort_keywordConstant.before_iff.2 ⟨l', u', x', hl, rfl, rfl, hrest⟩)))))
  · exact .inl (.inl (.inl (.inr (completes_parenthesized.1 h))))
  · obtain ⟨l', u', x', rfl, rfl, hrest⟩ := completes_shift.1 h
    obtain rfl := Option.some.inj (hu rfl)
    refine .inl (.inl (.inr ?_))
    rw [Form.before_seq, Form.isSort_unaryOp.before_iff]
    exact ⟨l', u', x', hl, rfl, rfl, hrest⟩
  · rcases Form.before_either.1 h with h | h
    · exact .inl (.inr h)
    · exact .inr h

/-! ### The statements -/

/-- The first keyword of a statement decides its rule. -/
theorem statementItems_eq {k : Keyword} {r : Rule} (hr : Rule.ofStatementStart? k = some r) :
    statementItems (.keyword k) = .ok [.rule r] := by
  rw [statementItems, hr]

/-- The items of a statement, by the keyword it starts with. -/
theorem statementItems_cases {l : Lexeme} (h : statementItems l = .ok items) :
    ∃ k r, l = .keyword k ∧ Rule.ofStatementStart? k = some r ∧ items = [.rule r] := by
  unfold statementItems at h
  split at h
  · split at h
    · rename_i k _ r hr
      exact ⟨k, r, rfl, hr, (Except.ok.inj h).symm⟩
    · simp at h
  · simp at h

/-- What a statement allows, the items selected for its keyword do. -/
theorem exists_statementItems (h : Completes (.choice .statement :: agenda) u x) :
    ∃ l items, u.head? = some l ∧ statementItems l = .ok items ∧
      Completes (items ++ agenda) u x := by
  obtain ⟨k, r, hr, h⟩ := Form.before_statement.1 h
  obtain ⟨_, hu, rfl⟩ := Form.opens_of_statementStart hr _ u x h
  exact ⟨_, _, hu, statementItems_eq hr, h⟩

/-- What the items of a statement allow, the statement does. -/
theorem completes_statement_of_statementItems {l : Lexeme} (hitems : statementItems l = .ok items)
    (h : Completes (items ++ agenda) u x) : Completes (.choice .statement :: agenda) u x := by
  obtain ⟨k, r, -, hr, rfl⟩ := statementItems_cases hitems
  exact Form.before_statement.2 ⟨k, r, hr, h⟩

/-! ### Terms that start with a name -/

/-- What is left after the name of a call begins with a dot or a parenthesis. -/
theorem heads_callRest {K : Language} :
    ((Form.maybe (.symbol .dot ++ .identifier)).before ((Form.symbol .leftParen).before K)).Heads
      [.symbol .leftParen, .symbol .dot] := by
  intro u x h
  rcases Form.before_maybe.1 h with h | h
  · obtain ⟨l, u', -, rfl, rfl, -⟩ := Form.before_lexeme.1 h
    exact ⟨_, by simp, rfl⟩
  · rw [Form.before_seq] at h
    obtain ⟨l, u', -, rfl, rfl, -⟩ := Form.before_lexeme.1 h
    exact ⟨_, by simp, rfl⟩

/-- What is left after a variable begins with a bracket or with what may follow a term. -/
theorem heads_subscript (h : (Completes agenda).Heads termEnds) :
    (Completes (.choice .subscript :: agenda)).Heads (.symbol .leftBracket :: termEnds) :=
  heads_optional rfl (mem_of_any_isSymbol (by decide)) (h.mono (List.subset_cons_self _ _))

theorem completes_variableTerm {u : List Lexeme} {x : List Event} :
    Form.variableTerm.before (Completes agenda) u x ↔
      u.head?.any Lexeme.isIdentifier = true ∧
        Completes (.shift :: .choice .subscript :: agenda) u x := by
  rw [Form.variableTerm, Form.before_seq, Form.isSort_identifier.before_iff, completes_shift]
  constructor
  · rintro ⟨l, u', x', hl, rfl, rfl, hrest⟩
    exact ⟨hl, l, u', x', rfl, rfl, hrest⟩
  · rintro ⟨hl, l, u', x', rfl, rfl, hrest⟩
    exact ⟨l, u', x', hl, rfl, rfl, hrest⟩

/-- What a term that starts with a name allows, the items selected for its second lexeme do. -/
theorem exists_nameItems (hguard : Guarded (.choice .nameTerm :: agenda))
    (h : Completes (.choice .nameTerm :: agenda) u x) :
    ∃ items, Choice.nameTerm.select u[1]? = .ok items ∧ Completes (items ++ agenda) u x := by
  rcases Form.before_either.1 h with h | h
  · obtain ⟨hname, hrest⟩ := completes_variableTerm.1 h
    refine ⟨[.shift, .choice .subscript], ?_, hrest⟩
    obtain ⟨l, u', x', rfl, rfl, hsubscript⟩ := completes_shift.1 hrest
    obtain ⟨l', hl', hu'⟩ := heads_subscript (hguard.1 _ rfl) u' x' hsubscript
    have hcall : ∀ l ∈ Lexeme.symbol .leftBracket :: termEnds,
        l.isSymbol [.leftParen, .dot] = false := by decide
    rw [List.getElem?_cons_succ, ← List.head?_eq_getElem?, hu', Choice.select, Option.any_some,
      hcall l' hl', if_neg Bool.false_ne_true]
  · refine ⟨[.rule .subroutineCall], ?_, h⟩
    rw [Form.before_rule] at h
    obtain ⟨x', -, h⟩ := h
    simp only [Rule.form, Form.before_seq] at h
    obtain ⟨l, u', x'', -, rfl, -, hrest⟩ := Form.before_lexeme.1 h
    obtain ⟨l', hl', hu'⟩ := heads_callRest u' x'' hrest
    have hcall : ∀ l ∈ [Lexeme.symbol .leftParen, .symbol .dot],
        l.isSymbol [.leftParen, .dot] = true := by decide
    rw [List.getElem?_cons_succ, ← List.head?_eq_getElem?, hu', Choice.select, Option.any_some,
      hcall l' hl', if_pos rfl]

/-- What either form of a term that starts with a name allows, the term does. -/
theorem completes_nameTerm_of_select {ahead : Option Lexeme}
    (hname : u.head?.any Lexeme.isIdentifier = true)
    (hitems : Choice.nameTerm.select ahead = .ok items) (h : Completes (items ++ agenda) u x) :
    Completes (.choice .nameTerm :: agenda) u x := by
  obtain rfl := Except.ok.inj hitems
  split at h
  · exact Form.before_either.2 (.inr h)
  · exact Form.before_either.2 (.inl (completes_variableTerm.2 ⟨hname, h⟩))

/-! ### All choices -/

/-- All but three choices may come to nothing. -/
theorem Choice.optional_or (c : Choice) :
    c.optional = true ∨ c = .statement ∨ c = .term ∨ c = .nameTerm := by
  cases c <;> simp [optional]

/-- Such a choice looks at the next lexeme only. -/
theorem Choice.depth_of_optional {c : Choice} (hc : c.optional = true) : c.depth = 0 := by
  cases c <;> simp [optional, depth] at hc ⊢

/-- Lexemes that complete a guarded agenda complete it with the items selected for them. -/
theorem exists_select_of_completes {c : Choice} (hguard : Guarded (.choice c :: agenda))
    (h : Completes (.choice c :: agenda) u x) :
    ∃ items, c.select u[c.depth]? = .ok items ∧ Completes (items ++ agenda) u x := by
  rcases c.optional_or with hc | rfl | rfl | rfl
  · rw [Choice.depth_of_optional hc, ← List.head?_eq_getElem?, Choice.select_of_optional hc]
    rcases (completes_optional hc).1 h with hskip | ⟨hwants, hpart⟩
    · -- What comes next may follow the choice, so it does not want the part.
      have hnot : c.wants u.head? = false := c.wants_head?_of_completes hc hguard hskip
      exact ⟨[], by rw [hnot]; rfl, hskip⟩
    · exact ⟨c.part, by rw [hwants]; rfl, hpart⟩
  · obtain ⟨l, items, hu, hitems, h⟩ := exists_statementItems h
    refine ⟨items, ?_, h⟩
    show Choice.statement.select u[0]? = .ok items
    rw [← List.head?_eq_getElem?, hu]
    exact hitems
  · obtain ⟨l, items, hu, hitems, h⟩ := exists_termItems h
    refine ⟨items, ?_, h⟩
    show Choice.term.select u[0]? = .ok items
    rw [← List.head?_eq_getElem?, hu]
    exact hitems
  · exact exists_nameItems hguard h

/-- Lexemes that complete the agenda with the items selected for others complete it with the choice,
if a lexeme that the items only shift is the first of the others. -/
theorem completes_of_select_of_head {c : Choice} {lexemes : List Lexeme}
    (hitems : c.select lexemes[c.depth]? = .ok items)
    (hname : c = .nameTerm → lexemes.head?.any Lexeme.isIdentifier = true)
    (hhead : items.head? = some .shift → u.head? = lexemes.head?)
    (h : Completes (items ++ agenda) u x) : Completes (.choice c :: agenda) u x := by
  rcases c.optional_or with hc | rfl | rfl | rfl
  · rw [Choice.depth_of_optional hc, ← List.head?_eq_getElem?, Choice.select_of_optional hc]
      at hitems
    obtain rfl := Except.ok.inj hitems
    split at h
    · rename_i hwants
      refine (completes_optional hc).2 (.inr ⟨?_, h⟩)
      by_cases hmore : c = .moreTerms
      · subst hmore
        rwa [hhead (by rw [if_pos hwants]; rfl)]
      · exact (completes_optional_of_ne hc hmore).2 h
    · exact (completes_optional hc).2 (.inl h)
  · cases lexemes with
    | nil => simp [Choice.select] at hitems
    | cons l lexemes => exact completes_statement_of_statementItems hitems h
  · cases lexemes with
    | nil => simp [Choice.select] at hitems
    | cons l lexemes => exact completes_term_of_termItems hitems hhead h
  · obtain rfl := Except.ok.inj hitems
    split at h
    · exact Form.before_either.2 (.inr h)
    · rename_i hcall
      rw [if_neg hcall] at hhead
      refine Form.before_either.2 (.inl (completes_variableTerm.2 ⟨?_, h⟩))
      rw [hhead rfl]
      exact hname rfl

/-- Lexemes that complete the agenda with the items selected for them complete it with the choice,
where a term that starts with a name is given one. -/
theorem completes_of_select {c : Choice} (hitems : c.select u[c.depth]? = .ok items)
    (hname : c = .nameTerm → u.head?.any Lexeme.isIdentifier = true)
    (h : Completes (items ++ agenda) u x) : Completes (.choice c :: agenda) u x :=
  completes_of_select_of_head hitems hname (fun _ ↦ rfl) h

/-- The items selected for a choice are guarded wherever the choice is. -/
theorem Guarded.select {c : Choice} {ahead : Option Lexeme} (hguard : Guarded (.choice c :: agenda))
    (hitems : c.select ahead = .ok items) : Guarded (items ++ agenda) := by
  have hends : ∀ lexemes, (Item.choice c).follow? = some lexemes →
      (Completes agenda).Heads lexemes := hguard.1
  obtain ⟨-, hname, hagenda⟩ := hguard
  rcases c.optional_or with hc | rfl | rfl | rfl
  · rw [Choice.select_of_optional hc] at hitems
    obtain rfl := Except.ok.inj hitems
    split
    · exact Guarded.part hc ⟨hends, hname, hagenda⟩
    · exact hagenda
  · cases ahead with
    | none => simp [Choice.select] at hitems
    | some l =>
      obtain ⟨k, r, -, hr, rfl⟩ := statementItems_cases hitems
      cases k <;> simp only [Rule.ofStatementStart?, Option.some.injEq, reduceCtorEq] at hr <;>
        subst hr <;> simp [Guarded, Item.follow?, hname, hagenda, hends _ rfl]
  · cases ahead with
    | none => simp [Choice.select] at hitems
    | some l =>
      rcases termItems_cases hitems with ⟨-, rfl⟩ | ⟨-, rfl⟩ | ⟨-, rfl⟩ | ⟨-, rfl⟩ <;>
        simp +decide [Item.parenthesized, Guarded, Item.follow?, hname, hagenda, heads_symbol,
          hends _ rfl]
  · obtain rfl := Except.ok.inj hitems
    split <;> simp [Guarded, Item.follow?, hname, hagenda, hends _ rfl]

/-! ### What may be selected -/

/-- Only a statement and a term can be refused. -/
theorem Choice.expected_of_select {c : Choice} {ahead : Option Lexeme} {expected : Expectation}
    (h : c.select ahead = .error expected) :
    c = .statement ∧ expected = .statement ∨ c = .term ∧ expected = .term := by
  rcases c.optional_or with hc | rfl | rfl | rfl
  · simp [select_of_optional hc] at h
  · refine .inl ⟨rfl, ?_⟩
    cases ahead with
    | none => exact (Except.error.inj h).symm
    | some l =>
      rw [select, statementItems.eq_def] at h
      split at h
      · split at h
        · simp at h
        · exact (Except.error.inj h).symm
      · exact (Except.error.inj h).symm
  · refine .inr ⟨rfl, ?_⟩
    cases ahead with
    | none => exact (Except.error.inj h).symm
    | some l =>
      grind [select, termItems]
  · simp [select] at h

/-- Whether the item may be part of a rule or a choice. A class, the end of a rule and the end of
the text never are, nor is a keyword out of none. -/
def Item.selectable : Item → Bool
  | terminal (.keyword []) | rule .classDec | close _ | finish => false
  | _ => true

/-- The bodies of rules hold only items that may be selected. -/
theorem Rule.selectable_body (r : Rule) : ∀ item ∈ r.body, item.selectable = true := by
  cases r <;> decide

/-- A selection holds only items that may be selected. -/
theorem selectable_of_select {c : Choice} {ahead : Option Lexeme}
    (hitems : c.select ahead = .ok items) : ∀ item ∈ items, item.selectable = true := by
  rcases c.optional_or with hc | rfl | rfl | rfl
  · rw [Choice.select_of_optional hc] at hitems
    obtain rfl := Except.ok.inj hitems
    split
    · cases c with
      | many r => cases r <;> decide
      | _ => decide
    · simp
  · cases ahead with
    | none => simp [Choice.select] at hitems
    | some l =>
      obtain ⟨k, r, -, hr, rfl⟩ := statementItems_cases hitems
      cases k <;> simp only [Rule.ofStatementStart?, Option.some.injEq, reduceCtorEq] at hr <;>
        subst hr <;> decide
  · cases ahead with
    | none => simp [Choice.select] at hitems
    | some l =>
      rcases termItems_cases hitems with ⟨-, rfl⟩ | ⟨-, rfl⟩ | ⟨-, rfl⟩ | ⟨-, rfl⟩ <;> decide
  · obtain rfl := Except.ok.inj hitems
    split <;> decide

end JackSyntax
