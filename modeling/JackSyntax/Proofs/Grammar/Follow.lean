import JackSyntax.Proofs.Grammar.Agenda

/-!
# First lexemes and what follows

The parser leaves out an optional part when the token ahead does not start it. Whether that loses
anything depends on two sorts of facts about the grammar: which lexemes can come first in a form
(`Form.Opens`), and which can come right after an item (`Item.follow?`). An agenda is `Guarded` when
what is left after each of its items begins with a lexeme that may follow the item; the agendas that
a parser goes through all are, since the body of a rule and the part of a choice keep an agenda
guarded.

## Main statements

* `completes_optional`: an optional part is left out, or wanted by its first lexeme and there.
* `Choice.wants_of_mem_follow`: what may follow an optional part does not want it.
* `Guarded.body`, `Guarded.part`: replacing an item by what it consists of keeps an agenda guarded.
-/

namespace JackSyntax

variable {K : Language} {u : List Lexeme} {x : List Event} {agenda : List Item}

/-! ### First lexemes -/

/-- What the form derives is never empty, and its first lexeme is of the sort. -/
def Form.Opens (f : Form) (sort : Lexeme → Prop) : Prop :=
  ∀ (K : Language) (u : List Lexeme) (x : List Event), f.before K u x →
    ∃ l, u.head? = some l ∧ sort l

/-- Whether a term can start with the lexeme. -/
def Lexeme.startsTerm (l : Lexeme) : Bool :=
  l.isLiteral || l.isKeyword Keyword.constants || l.isSymbol [.leftParen] ||
    l.isSymbol Symbol.unaryOps || l.isIdentifier

/-- No term starts with another symbol than a parenthesis or an operator before a term. -/
theorem Lexeme.isSymbol_of_startsTerm {l : Lexeme} (h : l.startsTerm = true) {s : Symbol}
    (hs : s ∉ Symbol.leftParen :: Symbol.unaryOps) : l.isSymbol [s] = false := by
  cases l with
  | symbol s' =>
    have hs' : s' ∈ Symbol.leftParen :: Symbol.unaryOps := by
      simpa [startsTerm, isLiteral, isKeyword, isSymbol, isIdentifier] using h
    have hne : s' ≠ s := fun heq ↦ hs (heq ▸ hs')
    simpa [isSymbol] using hne
  | _ => rfl

namespace Form

variable {f g : Form} {p q : Lexeme → Prop}

/-- A form of single lexemes opens with just those. -/
theorem IsSort.opens (h : f.IsSort p) : f.Opens p := by
  intro K u x hf
  obtain ⟨l, u', -, hl, rfl, -⟩ := h.before_iff.1 hf
  exact ⟨l, rfl, hl⟩

/-- What opens a form may be described more loosely. -/
theorem Opens.mono (h : f.Opens p) (hpq : ∀ l, p l → q l) : f.Opens q := by
  intro K u x hf
  obtain ⟨l, hu, hl⟩ := h K u x hf
  exact ⟨l, hu, hpq l hl⟩

/-- A sequence opens as its first part does. -/
theorem Opens.seq (h : f.Opens p) (g : Form) : (f ++ g).Opens p := by
  intro K u x hseq
  rw [before_seq] at hseq
  exact h _ u x hseq

/-- An alternative opens as either part does. -/
theorem Opens.either (hf : f.Opens p) (hg : g.Opens q) : (f ||| g).Opens fun l ↦ p l ∨ q l := by
  intro K u x heither
  rcases before_either.1 heither with h | h
  · exact hf.mono (fun _ ↦ .inl) K u x h
  · exact hg.mono (fun _ ↦ .inr) K u x h

/-- A rule opens as its body does. -/
theorem Opens.rule {r : Rule} (h : r.form.Opens p) : (Form.rule r).Opens p := by
  intro K u x hrule
  rw [before_rule] at hrule
  obtain ⟨x', -, hform⟩ := hrule
  exact h _ u x' hform

theorem opens_classVarDec :
    (rule .classVarDec).Opens fun l ↦ l.isKeyword Keyword.classVarKinds = true :=
  .rule ((((isSort_classVarKind.opens.seq _).seq _).seq _).seq _)

theorem opens_subroutineDec :
    (rule .subroutineDec).Opens fun l ↦ l.isKeyword Keyword.subroutineKinds = true :=
  .rule ((((((isSort_subroutineKind.opens.seq _).seq _).seq _).seq _).seq _).seq _)

theorem opens_varDec : (rule .varDec).Opens fun l ↦ l.isKeyword [.kwVar] = true :=
  .rule (((((isSort_keyword _).opens.seq _).seq _).seq _).seq _)

/-- A statement is one that a keyword starts. -/
theorem before_statement {K : Language} {u : List Lexeme} {x : List Event} :
    statement.before K u x ↔
      ∃ k r, Rule.ofStatementStart? k = some r ∧ (rule r).before K u x := by
  simp only [statement, before_either]
  constructor
  · rintro ((((h | h) | h) | h) | h)
    · exact ⟨.kwLet, _, rfl, h⟩
    · exact ⟨.kwIf, _, rfl, h⟩
    · exact ⟨.kwWhile, _, rfl, h⟩
    · exact ⟨.kwDo, _, rfl, h⟩
    · exact ⟨.kwReturn, _, rfl, h⟩
  · rintro ⟨k, r, hr, h⟩
    cases k <;> simp only [Rule.ofStatementStart?, Option.some.injEq, reduceCtorEq] at hr <;>
      subst hr <;> simp only [h, true_or, or_true]

/-- A statement opens with its own keyword. -/
theorem opens_of_statementStart {k : Keyword} {r : Rule}
    (hr : Rule.ofStatementStart? k = some r) : (rule r).Opens (· = .keyword k) := by
  have hkeyword : (keyword k).Opens (· = .keyword k) := by
    intro K u x h
    obtain ⟨l, u', -, hl, rfl, -⟩ := before_lexeme.1 h
    exact ⟨l, rfl, hl⟩
  cases k <;> simp only [Rule.ofStatementStart?, Option.some.injEq, reduceCtorEq] at hr <;>
    subst hr
  case kwLet => exact .rule (((((hkeyword.seq _).seq _).seq _).seq _).seq _)
  case kwIf => exact .rule (((hkeyword.seq _).seq _).seq _)
  case kwWhile => exact .rule ((hkeyword.seq _).seq _)
  case kwDo => exact .rule ((hkeyword.seq _).seq _)
  case kwReturn => exact .rule ((hkeyword.seq _).seq _)

/-- The keywords at which a statement is begun are those listed. -/
theorem mem_statementStarts {k : Keyword} {r : Rule} (hr : Rule.ofStatementStart? k = some r) :
    k ∈ Keyword.statementStarts := by
  cases k <;> simp [Rule.ofStatementStart?, Keyword.statementStarts] at hr ⊢

/-- A statement opens with one of five keywords. -/
theorem opens_statement :
    statement.Opens fun l ↦ l.isKeyword Keyword.statementStarts = true := by
  intro K u x h
  obtain ⟨k, r, hr, h⟩ := before_statement.1 h
  obtain ⟨l, hu, rfl⟩ := opens_of_statementStart hr K u x h
  exact ⟨_, hu, by simpa [Lexeme.isKeyword] using mem_statementStarts hr⟩

theorem opens_subroutineCall :
    (rule .subroutineCall).Opens fun l ↦ l.isIdentifier = true :=
  .rule ((((isSort_identifier.opens.seq _).seq _).seq _).seq _)

theorem opens_variableTerm : variableTerm.Opens fun l ↦ l.isIdentifier = true :=
  isSort_identifier.opens.seq _

theorem opens_parenthesized : parenthesized.Opens fun l ↦ l.isSymbol [.leftParen] = true :=
  ((isSort_symbol _).opens.seq _).seq _

/-- A term opens with a lexeme that a parser takes for the start of one. -/
theorem opens_term : (rule .term).Opens fun l ↦ l.startsTerm = true := by
  refine .rule (Opens.mono ((((((isSort_literal.opens.either isSort_keywordConstant.opens).either
    opens_parenthesized).either (isSort_unaryOp.opens.seq _)).either opens_variableTerm).either
    opens_subroutineCall)) fun l hl ↦ ?_)
  simp only [Lexeme.startsTerm, Bool.or_eq_true]
  exact hl.elim id .inr

/-- An expression opens with its first term. -/
theorem opens_expression : (rule .expression).Opens fun l ↦ l.startsTerm = true :=
  .rule (opens_term.seq _)

end Form

/-! ### Optional parts -/

namespace Choice

/-- Whether the choice is between a part and nothing. -/
def optional : Choice → Bool
  | statement | term | nameTerm => false
  | _ => true

open Item in
/-- The items of an optional part that is there. -/
def part : Choice → List Item
  | many r => [r.item, .choice (many r)]
  | moreNames => [symbol .comma, identifier .variableName, .choice moreNames]
  | parameters => [type, identifier .parameterName, .choice moreParameters]
  | moreParameters => [symbol .comma, type, identifier .parameterName, .choice moreParameters]
  | subscript => [symbol .leftBracket, .rule .expression, symbol .rightBracket]
  | elseBranch => keyword [.kwElse] :: block
  | result => [.rule .expression]
  | moreTerms => [shift, .rule .term, .choice moreTerms]
  | member => [symbol .dot, identifier .subroutineName]
  | arguments => [.rule .expression, .choice moreArguments]
  | moreArguments => [symbol .comma, .rule .expression, .choice moreArguments]
  | statement | term | nameTerm => []

/-- Whether an optional part is there, going by the lexeme ahead. -/
def wants (ahead : Option Lexeme) : Choice → Bool
  | many r => ahead.any (·.isKeyword r.starts)
  | moreNames | moreParameters | moreArguments => ahead.any (·.isSymbol [.comma])
  | parameters | arguments => !ahead.any (·.isSymbol [.rightParen])
  | subscript => ahead.any (·.isSymbol [.leftBracket])
  | elseBranch => ahead.any (·.isKeyword [.kwElse])
  | result => !ahead.any (·.isSymbol [.semicolon])
  | moreTerms => ahead.any (·.isSymbol Symbol.binaryOps)
  | member => ahead.any (·.isSymbol [.dot])
  | statement | term | nameTerm => false

/-- What may be left out is selected exactly if the lexeme ahead asks for it. -/
theorem select_of_optional {c : Choice} (hc : c.optional = true) (ahead : Option Lexeme) :
    c.select ahead = .ok (if c.wants ahead = true then c.part else []) := by
  cases c with
  | statement => simp [optional] at hc
  | term => simp [optional] at hc
  | nameTerm => simp [optional] at hc
  | parameters =>
    by_cases h : ahead.any (·.isSymbol [.rightParen]) = true <;> simp [select, wants, part, h]
  | result =>
    by_cases h : ahead.any (·.isSymbol [.semicolon]) = true <;> simp [select, wants, part, h]
  | arguments =>
    by_cases h : ahead.any (·.isSymbol [.rightParen]) = true <;> simp [select, wants, part, h]
  | _ => rfl

end Choice

/-- A list without separators repeats what its items allow. -/
theorem Repeatable.form_before (r : Repeatable) (K : Language) :
    r.form.before K = r.item.before K := by
  cases r <;> rfl

/-- What a list repeats opens with one of its keywords. -/
theorem Repeatable.opens (r : Repeatable) :
    r.form.Opens fun l ↦ l.isKeyword r.starts = true := by
  cases r with
  | classVarDec => exact Form.opens_classVarDec
  | subroutineDec => exact Form.opens_subroutineDec
  | varDec => exact Form.opens_varDec
  | statement => exact Form.opens_statement

/-- For the form of a choice that is its part or nothing: the part opens with a lexeme that wants
it. -/
theorem completes_optional_of_form {c : Choice} {f : Form} {sort : Lexeme → Prop}
    (hform : Completes (.choice c :: agenda) u x ↔ Completes agenda u x ∨ f.before K u x)
    (hpart : f.before K = Completes (c.part ++ agenda)) (hopens : f.Opens sort)
    (hwants : ∀ l, sort l → c.wants (some l) = true) :
    (Completes (.choice c :: agenda) u x ↔
      Completes agenda u x ∨ Completes (c.part ++ agenda) u x) ∧
    (Completes (c.part ++ agenda) u x → c.wants u.head? = true) := by
  rw [← hpart]
  refine ⟨hform, fun h ↦ ?_⟩
  obtain ⟨l, hu, hl⟩ := hopens K u x h
  rw [hu]
  exact hwants l hl

/-- An optional part is left out, or it is there, and it opens with a lexeme that wants it. Only
more terms may open with any lexeme, which is shifted whatever it is. -/
theorem completes_optional_of_ne {c : Choice} (hc : c.optional = true) (hne : c ≠ .moreTerms) :
    (Completes (.choice c :: agenda) u x ↔
      Completes agenda u x ∨ Completes (c.part ++ agenda) u x) ∧
    (Completes (c.part ++ agenda) u x → c.wants u.head? = true) := by
  have hcomma := (Form.isSort_symbol .comma).opens
  cases c with
  | statement => simp [Choice.optional] at hc
  | term => simp [Choice.optional] at hc
  | nameTerm => simp [Choice.optional] at hc
  | many r =>
    refine completes_optional_of_form Form.before_many ?_ r.opens fun l hl ↦ hl
    rw [r.form_before]
    rfl
  | moreNames =>
    refine completes_optional_of_form Form.before_many ?_ (hcomma.seq _) fun l hl ↦ hl
    simp only [Choice.part, List.cons_append, List.nil_append, Completes, Item.before,
      Form.before_seq, Terminal.symbol_before, Terminal.identifier_before, Choice.form]
  | moreParameters =>
    refine completes_optional_of_form Form.before_many ?_ ((hcomma.seq _).seq _) fun l hl ↦ hl
    simp only [Choice.part, List.cons_append, List.nil_append, Completes, Item.before,
      Form.before_seq, Terminal.symbol_before, Terminal.type_before, Terminal.identifier_before,
      Choice.form]
  | moreArguments =>
    refine completes_optional_of_form Form.before_many ?_ (hcomma.seq _) fun l hl ↦ hl
    simp only [Choice.part, List.cons_append, List.nil_append, Completes, Item.before,
      Form.before_seq, Terminal.symbol_before, Choice.form]
  | parameters =>
    refine completes_optional_of_form Form.before_maybe ?_
      ((Form.isSort_type.opens.seq _).seq _) fun l hl ↦ ?_
    · simp only [Choice.part, List.cons_append, List.nil_append, Completes, Item.before,
        Form.before_seq, Terminal.type_before, Terminal.identifier_before, Choice.form]
    · cases l <;> simp_all [Choice.wants, Lexeme.isSymbol, Terminal.admits, Lexeme.isKeyword,
        Lexeme.isIdentifier]
  | subscript =>
    refine completes_optional_of_form Form.before_maybe ?_
      (((Form.isSort_symbol .leftBracket).opens.seq _).seq _) fun l hl ↦ hl
    simp only [Choice.part, List.cons_append, List.nil_append, Completes, Item.before,
      Form.before_seq, Terminal.symbol_before]
  | elseBranch =>
    refine completes_optional_of_form Form.before_maybe ?_
      ((Form.isSort_keyword .kwElse).opens.seq _) fun l hl ↦ hl
    simp only [Choice.part, Item.block, Form.block, List.cons_append, List.nil_append, Completes,
      Item.before, Form.before_seq, Terminal.symbol_before, Terminal.keyword_before]
  | result =>
    refine completes_optional_of_form Form.before_maybe rfl Form.opens_expression fun l hl ↦ ?_
    simp [Choice.wants, Lexeme.isSymbol_of_startsTerm hl (s := .semicolon) (by decide)]
  | arguments =>
    refine completes_optional_of_form Form.before_maybe ?_
      (Form.opens_expression.seq _) fun l hl ↦ ?_
    · simp only [Choice.part, List.cons_append, List.nil_append, Completes, Item.before,
        Form.before_seq, Choice.form]
    · simp [Choice.wants, Lexeme.isSymbol_of_startsTerm hl (s := .rightParen) (by decide)]
  | member =>
    refine completes_optional_of_form Form.before_maybe ?_
      ((Form.isSort_symbol .dot).opens.seq _) fun l hl ↦ hl
    simp only [Choice.part, List.cons_append, List.nil_append, Completes, Item.before,
      Form.before_seq, Terminal.symbol_before, Terminal.identifier_before]
  | moreTerms => exact absurd rfl hne

/-- An optional part is left out, or it is there and its first lexeme wants it. -/
theorem completes_optional {c : Choice} (hc : c.optional = true) :
    Completes (.choice c :: agenda) u x ↔
      Completes agenda u x ∨ c.wants u.head? = true ∧ Completes (c.part ++ agenda) u x := by
  by_cases hne : c = .moreTerms
  · subst hne
    -- The operator is shifted whatever it is, so here the lexeme ahead has to be of the sort.
    rw [Completes, Item.before, Choice.form, Form.before_many]
    refine or_congr Iff.rfl ?_
    rw [Form.before_seq, Form.isSort_binaryOp.before_iff]
    simp only [Choice.part, List.cons_append, List.nil_append, Completes, Item.before,
      Terminal.form_before, Choice.wants]
    constructor
    · rintro ⟨l, u', x', hl, rfl, rfl, hrest⟩
      exact ⟨hl, l, u', x', rfl, rfl, rfl, hrest⟩
    · rintro ⟨hl, l, u', x', -, rfl, rfl, hrest⟩
      exact ⟨l, u', x', hl, rfl, rfl, hrest⟩
  · obtain ⟨hiff, hwants⟩ := completes_optional_of_ne hc hne
    rw [hiff]
    exact or_congr Iff.rfl (and_iff_right_of_imp hwants).symm

/-! ### What may follow an item -/

/-- What may come right after an expression. -/
def expressionEnds : List Lexeme :=
  [.symbol .rightParen, .symbol .rightBracket, .symbol .semicolon, .symbol .comma]

/-- What may come right after a term. -/
def termEnds : List Lexeme :=
  expressionEnds ++ Symbol.binaryOps.map .symbol

/-- What may come right after a statement. -/
def statementEnds : List Lexeme :=
  .symbol .rightBrace :: Keyword.statementStarts.map .keyword

/-- The lexemes that may come right after the item in a class, where that matters to the parser. -/
def Item.follow? : Item → Option (List Lexeme)
  | choice (.many .classVarDec) =>
    some (.symbol .rightBrace :: Keyword.subroutineKinds.map .keyword)
  | choice (.many .subroutineDec) => some [.symbol .rightBrace]
  | choice (.many .varDec) => some statementEnds
  | choice (.many .statement) | rule .statements => some [.symbol .rightBrace]
  | choice .statement | choice .elseBranch | rule .ifStatement => some statementEnds
  | choice .moreNames | choice .result => some [.symbol .semicolon]
  | choice .parameters | choice .moreParameters | rule .parameterList => some [.symbol .rightParen]
  | choice .arguments | choice .moreArguments | rule .expressionList => some [.symbol .rightParen]
  | choice .member => some [.symbol .leftParen]
  | choice .subscript | choice .term | choice .nameTerm | rule .term => some termEnds
  | choice .moreTerms | rule .expression => some expressionEnds
  | _ => none

/-- Every sequence of the language begins with one of the lexemes. -/
def Language.Heads (K : Language) (lexemes : List Lexeme) : Prop :=
  ∀ u x, K u x → ∃ l ∈ lexemes, u.head? = some l

/-- What is left after each item of the agenda begins as it may. A term that starts with a name is
at most the first item, since the parser decides it at once. -/
def Guarded : List Item → Prop
  | [] => True
  | item :: agenda =>
    (∀ lexemes ∈ item.follow?, (Completes agenda).Heads lexemes) ∧
      .choice .nameTerm ∉ agenda ∧ Guarded agenda

/-- What may follow an optional part is known. -/
theorem Choice.exists_follow (c : Choice) :
    ∃ lexemes, (Item.choice c).follow? = some lexemes := by
  cases c with
  | many r => cases r <;> exact ⟨_, rfl⟩
  | _ => exact ⟨_, rfl⟩

/-- What may follow an optional part does not want it. -/
theorem Choice.wants_of_mem_follow (c : Choice) (hc : c.optional = true) {lexemes : List Lexeme}
    (hfollow : (Item.choice c).follow? = some lexemes) {l : Lexeme} (hl : l ∈ lexemes) :
    c.wants (some l) = false := by
  cases c with
  | statement => simp [optional] at hc
  | term => simp [optional] at hc
  | nameTerm => simp [optional] at hc
  | many r =>
    cases r <;> simp only [Item.follow?, Option.some.injEq] at hfollow <;> subst hfollow <;>
      revert l hl <;> decide
  | _ =>
    simp only [Item.follow?, Option.some.injEq] at hfollow
    subst hfollow
    revert l hl
    decide

/-- Where an optional part is left out, what is left does not want it. -/
theorem Choice.wants_head?_of_completes (c : Choice) (hc : c.optional = true)
    (hguard : Guarded (.choice c :: agenda)) (h : Completes agenda u x) :
    c.wants u.head? = false := by
  obtain ⟨lexemes, hfollow⟩ := c.exists_follow
  obtain ⟨l, hl, hu⟩ := hguard.1 lexemes hfollow u x h
  rw [hu]
  exact c.wants_of_mem_follow hc hfollow hl

/-! ### Heads of agendas -/

/-- More lexemes may be named than there are at the head of a language. -/
theorem Language.Heads.mono {lexemes more : List Lexeme} (h : K.Heads lexemes)
    (hsub : lexemes ⊆ more) : K.Heads more := by
  intro u x hK
  obtain ⟨l, hl, hu⟩ := h u x hK
  exact ⟨l, hsub hl, hu⟩

/-- A symbol is its own head. -/
theorem heads_symbol {s : Symbol} {lexemes : List Lexeme} (hs : .symbol s ∈ lexemes) :
    (Completes (.symbol s :: agenda)).Heads lexemes := by
  intro u x h
  obtain ⟨l, u', x', hl, rfl, -⟩ := Terminal.form_before.1 h
  cases l with
  | symbol s' =>
    have heq : s' = s := by simpa [Terminal.admits, Lexeme.isSymbol] using hl
    exact ⟨.symbol s', heq ▸ hs, rfl⟩
  | _ => simp [Terminal.admits, Lexeme.isSymbol] at hl

/-- The end of a rule takes no lexeme. -/
@[simp]
theorem heads_close {r : Rule} {lexemes : List Lexeme} :
    (Completes (.close r :: agenda)).Heads lexemes ↔ (Completes agenda).Heads lexemes := by
  constructor
  · intro h u x hK
    exact h u (r.closing ++ x) ⟨x, rfl, hK⟩
  · rintro h u _ ⟨x, -, hK⟩
    exact h u x hK

/-- An optional part begins with what wants it, or is left out. -/
theorem heads_optional {c : Choice} (hc : c.optional = true) {lexemes : List Lexeme}
    (hwants : ∀ ahead, c.wants ahead = true → ∃ l ∈ lexemes, ahead = some l)
    (h : (Completes agenda).Heads lexemes) :
    (Completes (.choice c :: agenda)).Heads lexemes := by
  intro u x hK
  rcases (completes_optional hc).1 hK with hK | ⟨hahead, -⟩
  · exact h u x hK
  · exact hwants u.head? hahead

/-- A keyword that a list repeats is one of the keywords that start its items. -/
theorem mem_of_any_isKeyword {ks : List Keyword} {lexemes : List Lexeme}
    (hks : ks.map .keyword ⊆ lexemes) (ahead : Option Lexeme)
    (h : ahead.any (·.isKeyword ks) = true) : ∃ l ∈ lexemes, ahead = some l := by
  cases ahead with
  | none => simp at h
  | some l =>
    cases l with
    | keyword k =>
      have hk : k ∈ ks := by simpa [Lexeme.isKeyword] using h
      exact ⟨.keyword k, hks (List.mem_map_of_mem hk), rfl⟩
    | _ => simp [Lexeme.isKeyword] at h

/-- A lexeme ahead that is one of these symbols is one of these lexemes. -/
theorem mem_of_any_isSymbol {ss : List Symbol} {lexemes : List Lexeme}
    (hss : ss.map .symbol ⊆ lexemes) (ahead : Option Lexeme)
    (h : ahead.any (·.isSymbol ss) = true) : ∃ l ∈ lexemes, ahead = some l := by
  cases ahead with
  | none => simp at h
  | some l =>
    cases l with
    | symbol s =>
      have hs : s ∈ ss := by simpa [Lexeme.isSymbol] using h
      exact ⟨.symbol s, hss (List.mem_map_of_mem hs), rfl⟩
    | _ => simp [Lexeme.isSymbol] at h

/-- At the head of a list there is one of its keywords, or what comes after it. -/
theorem heads_many {r : Repeatable} {lexemes : List Lexeme}
    (hstarts : r.starts.map .keyword ⊆ lexemes) (h : (Completes agenda).Heads lexemes) :
    (Completes (.choice (.many r) :: agenda)).Heads lexemes :=
  heads_optional rfl (mem_of_any_isKeyword hstarts) h

/-- At the head of statements there is one of their keywords, or what comes after them. -/
theorem heads_statements {lexemes : List Lexeme}
    (hstarts : Keyword.statementStarts.map .keyword ⊆ lexemes)
    (h : (Completes agenda).Heads lexemes) :
    (Completes (.rule .statements :: agenda)).Heads lexemes := by
  intro u x hK
  rw [completes_rule] at hK
  obtain ⟨x', -, hK⟩ := hK
  exact heads_many (r := .statement) hstarts (heads_close.2 h) u x' hK

/-! ### Steps keep an agenda guarded -/

/-- The body of a rule is guarded wherever the rule is. -/
theorem Guarded.body {r : Rule} (h : Guarded (.rule r :: agenda)) :
    Guarded (r.body ++ .close r :: agenda) := by
  obtain ⟨hfollow, hname, hagenda⟩ := h
  cases r with
  | classDec =>
    have hmany : (Completes (.choice (.many .subroutineDec) :: .symbol .rightBrace ::
        .close .classDec :: agenda)).Heads
          (.symbol .rightBrace :: Keyword.subroutineKinds.map .keyword) :=
      heads_many (List.subset_cons_self _ _) (heads_symbol (by decide))
    simp +decide [Rule.body, Guarded, Item.follow?, hname, hagenda, hmany, heads_symbol]
  | subroutineBody =>
    have hstatements : (Completes (.rule .statements :: .symbol .rightBrace ::
        .close .subroutineBody :: agenda)).Heads statementEnds :=
      heads_statements (List.subset_cons_self _ _) (heads_symbol (by decide))
    simp +decide [Rule.body, Guarded, Item.follow?, hname, hagenda, hstatements, heads_symbol]
  | expression =>
    have hagendaHeads : (Completes agenda).Heads expressionEnds := hfollow _ rfl
    have hmore : (Completes (.choice .moreTerms :: .close .expression :: agenda)).Heads termEnds :=
      heads_optional rfl (mem_of_any_isSymbol (List.subset_append_right _ _))
        (heads_close.2 (hagendaHeads.mono (List.subset_append_left _ _)))
    simp [Rule.body, Guarded, Item.follow?, hname, hagenda, hmore, hagendaHeads]
  | _ =>
    simp [Item.follow?] at hfollow
    simp +decide [Rule.body, Item.parenthesized, Item.block, Guarded, Item.follow?, hname,
      hagenda, heads_symbol, hfollow]

/-- The part of an optional part is guarded wherever the choice is. -/
theorem Guarded.part {c : Choice} (hc : c.optional = true) (h : Guarded (.choice c :: agenda)) :
    Guarded (c.part ++ agenda) := by
  obtain ⟨hfollow, hname, hagenda⟩ := h
  have hends : ∀ lexemes, (Item.choice c).follow? = some lexemes →
      (Completes agenda).Heads lexemes := hfollow
  cases c with
  | statement => simp [Choice.optional] at hc
  | term => simp [Choice.optional] at hc
  | nameTerm => simp [Choice.optional] at hc
  | many r =>
    cases r with
    | statement =>
      -- One more statement is followed by other statements or by what ends the list.
      have hmany : (Completes (.choice (.many .statement) :: agenda)).Heads statementEnds :=
        heads_many (List.subset_cons_self _ _) ((hends _ rfl).mono (by decide))
      simp [Choice.part, Repeatable.item, Guarded, hname, hagenda, hmany, hends _ rfl, Item.follow?]
    | _ =>
      simp [Choice.part, Repeatable.item, Guarded, Item.follow?, hname, hagenda, hends _ rfl]
  | moreTerms =>
    have hmore : (Completes (.choice .moreTerms :: agenda)).Heads termEnds :=
      heads_optional rfl (mem_of_any_isSymbol (List.subset_append_right _ _))
        ((hends _ rfl).mono (List.subset_append_left _ _))
    simp [Choice.part, Guarded, Item.follow?, hname, hagenda, hmore, hends _ rfl]
  | arguments =>
    have hmore : (Completes (.choice .moreArguments :: agenda)).Heads expressionEnds :=
      heads_optional rfl (mem_of_any_isSymbol (by decide)) ((hends _ rfl).mono (by decide))
    simp [Choice.part, Guarded, Item.follow?, hname, hagenda, hmore, hends _ rfl]
  | moreArguments =>
    have hmore : (Completes (.choice .moreArguments :: agenda)).Heads expressionEnds :=
      heads_optional rfl (mem_of_any_isSymbol (by decide)) ((hends _ rfl).mono (by decide))
    simp [Choice.part, Guarded, Item.follow?, hname, hagenda, hmore, hends _ rfl]
  | result =>
    have hexpression : (Completes agenda).Heads expressionEnds := (hends _ rfl).mono (by decide)
    simp [Choice.part, Guarded, Item.follow?, hname, hagenda, hexpression]
  | subscript =>
    simp +decide [Choice.part, Guarded, Item.follow?, hname, hagenda, heads_symbol]
  | elseBranch =>
    simp +decide [Choice.part, Item.block, Guarded, Item.follow?, hname, hagenda, heads_symbol]
  | _ =>
    simp [Choice.part, Guarded, Item.follow?, hname, hagenda, hends _ rfl]

end JackSyntax
