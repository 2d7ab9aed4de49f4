import JackSyntax.Proofs.Grammar.Form

/-!
# What completes an agenda

The items of a parser's agenda as forms, so that an agenda has a language of its own: `Completes`
says which lexemes the agenda still allows, with the events they leave. A choice means all of its
alternatives, whatever token is ahead. A rule and its body mean the same (`completes_rule`).

Single lexemes are asked for by forms on the one side and by terminals on the other, so each form
that derives only single lexemes is matched with the test that admits them (`Form.IsSort`).
-/

namespace JackSyntax

/-- The lexemes of a terminal. -/
def Terminal.form (t : Terminal) : Form :=
  .lexeme fun l ↦ t.admits l = true

open Form in
/-- What a list without separators repeats. -/
def Repeatable.form : Repeatable → Form
  | classVarDec => rule .classVarDec
  | subroutineDec => rule .subroutineDec
  | varDec => rule .varDec
  | statement => Form.statement

open Form in
/-- All alternatives of a choice. -/
def Choice.form : Choice → Form
  | many r => .many r.form
  | moreNames => .many (symbol .comma ++ identifier)
  | parameters => maybe (type ++ identifier ++ .many (symbol .comma ++ type ++ identifier))
  | moreParameters => .many (symbol .comma ++ type ++ identifier)
  | statement => Form.statement
  | subscript => maybe (symbol .leftBracket ++ rule .expression ++ symbol .rightBracket)
  | elseBranch => maybe (keyword .kwElse ++ block)
  | result => maybe (rule .expression)
  | moreTerms => .many (binaryOp ++ rule .term)
  | term => Rule.term.form
  | nameTerm => variableTerm ||| rule .subroutineCall
  | member => maybe (symbol .dot ++ identifier)
  | arguments => maybe (rule .expression ++ .many (symbol .comma ++ rule .expression))
  | moreArguments => .many (symbol .comma ++ rule .expression)

/-- What the item allows, followed by a sequence of the language. -/
def Item.before : Item → Language → Language
  | terminal t, K => t.form.before K
  | rule r, K => (Form.rule r).before K
  | close r, K => K.emit r.closing
  | choice c, K => c.form.before K
  | finish, K => fun u x ↦ u = [] ∧ K u x

/-- The lexemes that the agenda allows up to its end, with the events they leave. -/
def Completes : List Item → Language
  | [] => fun u x ↦ u = [] ∧ x = []
  | item :: agenda => item.before (Completes agenda)

/-- The lexemes start something that completes the agenda. -/
def Extends (agenda : List Item) (lexemes : List Lexeme) : Prop :=
  ∃ more events, Completes agenda (lexemes ++ more) events

variable {K : Language} {u : List Lexeme} {x : List Event}

/-! ### Sorts of lexemes

Several forms derive single lexemes only. Such a form is as good as the sort of lexemes that it
derives, which is what a parser tests.
-/

/-- The form derives the single lexemes of the sort and nothing else. -/
def Form.IsSort (f : Form) (sort : Lexeme → Prop) : Prop :=
  ∀ K, f.before K = (Form.lexeme sort).before K

namespace Form

variable {f g : Form} {p q : Lexeme → Prop}

/-- A sort may be named by any test that singles out the same lexemes. -/
theorem IsSort.congr (h : f.IsSort p) (hpq : ∀ l, p l ↔ q l) : f.IsSort q := by
  have : p = q := funext fun l ↦ propext (hpq l)
  exact this ▸ h

/-- Alternatives of single lexemes are such a form again. -/
theorem IsSort.either (hf : f.IsSort p) (hg : g.IsSort q) :
    (f ||| g).IsSort fun l ↦ p l ∨ q l := by
  intro K
  funext u x
  refine propext ?_
  rw [before_either, hf K, hg K, before_lexeme, before_lexeme, before_lexeme]
  constructor
  · rintro (⟨l, u', x', h, hrest⟩ | ⟨l, u', x', h, hrest⟩)
    · exact ⟨l, u', x', .inl h, hrest⟩
    · exact ⟨l, u', x', .inr h, hrest⟩
  · rintro ⟨l, u', x', h | h, hrest⟩
    · exact .inl ⟨l, u', x', h, hrest⟩
    · exact .inr ⟨l, u', x', h, hrest⟩

/-- Of a form of single lexemes, the first lexeme decides. -/
theorem IsSort.before_iff (h : f.IsSort p) :
    f.before K u x ↔ ∃ l u' x', p l ∧ u = l :: u' ∧ x = .ofLexeme l :: x' ∧ K u' x' := by
  rw [h K, before_lexeme]

/-- A keyword of the grammar is the sort that the parser tests for. -/
theorem isSort_keyword (k : Keyword) : (keyword k).IsSort fun l ↦ l.isKeyword [k] = true :=
  IsSort.congr (p := (· = .keyword k)) (fun _ ↦ rfl) fun l ↦ by cases l <;> simp [Lexeme.isKeyword]

/-- A symbol of the grammar is the sort that the parser tests for. -/
theorem isSort_symbol (s : Symbol) : (symbol s).IsSort fun l ↦ l.isSymbol [s] = true :=
  IsSort.congr (p := (· = .symbol s)) (fun _ ↦ rfl) fun l ↦ by cases l <;> simp [Lexeme.isSymbol]

theorem isSort_identifier : identifier.IsSort fun l ↦ l.isIdentifier = true :=
  IsSort.congr (fun _ ↦ rfl) fun l ↦ by cases l <;> simp [Lexeme.isIdentifier]

/-- Numbers and strings are terms by themselves. -/
theorem isSort_literal : literal.IsSort fun l ↦ l.isLiteral = true :=
  (IsSort.either (fun _ ↦ rfl) (fun _ ↦ rfl)).congr fun l ↦ by cases l <;> simp [Lexeme.isLiteral]

/-- Four keywords are terms by themselves. -/
theorem isSort_keywordConstant :
    keywordConstant.IsSort fun l ↦ l.isKeyword Keyword.constants = true :=
  ((((isSort_keyword _).either (isSort_keyword _)).either (isSort_keyword _)).either
    (isSort_keyword _)).congr fun l ↦ by
      cases l <;> simp [Lexeme.isKeyword, Keyword.constants, or_assoc]

theorem isSort_unaryOp : unaryOp.IsSort fun l ↦ l.isSymbol Symbol.unaryOps = true :=
  ((isSort_symbol _).either (isSort_symbol _)).congr fun l ↦ by
    cases l <;> simp [Lexeme.isSymbol, Symbol.unaryOps]

theorem isSort_binaryOp : binaryOp.IsSort fun l ↦ l.isSymbol Symbol.binaryOps = true :=
  (((((((((isSort_symbol _).either (isSort_symbol _)).either (isSort_symbol _)).either
    (isSort_symbol _)).either (isSort_symbol _)).either (isSort_symbol _)).either
    (isSort_symbol _)).either (isSort_symbol _)).either (isSort_symbol _)).congr fun l ↦ by
      cases l <;> simp [Lexeme.isSymbol, Symbol.binaryOps, or_assoc]

theorem isSort_classVarKind :
    classVarKind.IsSort fun l ↦ l.isKeyword Keyword.classVarKinds = true :=
  ((isSort_keyword _).either (isSort_keyword _)).congr fun l ↦ by
    cases l <;> simp [Lexeme.isKeyword, Keyword.classVarKinds]

theorem isSort_subroutineKind :
    subroutineKind.IsSort fun l ↦ l.isKeyword Keyword.subroutineKinds = true :=
  (((isSort_keyword _).either (isSort_keyword _)).either (isSort_keyword _)).congr fun l ↦ by
    cases l <;> simp [Lexeme.isKeyword, Keyword.subroutineKinds, or_assoc]

/-- A type is one of three keywords or a name, as the terminal for it has it. -/
theorem isSort_type : type.IsSort fun l ↦ Terminal.type.admits l = true :=
  ((((isSort_keyword _).either (isSort_keyword _)).either (isSort_keyword _)).either
    isSort_identifier).congr fun l ↦ by
      cases l <;> simp [Terminal.admits, Lexeme.isKeyword, Keyword.primitiveTypes,
        Lexeme.isIdentifier, or_assoc]

/-- What a subroutine returns is a type or nothing. -/
theorem isSort_resultType : resultType.IsSort fun l ↦ Terminal.resultType.admits l = true :=
  ((isSort_keyword _).either isSort_type).congr fun l ↦ by
    cases l <;> simp [Terminal.admits, Lexeme.isKeyword, Lexeme.isIdentifier]

end Form

/-! ### Terminals as forms -/

namespace Terminal

/-- A terminal takes one lexeme, which it admits. -/
theorem form_before {t : Terminal} :
    t.form.before K u x ↔
      ∃ l u' x', t.admits l = true ∧ u = l :: u' ∧ x = .ofLexeme l :: x' ∧ K u' x' :=
  Form.before_lexeme

/-- The terminals allow what the forms of the grammar do in their place, so that one may be
rewritten to the other in front of any language. -/
@[simp]
theorem symbol_before (s : Symbol) (K : Language) :
    (symbol s).form.before K = (Form.symbol s).before K :=
  (Form.isSort_symbol s K).symm

@[simp]
theorem keyword_before (k : Keyword) (K : Language) :
    (keyword [k]).form.before K = (Form.keyword k).before K :=
  (Form.isSort_keyword k K).symm

@[simp]
theorem identifier_before (role : Role) (K : Language) :
    (identifier role).form.before K = Form.identifier.before K :=
  (Form.isSort_identifier K).symm

@[simp]
theorem type_before (K : Language) : type.form.before K = Form.type.before K :=
  (Form.isSort_type K).symm

@[simp]
theorem resultType_before (K : Language) :
    resultType.form.before K = Form.resultType.before K :=
  (Form.isSort_resultType K).symm

@[simp]
theorem classVarKinds_before (K : Language) :
    (keyword Keyword.classVarKinds).form.before K = Form.classVarKind.before K :=
  (Form.isSort_classVarKind K).symm

@[simp]
theorem subroutineKinds_before (K : Language) :
    (keyword Keyword.subroutineKinds).form.before K = Form.subroutineKind.before K :=
  (Form.isSort_subroutineKind K).symm

end Terminal

/-! ### Rules and their bodies -/

/-- A rule means what its body means, between the events of its opening and its closing. -/
theorem completes_rule (r : Rule) (agenda : List Item) :
    Completes (.rule r :: agenda) = (Completes (r.body ++ .close r :: agenda)).emit r.opening := by
  rw [Completes, Item.before, Form.before_rule]
  congr 1
  cases r <;>
    simp only [Rule.form, Rule.body, Item.parenthesized, Item.block, Form.parenthesized, Form.block,
      List.cons_append, List.nil_append, Completes, Item.before, Form.before_seq,
      Terminal.symbol_before, Terminal.keyword_before, Terminal.identifier_before,
      Terminal.type_before, Terminal.resultType_before, Terminal.classVarKinds_before,
      Terminal.subroutineKinds_before, Choice.form, Repeatable.form]

end JackSyntax
