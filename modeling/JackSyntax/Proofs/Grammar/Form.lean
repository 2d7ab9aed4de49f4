import JackSyntax.Event
import JackSyntax.Grammar.Rule

/-!
# The grammar of a class

The grammar written down on its own, without regard to how a text is parsed: `Rule.form` gives each
rule its right-hand side, built from lexemes and rules by sequence, choice, option and repetition.
`Form.Derives` says which lexemes a form derives and which events the derivation leaves, an element
around the lexemes of each tagged rule.

Parsers work from left to right, so what they need is a form **before** a language: `Form.before`
puts the lexemes of a form in front of those of a language that follows. Sequence is then plain
composition (`Form.before_seq`), and no proof has to split a list in two by hand.

## Main definitions

* `Form.Derives`: lexemes and events of the derivations of a form.
* `IsClass`: the lexemes of a whole class, with the events of its tree.
* `Viable`: lexemes that some more lexemes make into a class.
-/

namespace JackSyntax

/-- A right-hand side of the grammar. -/
inductive Form where
  /-- One lexeme of a sort. -/
  | lexeme (sort : Lexeme → Prop)
  /-- A rule. -/
  | rule (r : Rule)
  /-- One form and then another. -/
  | seq (f g : Form)
  /-- One form or another. -/
  | either (f g : Form)
  /-- A form or nothing. -/
  | maybe (f : Form)
  /-- A form any number of times. -/
  | many (f : Form)

namespace Form

instance : Append Form := ⟨seq⟩

instance : OrOp Form := ⟨either⟩

/-- A keyword. -/
def keyword (k : Keyword) : Form := lexeme (· = .keyword k)

/-- A symbol. -/
def symbol (s : Symbol) : Form := lexeme (· = .symbol s)

/-- Any name. -/
def identifier : Form := lexeme fun l ↦ ∃ name, l = .identifier name

/-- Any number. -/
def integer : Form := lexeme fun l ↦ ∃ value, l = .integer value

/-- Any text in quotes. -/
def string : Form := lexeme fun l ↦ ∃ value, l = .string value

/-- Any number, or any text in quotes. -/
def literal : Form := integer ||| string

/-- The type of a variable. -/
def type : Form := keyword .kwInt ||| keyword .kwChar ||| keyword .kwBoolean ||| identifier

/-- The type of a result. -/
def resultType : Form := keyword .kwVoid ||| type

/-- The kind of a class variable. -/
def classVarKind : Form := keyword .kwStatic ||| keyword .kwField

/-- The kind of a subroutine. -/
def subroutineKind : Form := keyword .kwConstructor ||| keyword .kwFunction ||| keyword .kwMethod

/-- A statement. -/
def statement : Form :=
  rule .letStatement ||| rule .ifStatement ||| rule .whileStatement ||| rule .doStatement |||
    rule .returnStatement

/-- Statements in braces. -/
def block : Form := symbol .leftBrace ++ rule .statements ++ symbol .rightBrace

/-- An expression in parentheses. -/
def parenthesized : Form := symbol .leftParen ++ rule .expression ++ symbol .rightParen

/-- An operator between two terms. -/
def binaryOp : Form :=
  symbol .plus ||| symbol .minus ||| symbol .star ||| symbol .slash ||| symbol .ampersand |||
    symbol .pipe ||| symbol .less ||| symbol .greater ||| symbol .equals

/-- An operator before a term. -/
def unaryOp : Form := symbol .minus ||| symbol .tilde

/-- A keyword that stands for a value. -/
def keywordConstant : Form :=
  keyword .kwTrue ||| keyword .kwFalse ||| keyword .kwNull ||| keyword .kwThis

/-- A variable, with an index or without. -/
def variableTerm : Form :=
  identifier ++ maybe (symbol .leftBracket ++ rule .expression ++ symbol .rightBracket)

end Form

open Form in
/-- The right-hand side of a rule. -/
def Rule.form : Rule → Form
  | classDec =>
    keyword .kwClass ++ identifier ++ symbol .leftBrace ++ many (rule .classVarDec) ++
      many (rule .subroutineDec) ++ symbol .rightBrace
  | classVarDec =>
    classVarKind ++ type ++ identifier ++ many (symbol .comma ++ identifier) ++ symbol .semicolon
  | subroutineDec =>
    subroutineKind ++ resultType ++ identifier ++ symbol .leftParen ++ rule .parameterList ++
      symbol .rightParen ++ rule .subroutineBody
  | parameterList =>
    maybe (type ++ identifier ++ many (symbol .comma ++ type ++ identifier))
  | subroutineBody =>
    symbol .leftBrace ++ many (rule .varDec) ++ rule .statements ++ symbol .rightBrace
  | varDec =>
    keyword .kwVar ++ type ++ identifier ++ many (symbol .comma ++ identifier) ++ symbol .semicolon
  | statements => many statement
  | letStatement =>
    keyword .kwLet ++ identifier ++
      maybe (symbol .leftBracket ++ rule .expression ++ symbol .rightBracket) ++
      symbol .equals ++ rule .expression ++ symbol .semicolon
  | ifStatement =>
    keyword .kwIf ++ parenthesized ++ block ++ maybe (keyword .kwElse ++ block)
  | whileStatement => keyword .kwWhile ++ parenthesized ++ block
  | doStatement => keyword .kwDo ++ rule .subroutineCall ++ symbol .semicolon
  | returnStatement => keyword .kwReturn ++ maybe (rule .expression) ++ symbol .semicolon
  | expression => rule .term ++ many (binaryOp ++ rule .term)
  | term =>
    literal ||| keywordConstant ||| parenthesized ||| unaryOp ++ rule .term |||
      variableTerm ||| rule .subroutineCall
  | subroutineCall =>
    identifier ++ maybe (symbol .dot ++ identifier) ++ symbol .leftParen ++
      rule .expressionList ++ symbol .rightParen
  | expressionList => maybe (rule .expression ++ many (symbol .comma ++ rule .expression))

/-- The events at the start of a rule. -/
def Rule.opening (r : Rule) : List Event :=
  if r.tagged then [.enter r.name] else []

/-- The events at the end of a rule. -/
def Rule.closing (r : Rule) : List Event :=
  if r.tagged then [.leave r.name] else []

/-- The lexemes that a form derives, with the events of the derivation. -/
inductive Form.Derives : Form → List Lexeme → List Event → Prop
  | lexeme {sort : Lexeme → Prop} {l : Lexeme} (h : sort l) :
    Derives (.lexeme sort) [l] [.ofLexeme l]
  | rule {r : Rule} {u : List Lexeme} {x : List Event} (h : Derives r.form u x) :
    Derives (.rule r) u (r.opening ++ x ++ r.closing)
  | seq {f g : Form} {u v : List Lexeme} {x y : List Event} (hf : Derives f u x)
    (hg : Derives g v y) : Derives (.seq f g) (u ++ v) (x ++ y)
  | left {f g : Form} {u : List Lexeme} {x : List Event} (h : Derives f u x) :
    Derives (.either f g) u x
  | right {f g : Form} {u : List Lexeme} {x : List Event} (h : Derives g u x) :
    Derives (.either f g) u x
  | none {f : Form} : Derives (.maybe f) [] []
  | some {f : Form} {u : List Lexeme} {x : List Event} (h : Derives f u x) :
    Derives (.maybe f) u x
  | stop {f : Form} : Derives (.many f) [] []
  | more {f : Form} {u v : List Lexeme} {x y : List Event} (hf : Derives f u x)
    (hrest : Derives (.many f) v y) : Derives (.many f) (u ++ v) (x ++ y)

/-- The lexemes are a class and the events its tree. -/
def IsClass (lexemes : List Lexeme) (events : List Event) : Prop :=
  (Form.rule .classDec).Derives lexemes events

/-- Some more lexemes make a class of the lexemes. -/
def Viable (lexemes : List Lexeme) : Prop :=
  ∃ more events, IsClass (lexemes ++ more) events

/-! ### Forms before languages -/

/-- Sequences of lexemes, each with events. -/
abbrev Language := List Lexeme → List Event → Prop

/-- The language with the same events in front of those of each sequence. -/
def Language.emit (K : Language) (events : List Event) : Language :=
  fun u x ↦ ∃ x', x = events ++ x' ∧ K u x'

namespace Form

/-- What the form derives, followed by a sequence of the language. -/
def before (f : Form) (K : Language) : Language :=
  fun u x ↦ ∃ u₁ u₂ x₁ x₂, u = u₁ ++ u₂ ∧ x = x₁ ++ x₂ ∧ f.Derives u₁ x₁ ∧ K u₂ x₂

variable {f g : Form} {K : Language} {u : List Lexeme} {x : List Event}

/-- A single lexeme comes first, with its terminal. -/
theorem before_lexeme {sort : Lexeme → Prop} :
    (lexeme sort).before K u x ↔
      ∃ l u' x', sort l ∧ u = l :: u' ∧ x = .ofLexeme l :: x' ∧ K u' x' := by
  constructor
  · rintro ⟨_, u', _, x', rfl, rfl, hlexeme, hK⟩
    cases hlexeme with
    | lexeme h => exact ⟨_, u', x', h, rfl, rfl, hK⟩
  · rintro ⟨l, u', x', h, rfl, rfl, hK⟩
    exact ⟨[l], u', _, x', rfl, rfl, .lexeme h, hK⟩

/-- The events of a rule stand between its opening and its closing. -/
theorem before_rule (r : Rule) (K : Language) :
    (rule r).before K = (r.form.before (K.emit r.closing)).emit r.opening := by
  funext u x
  refine propext ⟨?_, ?_⟩
  · rintro ⟨u₁, u₂, _, x₂, rfl, rfl, hrule, hK⟩
    cases hrule with
    | @rule _ _ x₁ h =>
      exact ⟨x₁ ++ (r.closing ++ x₂), by simp only [List.append_assoc], u₁, u₂, x₁, _, rfl, rfl, h,
        x₂, rfl, hK⟩
  · rintro ⟨_, rfl, u₁, u₂, x₁, _, rfl, rfl, h, x₂, rfl, hK⟩
    exact ⟨u₁, u₂, _, x₂, rfl, by simp only [List.append_assoc], .rule h, hK⟩

/-- Sequence is composition. -/
@[simp]
theorem before_seq (f g : Form) (K : Language) : (f ++ g).before K = f.before (g.before K) := by
  funext u x
  refine propext ⟨?_, ?_⟩
  · rintro ⟨_, u₃, _, x₃, rfl, rfl, hseq, hK⟩
    cases hseq with
    | @seq _ _ u₁ u₂ x₁ x₂ hf hg =>
      exact ⟨u₁, u₂ ++ u₃, x₁, x₂ ++ x₃, List.append_assoc .., List.append_assoc .., hf,
        u₂, u₃, x₂, x₃, rfl, rfl, hg, hK⟩
  · rintro ⟨u₁, _, x₁, _, rfl, rfl, hf, u₂, u₃, x₂, x₃, rfl, rfl, hg, hK⟩
    exact ⟨u₁ ++ u₂, u₃, x₁ ++ x₂, x₃, (List.append_assoc ..).symm, (List.append_assoc ..).symm,
      .seq hf hg, hK⟩

/-- An alternative allows what either part allows. -/
theorem before_either :
    (f ||| g).before K u x ↔ f.before K u x ∨ g.before K u x := by
  constructor
  · rintro ⟨u₁, u₂, x₁, x₂, hu, hx, heither, hK⟩
    cases heither with
    | left h => exact .inl ⟨u₁, u₂, x₁, x₂, hu, hx, h, hK⟩
    | right h => exact .inr ⟨u₁, u₂, x₁, x₂, hu, hx, h, hK⟩
  · rintro (⟨u₁, u₂, x₁, x₂, hu, hx, h, hK⟩ | ⟨u₁, u₂, x₁, x₂, hu, hx, h, hK⟩)
    · exact ⟨u₁, u₂, x₁, x₂, hu, hx, .left h, hK⟩
    · exact ⟨u₁, u₂, x₁, x₂, hu, hx, .right h, hK⟩

/-- What may be left out allows what comes after it at once. -/
theorem before_maybe : (maybe f).before K u x ↔ K u x ∨ f.before K u x := by
  constructor
  · rintro ⟨u₁, u₂, x₁, x₂, hu, hx, hmaybe, hK⟩
    cases hmaybe with
    | none => exact .inl (hu ▸ hx ▸ hK)
    | some h => exact .inr ⟨u₁, u₂, x₁, x₂, hu, hx, h, hK⟩
  · rintro (hK | ⟨u₁, u₂, x₁, x₂, hu, hx, h, hK⟩)
    · exact ⟨[], u, [], x, rfl, rfl, .none, hK⟩
    · exact ⟨u₁, u₂, x₁, x₂, hu, hx, .some h, hK⟩

/-- A repetition is over, or goes on with one more. -/
theorem before_many :
    (many f).before K u x ↔ K u x ∨ f.before ((many f).before K) u x := by
  constructor
  · rintro ⟨u₁, u₂, x₁, x₂, rfl, rfl, hmany, hK⟩
    cases hmany with
    | stop => exact .inl hK
    | @more _ v w y z hf hrest =>
      exact .inr ⟨v, w ++ u₂, y, z ++ x₂, List.append_assoc .., List.append_assoc .., hf,
        w, u₂, z, x₂, rfl, rfl, hrest, hK⟩
  · rintro (hK | ⟨v, _, y, _, rfl, rfl, hf, w, u₂, z, x₂, rfl, rfl, hrest, hK⟩)
    · exact ⟨[], u, [], x, rfl, rfl, .stop, hK⟩
    · exact ⟨v ++ w, u₂, y ++ z, x₂, (List.append_assoc ..).symm, (List.append_assoc ..).symm,
        .more hf hrest, hK⟩

/-- A form before the empty sequence derives just what the form does. -/
theorem before_nil_iff :
    f.before (fun u x ↦ u = [] ∧ x = []) u x ↔ f.Derives u x := by
  constructor
  · rintro ⟨u₁, _, x₁, _, rfl, rfl, h, rfl, rfl⟩
    rwa [List.append_nil, List.append_nil]
  · intro h
    exact ⟨u, [], x, [], (List.append_nil u).symm, (List.append_nil x).symm, h, rfl, rfl⟩

end Form

end JackSyntax
