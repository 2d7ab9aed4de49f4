import JackSyntax.Proofs.Grammar.Selection

/-!
# Every part of the grammar can be completed

No rule is a dead end: each derives some lexemes (`Rule.productive`). So an agenda that can be
completed still can when its first item is replaced by what the parser selects for it
(`extends_nil_select`), and lexemes read so far never lead a parser into a corner.
-/

namespace JackSyntax

variable {K : Language} {agenda items : List Item}

/-- The form derives some lexemes. -/
def Form.Productive (f : Form) : Prop :=
  ∃ u x, f.Derives u x

namespace Form

variable {f g : Form}

/-- What can be completed can be completed with such a form in front of it. -/
theorem Productive.before (hf : f.Productive) (hK : ∃ u x, K u x) : ∃ u x, f.before K u x := by
  obtain ⟨u₁, x₁, hf⟩ := hf
  obtain ⟨u₂, x₂, hK⟩ := hK
  exact ⟨u₁ ++ u₂, x₁ ++ x₂, u₁, u₂, x₁, x₂, rfl, rfl, hf, hK⟩

/-- Single lexemes make productive forms, since there is one of each sort. -/
theorem productive_keyword (k : Keyword) : (keyword k).Productive :=
  ⟨_, _, .lexeme rfl⟩

theorem productive_symbol (s : Symbol) : (symbol s).Productive :=
  ⟨_, _, .lexeme rfl⟩

theorem productive_identifier : identifier.Productive :=
  ⟨_, _, .lexeme ⟨"x", rfl⟩⟩

/-- A sequence is productive if both its parts are. -/
theorem Productive.seq (hf : f.Productive) (hg : g.Productive) : (f ++ g).Productive := by
  obtain ⟨_, _, hf⟩ := hf
  obtain ⟨_, _, hg⟩ := hg
  exact ⟨_, _, .seq hf hg⟩

/-- An alternative is productive if its first part is. -/
theorem Productive.left (hf : f.Productive) : (f ||| g).Productive := by
  obtain ⟨_, _, hf⟩ := hf
  exact ⟨_, _, .left hf⟩

theorem Productive.right (hg : g.Productive) : (f ||| g).Productive := by
  obtain ⟨_, _, hg⟩ := hg
  exact ⟨_, _, .right hg⟩

/-- What may be left out is productive, whatever it is. -/
theorem productive_maybe : (maybe f).Productive :=
  ⟨_, _, .none⟩

/-- What may be repeated no times is productive, whatever it is. -/
theorem productive_many : (many f).Productive :=
  ⟨_, _, .stop⟩

/-- A rule is productive if its body is. -/
theorem Productive.rule {r : Rule} (h : r.form.Productive) : (Form.rule r).Productive := by
  obtain ⟨_, _, h⟩ := h
  exact ⟨_, _, .rule h⟩

end Form

open Form in
/-- Every rule derives some lexemes: a number is a term, and lists may be empty. -/
theorem Rule.productive (r : Rule) : (Form.rule r).Productive := by
  have hsymbol := productive_symbol
  have hkeyword := productive_keyword
  have hname := productive_identifier
  have htype : type.Productive := hname.right
  have hterm : (rule .term).Productive :=
    .rule (.left (.left (.left (.left (.left (.left ⟨_, _, .lexeme ⟨0, rfl⟩⟩))))))
  have hexpression : (rule .expression).Productive := .rule (hterm.seq productive_many)
  have hparenthesized : parenthesized.Productive := ((hsymbol _).seq hexpression).seq (hsymbol _)
  have hstatements : (rule .statements).Productive := .rule productive_many
  have hblock : block.Productive := ((hsymbol _).seq hstatements).seq (hsymbol _)
  have hparameters : (rule .parameterList).Productive := .rule productive_maybe
  have harguments : (rule .expressionList).Productive := .rule productive_maybe
  have hcall : (rule .subroutineCall).Productive :=
    .rule ((((hname.seq productive_maybe).seq (hsymbol _)).seq harguments).seq (hsymbol _))
  have hbody : (rule .subroutineBody).Productive :=
    .rule ((((hsymbol _).seq productive_many).seq hstatements).seq (hsymbol _))
  cases r with
  | classDec =>
    exact .rule (((((hkeyword _).seq hname).seq (hsymbol _)).seq productive_many).seq
      productive_many |>.seq (hsymbol _))
  | classVarDec =>
    exact .rule (((((hkeyword .kwStatic).left.seq htype).seq hname).seq productive_many).seq
      (hsymbol _))
  | subroutineDec =>
    exact .rule (((((((hkeyword .kwMethod).right.seq htype.right).seq hname).seq (hsymbol _)).seq
      hparameters).seq (hsymbol _)).seq hbody)
  | varDec =>
    exact .rule (((((hkeyword _).seq htype).seq hname).seq productive_many).seq (hsymbol _))
  | letStatement =>
    exact .rule ((((((hkeyword _).seq hname).seq productive_maybe).seq (hsymbol _)).seq
      hexpression).seq (hsymbol _))
  | ifStatement =>
    exact .rule ((((hkeyword _).seq hparenthesized).seq hblock).seq productive_maybe)
  | whileStatement => exact .rule (((hkeyword _).seq hparenthesized).seq hblock)
  | doStatement => exact .rule (((hkeyword _).seq hcall).seq (hsymbol _))
  | returnStatement => exact .rule (((hkeyword _).seq productive_maybe).seq (hsymbol _))
  | parameterList => exact hparameters
  | subroutineBody => exact hbody
  | statements => exact hstatements
  | expression => exact hexpression
  | term => exact hterm
  | subroutineCall => exact hcall
  | expressionList => exact harguments

/-! ### Agendas -/

/-- An agenda can be completed if it allows anything at all. -/
theorem extends_nil_iff : Extends agenda [] ↔ ∃ u x, Completes agenda u x :=
  Iff.rfl

/-- What is left after the first item can be completed if the whole agenda can. -/
theorem extends_nil_of_cons {item : Item} (h : Extends (item :: agenda) []) :
    Extends agenda [] := by
  obtain ⟨u, x, h⟩ := extends_nil_iff.1 h
  cases item with
  | terminal t =>
    obtain ⟨-, u₂, -, x₂, -, -, -, h⟩ := h
    exact extends_nil_iff.2 ⟨u₂, x₂, h⟩
  | rule r =>
    obtain ⟨-, u₂, -, x₂, -, -, -, h⟩ := h
    exact extends_nil_iff.2 ⟨u₂, x₂, h⟩
  | choice c =>
    obtain ⟨-, u₂, -, x₂, -, -, -, h⟩ := h
    exact extends_nil_iff.2 ⟨u₂, x₂, h⟩
  | close r =>
    obtain ⟨x', -, h⟩ := h
    exact extends_nil_iff.2 ⟨u, x', h⟩
  | finish => exact extends_nil_iff.2 ⟨u, x, h.2⟩

/-- Whether the item asks for something that lexemes can give, which the end of the text and a
keyword out of none are not. -/
def Item.satisfiable : Item → Bool
  | finish | terminal (.keyword []) => false
  | _ => true

/-- Some lexeme is admitted where one can be. -/
theorem Terminal.exists_admits {t : Terminal} (ht : (Item.terminal t).satisfiable = true) :
    ∃ l, t.admits l = true := by
  cases t with
  | keyword ks =>
    cases ks with
    | nil => simp [Item.satisfiable] at ht
    | cons k ks => exact ⟨.keyword k, by simp [admits, Lexeme.isKeyword]⟩
  | symbol s => exact ⟨.symbol s, by simp [admits, Lexeme.isSymbol]⟩
  | identifier role => exact ⟨.identifier "x", rfl⟩
  | type => exact ⟨.identifier "x", rfl⟩
  | resultType => exact ⟨.identifier "x", rfl⟩
  | any => exact ⟨.identifier "x", rfl⟩

/-- Every choice has an alternative that derives some lexemes. -/
theorem Choice.productive (c : Choice) : c.form.Productive := by
  have hreturn : Form.statement.Productive := (Rule.productive .returnStatement).right
  cases c with
  | statement => exact hreturn
  | term => exact (Rule.productive .subroutineCall).right
  | nameTerm => exact (Rule.productive .subroutineCall).right
  | parameters => exact Form.productive_maybe
  | subscript => exact Form.productive_maybe
  | elseBranch => exact Form.productive_maybe
  | result => exact Form.productive_maybe
  | member => exact Form.productive_maybe
  | arguments => exact Form.productive_maybe
  | _ => exact Form.productive_many

/-- An agenda that can be completed still can with a satisfiable item before it. -/
theorem extends_nil_cons {item : Item} (hitem : item.satisfiable = true) (h : Extends agenda []) :
    Extends (item :: agenda) [] := by
  have hK := extends_nil_iff.1 h
  refine extends_nil_iff.2 ?_
  cases item with
  | terminal t =>
    obtain ⟨l, hl⟩ := Terminal.exists_admits hitem
    exact Form.Productive.before ⟨_, _, .lexeme hl⟩ hK
  | rule r => exact (Rule.productive r).before hK
  | choice c => exact c.productive.before hK
  | close r =>
    obtain ⟨u, x, hK⟩ := hK
    exact ⟨u, r.closing ++ x, x, rfl, hK⟩
  | finish => simp [Item.satisfiable] at hitem

/-- An agenda that can be completed still can with any satisfiable items before it. -/
theorem extends_nil_append (hitems : ∀ item ∈ items, item.satisfiable = true)
    (h : Extends agenda []) : Extends (items ++ agenda) [] := by
  induction items with
  | nil => exact h
  | cons item items ih =>
    exact extends_nil_cons (hitems item (by simp)) (ih fun i hi ↦ hitems i (by simp [hi]))

/-- What the parser selects can be satisfied. -/
theorem satisfiable_of_select {c : Choice} {ahead : Option Lexeme}
    (hitems : c.select ahead = .ok items) : ∀ item ∈ items, item.satisfiable = true := by
  intro item hmem
  have hitem := selectable_of_select hitems item hmem
  unfold Item.satisfiable
  split
  · simp [Item.selectable] at hitem
  · simp [Item.selectable] at hitem
  · rfl

/-- An agenda that can be completed still can after a selection, whatever token was ahead. -/
theorem extends_nil_select {c : Choice} {ahead : Option Lexeme}
    (hitems : c.select ahead = .ok items) (h : Extends (.choice c :: agenda) []) :
    Extends (items ++ agenda) [] :=
  extends_nil_append (satisfiable_of_select hitems) (extends_nil_of_cons h)

/-- Any name can start what is selected for a term that starts with a name. -/
theorem extends_nameItems {ahead : Option Lexeme} (name : String)
    (hitems : Choice.nameTerm.select ahead = .ok items) (h : Extends agenda []) :
    Extends (items ++ agenda) [.identifier name] := by
  obtain rfl := Except.ok.inj hitems
  split
  · have hlater : Extends ([.choice .member, .symbol .leftParen, .rule .expressionList,
        .symbol .rightParen, .close .subroutineCall] ++ agenda) [] :=
      extends_nil_append (by decide) h
    obtain ⟨u, x, hrest⟩ := extends_nil_iff.1 hlater
    refine ⟨u, .ofLexeme (.identifier name) :: x, ?_⟩
    rw [List.cons_append, List.nil_append, completes_rule]
    exact ⟨_, rfl, Terminal.form_before.2 ⟨_, u, x, rfl, rfl, rfl, hrest⟩⟩
  · have hlater : Extends (.choice .subscript :: agenda) [] := extends_nil_cons rfl h
    obtain ⟨u, x, hrest⟩ := extends_nil_iff.1 hlater
    exact ⟨u, .ofLexeme (.identifier name) :: x, completes_shift.2 ⟨_, u, x, rfl, rfl, hrest⟩⟩

/-- A name starts a term that starts with a name. -/
theorem extends_nameTerm (name : String) (h : Extends agenda []) :
    Extends (.choice .nameTerm :: agenda) [.identifier name] := by
  have hitems : Choice.nameTerm.select none = .ok [.shift, .choice .subscript] := rfl
  obtain ⟨more, events, hrest⟩ := extends_nameItems name hitems h
  exact ⟨more, events, completes_nameTerm_of_select rfl hitems hrest⟩

end JackSyntax
