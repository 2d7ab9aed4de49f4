import Mathlib.Data.List.Infix
import JackSyntax.Proofs.Grammar.Form
import JackSyntax.Proofs.Lexer.Spelling

/-!
# What expectations say

An expectation is worded for readers, so what it asks for has to be read off its words: spellings in
quotes, an identifier, a type, a term (`Describes`). Nothing but the words is looked at, and yet
they describe just the lexemes that are asked for (`Expectation.describes_iff`). Spellings are told
apart since they hold no quotes: what stands between two quotes is cited, or it joins two citations
(`splitOn_alternatives`).
-/

namespace JackSyntax

variable {hint : String} {l : Lexeme} {w text : List Char} {words : List String}

/-- The words describe the lexeme. -/
inductive Describes (hint : String) : Lexeme → Prop
  /-- A keyword whose spelling is cited. -/
  | keyword {k : Keyword} (hcited : (cited k.spelling).toList <:+: hint.toList) :
    Describes hint (.keyword k)
  /-- A symbol whose spelling is cited. -/
  | symbol {s : Symbol} (hcited : (cited s.spelling).toList <:+: hint.toList) :
    Describes hint (.symbol s)
  /-- Any name, whatever it is a name of. -/
  | identifier {name : String} (hidentifier : "identifier (".toList <+: hint.toList) :
    Describes hint (.identifier name)
  /-- A primitive type. -/
  | primitive {k : Keyword} (htype : hint ∈ ["type", "'void' or type"])
    (hk : k ∈ [.kwInt, .kwChar, .kwBoolean]) : Describes hint (.keyword k)
  /-- The name of a class as a type. -/
  | className {name : String} (htype : hint ∈ ["type", "'void' or type"]) :
    Describes hint (.identifier name)
  /-- A lexeme that begins a term. -/
  | term {l : Lexeme} {u : List Lexeme} {x : List Event} (hterm : hint = "term")
    (hderives : (Form.rule .term).Derives (l :: u) x) : Describes hint l
  /-- Any lexeme at all. -/
  | token {l : Lexeme} (htoken : hint = "token") : Describes hint l

/-- The lexeme is asked for. -/
def Expectation.Admits : Expectation → Lexeme → Prop
  | terminal t, l => t.admits l = true
  | term, l => ∃ u x, (Form.rule .term).Derives (l :: u) x
  | statement, l => l.isKeyword Keyword.statementStarts = true
  | endOfInput, _ => False

/-! ### Citations -/

/-- A spelling is cited between quotes. -/
theorem cited_toList (spelling : String) :
    (cited spelling).toList = '\'' :: (spelling.toList ++ ['\'']) := by
  simp [cited, String.toList_append]

/-- What stands between two quotes is a part of the text without quotes, and not the last one. -/
theorem mem_splitOn_of_quoted (hw : '\'' ∉ w) (h : '\'' :: (w ++ ['\'']) <:+: text) :
    w ∈ (text.splitOn '\'').dropLast := by
  obtain ⟨before, after, rfl⟩ := h
  have hsplit : before ++ '\'' :: (w ++ ['\'']) ++ after =
      before ++ '\'' :: (w ++ '\'' :: after) := by
    simp
  have hafter : after.splitOn '\'' ≠ [] := List.splitOn_ne_nil _ _
  rw [hsplit, List.splitOn_append_cons_self, List.splitOn_append_cons_self_of_not_mem hw,
    List.dropLast_append_of_ne_nil (List.cons_ne_nil _ _), List.dropLast_cons_of_ne_nil hafter]
  exact List.mem_append_right _ List.mem_cons_self

/-- What stands between citations. -/
def citationJoins : List (List Char) :=
  [[], [',', ' '], [' ', 'o', 'r', ' ']]

/-- The parts without quotes of alternatives are the words cited and what joins them. -/
theorem splitOn_alternatives (words : List String) (hwords : ∀ word ∈ words, '\'' ∉ word.toList)
    (hne : words ≠ []) : ∃ body, (alternatives (words.map cited)).toList = '\'' :: body ∧
      ∀ part ∈ body.splitOn '\'', part ∈ words.map String.toList ∨ part ∈ citationJoins := by
  match words, hwords, hne with
  | [word], hwords, _ =>
    have hword := hwords word (by simp)
    refine ⟨word.toList ++ ['\''], cited_toList word, ?_⟩
    rw [List.splitOn_append_cons_self_of_not_mem hword]
    simp [citationJoins]
  | [first, last], hwords, _ =>
    have hfirst := hwords first (by simp)
    have hlast := hwords last (by simp)
    refine ⟨first.toList ++ '\'' :: ([' ', 'o', 'r', ' '] ++ '\'' :: (last.toList ++ ['\''])),
      ?_, ?_⟩
    · simp [alternatives, String.toList_append, cited_toList]
    · rw [List.splitOn_append_cons_self_of_not_mem hfirst,
        List.splitOn_append_cons_self_of_not_mem (by decide),
        List.splitOn_append_cons_self_of_not_mem hlast]
      simp [citationJoins]
  | first :: second :: third :: rest, hwords, _ =>
    have hfirst := hwords first (by simp)
    obtain ⟨body, hbody, hparts⟩ := splitOn_alternatives (second :: third :: rest)
      (fun word hmem ↦ hwords word (List.mem_cons_of_mem _ hmem)) (List.cons_ne_nil _ _)
    refine ⟨first.toList ++ '\'' :: ([',', ' '] ++ '\'' :: body), ?_, ?_⟩
    · have hmore : alternatives ((first :: second :: third :: rest).map cited) =
          cited first ++ ", " ++ alternatives ((second :: third :: rest).map cited) := rfl
      rw [hmore, String.toList_append, String.toList_append, cited_toList, hbody]
      simp
    · rw [List.splitOn_append_cons_self_of_not_mem hfirst,
        List.splitOn_append_cons_self_of_not_mem (by decide)]
      refine List.forall_mem_cons.2 ⟨by simp, List.forall_mem_cons.2 ⟨by simp [citationJoins], ?_⟩⟩
      intro part hpart
      exact (hparts part hpart).imp_left (List.mem_cons_of_mem _)

/-- Each alternative is cited in the wording of all of them. -/
theorem cited_infix_of_mem (words : List String) {spelling : String} (h : spelling ∈ words) :
    (cited spelling).toList <:+: (alternatives (words.map cited)).toList := by
  match words, h with
  | [word], h =>
    obtain rfl := List.mem_singleton.1 h
    exact List.infix_refl _
  | [first, last], h =>
    have hboth : alternatives ([first, last].map cited) = cited first ++ " or " ++ cited last := rfl
    rw [hboth, String.toList_append, String.toList_append]
    rcases List.mem_cons.1 h with rfl | h
    · rw [List.append_assoc]
      exact (List.prefix_append _ _).isInfix
    · obtain rfl := List.mem_singleton.1 h
      exact (List.suffix_append _ _).isInfix
  | first :: second :: third :: rest, h =>
    have hmore : alternatives ((first :: second :: third :: rest).map cited) =
        cited first ++ ", " ++ alternatives ((second :: third :: rest).map cited) := rfl
    rw [hmore, String.toList_append, String.toList_append]
    rcases List.mem_cons.1 h with rfl | h
    · rw [List.append_assoc]
      exact (List.prefix_append _ _).isInfix
    · exact (cited_infix_of_mem (second :: third :: rest) h).trans (List.suffix_append _ _).isInfix

/-- Alternatives cite just the spellings that they are made of. -/
theorem cited_infix_alternatives_iff (hwords : ∀ word ∈ words, '\'' ∉ word.toList)
    {spelling : String} (hquote : '\'' ∉ spelling.toList)
    (hjoin : spelling.toList ∉ citationJoins) :
    (cited spelling).toList <:+: (alternatives (words.map cited)).toList ↔ spelling ∈ words := by
  refine ⟨fun h ↦ ?_, cited_infix_of_mem words⟩
  rw [cited_toList] at h
  by_cases hne : words = []
  · subst hne
    simp [alternatives] at h
  · obtain ⟨body, hbody, hparts⟩ := splitOn_alternatives words hwords hne
    rw [hbody] at h
    have hmem := List.mem_of_mem_dropLast (mem_splitOn_of_quoted hquote h)
    have hsplit : ('\'' :: body).splitOn '\'' = [] :: body.splitOn '\'' :=
      List.splitOn_append_cons_self_of_not_mem List.not_mem_nil body
    rw [hsplit] at hmem
    rcases List.mem_cons.1 hmem with hnil | hmem
    · exact absurd (hnil ▸ List.mem_cons_self) hjoin
    · rcases hparts _ hmem with hword | hjoin'
      · obtain ⟨word, hword, heq⟩ := List.mem_map.1 hword
        exact String.toList_inj.1 heq ▸ hword
      · exact absurd hjoin' hjoin

/-- The spellings of keywords can be told apart from what joins citations. -/
theorem Keyword.spelling_plain (k : Keyword) :
    '\'' ∉ k.spelling.toList ∧ k.spelling.toList ∉ citationJoins := by
  cases k <;> decide

/-- The spellings of symbols can be told apart from what joins citations. -/
theorem Symbol.spelling_plain (s : Symbol) :
    '\'' ∉ s.spelling.toList ∧ s.spelling.toList ∉ citationJoins := by
  cases s <;> decide

/-- Keywords have more than one letter. -/
theorem keyword_spelling_ne_symbol (k : Keyword) (s : Symbol) : k.spelling ≠ s.spelling := by
  have hlong : k.spelling.toList.length ≠ 1 := by cases k <;> decide
  intro h
  simp [h, Symbol.spelling] at hlong

/-! ### Expectations -/

/-- Words that are spellings of keywords or symbols. -/
def Spellings (words : List String) : Prop :=
  ∀ word ∈ words, (∃ k : Keyword, k.spelling = word) ∨ ∃ s : Symbol, s.spelling = word

theorem Spellings.not_mem_quote (h : Spellings words) : ∀ word ∈ words, '\'' ∉ word.toList := by
  intro word hword
  rcases h word hword with ⟨k, rfl⟩ | ⟨s, rfl⟩
  · exact k.spelling_plain.1
  · exact s.spelling_plain.1

/-- Alternatives of spellings begin with a quote, and they are not the words for a type. -/
theorem alternatives_ne (hwords : Spellings words) :
    (alternatives (words.map cited)).toList.head? ∈ [none, some '\''] ∧
      alternatives (words.map cited) ≠ "'void' or type" := by
  have hquotes := hwords.not_mem_quote
  by_cases hne : words = []
  · subst hne
    exact ⟨by decide, by decide⟩
  · obtain ⟨body, hbody, hparts⟩ := splitOn_alternatives words hquotes hne
    refine ⟨by simp [hbody], fun htype ↦ ?_⟩
    -- The words for a type go on after their citation.
    have htail : " or type".toList ∈ body.splitOn '\'' := by
      rw [htype] at hbody
      have hbody' : body = "void".toList ++ '\'' :: " or type".toList :=
        (List.cons.inj hbody).2.symm
      rw [hbody', List.splitOn_append_cons_self]
      exact List.mem_append_right _ (by decide)
    have hnone : " or type".toList ∉ citationJoins := by decide
    rcases hparts _ htail with hword | hjoin
    · obtain ⟨word, hword, heq⟩ := List.mem_map.1 hword
      obtain rfl := String.toList_inj.1 heq
      rcases hwords _ hword with ⟨k, hk⟩ | ⟨s, hs⟩
      · cases k <;> simp [Keyword.spelling] at hk
      · have hlength := congrArg (·.toList.length) hs
        simp [Symbol.spelling] at hlength
    · exact hnone hjoin

/-- Alternatives of spellings describe what is spelled so. -/
theorem describes_alternatives_iff (hwords : Spellings words) :
    Describes (alternatives (words.map cited)) l ↔
      (∃ k, l = .keyword k ∧ k.spelling ∈ words) ∨ ∃ s, l = .symbol s ∧ s.spelling ∈ words := by
  obtain ⟨hhead, htype'⟩ := alternatives_ne hwords
  have hquotes := hwords.not_mem_quote
  have hfirst : ∀ {hint : String}, alternatives (words.map cited) = hint →
      hint.toList.head? ∈ [none, some '\''] := fun h ↦ h ▸ hhead
  have hnoType : alternatives (words.map cited) ∉ ["type", "'void' or type"] := by
    intro hmem
    rcases List.mem_cons.1 hmem with h | h
    · exact absurd (hfirst h) (by decide)
    · exact htype' (List.mem_singleton.1 h)
  constructor
  · intro h
    cases h with
    | @keyword k hcited =>
      obtain ⟨hquote, hjoin⟩ := k.spelling_plain
      exact .inl ⟨k, rfl, (cited_infix_alternatives_iff hquotes hquote hjoin).1 hcited⟩
    | @symbol s hcited =>
      obtain ⟨hquote, hjoin⟩ := s.spelling_plain
      exact .inr ⟨s, rfl, (cited_infix_alternatives_iff hquotes hquote hjoin).1 hcited⟩
    | identifier hidentifier =>
      obtain ⟨rest, hrest⟩ := hidentifier
      rw [← hrest] at hhead
      exact absurd hhead (by simp)
    | primitive htype _ => exact absurd htype hnoType
    | className htype => exact absurd htype hnoType
    | term hterm _ => exact absurd (hfirst hterm) (by decide)
    | token htoken => exact absurd (hfirst htoken) (by decide)
  · rintro (⟨k, rfl, hk⟩ | ⟨s, rfl, hs⟩)
    · exact .keyword (cited_infix_of_mem words hk)
    · exact .symbol (cited_infix_of_mem words hs)

/-- A lexeme passes the test for keywords if it is one of them. -/
theorem isKeyword_iff {ks : List Keyword} :
    l.isKeyword ks = true ↔ ∃ k ∈ ks, l = .keyword k := by
  cases l <;> simp [Lexeme.isKeyword]

theorem isSymbol_singleton_iff {s : Symbol} : l.isSymbol [s] = true ↔ l = .symbol s := by
  cases l <;> simp [Lexeme.isSymbol]

theorem isIdentifier_iff : l.isIdentifier = true ↔ ∃ name, l = .identifier name := by
  cases l <;> simp [Lexeme.isIdentifier]

/-- A type is one of three keywords or a name. -/
theorem admits_type_iff :
    Terminal.type.admits l = true ↔
      (∃ k ∈ [.kwInt, .kwChar, .kwBoolean], l = .keyword k) ∨ ∃ name, l = .identifier name := by
  rw [Terminal.admits, Bool.or_eq_true, isKeyword_iff, isIdentifier_iff]
  rfl

/-- What a subroutine returns is nothing or a type. -/
theorem admits_resultType_iff :
    Terminal.resultType.admits l = true ↔ l = .keyword .kwVoid ∨ Terminal.type.admits l = true := by
  cases l <;> simp [Terminal.admits, Lexeme.isKeyword, Lexeme.isIdentifier]

/-- A text without quotes cites nothing. -/
theorem describes_plain_iff (hquote : '\'' ∉ hint.toList) :
    Describes hint l ↔
      "identifier (".toList <+: hint.toList ∧ l.isIdentifier = true ∨
      hint = "type" ∧ Terminal.type.admits l = true ∨
      hint = "term" ∧ (∃ u x, (Form.rule .term).Derives (l :: u) x) ∨ hint = "token" := by
  have hcited : ∀ spelling, ¬ (cited spelling).toList <:+: hint.toList := by
    intro spelling hcited
    rw [cited_toList] at hcited
    exact hquote (hcited.subset List.mem_cons_self)
  have htype : hint ∈ ["type", "'void' or type"] → hint = "type" := by
    intro hmem
    rcases List.mem_cons.1 hmem with h | h
    · exact h
    · rw [List.mem_singleton.1 h] at hquote
      exact absurd (by decide) hquote
  constructor
  · intro h
    cases h with
    | keyword hkeyword => exact absurd hkeyword (hcited _)
    | symbol hsymbol => exact absurd hsymbol (hcited _)
    | identifier hidentifier => exact .inl ⟨hidentifier, rfl⟩
    | @primitive k hmem hk =>
      exact .inr (.inl ⟨htype hmem, admits_type_iff.2 (.inl ⟨k, hk, rfl⟩)⟩)
    | className hmem => exact .inr (.inl ⟨htype hmem, rfl⟩)
    | term hterm hderives => exact .inr (.inr (.inl ⟨hterm, _, _, hderives⟩))
    | token htoken => exact .inr (.inr (.inr htoken))
  · rintro (⟨hidentifier, hl⟩ | ⟨rfl, hl⟩ | ⟨rfl, _, _, hderives⟩ | rfl)
    · obtain ⟨name, rfl⟩ := isIdentifier_iff.1 hl
      exact .identifier hidentifier
    · rcases admits_type_iff.1 hl with ⟨k, hk, rfl⟩ | ⟨name, rfl⟩
      · exact .primitive (by simp) hk
      · exact .className (by simp)
    · exact .term rfl hderives
    · exact .token rfl

/-- A choice of keywords is worded as the list of them. -/
theorem terminal_keyword_text (ks : List Keyword) :
    (Terminal.keyword ks).text = alternatives ((ks.map Keyword.spelling).map cited) := by
  rw [List.map_map]
  rfl

theorem spellings_keywords (ks : List Keyword) : Spellings (ks.map Keyword.spelling) := by
  intro word hword
  obtain ⟨k, -, rfl⟩ := List.mem_map.1 hword
  exact .inl ⟨k, rfl⟩

theorem spellings_symbol (s : Symbol) : Spellings [s.spelling] :=
  List.forall_mem_singleton.2 (.inr ⟨s, rfl⟩)

/-- The wording for keywords describes just those that are admitted. -/
theorem describes_keyword_iff (ks : List Keyword) :
    Describes (Terminal.keyword ks).text l ↔ l.isKeyword ks = true := by
  rw [terminal_keyword_text, describes_alternatives_iff (spellings_keywords ks)]
  rw [isKeyword_iff]
  constructor
  · rintro (⟨k, rfl, hk⟩ | ⟨s, rfl, hs⟩)
    · obtain ⟨k', hk', heq⟩ := List.mem_map.1 hk
      obtain rfl := Keyword.spelling_inj heq
      exact ⟨k', hk', rfl⟩
    · obtain ⟨k', -, heq⟩ := List.mem_map.1 hs
      exact absurd heq (keyword_spelling_ne_symbol k' s)
  · rintro ⟨k, hk, rfl⟩
    exact .inl ⟨k, rfl, List.mem_map_of_mem hk⟩

/-- The wording for a symbol describes just that symbol. -/
theorem describes_symbol_iff (s : Symbol) :
    Describes (Terminal.symbol s).text l ↔ l.isSymbol [s] = true := by
  have htext : (Terminal.symbol s).text = alternatives ([s.spelling].map cited) := rfl
  rw [htext, describes_alternatives_iff (spellings_symbol s)]
  rw [isSymbol_singleton_iff]
  constructor
  · rintro (⟨k, rfl, hk⟩ | ⟨s', rfl, hs⟩)
    · exact absurd (List.mem_singleton.1 hk) (keyword_spelling_ne_symbol k s)
    · rw [Symbol.spelling_inj (List.mem_singleton.1 hs)]
  · rintro rfl
    exact .inr ⟨s, rfl, List.mem_singleton_self _⟩

/-- The wording for a name describes just names, whatever is to be named. -/
theorem describes_identifier_iff (role : Role) :
    Describes (Terminal.identifier role).text l ↔ l.isIdentifier = true := by
  have hwords : '\'' ∉ (Terminal.identifier role).text.toList ∧
      "identifier (".toList <+: (Terminal.identifier role).text.toList ∧
      (Terminal.identifier role).text ∉ ["type", "term", "token"] := by
    cases role <;> decide
  obtain ⟨hquote, hidentifier, hne⟩ := hwords
  simp only [List.mem_cons, List.not_mem_nil, or_false, not_or] at hne
  rw [describes_plain_iff hquote]
  simp only [hidentifier, hne, true_and, false_and, or_false]

/-- A result is void or of a type. -/
theorem describes_resultType_iff :
    Describes Terminal.resultType.text l ↔ Terminal.resultType.admits l = true := by
  have hkeyword : ∀ k : Keyword, (cited k.spelling).toList <:+: Terminal.resultType.text.toList ↔
      k = .kwVoid := by
    intro k
    cases k <;> decide
  have hsymbol : ∀ s : Symbol,
      ¬ (cited s.spelling).toList <:+: Terminal.resultType.text.toList := by
    intro s
    cases s <;> decide
  rw [admits_resultType_iff]
  constructor
  · intro h
    cases h with
    | keyword hcited => exact .inl (congrArg Lexeme.keyword ((hkeyword _).1 hcited))
    | symbol hcited => exact absurd hcited (hsymbol _)
    | identifier _ => exact .inr rfl
    | @primitive k _ hk => exact .inr (admits_type_iff.2 (.inl ⟨k, hk, rfl⟩))
    | className _ => exact .inr rfl
    | term hterm _ => exact absurd hterm (by decide)
    | token htoken => exact absurd htoken (by decide)
  · rintro (rfl | htype)
    · exact .keyword ((hkeyword _).2 rfl)
    · rcases admits_type_iff.1 htype with ⟨k, hk, rfl⟩ | ⟨name, rfl⟩
      · exact .primitive (by decide) hk
      · exact .className (by decide)

/-- A statement is begun by one of its keywords. -/
theorem describes_statement_iff :
    Describes Expectation.statement.text l ↔ l.isKeyword Keyword.statementStarts = true := by
  let words := Keyword.statementStarts.map Keyword.spelling
  have htext : Expectation.statement.text.toList =
      "statement (".toList ++ (alternatives (words.map cited)).toList ++ ")".toList := by decide
  have hparts : Expectation.statement.text.toList.splitOn '\'' =
      ["statement (", "let", ", ", "if", ", ", "while", ", ", "do", " or ", "return", ")"].map
        String.toList := by decide +kernel
  rw [isKeyword_iff]
  constructor
  · intro h
    cases h with
    | @keyword k hcited =>
      rw [cited_toList] at hcited
      have hpart := mem_splitOn_of_quoted k.spelling_plain.1 hcited
      rw [hparts] at hpart
      have hk : k ∈ Keyword.statementStarts := by
        revert hpart
        cases k <;> decide
      exact ⟨k, hk, rfl⟩
    | @symbol s hcited =>
      rw [cited_toList] at hcited
      have hpart := mem_splitOn_of_quoted s.spelling_plain.1 hcited
      rw [hparts] at hpart
      revert hpart
      cases s <;> decide
    | identifier hidentifier => exact absurd hidentifier (by decide)
    | primitive htype _ => exact absurd htype (by decide)
    | className htype => exact absurd htype (by decide)
    | term hterm _ => exact absurd hterm (by decide)
    | token htoken => exact absurd htoken (by decide)
  · rintro ⟨k, hk, rfl⟩
    have hcited := cited_infix_of_mem words (List.mem_map_of_mem hk)
    refine .keyword (hcited.trans ?_)
    rw [htext]
    exact List.infix_append _ _ _

/-- The words of an expectation describe just the lexemes that it asks for. -/
theorem Expectation.describes_iff (e : Expectation) : Describes e.text l ↔ e.Admits l := by
  have hplain : ∀ hint ∈ ["type", "token", "term", "end of input"], '\'' ∉ hint.toList := by
    decide
  cases e with
  | terminal t =>
    cases t with
    | keyword ks => exact describes_keyword_iff ks
    | symbol s => exact describes_symbol_iff s
    | identifier role => exact describes_identifier_iff role
    | resultType => exact describes_resultType_iff
    | type => simp [text, Terminal.text, describes_plain_iff (hplain "type" (by simp)), Admits]
    | any =>
      simp [text, Terminal.text, describes_plain_iff (hplain "token" (by simp)), Admits,
        Terminal.admits]
  | term => simp [text, describes_plain_iff (hplain "term" (by simp)), Admits]
  | statement => exact describes_statement_iff
  | endOfInput => simp [text, describes_plain_iff (hplain "end of input" (by simp)), Admits]

/-- Only the words for any token and for a statement begin as they do, and only those for the end of
the text say so. -/
theorem Expectation.text_ne {e : Expectation} (hany : e ≠ .terminal .any)
    (hstatement : e ≠ .statement) : e.text ≠ "token" ∧ ¬ "statement (".toList <+: e.text.toList ∧
      (e.text = "end of input" → e = .endOfInput) := by
  have hspellings : ∀ {words : List String}, Spellings words →
      alternatives (words.map cited) ≠ "token" ∧
      ¬ "statement (".toList <+: (alternatives (words.map cited)).toList ∧
      alternatives (words.map cited) ≠ "end of input" := by
    intro words hwords
    have hhead := (alternatives_ne hwords).1
    refine ⟨fun h ↦ ?_, fun ⟨rest, hrest⟩ ↦ ?_, fun h ↦ ?_⟩
    · rw [h] at hhead
      exact absurd hhead (by decide)
    · rw [← hrest] at hhead
      exact absurd hhead (by simp)
    · rw [h] at hhead
      exact absurd hhead (by decide)
  cases e with
  | terminal t =>
    cases t with
    | keyword ks =>
      obtain ⟨htoken, hprefix, hend⟩ := hspellings (spellings_keywords ks)
      rw [← terminal_keyword_text] at htoken hprefix hend
      exact ⟨htoken, hprefix, fun h ↦ absurd h hend⟩
    | symbol s =>
      obtain ⟨htoken, hprefix, hend⟩ := hspellings (spellings_symbol s)
      exact ⟨htoken, hprefix, fun h ↦ absurd h hend⟩
    | identifier role => cases role <;> decide
    | type => decide
    | resultType => decide
    | any => exact absurd rfl hany
  | term => decide
  | statement => exact absurd rfl hstatement
  | endOfInput => exact ⟨by decide, by decide, fun _ ↦ rfl⟩

end JackSyntax
