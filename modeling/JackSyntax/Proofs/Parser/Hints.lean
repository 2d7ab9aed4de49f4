import JackSyntax.Proofs.Grammar.Wording
import JackSyntax.Proofs.Parser.Truncation

/-!
# What an error says was expected would do

The words of a syntax error are read as they stand (`Describes`), and whatever they describe may
come where the error was found. They speak of the item that failed, not of the class, so the agenda
has to be followed back from that item to the start (`Session.Stuck`). Each step on the way was
decided by the token that was found in the end, not by the one that should have been there.

* What is left out for want of its first token is left out before any other token as well.
* What is there for want of the token that ends it begins with a token that wants it to be there
  (`completes_optional_of_ne`).
* A token that is shifted has decided the step, so it comes before the one that was found.

A shift and a statement have nothing to say about the class they are part of. They are selected
after a look at the token, and so never fail (`Foreseen`).

## Main statements

* `Session.run_stuck`: a failed run has got to an item that failed, and what completes the agenda
  there completes it from the start.
* `Source.hint_truthful`: the tokens before the one found start a class with any token described in
  its place.
-/

namespace JackSyntax

variable {item : Item} {agenda agenda' items : List Item} {lexemes lexemes' u : List Lexeme}
  {x : List Event} {l : Lexeme} {s s' : Session} {failure : ParseFailure} {e : SyntaxError}

/-! ### Items that fail -/

/-- Whether the item may fail. -/
def Item.mayFail : Item → Bool
  | terminal .any | choice .statement => false
  | _ => true

/-- What the parser keeps true of its agenda, so that no other items fail. -/
structure Foreseen (agenda : List Item) (lexemes : List Lexeme) : Prop where
  /-- The first item may fail, or it is satisfied by the token it looks at. -/
  head : ∀ item ∈ agenda.head?, item.mayFail = true ∨ item.refusal lexemes[item.depth]? = none
  /-- All other items may fail. -/
  tail : ∀ item ∈ agenda.tail, item.mayFail = true
  /-- The end of the text is the last item. -/
  last : .finish ∉ agenda.dropLast

theorem Foreseen.start (lexemes : List Lexeme) : Foreseen [.rule .classDec, .finish] lexemes where
  head := by simp [Item.mayFail]
  tail := by simp [Item.mayFail]
  last := by simp

/-- Nothing comes after the end of the text. -/
theorem Foreseen.eq_nil (h : Foreseen (.finish :: agenda) lexemes) : agenda = [] := by
  cases agenda with
  | nil => rfl
  | cons item agenda => exact absurd List.mem_cons_self h.last

/-- Items in place of the first one. -/
theorem Foreseen.replace (h : Foreseen (item :: agenda) lexemes)
    (hhead : ∀ i ∈ items.head?, i.mayFail = true ∨ i.refusal lexemes'[i.depth]? = none)
    (htail : ∀ i ∈ items.tail, i.mayFail = true) (hfinish : .finish ∉ items) :
    Foreseen (items ++ agenda) lexemes' where
  head := by
    cases items with
    | nil => exact fun i hi ↦ .inl (h.tail i (List.mem_of_head? hi))
    | cons first items => exact hhead
  tail := by
    cases items with
    | nil => exact fun i hi ↦ h.tail i (List.mem_of_mem_tail hi)
    | cons first items =>
      intro i hi
      exact (List.mem_append.1 hi).elim (htail i) (h.tail i)
  last := by
    cases agenda with
    | nil =>
      rw [List.append_nil]
      exact fun hmem ↦ hfinish (List.mem_of_mem_dropLast hmem)
    | cons next agenda =>
      rw [List.dropLast_append_of_ne_nil (List.cons_ne_nil _ _)]
      exact fun hmem ↦ (List.mem_append.1 hmem).elim hfinish
        fun hrest ↦ h.last (List.mem_cons_of_mem item hrest)

theorem Foreseen.of_cons (h : Foreseen (item :: agenda) lexemes) : Foreseen agenda lexemes' := by
  have hreplaced : Foreseen ([] ++ agenda) lexemes' := h.replace (by simp) (by simp) (by simp)
  exact hreplaced

theorem Rule.mayFail_body (r : Rule) : ∀ item ∈ r.body, item.mayFail = true := by
  cases r <;> decide

theorem Foreseen.body {r : Rule} (h : Foreseen (.rule r :: agenda) lexemes) :
    Foreseen (r.body ++ .close r :: agenda) lexemes' := by
  have hmay : ∀ item ∈ r.body ++ [.close r], item.mayFail = true := by
    intro item hmem
    rcases List.mem_append.1 hmem with hbody | hclose
    · exact r.mayFail_body item hbody
    · rw [List.mem_singleton.1 hclose]
      rfl
  have hfinish : .finish ∉ r.body ++ [.close r] := by
    cases r <;> decide
  have hreplaced : Foreseen ((r.body ++ [.close r]) ++ agenda) lexemes' :=
    h.replace (fun i hi ↦ .inl (hmay i (List.mem_of_head? hi)))
      (fun i hi ↦ hmay i (List.mem_of_mem_tail hi)) hfinish
  rwa [List.append_assoc] at hreplaced

/-- A keyword of a statement starts one. -/
theorem refusal_statement {ahead : Option Lexeme}
    (h : ahead.any (·.isKeyword Keyword.statementStarts) = true) :
    (Item.choice .statement).refusal ahead = none := by
  cases ahead with
  | none => simp at h
  | some l =>
    cases l with
    | keyword k =>
      revert h
      cases k <;> decide
    | _ => simp [Lexeme.isKeyword] at h

theorem refusal_shift {ahead : Option Lexeme} (h : ahead.isSome = true) :
    Item.shift.refusal ahead = none := by
  cases ahead with
  | none => simp at h
  | some l => rfl

/-- What is selected may fail, but for the token that was looked at. -/
theorem mayFail_select {c : Choice} (hitems : c.select lexemes[c.depth]? = .ok items)
    (hname : c = .nameTerm → lexemes.head?.any Lexeme.isIdentifier = true) :
    (∀ i ∈ items.head?, i.mayFail = true ∨ i.refusal lexemes[i.depth]? = none) ∧
      ∀ i ∈ items.tail, i.mayFail = true := by
  have hshift : lexemes[0]?.isSome = true → Item.shift.refusal lexemes[0]? = none := refusal_shift
  rcases c.optional_or with hc | rfl | rfl | rfl
  · rw [Choice.depth_of_optional hc, Choice.select_of_optional hc] at hitems
    obtain rfl := Except.ok.inj hitems
    split
    · rename_i hwants
      cases c with
      | many r =>
        cases r with
        | statement =>
          exact ⟨by simpa [Choice.part, Repeatable.item] using .inr (refusal_statement hwants),
            by simp [Choice.part, Item.mayFail]⟩
        | _ => simp [Choice.part, Repeatable.item, Item.mayFail]
      | moreTerms =>
        have hsome : lexemes[0]?.isSome = true := Option.isSome_of_any hwants
        exact ⟨by simpa [Choice.part] using .inr (hshift hsome),
          by simp [Choice.part, Item.mayFail]⟩
      | _ => simp [Choice.part, Item.block, Item.mayFail]
    · simp
  · cases lexemes with
    | nil => simp [Choice.select] at hitems
    | cons l lexemes =>
      obtain ⟨k, r, -, -, rfl⟩ := statementItems_cases hitems
      simp [Item.mayFail]
  · cases lexemes with
    | nil => simp [Choice.select] at hitems
    | cons l lexemes =>
      rcases termItems_cases hitems with ⟨-, rfl⟩ | ⟨-, rfl⟩ | ⟨-, rfl⟩ | ⟨-, rfl⟩
      · exact ⟨by simpa using .inr (hshift rfl), by simp⟩
      · simp [Item.parenthesized, Item.mayFail]
      · exact ⟨by simpa using .inr (hshift rfl), by simp [Item.mayFail]⟩
      · simp [Item.mayFail]
  · have hsome : lexemes[0]?.isSome = true := by
      rw [← List.head?_eq_getElem?]
      exact Option.isSome_of_any (hname rfl)
    obtain rfl := Except.ok.inj hitems
    split
    · simp [Item.mayFail]
    · exact ⟨by simpa using .inr (hshift hsome), by simp [Item.mayFail]⟩

/-- What is selected never is the end of the text. -/
theorem finish_not_mem_select {c : Choice} {ahead : Option Lexeme}
    (hitems : c.select ahead = .ok items) : .finish ∉ items := by
  intro hmem
  have hselectable := selectable_of_select hitems _ hmem
  simp [Item.selectable] at hselectable

namespace Session

theorem Advance.foreseen (hfit : Fit (item :: agenda) s.lexemes)
    (hforeseen : Foreseen (item :: agenda) s.lexemes) (h : s.Advance agenda item agenda' s') :
    Foreseen agenda' s'.lexemes := by
  cases h with
  | terminal _ _ => exact hforeseen.of_cons
  | rule _ => exact hforeseen.body
  | close _ => exact hforeseen.of_cons
  | choice hitems _ hmoves =>
    have hlexemes : s.lexemes = s'.lexemes := hmoves.lexemes
    obtain ⟨hhead, htail⟩ := mayFail_select hitems fun hc ↦ hfit.named (by rw [hc]; rfl)
    rw [hlexemes] at hhead
    exact hforeseen.replace hhead htail (finish_not_mem_select hitems)
  | finish _ _ _ => exact hforeseen.of_cons

/-- An item that fails is one that may. -/
theorem Halt.mayFail (hforeseen : Foreseen (item :: agenda) s.lexemes)
    (h : s.Halt agenda item failure) : item.mayFail = true := by
  rcases hforeseen.head item rfl with hmay | hnone
  · exact hmay
  · cases h with
    | lexical hdepth _ =>
      rw [List.getElem?_eq_none (by rwa [lexemes, List.length_map])] at hnone
      cases item with
      | terminal t => simp [Item.refusal] at hnone
      | choice c =>
        cases c with
        | statement => simp [Item.refusal, Choice.select] at hnone
        | _ => rfl
      | _ => rfl
    | token htoken hrefusal =>
      rw [lexemes, List.getElem?_map, htoken, Option.map_some, hrefusal] at hnone
      simp at hnone
    | endOfInput hdepth _ hrefusal =>
      rw [List.getElem?_eq_none (by rwa [lexemes, List.length_map]), hrefusal] at hnone
      simp at hnone

end Session

/-- What an item expects that may fail. -/
theorem Item.expected_of_refusal {ahead : Option Lexeme} {expected : Expectation}
    (hmay : item.mayFail = true) (h : item.refusal ahead = some expected) :
    (∃ t, t ≠ .any ∧ item = .terminal t ∧ expected = .terminal t) ∨
      item = .choice .term ∧ expected = .term ∨ item = .finish ∧ expected = .endOfInput := by
  cases item with
  | terminal t =>
    have hany : t ≠ .any := by
      rintro rfl
      simp [mayFail] at hmay
    simp only [refusal] at h
    split at h
    · simp at h
    · exact .inl ⟨t, hany, rfl, (Option.some.inj h).symm⟩
  | choice c =>
    simp only [refusal] at h
    split at h
    · rename_i hselect
      obtain rfl := Option.some.inj h
      rcases Choice.expected_of_select hselect with ⟨rfl, -⟩ | ⟨rfl, rfl⟩
      · simp [mayFail] at hmay
      · exact .inr (.inl ⟨rfl, rfl⟩)
    · simp at h
  | finish =>
    simp only [refusal] at h
    split at h
    · exact .inr (.inr ⟨rfl, (Option.some.inj h).symm⟩)
    · simp at h
  | _ => simp [refusal] at h

namespace Session

/-! ### What an item asks for -/

/-- Neither any token nor a statement is what an item asks for. -/
theorem Halt.expected_ne (hforeseen : Foreseen (item :: agenda) s.lexemes)
    (h : s.Halt agenda item (.syntactic e)) :
    e.expected ≠ .terminal .any ∧ e.expected ≠ .statement := by
  rcases Item.expected_of_refusal (h.mayFail hforeseen) h.refusal with
    ⟨t, hany, -, hexpected⟩ | ⟨-, hexpected⟩ | ⟨-, hexpected⟩ <;> rw [hexpected]
  · exact ⟨fun heq ↦ hany (Expectation.terminal.inj heq), by simp⟩
  · simp
  · simp

/-- What the item asks for starts what it allows. -/
theorem Halt.extends_of_admits (hfit : Fit (item :: agenda) s.lexemes)
    (hforeseen : Foreseen (item :: agenda) s.lexemes) (h : s.Halt agenda item (.syntactic e))
    (hadmits : e.expected.Admits l) : Extends (item :: agenda) [l] := by
  obtain ⟨u, x, hagenda⟩ := extends_nil_iff.1 (extends_nil_of_cons hfit.completable)
  rcases Item.expected_of_refusal (h.mayFail hforeseen) h.refusal with
    ⟨t, -, rfl, hexpected⟩ | ⟨rfl, hexpected⟩ | ⟨-, hexpected⟩ <;> rw [hexpected] at hadmits
  · exact ⟨u, _, Terminal.form_before.2 ⟨l, u, x, hadmits, rfl, rfl, hagenda⟩⟩
  · obtain ⟨more, events, hderives⟩ := hadmits
    cases hderives with
    | rule hform => exact ⟨more ++ u, _, l :: more, u, _, x, rfl, rfl, hform, hagenda⟩
  · exact absurd hadmits id

/-- An item that asks for the end of the text is satisfied by it. -/
theorem Halt.completes_of_endOfInput (hfit : Fit (item :: agenda) s.lexemes)
    (hforeseen : Foreseen (item :: agenda) s.lexemes) (h : s.Halt agenda item (.syntactic e))
    (hexpected : e.expected = .endOfInput) : ∃ x, Completes (item :: agenda) [] x := by
  rcases Item.expected_of_refusal (h.mayFail hforeseen) h.refusal with
    ⟨t, -, -, ht⟩ | ⟨-, hterm⟩ | ⟨rfl, -⟩
  · simp [hexpected] at ht
  · simp [hexpected] at hterm
  · obtain ⟨u, x, hcompletes⟩ := extends_nil_iff.1 hfit.completable
    obtain rfl : u = [] := hcompletes.1
    exact ⟨x, hcompletes⟩

/-- An item that does not ask for the end of the text asks for some token. -/
theorem Halt.exists_admits (hfit : Fit (item :: agenda) s.lexemes)
    (hforeseen : Foreseen (item :: agenda) s.lexemes) (h : s.Halt agenda item (.syntactic e)) :
    e.expected = .endOfInput ∨ ∃ l, e.expected.Admits l := by
  rcases Item.expected_of_refusal (h.mayFail hforeseen) h.refusal with
    ⟨t, -, rfl, hexpected⟩ | ⟨-, hexpected⟩ | ⟨-, hexpected⟩
  · obtain ⟨u, x, hcompletes⟩ := extends_nil_iff.1 hfit.completable
    obtain ⟨l, -, -, hl, -⟩ := Terminal.form_before.1 hcompletes
    exact .inr ⟨l, hexpected ▸ hl⟩
  · have hnumber : Expectation.term.Admits (.integer 0) :=
      ⟨[], _, .rule (.left (.left (.left (.left (.left (.left (.lexeme ⟨0, rfl⟩)))))))⟩
    exact .inr ⟨_, hexpected ▸ hnumber⟩
  · exact .inl hexpected

/-! ### From the item that fails back to the start -/

/-- What completes the agenda after the step completes it before, with the token consumed in front.
A token that is shifted after the step has to be the one that was ahead. -/
theorem Advance.completes_of_head (hfit : Fit (item :: agenda) s.lexemes)
    (hlast : item = .finish → agenda = []) (h : s.Advance agenda item agenda' s') :
    ∃ tokens events, s.Moves s' tokens events ∧ (item = .shift → tokens ≠ []) ∧
      ∀ u x, (agenda'.head? = some .shift → u.head? = s'.lexemes.head?) → Completes agenda' u x →
        ∃ y, Completes (item :: agenda) (tokens.map Token.lexeme ++ u) y := by
  cases h with
  | @terminal t token _ hadmits hmoves =>
    refine ⟨_, _, hmoves, by simp, fun u x _ hrest ↦ ?_⟩
    exact ⟨_, Terminal.form_before.2 ⟨_, u, x, hadmits, rfl, rfl, hrest⟩⟩
  | @rule r _ hmoves =>
    refine ⟨_, _, hmoves, by simp, fun u x _ hbody ↦ ⟨r.opening ++ x, ?_⟩⟩
    rw [completes_rule]
    exact ⟨x, rfl, hbody⟩
  | close hmoves => exact ⟨_, _, hmoves, by simp, fun u x _ hrest ↦ ⟨_, x, rfl, hrest⟩⟩
  | @choice c selected _ hitems _ hmoves =>
    have hlexemes : s.lexemes = s'.lexemes := hmoves.lexemes
    refine ⟨_, _, hmoves, by simp, fun u x hhead hrest ↦ ⟨x, ?_⟩⟩
    refine completes_of_select_of_head hitems (fun hc ↦ hfit.named (by rw [hc]; rfl)) ?_ hrest
    intro hshift
    rw [hlexemes]
    exact hhead (by rw [List.head?_append, hshift]; rfl)
  | finish _ _ hmoves =>
    refine ⟨_, _, hmoves, by simp, fun u x _ hrest ↦ ⟨x, ?_, hrest⟩⟩
    rw [hlast rfl] at hrest
    exact hrest.1

/-- The session with the agenda gets, after some tokens, to an item that fails. -/
structure Stuck (s : Session) (agenda : List Item) (failure : ParseFailure) (tokens : List Token)
    (s' : Session) (item : Item) (rest : List Item) : Prop where
  moves : ∃ events, s.Moves s' tokens events
  halt : s'.Halt rest item failure
  fit : Fit (item :: rest) s'.lexemes
  foreseen : Foreseen (item :: rest) s'.lexemes
  /-- A token that is shifted is among those consumed. -/
  shifted : agenda.head? = some .shift → tokens ≠ []
  /-- What completes the agenda there completes it from the start. -/
  completes : ∀ u x, Completes (item :: rest) u x →
    ∃ y, Completes agenda (tokens.map Token.lexeme ++ u) y

theorem Halt.stuck (hfit : Fit (item :: agenda) s.lexemes)
    (hforeseen : Foreseen (item :: agenda) s.lexemes) (h : s.Halt agenda item failure) :
    s.Stuck (item :: agenda) failure [] s item agenda where
  moves := ⟨[], Moves.refl s⟩
  halt := h
  fit := hfit
  foreseen := hforeseen
  shifted := by
    intro hshift
    obtain rfl := Option.some.inj hshift
    exact absurd (h.mayFail hforeseen) (by simp [Item.mayFail])
  completes u x hcompletes := ⟨x, hcompletes⟩

theorem Advance.stuck {tokens : List Token} {s₁ : Session} {last : Item} {rest : List Item}
    (hfit : Fit (item :: agenda) s.lexemes) (hforeseen : Foreseen (item :: agenda) s.lexemes)
    (h : s.Advance agenda item agenda' s') (hstuck : s'.Stuck agenda' failure tokens s₁ last rest) :
    ∃ consumed, s.Stuck (item :: agenda) failure (consumed ++ tokens) s₁ last rest := by
  have hlast : item = .finish → agenda = [] := by
    rintro rfl
    exact hforeseen.eq_nil
  obtain ⟨consumed, events, hmoves, hshift, hcompletes⟩ := h.completes_of_head hfit hlast
  obtain ⟨later, hrest⟩ := hstuck.moves
  refine ⟨consumed, ⟨events ++ later, hmoves.trans hrest⟩, hstuck.halt, hstuck.fit,
    hstuck.foreseen, ?_, fun u x hu ↦ ?_⟩
  · exact fun hhead ↦ List.append_ne_nil_of_left_ne_nil (hshift (Option.some.inj hhead)) tokens
  · obtain ⟨y, hy⟩ := hstuck.completes u x hu
    rw [List.map_append, List.append_assoc]
    refine hcompletes _ y (fun hhead ↦ ?_) hy
    -- The token that is shifted is consumed before the item fails, so it is in front of both.
    have hne := hstuck.shifted hhead
    rw [hrest.lexemes]
    cases tokens with
    | nil => exact absurd rfl hne
    | cons token tokens => rfl

/-- A failed run has got to an item that failed. -/
theorem run_stuck (h : s.run agenda = (.error failure, s')) (hfit : Fit agenda s.lexemes)
    (hforeseen : Foreseen agenda s.lexemes) :
    ∃ tokens s₁ item rest, s.Stuck agenda failure tokens s₁ item rest := by
  refine run_induction (motive := fun s agenda outcome _ ↦ ∀ failure, outcome = .error failure →
    Fit agenda s.lexemes → Foreseen agenda s.lexemes →
      ∃ tokens s₁ item rest, s.Stuck agenda failure tokens s₁ item rest)
    ?nil ?halt ?advance s agenda h failure rfl hfit hforeseen
  case nil => simp
  case halt =>
    intro s agenda item failure s' hhalt _ failure' hfailure hfit hforeseen
    obtain rfl := Except.error.inj hfailure
    exact ⟨[], s, item, agenda, hhalt.stuck hfit hforeseen⟩
  case advance =>
    intro s agenda item agenda' s₁ outcome s' hadvance ih failure hfailure hfit hforeseen
    obtain ⟨tokens, s₂, last, rest, hstuck⟩ :=
      ih failure hfailure (hadvance.fit hfit) (hadvance.foreseen hfit hforeseen)
    obtain ⟨consumed, hstuck⟩ := hadvance.stuck hfit hforeseen hstuck
    exact ⟨consumed ++ tokens, s₂, last, rest, hstuck⟩

end Session

/-! ### The complaint of a source -/

/-- What was found comes after so many of the tokens. -/
def Found.After (tokens : List Token) (i : Nat) : Found → Prop
  | token t => tokens[i]? = some t
  | endOfInput _ => i = tokens.length

namespace Session.Stuck

variable {tokens : List Token} {rest : List Item}

/-- The item fails after the tokens consumed. -/
theorem after (h : s.Stuck agenda (.syntactic e) tokens s' item rest) :
    e.found.After s.pending tokens.length := by
  obtain ⟨events, hmoves⟩ := h.moves
  have hdepth : item.depth = 0 := Item.depth_of_refusal h.halt.refusal
  cases h.halt with
  | token htoken _ =>
    rw [hdepth] at htoken
    show s.pending[tokens.length]? = _
    rw [hmoves.pending_eq, List.getElem?_append_right (Nat.le_refl _), Nat.sub_self, htoken]
  | endOfInput hlength _ _ =>
    rw [hdepth] at hlength
    show tokens.length = s.pending.length
    rw [hmoves.pending_eq, List.length_append]
    omega

theorem lexemes_take (h : s.Stuck agenda failure tokens s' item rest) :
    s.lexemes.take tokens.length = tokens.map Token.lexeme := by
  obtain ⟨events, hmoves⟩ := h.moves
  rw [hmoves.lexemes, ← List.length_map (f := Token.lexeme), List.take_left]

/-- With a token that is asked for after them, the tokens consumed start a class. -/
theorem viable (h : s.Stuck [.rule .classDec, .finish] (.syntactic e) tokens s' item rest)
    (hadmits : e.expected.Admits l) : Viable (tokens.map Token.lexeme ++ [l]) := by
  obtain ⟨more, x, hcompletes⟩ := h.halt.extends_of_admits h.fit h.foreseen hadmits
  obtain ⟨y, hy⟩ := h.completes _ x hcompletes
  rw [← List.append_assoc] at hy
  exact ⟨more, y, completes_start.1 hy⟩

/-- Where the end of the text is asked for, the tokens consumed are a class. -/
theorem isClass (h : s.Stuck [.rule .classDec, .finish] (.syntactic e) tokens s' item rest)
    (hexpected : e.expected = .endOfInput) : ∃ x, IsClass (tokens.map Token.lexeme) x := by
  obtain ⟨x, hcompletes⟩ := h.halt.completes_of_endOfInput h.fit h.foreseen hexpected
  obtain ⟨y, hy⟩ := h.completes _ x hcompletes
  rw [List.append_nil] at hy
  exact ⟨y, completes_start.1 hy⟩

end Session.Stuck

/-- The words for what was expected are truthful. The tokens before the one found, or all tokens if
the end of the text was found, start a class with any token after them that the words describe, and
some token is described unless the end of the text was expected. Where it was, they are a class.
Neither any token nor a statement is ever expected. -/
theorem Source.hint_truthful (source : Source) (limits : Limits)
    (h : (Session.ofText source.text limits).runClass.1 = .error (.parse (.syntactic e))) :
    let tokens := (source.reading limits).tokens
    let lexemes := tokens.map Token.lexeme
    let hint := e.expected.text
    (e.diagnostic source).origin =
        .syntactic (e.rule.map Rule.name) (some hint) (some e.found.text) ∧
      (∃ i, e.found.After tokens i ∧ (∀ l, Describes hint l → Viable (lexemes.take i ++ [l])) ∧
        (hint = "end of input" → ∃ events, IsClass (lexemes.take i) events)) ∧
      (hint = "end of input" ∨ ∃ l, Describes hint l) ∧
      hint ≠ "token" ∧ ¬ "statement (".toList <+: hint.toList := by
  intro tokens lexemes hint
  obtain ⟨s, hrun⟩ := Session.run_of_runClass_error rfl h
  obtain ⟨consumed, s₁, item, rest, hstuck⟩ :=
    Session.run_stuck hrun (Fit.start _) (Foreseen.start _)
  have hlexemes : lexemes.take consumed.length = consumed.map Token.lexeme := hstuck.lexemes_take
  obtain ⟨hany, hstatement⟩ := hstuck.halt.expected_ne hstuck.foreseen
  obtain ⟨htoken, hprefix, hend⟩ := Expectation.text_ne hany hstatement
  refine ⟨rfl, ⟨consumed.length, hstuck.after, fun l hl ↦ ?_, fun hhint ↦ ?_⟩, ?_, htoken, hprefix⟩
  · rw [hlexemes]
    exact hstuck.viable (e.expected.describes_iff.1 hl)
  · rw [hlexemes]
    exact hstuck.isClass (hend hhint)
  · refine (hstuck.halt.exists_admits hstuck.fit hstuck.foreseen).imp ?_ ?_
    · exact congrArg Expectation.text
    · exact fun ⟨l, hl⟩ ↦ ⟨l, e.expected.describes_iff.2 hl⟩

/-- The keyword of a class is expected to be followed by a name, and any name may follow it. -/
theorem Source.hint_truthful_keyword :
    let e : SyntaxError := {
      rule := some .classDec
      expected := .terminal (.identifier .className)
      found := .endOfInput ⟨1, 6, 5⟩ }
    (Session.ofText "class" {}).runClass.1 = .error (.parse (.syntactic e)) ∧
      e.expected.text = "identifier (class name)" ∧
      ∀ l, Describes e.expected.text l → Viable [.keyword .kwClass, l] := by
  intro e
  -- A run does not evaluate, so its steps are taken one by one, from what sessions answer.
  let token : Token := ⟨.keyword .kwClass, ⟨⟨1, 1, 0⟩, ⟨1, 6, 5⟩⟩⟩
  let agenda := Rule.classDec.body.drop 2 ++ [.close .classDec, .finish]
  obtain ⟨start, hstart⟩ : ∃ start, start = (Session.ofText "class" {}).enter .classDec := ⟨_, rfl⟩
  obtain ⟨seen, hlook⟩ : ∃ seen, start.look 0 = (.ok (some token), seen) :=
    ⟨_, Prod.ext (by rw [hstart]; decide +kernel) rfl⟩
  obtain ⟨after, hlook', hend⟩ : ∃ after, (seen.consume token).look 0 = (.ok none, after) ∧
      after.endPosition = ⟨1, 6, 5⟩ := by
    obtain ⟨-, rfl⟩ := Prod.mk.inj hlook
    rw [hstart]
    exact ⟨_, Prod.ext (by decide +kernel) rfl, by decide +kernel⟩
  have hrule : (Session.ofText "class" {}).step [.finish] (.rule .classDec) =
      (.ok (.keyword [.kwClass] :: .identifier .className :: agenda), start) := by
    rw [hstart]
    rfl
  have hkeyword : start.step (.identifier .className :: agenda) (.keyword [.kwClass]) =
      (.ok (.identifier .className :: agenda), seen.consume token) := by
    rw [Item.keyword, Session.step, hlook]
    rfl
  have hname : (seen.consume token).step agenda (.identifier .className) =
      (.error (.syntactic e), after) := by
    rw [Item.identifier, Session.step, hlook']
    simp only [Session.unexpected, hend]
    rfl
  have hclass : (Session.ofText "class" {}).runClass.1 = .error (.parse (.syntactic e)) := by
    rw [Session.runClass_eq rfl, Session.run_of_step_ok hrule, Session.run_of_step_ok hkeyword,
      Session.run_of_step_error hname]
    rfl
  let source : Source := ⟨"A.jack", "class"⟩
  obtain ⟨-, ⟨i, hafter, hviable, -⟩, -⟩ := source.hint_truthful {} hclass
  have htokens : (source.reading {}).tokens = [token] := by decide +kernel
  have hi : i = 1 := hafter.trans (by rw [htokens]; rfl)
  refine ⟨hclass, by decide, fun l hl ↦ ?_⟩
  have hl := hviable l hl
  rwa [htokens, hi] at hl

end JackSyntax
