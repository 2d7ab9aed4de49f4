import JackSyntax.Event
import JackSyntax.Lexer.TokenStream
import JackSyntax.Parser.SyntaxError

/-!
# The parser

A `Session` is a text being parsed: the stream of its tokens not yet consumed and the events of
those that were. What has to follow is an agenda, a list of items. `Session.step` treats the first
item of the agenda: a terminal consumes a token, a rule is replaced by its body, a choice by the
items selected for the token ahead. `Session.run` goes on until the agenda is empty or an item
fails; a failure leaves the session where it arose, and the agenda is dropped.

A rule that has begun is on the agenda as an item that closes it, so the innermost rule in force is
that of the first closing item.

## Main statements

* `Session.step_decreases`: a step consumes a token, or the agenda becomes less urgent. This is why
  `Session.run` ends on every text.
-/

namespace JackSyntax

/-- The rule that the item ends. -/
def Item.closes? : Item → Option Rule
  | close r => some r
  | _ => none

/-- The innermost rule begun and not ended. -/
def innermostRule (agenda : List Item) : Option Rule :=
  agenda.findSome? Item.closes?

/-- A text being parsed. -/
structure Session where
  /-- The tokens not yet consumed. -/
  stream : TokenStream
  /-- The place just past the text. -/
  endPosition : Position
  /-- The events of what was parsed, last first. -/
  emitted : List Event := []
  /-- Whether a whole class has been asked for. -/
  used : Bool := false

namespace Session

/-- A session at the start of the text. -/
def ofText (text : String) (limits : Limits) : Session where
  stream := { source := .ofText text limits }
  endPosition := JackSyntax.endPosition text

/-- The token `depth` places ahead, and the session whose stream has been pulled so far. -/
def look (s : Session) (depth : Nat) : Except LexError (Option Token) × Session :=
  let (answer, stream) := s.stream.peek depth
  (answer, { s with stream })

/-- The events of what was parsed, in order. -/
def events (s : Session) : List Event :=
  s.emitted.reverse

/-- The session with one more event. -/
def emit (s : Session) (e : Event) : Session :=
  { s with emitted := e :: s.emitted }

@[simp]
theorem events_emit (s : Session) (e : Event) : (s.emit e).events = s.events ++ [e] := by
  simp [events, emit]

/-- The session with the token in front, which was looked at, consumed and its terminal emitted. -/
def consume (s : Session) (token : Token) : Session :=
  { s with stream := s.stream.advance.2 }.emit (.ofLexeme token.lexeme)

/-- The session as a rule begins. -/
def enter (s : Session) (r : Rule) : Session :=
  if r.tagged then s.emit (.enter r.name) else s

/-- The session as a rule ends. -/
def leave (s : Session) (r : Rule) : Session :=
  if r.tagged then s.emit (.leave r.name) else s

/-- The failure of an expectation, `none` standing for the end of the text. -/
def unexpected (s : Session) (agenda : List Item) (expected : Expectation) (found : Option Token) :
    ParseFailure :=
  .syntactic {
    rule := innermostRule agenda
    expected
    found := match found with
      | some token => .token token
      | none => .endOfInput s.endPosition }

/-- Treats one item, with the rest of the agenda after it: the agenda then or the failure, and the
session it is met in. -/
def step (s : Session) (agenda : List Item) : Item → Except ParseFailure (List Item) × Session
  | .terminal t =>
    match s.look 0 with
    | (.error e, s) => (.error (.lexical e), s)
    | (.ok none, s) => (.error (s.unexpected agenda (.terminal t) none), s)
    | (.ok (some token), s) =>
      if t.admits token.lexeme then (.ok agenda, s.consume token)
      else (.error (s.unexpected agenda (.terminal t) (some token)), s)
  -- The closing item goes below the body, where `innermostRule` finds it while the body lasts.
  | .rule r => (.ok (r.body ++ .close r :: agenda), s.enter r)
  | .close r => (.ok agenda, s.leave r)
  | .choice c =>
    match s.look c.depth with
    | (.error e, s) => (.error (.lexical e), s)
    | (.ok ahead, s) =>
      match c.select (ahead.map Token.lexeme) with
      | .error expected => (.error (s.unexpected agenda expected ahead), s)
      | .ok items => (.ok (items ++ agenda), s)
  | .finish =>
    match s.look 0 with
    | (.error e, s) => (.error (.lexical e), s)
    | (.ok none, s) => (.ok agenda, s)
    | (.ok (some token), s) => (.error (s.unexpected agenda .endOfInput (some token)), s)

end Session

/-! ### Urgency

How many steps an agenda can take at most before it consumes a token. Only items that may be
satisfied by no token at all let the items after them count.
-/

/-- Whether the item may be satisfied by no token. -/
def Item.nullable : Item → Bool
  | terminal _ => false
  | rule .parameterList | rule .statements | rule .expressionList => true
  | rule _ => false
  | close _ | finish => true
  | choice .statement | choice .term | choice .nameTerm => false
  | choice _ => true

/-- The steps that the item can take before a token is consumed or the item is done. -/
def Item.cost : Item → Nat
  | terminal _ => 0
  | rule .parameterList => 3
  | rule .statements => 5
  | rule .expressionList => 8
  | rule .expression => 5
  | rule .term => 4
  | rule _ => 1
  | close _ | finish => 1
  | choice (.many _) | choice .term => 3
  | choice .statement | choice .nameTerm => 2
  | choice .result | choice .arguments => 6
  | choice _ => 1

/-- The steps that the agenda can take before a token is consumed. -/
def urgency : List Item → Nat
  | [] => 0
  | item :: agenda => item.cost + if item.nullable then urgency agenda else 0

/-- A rule is more urgent than what takes its place. -/
theorem urgency_body (r : Rule) (agenda : List Item) :
    urgency (r.body ++ .close r :: agenda) < urgency (.rule r :: agenda) := by
  cases r <;>
    simp only [Rule.body, Item.parenthesized, Item.block, List.cons_append, List.nil_append,
      urgency, Item.cost, Item.nullable, if_true, Bool.false_eq_true, if_false] <;> omega

/-- What a term begins with is less urgent than the choice of a term. -/
theorem urgency_termItems {l : Lexeme} {items : List Item} (h : termItems l = .ok items)
    (agenda : List Item) : urgency (items ++ agenda) < 3 := by
  simp only [termItems] at h
  split at h
  · obtain rfl := Except.ok.inj h
    simp [urgency, Item.cost, Item.nullable]
  · split at h
    · obtain rfl := Except.ok.inj h
      simp [Item.parenthesized, urgency, Item.cost, Item.nullable]
    · split at h
      · obtain rfl := Except.ok.inj h
        simp [urgency, Item.cost, Item.nullable]
      · split at h
        · obtain rfl := Except.ok.inj h
          simp [urgency, Item.cost, Item.nullable]
        · simp at h

/-- What a statement begins with is less urgent than the choice of a statement. -/
theorem urgency_statementItems {l : Lexeme} {items : List Item}
    (h : statementItems l = .ok items) (agenda : List Item) : urgency (items ++ agenda) < 2 := by
  unfold statementItems at h
  split at h
  · rename_i k
    cases k <;> simp only [Rule.ofStatementStart?, reduceCtorEq, Except.ok.injEq] at h <;>
      subst h <;> simp [urgency, Item.cost, Item.nullable]
  · simp at h

/-- Each selection is less urgent than the choice it was made for. -/
theorem urgency_select {c : Choice} {ahead : Option Lexeme} {items : List Item}
    (h : c.select ahead = .ok items) (agenda : List Item) :
    urgency (items ++ agenda) < urgency (.choice c :: agenda) := by
  cases c with
  | term =>
    cases ahead with
    | none => simp [Choice.select] at h
    | some l => simpa [urgency, Item.cost, Item.nullable] using urgency_termItems h agenda
  | statement =>
    cases ahead with
    | none => simp [Choice.select] at h
    | some l => simpa [urgency, Item.cost, Item.nullable] using urgency_statementItems h agenda
  | many r =>
    obtain rfl := Except.ok.inj h
    split
    · cases r <;> simp [Repeatable.item, urgency, Item.cost, Item.nullable] <;> omega
    · simp [urgency, Item.cost, Item.nullable]
  | _ =>
    obtain rfl := Except.ok.inj h
    split <;> simp [Item.block, urgency, Item.cost, Item.nullable] <;> omega

namespace Session

/-- What is left to do: tokens first, and then the steps before the next one is consumed. -/
def measure (s : Session) (agenda : List Item) : Nat × Nat :=
  (s.stream.extent, urgency agenda)

@[simp]
theorem stream_enter (s : Session) (r : Rule) : (s.enter r).stream = s.stream := by
  unfold enter
  split <;> rfl

@[simp]
theorem stream_leave (s : Session) (r : Rule) : (s.leave r).stream = s.stream := by
  unfold leave
  split <;> rfl

/-- Looking ahead reads, but consumes nothing. -/
theorem extent_look_le {s s' : Session} {depth : Nat} {answer : Except LexError (Option Token)}
    (h : s.look depth = (answer, s')) : s'.stream.extent ≤ s.stream.extent := by
  obtain ⟨-, rfl⟩ := Prod.mk.inj h
  exact s.stream.extent_peek_le depth

/-- The token in front is one of those that were left. -/
theorem extent_consume_lt {s s' : Session} {token : Token}
    (h : s.look 0 = (.ok (some token), s')) :
    (s'.consume token).stream.extent < s.stream.extent := by
  refine Nat.lt_of_lt_of_le ?_ (extent_look_le h)
  obtain ⟨hanswer, rfl⟩ := Prod.mk.inj h
  obtain ⟨window, hwindow⟩ := TokenStream.window_peek_zero (Prod.ext hanswer rfl)
  show (s.stream.peek 0).2.advance.2.extent < (s.stream.peek 0).2.extent
  rw [TokenStream.advance_of_window hwindow]
  simp [TokenStream.extent, hwindow]

/-- A step that consumes nothing has to make the agenda less urgent. -/
theorem measure_lt {s s' : Session} {agenda agenda' : List Item}
    (hextent : s'.stream.extent ≤ s.stream.extent) (hurgency : urgency agenda' < urgency agenda) :
    Prod.Lex (· < ·) (· < ·) (s'.measure agenda') (s.measure agenda) := by
  rcases Nat.lt_or_eq_of_le hextent with hlt | heq
  · exact Prod.Lex.left _ _ hlt
  · rw [measure, measure, heq]
    exact Prod.Lex.right _ hurgency

/-- A step consumes a token, or the agenda becomes less urgent. -/
theorem step_decreases {s s' : Session} {item : Item} {agenda agenda' : List Item}
    (h : s.step agenda item = (.ok agenda', s')) :
    Prod.Lex (· < ·) (· < ·) (s'.measure agenda') (s.measure (item :: agenda)) := by
  cases item with
  | terminal t =>
    simp only [step] at h
    split at h
    · simp at h
    · simp at h
    · rename_i token _ hlook
      split at h
      · obtain ⟨-, rfl⟩ := Prod.mk.inj h
        -- Only here is a token consumed; all other steps lower the urgency.
        exact Prod.Lex.left _ _ (extent_consume_lt hlook)
      · simp at h
  | rule r =>
    obtain ⟨hagenda, rfl⟩ := Prod.mk.inj h
    obtain rfl := Except.ok.inj hagenda
    exact measure_lt (by simp) (urgency_body r agenda)
  | close r =>
    obtain ⟨hagenda, rfl⟩ := Prod.mk.inj h
    obtain rfl := Except.ok.inj hagenda
    exact measure_lt (by simp) (by simp [urgency, Item.cost, Item.nullable])
  | choice c =>
    simp only [step] at h
    split at h
    · simp at h
    · rename_i hlook
      split at h
      · simp at h
      · rename_i hselect
        obtain ⟨hagenda, rfl⟩ := Prod.mk.inj h
        obtain rfl := Except.ok.inj hagenda
        exact measure_lt (extent_look_le hlook) (urgency_select hselect agenda)
  | finish =>
    simp only [step] at h
    split at h
    · simp at h
    · rename_i hlook
      obtain ⟨hagenda, rfl⟩ := Prod.mk.inj h
      obtain rfl := Except.ok.inj hagenda
      exact measure_lt (extent_look_le hlook) (by simp [urgency, Item.cost, Item.nullable])
    · simp at h

/-- Treats the items of the agenda in turn, and those that replace them, until none is left or one
fails. -/
def run (s : Session) : List Item → Except ParseFailure Unit × Session
  | [] => (.ok (), s)
  | item :: agenda =>
    match _ : s.step agenda item with
    | (.error failure, s') => (.error failure, s')
    | (.ok agenda', s') => s'.run agenda'
termination_by agenda => s.measure agenda
decreasing_by
  rename_i h
  exact step_decreases h

/-- Why a class was not parsed. -/
inductive ClassFailure where
  /-- The text is at fault. -/
  | parse (failure : ParseFailure)
  /-- The session has been asked for a class before. -/
  | reused
deriving DecidableEq, Repr

/-- Parses a whole text, which has to be one class. A session does so at most once. -/
def runClass (s : Session) : Except ClassFailure Unit × Session :=
  if s.used then (.error .reused, s)
  else
    let (outcome, s) := { s with used := true }.run [.rule .classDec, .finish]
    (outcome.mapError .parse, s)

/-- Parses one more of a list, if the token ahead starts one; the answer is whether it does. -/
def attempt (s : Session) (r : Repeatable) : Except ParseFailure Bool × Session :=
  match s.look 0 with
  | (.error e, s) => (.error (.lexical e), s)
  | (.ok ahead, s) =>
    if ahead.any (·.lexeme.isKeyword r.starts) then
      let (outcome, s) := s.run [r.item]
      (outcome.map fun _ ↦ true, s)
    else (.ok false, s)

end Session

end JackSyntax
