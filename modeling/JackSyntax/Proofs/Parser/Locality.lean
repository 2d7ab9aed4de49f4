import JackSyntax.Proofs.Lexer.Continuation
import JackSyntax.Proofs.Parser.ViablePrefix

/-!
# A complaint depends on the text up to its token

A parser that complains of a token has looked at nothing after it. It does look past a name, but
not when the name is the token complained of, since any name starts a term (`Fit.depth_lt`). So two
sessions that have the same tokens left up to that one take the same steps (`Session.Alike`), and
the tokens up to it are the same whatever comes after a space after it (`take_tokens_cutAfter`).

## Main statements

* `Session.Alike.run`: sessions that are alike run alike.
* `Source.complaint_cutAfter`: the complaint, when something else comes after its token.
-/

namespace JackSyntax

variable {s s₁ s₂ s' : Session} {item : Item} {agenda : List Item} {token : Token}

/-- Lexemes that the agenda does not allow are more than those before the one that is looked at. -/
theorem Fit.depth_lt {lexemes : List Lexeme} {n : Nat} (hfit : Fit (item :: agenda) lexemes)
    (hnot : ¬ Extends (item :: agenda) (lexemes.take n)) : item.depth < n := by
  refine Decidable.by_contra fun hge ↦ hnot ?_
  refine hfit.extends_of_length_le (List.take_prefix _ _) ?_
  have hlength := List.length_take_le n lexemes
  omega

namespace Session

/-- A token that is left is seen. -/
theorem look_of_pending {depth : Nat} (h : s.pending[depth]? = some token) :
    (s.look depth).1 = .ok (some token) ∧ s.Moves (s.look depth).2 [] [] := by
  obtain ⟨hanswer, hmoves⟩ := moves_look (Prod.eta (s.look depth)).symm
  refine ⟨?_, hmoves⟩
  rw [hanswer]
  simp only [TokenStream.ahead, h]

/-- A step is decided by the token that it looks at, and consumes at most that. -/
theorem step_agrees (h₁ : s₁.pending[item.depth]? = some token)
    (h₂ : s₂.pending[item.depth]? = some token) (agenda : List Item) :
    (s₁.step agenda item).1 = (s₂.step agenda item).1 ∧ ∃ tokens events, tokens.length ≤ 1 ∧
      s₁.Moves (s₁.step agenda item).2 tokens events ∧
        s₂.Moves (s₂.step agenda item).2 tokens events := by
  have hnone : ([] : List Token).length ≤ 1 := Nat.zero_le 1
  rcases hlook₁ : s₁.look item.depth with ⟨answer₁, s₁'⟩
  rcases hlook₂ : s₂.look item.depth with ⟨answer₂, s₂'⟩
  obtain ⟨hanswer₁, hmoves₁⟩ := look_of_pending h₁
  obtain ⟨hanswer₂, hmoves₂⟩ := look_of_pending h₂
  rw [hlook₁] at hanswer₁ hmoves₁
  rw [hlook₂] at hanswer₂ hmoves₂
  subst hanswer₁ hanswer₂
  cases item with
  | terminal t =>
    have hlook₁' : s₁.look 0 = (.ok (some token), s₁') := hlook₁
    have hlook₂' : s₂.look 0 = (.ok (some token), s₂') := hlook₂
    simp only [step, hlook₁', hlook₂']
    by_cases hadmits : t.admits token.lexeme = true
    · simp only [if_pos hadmits]
      exact ⟨trivial, [token], [token.event], Nat.le_refl 1, moves_consume hlook₁',
        moves_consume hlook₂'⟩
    · simp only [if_neg hadmits]
      exact ⟨rfl, [], [], hnone, hmoves₁, hmoves₂⟩
  | rule r => exact ⟨rfl, [], r.opening, hnone, s₁.moves_enter r, s₂.moves_enter r⟩
  | close r => exact ⟨rfl, [], r.closing, hnone, s₁.moves_leave r, s₂.moves_leave r⟩
  | choice c =>
    have hlook₁' : s₁.look c.depth = (.ok (some token), s₁') := hlook₁
    have hlook₂' : s₂.look c.depth = (.ok (some token), s₂') := hlook₂
    simp only [step, hlook₁', hlook₂']
    split
    · exact ⟨rfl, [], [], hnone, hmoves₁, hmoves₂⟩
    · exact ⟨rfl, [], [], hnone, hmoves₁, hmoves₂⟩
  | finish =>
    have hlook₁' : s₁.look 0 = (.ok (some token), s₁') := hlook₁
    have hlook₂' : s₂.look 0 = (.ok (some token), s₂') := hlook₂
    simp only [step, hlook₁', hlook₂']
    exact ⟨rfl, [], [], hnone, hmoves₁, hmoves₂⟩

/-- Two sessions have the same tokens left up to one that the agenda does not allow. -/
structure Alike (s₁ s₂ : Session) (agenda : List Item) (count : Nat) : Prop where
  fit : Fit agenda s₁.lexemes
  le : count ≤ s₁.pending.length
  same : s₁.pending.take count = s₂.pending.take count
  not_extends : ¬ Extends agenda (s₁.lexemes.take count)

/-- They take the same step. -/
theorem Alike.step {count : Nat} {answer : Except ParseFailure (List Item)}
    (h : Alike s₁ s₂ (item :: agenda) count) (hstep : s₁.step agenda item = (answer, s')) :
    ∃ s₂' tokens events, s₂.step agenda item = (answer, s₂') ∧ tokens.length ≤ 1 ∧
      s₁.Moves s' tokens events ∧ s₂.Moves s₂' tokens events := by
  have hlt := h.fit.depth_lt h.not_extends
  obtain ⟨token, htoken⟩ : ∃ token, s₁.pending[item.depth]? = some token :=
    ⟨_, List.getElem?_eq_getElem (Nat.lt_of_lt_of_le hlt h.le)⟩
  have htoken₂ : s₂.pending[item.depth]? = some token := by
    rw [← htoken, ← List.getElem?_take_of_lt hlt, ← h.same, List.getElem?_take_of_lt hlt]
  obtain ⟨hanswer, tokens, events, hone, hmoves₁, hmoves₂⟩ := step_agrees htoken htoken₂ agenda
  rw [hstep] at hanswer hmoves₁
  have hstep₂ : s₂.step agenda item = (answer, (s₂.step agenda item).2) := Prod.ext hanswer.symm rfl
  exact ⟨_, tokens, events, hstep₂, hone, hmoves₁, hmoves₂⟩

/-- And if the step goes well, they are alike after it. -/
theorem Alike.advance {count : Nat} {agenda' : List Item} {s₁' s₂' : Session} {tokens : List Token}
    {events : List Event} (h : Alike s₁ s₂ (item :: agenda) count)
    (hadvance : s₁.Advance agenda item agenda' s₁') (hone : tokens.length ≤ 1)
    (hmoves₁ : s₁.Moves s₁' tokens events) (hmoves₂ : s₂.Moves s₂' tokens events) :
    ∃ count', Alike s₁' s₂' agenda' count' := by
  have hlt := h.fit.depth_lt h.not_extends
  obtain ⟨more, rfl⟩ : ∃ more, count = tokens.length + more := ⟨count - tokens.length, by omega⟩
  obtain ⟨tokens', events', hmoves, hextends⟩ := hadvance.extends_iff h.fit
  obtain rfl : tokens' = tokens :=
    List.append_cancel_right (hmoves.pending_eq.symm.trans hmoves₁.pending_eq)
  have hle := h.le
  have hsame := h.same
  have hnot := h.not_extends
  rw [hmoves₁.pending_eq, List.length_append] at hle
  rw [hmoves₁.pending_eq, hmoves₂.pending_eq, List.take_length_add_append,
    List.take_length_add_append] at hsame
  rw [hmoves₁.lexemes, ← List.length_map (f := Token.lexeme), List.take_length_add_append,
    hextends _ (List.take_prefix _ _)] at hnot
  exact ⟨more, hadvance.fit h.fit, by omega, List.append_cancel_left hsame, hnot⟩

/-- Sessions that are alike run alike. -/
theorem Alike.run {count : Nat} (h : Alike s₁ s₂ agenda count) :
    (s₁.run agenda).1 = (s₂.run agenda).1 ∧ ∃ tokens events,
      s₁.Moves (s₁.run agenda).2 tokens events ∧ s₂.Moves (s₂.run agenda).2 tokens events := by
  induction s₁, agenda using run.induct generalizing s₂ count with
  | case1 s₁ =>
    rw [run_nil, run_nil]
    exact ⟨rfl, [], [], Moves.refl s₁, Moves.refl s₂⟩
  | case2 s₁ item agenda failure s₁' hstep =>
    obtain ⟨s₂', tokens, events, hstep₂, -, hmoves₁, hmoves₂⟩ := h.step hstep
    rw [run_of_step_error hstep, run_of_step_error hstep₂]
    exact ⟨rfl, tokens, events, hmoves₁, hmoves₂⟩
  | case3 s₁ item agenda agenda' s₁' hstep ih =>
    obtain ⟨s₂', tokens, events, hstep₂, hone, hmoves₁, hmoves₂⟩ := h.step hstep
    rw [run_of_step_ok hstep, run_of_step_ok hstep₂]
    obtain ⟨count', halike⟩ := h.advance (advance_of_step hstep) hone hmoves₁ hmoves₂
    obtain ⟨hsame, more, later, hrest₁, hrest₂⟩ := ih halike
    exact ⟨hsame, _, _, hmoves₁.trans hrest₁, hmoves₂.trans hrest₂⟩

/-! ### A whole class -/

/-- Fresh sessions that are alike and have the same events still have so after a class. -/
theorem Alike.runClass {count : Nat} (h : Alike s₁ s₂ [.rule .classDec, .finish] count)
    (hfresh₁ : s₁.used = false) (hfresh₂ : s₂.used = false) (hevents : s₁.events = s₂.events) :
    s₁.runClass.1 = s₂.runClass.1 ∧ s₁.runClass.2.events = s₂.runClass.2.events := by
  obtain ⟨hanswer, tokens, events, hmoves₁, hmoves₂⟩ := h.run
  rw [runClass_eq hfresh₁, runClass_eq hfresh₂, hanswer]
  refine ⟨rfl, ?_⟩
  calc (s₁.run [.rule .classDec, .finish]).2.events
    _ = s₁.events ++ events := hmoves₁.events_eq
    _ = s₂.events ++ events := by rw [hevents]
    _ = (s₂.run [.rule .classDec, .finish]).2.events := hmoves₂.events_eq.symm

/-- A text in which something else comes after the token complained of is alike up to it. -/
theorem alike_cutAfter {text : String} {limits : Limits} {e : SyntaxError}
    (h : (ofText text limits).runClass.1 = .error (.parse (.syntactic e)))
    (hfound : e.found = .token token) (more : String) :
    ∃ count, Alike (ofText text limits)
      (ofText (cutAfter text token.span.stop.offset more) limits) [.rule .classDec, .finish]
      count := by
  cases runClass_blames rfl h with
  | @token _ token' i htoken hfound' _ hnot =>
    obtain rfl := Found.token.inj (hfound.symm.trans hfound')
    exact ⟨i + 1, {
      fit := Fit.start _
      le := (List.getElem?_eq_some_iff.1 htoken).1
      same := (take_tokens_cutAfter htoken more).symm
      not_extends := hnot }⟩
  | endOfInput _ hfound' _ _ => simp [hfound] at hfound'

end Session

/-- The complaint about a token, and what is emitted before it, depend on the text up to the end of
the token and on nothing after it: with a space and any other text there they are the same. -/
theorem Source.complaint_cutAfter (source : Source) (limits : Limits) {e : SyntaxError}
    {token : Token} {s : Session}
    (h : (Session.ofText source.text limits).runClass = (.error (.parse (.syntactic e)), s))
    (hfound : e.found = .token token) (more : String) :
    let source' : Source :=
      { source with text := cutAfter source.text token.span.stop.offset more }
    (∃ s', (Session.ofText source'.text limits).runClass = (.error (.parse (.syntactic e)), s') ∧
      s'.events = s.events) ∧
    source.events limits = .error (e.diagnostic source) ∧
    source'.events limits = .error (e.diagnostic source') ∧
    (e.diagnostic source').message = (e.diagnostic source).message ∧
    (e.diagnostic source').span = (e.diagnostic source).span ∧
    (e.diagnostic source').origin = (e.diagnostic source).origin := by
  intro source'
  obtain ⟨count, halike⟩ := Session.alike_cutAfter (congrArg Prod.fst h) hfound more
  rcases h' : (Session.ofText source'.text limits).runClass with ⟨answer, s'⟩
  have hsame := halike.runClass rfl rfl rfl
  have htext : cutAfter source.text token.span.stop.offset more = source'.text := rfl
  rw [htext, h, h'] at hsame
  obtain ⟨rfl, hevents⟩ := hsame
  exact ⟨⟨s', rfl, hevents.symm⟩, events_of_runClass_error h, events_of_runClass_error h', rfl, rfl,
    rfl⟩

/-- A number is no class, and is found to be none before the quote that nothing closes is met. -/
theorem Source.complaint_cutAfter_number :
    let e : SyntaxError := {
      rule := some .classDec
      expected := .terminal (.keyword [.kwClass])
      found := .token ⟨.integer 1, ⟨⟨1, 1, 0⟩, ⟨1, 2, 1⟩⟩⟩ }
    ∃ s s', (Session.ofText "1" {}).runClass = (.error (.parse (.syntactic e)), s) ∧
      (Session.ofText "1 \"" {}).runClass = (.error (.parse (.syntactic e)), s') ∧
      s'.events = s.events := by
  intro e
  let t := Tokenizer.ofText "1" {}
  let start := Session.ofText "1" {}
  let agenda := Rule.classDec.body.tail ++ [.close .classDec, .finish]
  have hrun : MaximalRun Char.isDigit ['1'] [] := ⟨List.forall_mem_singleton.2 rfl, by simp⟩
  have hdigit : Spelled 32767 _ ['1'] [] := .integer (List.cons_ne_nil _ _) hrun (by decide)
  have hfront : t.Front [] ['1'] (.integer 1) [] := ⟨by decide, rfl, .nil, rfl, hdigit⟩
  have hpending : (start.enter .classDec).pending[0]? = some (t.placed [] ['1'] (.integer 1)) := by
    have htokens : (start.enter .classDec).pending = t.remaining.tokens := rfl
    rw [htokens, Tokenizer.remaining_of_token hfront.next]
    rfl
  have hlook : (start.enter .classDec).look 0 =
      (.ok (some (t.placed [] ['1'] (.integer 1))), ((start.enter .classDec).look 0).2) :=
    Prod.ext (Session.look_of_pending hpending).1 rfl
  have hrule : start.step [.finish] (.rule .classDec) =
      (.ok (.keyword [.kwClass] :: agenda), start.enter .classDec) := rfl
  have hkeyword : (start.enter .classDec).step agenda (.keyword [.kwClass]) =
      (.error (.syntactic e), ((start.enter .classDec).look 0).2) := by
    rw [Item.keyword, Session.step, hlook]
    rfl
  obtain ⟨s, hclass⟩ : ∃ s, start.runClass = (.error (.parse (.syntactic e)), s) := by
    rw [Session.runClass_eq rfl, Session.run_of_step_ok hrule, Session.run_of_step_error hkeyword]
    exact ⟨_, rfl⟩
  obtain ⟨⟨s', hclass', hevents⟩, -⟩ :=
    Source.complaint_cutAfter ⟨"1.jack", "1"⟩ {} hclass rfl "\""
  exact ⟨s, s', hclass, hclass', hevents⟩

end JackSyntax
