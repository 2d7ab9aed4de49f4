import JackSyntax.Parser.Call
import JackSyntax.Proofs.Grammar.Selection
import JackSyntax.Proofs.Parser.Step

/-!
# Progress

A list goes round once more, and a production is begun again inside itself, only after a token has
been consumed. The reason is in the grammar alone: what an item can bring to the front of the agenda
without a token costs less than the item (`Below`), so the item is not among it. Steps keep this up
until one of them consumes a token.

`Session.Leads` puts steps in a row that leave the agenda behind some items alone. As long as they
do, what was begun by these items has not ended.

## Main statements

* `Item.Becomes.below`: what takes the place of an item costs less.
* `Session.Leads.pending_lt`: an item comes back in place of itself only after a token.
-/

namespace JackSyntax

variable {bound : Nat} {item : Item} {items items' agenda agenda' : List Item}

/-! ### What takes the place of an item -/

/-- All that can be selected for a choice, whatever token is ahead. -/
def Choice.selections : Choice → List (List Item)
  | statement =>
    [[.rule .letStatement], [.rule .ifStatement], [.rule .whileStatement], [.rule .doStatement],
      [.rule .returnStatement]]
  | term => [[.shift], Item.parenthesized, [.shift, .rule .term], [.choice .nameTerm]]
  | nameTerm => [[.rule .subroutineCall], [.shift, .choice .subscript]]
  | c => [c.part, []]

theorem mem_selections_of_select {c : Choice} {ahead : Option Lexeme}
    (h : c.select ahead = .ok items) : items ∈ c.selections := by
  rcases c.optional_or with hc | rfl | rfl | rfl
  · have hselections : c.selections = [c.part, []] := by
      cases c <;> first | rfl | simp [Choice.optional] at hc
    rw [Choice.select_of_optional hc] at h
    obtain rfl := Except.ok.inj h
    rw [hselections]
    split <;> simp
  · cases ahead with
    | none => simp [Choice.select] at h
    | some l =>
      obtain ⟨k, r, -, hr, rfl⟩ := statementItems_cases h
      cases k <;> simp only [Rule.ofStatementStart?, Option.some.injEq, reduceCtorEq] at hr <;>
        subst hr <;> decide
  · cases ahead with
    | none => simp [Choice.select] at h
    | some l =>
      rcases termItems_cases h with ⟨-, rfl⟩ | ⟨-, rfl⟩ | ⟨-, rfl⟩ | ⟨-, rfl⟩ <;> decide
  · obtain rfl := Except.ok.inj h
    split <;> decide

/-- The items take the place of the item, and no token is consumed. -/
inductive Item.Becomes : Item → List Item → Prop
  | rule (r : Rule) : Becomes (.rule r) (r.body ++ [.close r])
  | close (r : Rule) : Becomes (.close r) []
  | choice {c : Choice} {items : List Item} (hitems : items ∈ c.selections) :
    Becomes (.choice c) items
  | finish : Becomes .finish []

/-- All that can come to the front of the items before a token is consumed costs less than the
bound. -/
def Below (bound : Nat) : List Item → Prop
  | [] => True
  | item :: items => item.cost < bound ∧ (item.nullable = true → Below bound items)

theorem below_body {r : Rule} (hcost : (Item.rule r).cost ≤ bound)
    (hitems : (Item.rule r).nullable = true → Below bound items) :
    Below bound (r.body ++ [.close r] ++ items) := by
  cases r <;>
    simp_all [Rule.body, Item.parenthesized, Item.block, Below, Item.cost, Item.nullable] <;> omega

theorem below_selections {c : Choice} (hcost : (Item.choice c).cost ≤ bound)
    (hitems : (Item.choice c).nullable = true → Below bound items) :
    ∀ selected ∈ c.selections, Below bound (selected ++ items) := by
  cases c with
  | many r =>
    cases r <;>
      simp_all [Choice.selections, Choice.part, Repeatable.item, Below, Item.cost,
        Item.nullable] <;>
      omega
  | _ =>
    simp_all [Choice.selections, Choice.part, Item.parenthesized, Item.block, Below, Item.cost,
      Item.nullable]
    omega

/-- What takes the place of an item costs less, and so does what comes after it in front of which it
may vanish. -/
theorem Item.Becomes.below (h : item.Becomes items') (hcost : item.cost ≤ bound)
    (hitems : item.nullable = true → Below bound items) : Below bound (items' ++ items) := by
  cases h with
  | rule r => exact below_body hcost hitems
  | close r => exact hitems rfl
  | choice hselected => exact below_selections hcost hitems _ hselected
  | finish => exact hitems rfl

namespace Session

variable {s s₁ s' : Session} {items₁ : List Item} {n : Nat}

/-- A step consumes a token, or else other items take the place of the item treated. -/
theorem Advance.consumes_or_becomes (h : s.Advance agenda item agenda' s') :
    (∃ t token, item = .terminal t ∧ agenda' = agenda ∧ s.Moves s' [token] [token.event]) ∨
      ∃ items events, item.Becomes items ∧ agenda' = items ++ agenda ∧ s.Moves s' [] events ∧
        events.length ≤ 1 := by
  cases h with
  | terminal _ hmoves => exact .inl ⟨_, _, rfl, rfl, hmoves⟩
  | @rule r _ hmoves =>
    have hopening : r.opening.length ≤ 1 := by unfold Rule.opening; split <;> simp
    exact .inr ⟨_, _, .rule r, by simp, hmoves, hopening⟩
  | @close r _ hmoves =>
    have hclosing : r.closing.length ≤ 1 := by unfold Rule.closing; split <;> simp
    exact .inr ⟨_, _, .close r, rfl, hmoves, hclosing⟩
  | choice hitems _ hmoves =>
    exact .inr ⟨_, _, .choice (mem_selections_of_select hitems), rfl, hmoves, Nat.zero_le 1⟩
  | finish _ _ hmoves => exact .inr ⟨_, _, .finish, rfl, hmoves, Nat.zero_le 1⟩

/-! ### Steps in a row -/

/-- So many steps lead from items to others, all in front of an agenda that they leave alone. -/
inductive Leads (agenda : List Item) : Nat → Session → List Item → Session → List Item → Prop
  | refl (s : Session) (items : List Item) : Leads agenda 0 s items s items
  | step {n : Nat} {s s₁ s' : Session} {item : Item} {items items₁ items' : List Item}
    (hstep : s.step (items ++ agenda) item = (.ok (items₁ ++ agenda), s₁))
    (hmore : Leads agenda n s₁ items₁ s' items') : Leads agenda (n + 1) s (item :: items) s' items'

/-- One more step, with no agenda behind. -/
theorem Leads.cons (h : Leads [] n s₁ items₁ s' items')
    (hstep : s.step items item = (.ok items₁, s₁)) : Leads [] (n + 1) s (item :: items) s' items' :=
  .step (by rwa [List.append_nil, List.append_nil]) h

/-- What a step does to the items in front of an agenda. -/
theorem front_of_step (h : s.step (items ++ agenda) item = (.ok (items₁ ++ agenda), s₁)) :
    (items₁ = items ∧ s₁.pending.length < s.pending.length) ∨
      ∃ new, item.Becomes new ∧ items₁ = new ++ items ∧ s₁.pending = s.pending := by
  rcases (advance_of_step h).consumes_or_becomes with
    ⟨t, token, -, hitems, hmoves⟩ | ⟨new, events, hnew, hitems, hmoves, -⟩
  · refine .inl ⟨List.append_cancel_right hitems, ?_⟩
    rw [hmoves.pending_eq]
    exact Nat.lt_succ_self _
  · rw [← List.append_assoc] at hitems
    exact .inr ⟨new, hnew, List.append_cancel_right hitems, hmoves.pending_eq.symm⟩

theorem Leads.pending_le (h : Leads agenda n s items s' items') :
    s'.pending.length ≤ s.pending.length := by
  induction h with
  | refl s items => exact Nat.le_refl _
  | step hstep _ ih =>
    rcases front_of_step hstep with ⟨-, hlt⟩ | ⟨-, -, -, hpending⟩
    · exact Nat.le_trans ih (Nat.le_of_lt hlt)
    · rwa [hpending] at ih

/-- Until a token is consumed, only items below the bound come to the front. -/
theorem Leads.below_or_lt (h : Leads agenda n s items s' items') (hitems : Below bound items) :
    Below bound items' ∨ s'.pending.length < s.pending.length := by
  induction h with
  | refl s items => exact .inl hitems
  | step hstep hmore ih =>
    rcases front_of_step hstep with ⟨-, hlt⟩ | ⟨new, hnew, rfl, hpending⟩
    · exact .inr (Nat.lt_of_le_of_lt hmore.pending_le hlt)
    · rw [hpending] at ih
      exact ih (hnew.below (Nat.le_of_lt hitems.1) hitems.2)

/-- An item comes back in place of itself only after a token has been consumed. -/
theorem Leads.pending_lt (h : Leads agenda (n + 1) s [item] s' (item :: items)) :
    s'.pending.length < s.pending.length := by
  cases h with
  | step hstep hmore =>
    rcases front_of_step hstep with ⟨-, hlt⟩ | ⟨new, hnew, rfl, hpending⟩
    · exact Nat.lt_of_le_of_lt hmore.pending_le hlt
    · have hbelow : Below item.cost (new ++ []) := hnew.below (Nat.le_refl _) fun _ ↦ trivial
      rw [← hpending]
      exact (hmore.below_or_lt hbelow).resolve_left fun h ↦ Nat.lt_irrefl _ h.1

/-- A terminal is left behind only with its token. -/
theorem Leads.pending_lt_of_terminal {t : Terminal}
    (h : Leads agenda (n + 1) s (.terminal t :: items) s' items') :
    s'.pending.length < s.pending.length := by
  cases h with
  | step hstep hmore =>
    rcases front_of_step hstep with ⟨-, hlt⟩ | ⟨new, hnew, -, -⟩
    · exact Nat.lt_of_le_of_lt hmore.pending_le hlt
    · nomatch hnew

/-- So does a production, with whatever comes after it. -/
theorem Leads.pending_lt_of_production (p : Production)
    (h : Leads agenda (n + 1) s p.items s' (p.items ++ items)) :
    s'.pending.length < s.pending.length := by
  cases p with
  | condition => exact h.pending_lt_of_terminal
  | block => exact h.pending_lt_of_terminal
  | _ => exact h.pending_lt

end Session

end JackSyntax
