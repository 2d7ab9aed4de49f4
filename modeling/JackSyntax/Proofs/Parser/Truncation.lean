import JackSyntax.Proofs.Lexer.Ceiling
import JackSyntax.Proofs.Parser.Composition
import JackSyntax.Proofs.Parser.ViablePrefix

/-!
# A class cut short

No class goes on into a longer one (`IsClass.eq_nil_of_append`). A parser has found the end of a
class before it looks at what follows, and if it could go on from there the end would be somewhere
else. So a class that the limit on tokens cuts short is none, and the parser, which reads on as long
as its tokens may start a class, complains of the end of the text once it has consumed all of them
(`Session.pending_of_run_endOfInput`).

## Main statements

* `Source.events_capped`: the tokens and the events of a source under a lower limit.
-/

namespace JackSyntax

variable {s s' : Session} {u v : List Lexeme} {x y : List Event}

/-! ### Nothing more belongs to a class -/

/-- Any tokens, as many as the agenda has items. -/
def shifts (count : Nat) : List Item :=
  List.replicate count .shift

theorem completes_shifts (v : List Lexeme) :
    Completes (shifts v.length) v (v.map Event.ofLexeme) := by
  induction v with
  | nil => exact ⟨rfl, rfl⟩
  | cons l v ih => exact Terminal.form_before.2 ⟨l, v, _, rfl, rfl, rfl, ih⟩

theorem guarded_shifts (count : Nat) : Guarded (shifts count) := by
  induction count with
  | zero => trivial
  | succ count ih => exact ⟨by simp [Item.follow?], by simp, ih⟩

/-- A class with any tokens after it. -/
theorem Fit.class_shifts (count : Nat) (lexemes : List Lexeme) :
    Fit (.rule .classDec :: shifts count) lexemes where
  guarded := ⟨by simp [Item.follow?], by simp [shifts], guarded_shifts count⟩
  completable := by
    refine extends_nil_cons rfl ?_
    have hcompletes := completes_shifts (List.replicate count (.integer 0))
    rw [List.length_replicate] at hcompletes
    exact ⟨_, _, hcompletes⟩
  named := by simp

theorem IsClass.completes_shifts (hx : IsClass u x) (v : List Lexeme) :
    Completes (.rule .classDec :: shifts v.length) (u ++ v) (x ++ v.map Event.ofLexeme) :=
  ⟨u, v, x, _, rfl, rfl, hx, JackSyntax.completes_shifts v⟩

namespace Session

/-- Where the end of the text may stand, no token is left. -/
theorem pending_of_run_finish (h : s.run [.finish] = (.ok (), s')) : s.pending = [] := by
  rcases hstep : s.step [] .finish with ⟨failure | agenda, s₁⟩
  · rw [run_of_step_error hstep] at h
    simp at h
  · cases advance_of_step hstep with
    | finish hpending _ _ => exact hpending

/-- Where no token is left, none can be consumed. -/
theorem run_shifts_ne_ok (hpending : s.pending = []) (count : Nat) :
    s.run (shifts (count + 1)) ≠ (.ok (), s') := by
  intro h
  have hagenda : shifts (count + 1) = .shift :: shifts count := rfl
  rw [hagenda] at h
  rcases hstep : s.step (shifts count) .shift with ⟨failure | agenda, s₁⟩
  · rw [run_of_step_error hstep] at h
    simp at h
  · cases advance_of_step hstep with
    | terminal _ hmoves =>
      have hfront := hmoves.pending_eq
      rw [hpending] at hfront
      simp at hfront

end Session

/-- A class does not go on into a longer one. -/
theorem IsClass.eq_nil_of_append (hx : IsClass u x) (hy : IsClass (u ++ v) y) : v = [] := by
  let s := Session.ofLexemes (u ++ v)
  have hlexemes : s.lexemes = u ++ v := Session.lexemes_ofLexemes _
  have hcompletes : Completes (.rule .classDec :: shifts v.length) s.lexemes _ :=
    hlexemes ▸ hx.completes_shifts v
  obtain ⟨s₁, hrun₁, -⟩ := s.run_class_iff.2 ⟨rfl, hlexemes.symm ▸ hy⟩
  obtain ⟨s₂, hrun₂⟩ : ∃ s₂, s.run (.rule .classDec :: shifts v.length) = (.ok (), s₂) :=
    ⟨_, Prod.ext (Session.run_of_completes (Prod.eta _).symm (Fit.class_shifts v.length _) rfl
      hcompletes).1 rfl⟩
  -- Up to the end of a class the parser does the same, whatever it is asked for after that.
  have hwhole₁ : s.run ([.rule .classDec] ++ [.finish]) = (.ok (), s₁) := hrun₁
  have hwhole₂ : s.run ([.rule .classDec] ++ shifts v.length) = (.ok (), s₂) := hrun₂
  obtain ⟨s', hclass, hfinish⟩ := Session.run_append_ok hwhole₁
  obtain ⟨s'', hclass', hshifts⟩ := Session.run_append_ok hwhole₂
  obtain rfl : s' = s'' := congrArg Prod.snd (hclass.symm.trans hclass')
  have hpending : s'.pending = [] := Session.pending_of_run_finish hfinish
  cases v with
  | nil => rfl
  | cons l v => exact absurd hshifts (Session.run_shifts_ne_ok hpending v.length)

/-! ### Where the end of the text is met -/

/-- Only an item that looks at the token in front refuses it. -/
theorem Item.depth_of_refusal {item : Item} {ahead : Option Lexeme} {expected : Expectation}
    (h : item.refusal ahead = some expected) : item.depth = 0 := by
  cases item with
  | choice c =>
    cases c with
    | nameTerm => simp [Item.refusal, Choice.select] at h
    | _ => rfl
  | _ => rfl

namespace Session

/-- A parser that complains of the end of the text has consumed all its tokens. -/
theorem pending_of_run_endOfInput {agenda : List Item} {e : SyntaxError} {position : Position}
    (h : s.run agenda = (.error (.syntactic e), s')) (hfound : e.found = .endOfInput position) :
    s'.pending = [] := by
  refine run_induction (motive := fun _ _ outcome s' ↦ ∀ e, outcome = .error (.syntactic e) →
    e.found = .endOfInput position → s'.pending = []) ?nil ?halt ?advance s agenda h e rfl hfound
  case nil => simp
  case halt =>
    intro s agenda item failure s' hhalt hmoves e hfailure hfound
    obtain rfl := Except.error.inj hfailure
    cases hhalt with
    | token _ _ => simp at hfound
    | endOfInput hdepth _ hrefusal =>
      have hpending : s.pending = s'.pending := hmoves.pending_eq
      rw [Item.depth_of_refusal hrefusal] at hdepth
      rw [← hpending]
      exact List.eq_nil_of_length_eq_zero (Nat.le_zero.1 hdepth)
  case advance =>
    intro s agenda item agenda' s₁ outcome s' _ ih
    exact ih

end Session

/-! ### A source under a lower limit -/

/-- The empty text is no class. -/
theorem IsClass.ne_nil (h : IsClass u x) : u ≠ [] := by
  rintro rfl
  have hcompletes := completes_start.2 h
  rw [completes_rule] at hcompletes
  obtain ⟨x', -, hbody⟩ := hcompletes
  obtain ⟨l, u', x'', -, hcons, -⟩ := Terminal.form_before.1 hbody
  simp at hcons

theorem IsClass.viable (h : IsClass u x) : Viable u :=
  ⟨[], x, by rwa [List.append_nil]⟩

/-- A class that is cut short is none. -/
theorem IsClass.not_take (h : IsClass u x) {k : Int} (hk : k < u.length) :
    ¬ IsClass (u.take k.toNat) y := by
  intro hcut
  rw [← List.take_append_drop k.toNat u] at h
  have hdrop : u.drop k.toNat = [] := hcut.eq_nil_of_append h
  have hne : u.take k.toNat ≠ [] := hcut.ne_nil
  have hpos : k.toNat ≠ 0 := by
    intro hzero
    rw [hzero] at hne
    exact hne rfl
  have hle : u.length ≤ k.toNat := List.drop_eq_nil_iff.1 hdrop
  omega

/-- Where the tokens start a class and are none, the parser consumes them and complains of the end
of the text. -/
theorem Session.runClass_of_viable {text : String} {limits : Limits}
    (hfailure : (tokenize text limits).failure = none)
    (hviable : Viable ((tokenize text limits).tokens.map Token.lexeme))
    (hnot : ∀ x, ¬ IsClass ((tokenize text limits).tokens.map Token.lexeme) x) :
    ∃ e s, (ofText text limits).runClass = (.error (.parse (.syntactic e)), s) ∧
      e.found = .endOfInput (JackSyntax.endPosition text) ∧
      s.events.filter Event.isTerminal = (tokenize text limits).tokens.map Token.event := by
  rw [runClass_eq rfl]
  rcases hrun : (ofText text limits).run [.rule .classDec, .finish] with ⟨failure | answer, s⟩
  · cases run_blames hrun (Fit.start _) with
    | lexical hsome _ => exact absurd (hfailure.symm.trans hsome) (by simp)
    | @token _ _ i _ _ _ hstop =>
      exact absurd (extends_start.2 (hviable.of_prefix (List.take_prefix _ _))) hstop
    | @endOfInput e _ hfound _ _ =>
      have hpending : s.pending = [] := pending_of_run_endOfInput hrun hfound
      refine ⟨e, { s with used := true }, rfl, hfound, ?_⟩
      obtain ⟨tokens, events, hmoves⟩ := moves_run hrun
      have htokens : (tokenize text limits).tokens = tokens ++ s.pending := hmoves.pending_eq
      have hevents : s.events = events := hmoves.events_eq
      rw [hpending, List.append_nil] at htokens
      show s.events.filter Event.isTerminal = _
      rw [hevents, htokens]
      exact hmoves.terminals
  · have hclass := (run_class_iff _).1 ⟨s, hrun, rfl⟩
    exact absurd hclass.2 (hnot _)

section Limit

variable {source : Source} {limits : Limits} {k : Int} {events events' : List Event}

/-- The lexemes under a lower limit are the first ones. -/
theorem Source.lexemes_capped (source : Source) (hk : k ≤ limits.maxTokens) :
    (source.reading (limits.capped k)).tokens.map Token.lexeme =
      ((source.reading limits).tokens.map Token.lexeme).take k.toNat := by
  have hcuts : (source.reading (limits.capped k)).Cuts (source.reading limits) k :=
    tokenize_capped source.text limits hk
  rw [hcuts.tokens_eq, List.map_take]

theorem Source.events_capped_of_le (hk : k ≤ limits.maxTokens)
    (h : source.events limits = .ok events) (h' : source.events (limits.capped k) = .ok events') :
    events = events' := by
  obtain ⟨-, hclass⟩ := (source.events_ok_iff _ _).1 h
  obtain ⟨-, hclass'⟩ := (source.events_ok_iff _ _).1 h'
  rw [source.lexemes_capped hk] at hclass'
  rw [← List.take_append_drop k.toNat (List.map _ _)] at hclass
  have hdrop := hclass'.eq_nil_of_append hclass
  rw [hdrop, List.append_nil] at hclass
  exact hclass.events_unique hclass'

/-- A class is read as it is under a limit that is not below the number of its tokens. -/
theorem Source.events_capped_of_length_le (hsuffices : limits.Suffices source.text)
    (h : source.events limits = .ok events)
    (hk : ((source.reading limits).tokens.length : Int) ≤ k) :
    source.events (limits.capped k) = .ok events := by
  obtain ⟨hfailure, hclass⟩ := (source.events_ok_iff _ _).1 h
  refine (source.events_ok_iff _ _).2 ?_
  rcases Int.le_total k limits.maxTokens with hle | hge
  · have hcuts : (source.reading (limits.capped k)).Cuts (source.reading limits) k :=
      tokenize_capped source.text limits hle
    refine ⟨?_, ?_⟩
    · rw [hcuts.failure_eq, hfailure, ite_self]
    · rw [hcuts.tokens_eq, List.take_of_length_le (by omega)]
      exact hclass
  · obtain ⟨htokens, hfailure'⟩ := hsuffices k hge
    refine ⟨hfailure'.trans hfailure, ?_⟩
    have hlexemes : (source.reading (limits.capped k)).tokens = (source.reading limits).tokens :=
      htokens
    rwa [hlexemes]

/-- A class that the limit cuts short is consumed as far as it goes, and the end of the text is
complained of. -/
theorem Source.runClass_capped_of_lt (h : source.events limits = .ok events)
    (hk : k < ((source.reading limits).tokens.length : Int)) :
    ∃ e s, (Session.ofText source.text (limits.capped k)).runClass =
        (.error (.parse (.syntactic e)), s) ∧
      e.found = .endOfInput (endPosition source.text) ∧
      s.events.filter Event.isTerminal =
        ((source.reading limits).tokens.take k.toNat).map Token.event := by
  obtain ⟨hfailure, hclass⟩ := (source.events_ok_iff _ _).1 h
  have hlength : k < (((source.reading limits).tokens.map Token.lexeme).length : Int) := by
    rwa [List.length_map]
  have hle : k ≤ limits.maxTokens := by
    have hpos := List.length_pos_iff.2 hclass.ne_nil
    have hmax : (((0 : Nat) : Int) + (source.reading limits).tokens.length : Int) ≤
        max limits.maxTokens (0 : Nat) :=
      (Tokenizer.ofText source.text limits).emitted_add_remaining_le
    rw [List.length_map] at hpos
    omega
  have hcuts : (tokenize source.text (limits.capped k)).Cuts (source.reading limits) k :=
    tokenize_capped source.text limits hle
  have hlexemes : (tokenize source.text (limits.capped k)).tokens.map Token.lexeme = _ :=
    source.lexemes_capped hle
  rw [← hcuts.tokens_eq]
  refine Session.runClass_of_viable ?_ ?_ fun y ↦ ?_
  · rw [hcuts.failure_eq, hfailure, ite_self]
  · rw [hlexemes]
    exact hclass.viable.of_prefix (List.take_prefix _ _)
  · rw [hlexemes]
    exact hclass.not_take hlength

end Limit

/-- A lower limit on tokens cuts the tokens of a source short and changes none of them, and an error
is met unless the limit is reached before it. The events of a source are the same under all limits
that allow it to have some. If it has some and no higher limit would show more of its text, it has
them under every limit that is not below the number of its tokens. Under a lower one the parser
consumes just the tokens allowed and complains of the end of the text. -/
theorem Source.events_capped (source : Source) (limits : Limits) :
    let reading := source.reading limits
    (∀ k ≤ limits.maxTokens,
      (source.reading (limits.capped k)).tokens = reading.tokens.take k.toNat ∧
      (source.reading (limits.capped k)).failure =
        if (reading.tokens.length : Int) < k then reading.failure else none) ∧
    (∀ k events events', source.events limits = .ok events →
      source.events (limits.capped k) = .ok events' → events = events') ∧
    ∀ events, source.events limits = .ok events →
      (limits.Suffices source.text →
        ∀ k : Int, reading.tokens.length ≤ k → source.events (limits.capped k) = .ok events) ∧
      ∀ k : Int, k < reading.tokens.length → ∃ e s,
        (Session.ofText source.text (limits.capped k)).runClass =
          (.error (.parse (.syntactic e)), s) ∧
        source.events (limits.capped k) = .error (e.diagnostic source) ∧
        e.found = .endOfInput (endPosition source.text) ∧
        (e.diagnostic source).span = .empty (endPosition source.text) ∧
        s.events.filter Event.isTerminal = (reading.tokens.take k.toNat).map Token.event := by
  intro reading
  have hcuts : ∀ k ≤ limits.maxTokens,
      (source.reading (limits.capped k)).Cuts reading k :=
    fun k hk ↦ tokenize_capped source.text limits hk
  refine ⟨fun k hk ↦ ⟨(hcuts k hk).tokens_eq, (hcuts k hk).failure_eq⟩, ?unique, ?whole⟩
  case unique =>
    intro k events events' h h'
    rcases Int.le_total k limits.maxTokens with hk | hk
    · exact events_capped_of_le hk h h'
    · have hsame : (limits.capped k).capped limits.maxTokens = limits := rfl
      exact (events_capped_of_le hk h' (hsame ▸ h)).symm
  case whole =>
    intro events h
    refine ⟨fun hsuffices k hk ↦ events_capped_of_length_le hsuffices h hk, fun k hk ↦ ?_⟩
    obtain ⟨e, s, hclass, hfound, hterminals⟩ := runClass_capped_of_lt h hk
    refine ⟨e, s, hclass, events_of_runClass_error hclass, hfound, ?_, hterminals⟩
    show e.found.span = _
    rw [hfound]
    rfl

/-- A class of four tokens, under a limit that allows all of them and under one that does not. -/
theorem Source.events_capped_emptyClass :
    let source : Source := ⟨"A.jack", "class A\x7b\x7d"⟩
    source.events {} = .ok emptyClassEvents ∧ ({} : Limits).Suffices source.text ∧
      source.events (({} : Limits).capped 4) = .ok emptyClassEvents ∧
      ∃ d, source.events (({} : Limits).capped 3) = .error d ∧
        d.span = .empty (endPosition source.text) := by
  intro source
  have hevents : source.events {} = .ok emptyClassEvents := events_emptyClass "A.jack"
  have hsuffices : ({} : Limits).Suffices source.text := Limits.suffices_of_length_le (by decide)
  have hcount : (source.reading {}).tokens.length = 4 := by decide +kernel
  obtain ⟨hlong, hshort⟩ := (events_capped source {}).2.2 _ hevents
  obtain ⟨e, -, -, herror, -, hspan, -⟩ := hshort 3 (by rw [hcount]; decide)
  exact ⟨hevents, hsuffices, hlong hsuffices 4 (by rw [hcount]; decide), _, herror, hspan⟩

end JackSyntax
