import Mathlib.Data.List.Forall2
import JackSyntax.Proofs.Lexer.Spelling
import JackSyntax.Proofs.Markup.Decoding
import JackSyntax.Proofs.Parser.Acceptance

/-!
# What markup tells of a source

A tree and a listing both hold every lexeme, and nothing else of the source. The events of a class
are determined by its lexemes and determine them (`IsClass.events_unique`,
`Form.Derives.filter_isTerminal`), and events can be read off the lines that are written for them
(`markupLines_inj`). So either artifact can be computed from the other.

## Main statements

* `Lexeme.eq_of_text`: a lexeme is determined by its kind and its text.
* `IsClass.render_eq_iff`, `renderTokens_eq_iff`: when two trees or two listings are the same.
* `Source.tree_eq_iff`: trees, listings, and the kinds and texts of tokens are the same together.
-/

namespace JackSyntax

/-! ### Lexemes and what is written of them -/

/-- A lexeme is determined by its kind and its text. -/
theorem Lexeme.eq_of_text {l l' : Lexeme} (hkind : l.kind = l'.kind) (htext : l.text = l'.text) :
    l = l' := by
  cases l <;> cases l' <;> simp only [kind, reduceCtorEq] at hkind
  case keyword k k' => rw [Keyword.spelling_inj htext]
  case symbol s s' => rw [Symbol.spelling_inj htext]
  case identifier name name' => rw [show name = name' from htext]
  case integer n n' => rw [eq_of_toString htext]
  case string text text' => rw [show text = text' from htext]

/-- A kind is determined by its name. -/
theorem Kind.name_inj {k k' : Kind} (h : k.name = k'.name) : k = k' := by
  cases k <;> cases k' <;> first | rfl | exact absurd h (by decide)

/-- A lexeme is determined by its terminal. -/
theorem Event.ofLexeme_inj {l l' : Lexeme} (h : ofLexeme l = ofLexeme l') : l = l' := by
  obtain ⟨hkind, htext⟩ := Event.terminal.inj h
  exact Lexeme.eq_of_text (Kind.name_inj hkind) htext

theorem ofLexeme_map_inj {u v : List Lexeme} (h : u.map Event.ofLexeme = v.map Event.ofLexeme) :
    u = v :=
  (List.map_inj_right fun _ _ ↦ Event.ofLexeme_inj).1 h

/-! ### The names of elements -/

theorem Rule.isPlain_opening (r : Rule) : ∀ e ∈ r.opening, IsPlain e.tag := by
  unfold opening
  split
  · exact List.forall_mem_singleton.2 r.isPlain_name
  · simp

theorem Rule.isPlain_closing (r : Rule) : ∀ e ∈ r.closing, IsPlain e.tag := by
  unfold closing
  split
  · exact List.forall_mem_singleton.2 r.isPlain_name
  · simp

/-- The terminals of tokens have plain names. -/
theorem Token.isPlain_event (token : Token) : IsPlain token.event.tag :=
  token.lexeme.kind.isPlain_name

namespace Form.Derives

variable {f : Form} {u : List Lexeme} {x : List Event}

/-- The terminals of a derivation are its lexemes. -/
theorem filter_isTerminal (h : f.Derives u x) :
    x.filter Event.isTerminal = u.map Event.ofLexeme := by
  induction h with
  | lexeme _ => rfl
  | @rule r u x _ ih =>
    cases htagged : r.tagged <;>
      simp [Rule.opening, Rule.closing, htagged, ih, Event.isTerminal]
  | seq _ _ ihf ihg => rw [List.filter_append, ihf, ihg, List.map_append]
  | left _ ih => exact ih
  | right _ ih => exact ih
  | none => rfl
  | some _ ih => exact ih
  | stop => rfl
  | more _ _ ihf ihrest => rw [List.filter_append, ihf, ihrest, List.map_append]

/-- The elements of a derivation have plain names. -/
theorem isPlain_tag (h : f.Derives u x) : ∀ e ∈ x, IsPlain e.tag := by
  induction h with
  | @lexeme _ l _ => exact List.forall_mem_singleton.2 l.kind.isPlain_name
  | @rule r _ _ _ ih =>
    refine List.forall_mem_append.2 ⟨List.forall_mem_append.2 ⟨?_, ih⟩, ?_⟩
    · exact r.isPlain_opening
    · exact r.isPlain_closing
  | seq _ _ ihf ihg => exact List.forall_mem_append.2 ⟨ihf, ihg⟩
  | left _ ih => exact ih
  | right _ ih => exact ih
  | none => simp
  | some _ ih => exact ih
  | stop => simp
  | more _ _ ihf ihrest => exact List.forall_mem_append.2 ⟨ihf, ihrest⟩

end Form.Derives

/-! ### Trees and listings -/

/-- A source that has a tree can be read to its end and is a class. -/
theorem Source.isClass_of_tree {source : Source} {limits : Limits} {tree : String}
    (h : source.tree limits = .ok tree) :
    (source.reading limits).failure = none ∧ ∃ events,
      IsClass ((source.reading limits).tokens.map Token.lexeme) events ∧
        render events = .ok tree := by
  rw [Source.tree] at h
  split at h
  · simp at h
  · rename_i events hevents
    obtain ⟨hfailure, hclass⟩ := (source.events_ok_iff _ _).1 hevents
    refine ⟨hfailure, events, hclass, ?_⟩
    cases hrender : render events with
    | error e => simp [hrender] at h
    | ok text =>
      rw [hrender] at h
      exact congrArg Except.ok (Except.ok.inj h)

/-- A source that can be read to its end has a listing. -/
theorem Source.listing_of_failure_eq_none {source : Source} {limits : Limits}
    (h : (source.reading limits).failure = none) :
    source.listing limits = .ok (renderTokens (source.reading limits).tokens) := by
  simp only [listing, Source.tokens, h]
  rfl

/-- Trees of classes are the same just when the lexemes are. -/
theorem IsClass.render_eq_iff {u v : List Lexeme} {x y : List Event} {tree tree' : String}
    (hx : IsClass u x) (hy : IsClass v y) (htree : render x = .ok tree)
    (htree' : render y = .ok tree') : tree = tree' ↔ u = v := by
  constructor
  · rintro rfl
    have hlines : markupLines 0 x = markupLines 0 y :=
      (toList_of_renderFrom htree).symm.trans (toList_of_renderFrom htree')
    have hevents : x = y := markupLines_inj hx.isPlain_tag hy.isPlain_tag hlines
    refine ofLexeme_map_inj ?_
    rw [← hx.filter_isTerminal, ← hy.filter_isTerminal, hevents]
  · rintro rfl
    obtain rfl := hx.events_unique hy
    exact Except.ok.inj (htree.symm.trans htree')

/-- Listings are the same just when the lexemes are. -/
theorem renderTokens_eq_iff {tokens tokens' : List Token} :
    renderTokens tokens = renderTokens tokens' ↔
      tokens.map Token.lexeme = tokens'.map Token.lexeme := by
  have hevents : ∀ tokens : List Token,
      tokens.map Token.event = (tokens.map Token.lexeme).map Event.ofLexeme :=
    fun tokens ↦ (List.map_map ..).symm
  rw [← String.toList_inj, toList_renderTokens, toList_renderTokens]
  constructor
  · intro h
    have hplain : ∀ tokens : List Token,
        ∀ e ∈ tokens.map Token.event ++ [.leave "tokens"], IsPlain e.tag := by
      intro tokens
      refine List.forall_mem_append.2 ⟨List.forall_mem_map.2 fun token _ ↦ token.isPlain_event, ?_⟩
      exact List.forall_mem_singleton.2 (isPlain_of_all (by decide))
    have hlines := markupLines_inj (hplain tokens) (hplain tokens') (List.append_cancel_left h)
    have hterminals := List.append_cancel_right hlines
    rw [hevents, hevents] at hterminals
    exact ofLexeme_map_inj hterminals
  · intro h
    rw [hevents, hevents, h]

/-- Kinds and texts are the same just when the lexemes are. -/
theorem kindsAndTexts_eq_iff {tokens tokens' : List Token} :
    tokens.map (fun t ↦ (t.lexeme.kind, t.lexeme.text)) =
        tokens'.map (fun t ↦ (t.lexeme.kind, t.lexeme.text)) ↔
      tokens.map Token.lexeme = tokens'.map Token.lexeme := by
  have hpairs : ∀ tokens : List Token, tokens.map (fun t ↦ (t.lexeme.kind, t.lexeme.text)) =
      (tokens.map Token.lexeme).map fun l ↦ (l.kind, l.text) := by
    intro tokens
    rw [List.map_map]
    rfl
  rw [hpairs, hpairs]
  refine List.map_inj_right fun l l' h ↦ ?_
  obtain ⟨hkind, htext⟩ := Prod.mk.inj h
  exact Lexeme.eq_of_text hkind htext

/-- Where two sources have trees they also have listings, and the trees, the listings and the kinds
and texts of the tokens are the same together. -/
theorem Source.tree_eq_iff {source source' : Source} {limits limits' : Limits} {tree tree' : String}
    (h : source.tree limits = .ok tree) (h' : source'.tree limits' = .ok tree') :
    ∃ listing listing', source.listing limits = .ok listing ∧
      source'.listing limits' = .ok listing' ∧
      (tree = tree' ↔ listing = listing') ∧
      (listing = listing' ↔
        (source.reading limits).tokens.map (fun t ↦ (t.lexeme.kind, t.lexeme.text)) =
          (source'.reading limits').tokens.map fun t ↦ (t.lexeme.kind, t.lexeme.text)) := by
  obtain ⟨hfailure, events, hclass, hrender⟩ := isClass_of_tree h
  obtain ⟨hfailure', events', hclass', hrender'⟩ := isClass_of_tree h'
  refine ⟨_, _, listing_of_failure_eq_none hfailure, listing_of_failure_eq_none hfailure', ?_, ?_⟩
  · rw [renderTokens_eq_iff]
    exact hclass.render_eq_iff hclass' hrender hrender'
  · rw [renderTokens_eq_iff, kindsAndTexts_eq_iff]

/-- The same class twice, in files of different names and with different trivia. -/
theorem Source.tree_eq_iff_trivia :
    let source : Source := ⟨"a.jack", "class A\x7b\x7d"⟩
    let source' : Source := ⟨"b.jack", "class /* none */ A \x7b // yet\n\x7d\n"⟩
    ∃ tree listing, source.tree {} = .ok tree ∧ source'.tree { maxTokens := 4 } = .ok tree ∧
      source.listing {} = .ok listing ∧ source'.listing { maxTokens := 4 } = .ok listing := by
  intro source source'
  have hread' : (source'.reading { maxTokens := 4 }).failure = none ∧
      (source'.reading { maxTokens := 4 }).tokens.map Token.lexeme = emptyClass := by decide +kernel
  obtain ⟨tree, hrender⟩ : ∃ tree, render emptyClassEvents = .ok tree := ⟨_, rfl⟩
  have htree : ∀ {source : Source} {limits : Limits},
      source.events limits = .ok emptyClassEvents → source.tree limits = .ok tree := by
    intro source limits hevents
    simp [Source.tree, hevents, hrender]
  have h : source.tree {} = .ok tree := htree (events_emptyClass "a.jack")
  have h' : source'.tree { maxTokens := 4 } = .ok tree := htree (events_of_emptyClass hread')
  obtain ⟨listing, listing', hlisting, hlisting', hiff, -⟩ := tree_eq_iff h h'
  obtain rfl := hiff.1 rfl
  exact ⟨tree, listing, h, h', hlisting, hlisting'⟩

end JackSyntax
