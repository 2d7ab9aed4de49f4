import JackSyntax.Dump
import JackSyntax.Proofs.Diagnostic.Carets
import JackSyntax.Proofs.Dump.Outline
import JackSyntax.Proofs.Markup.Determinacy
import JackSyntax.Proofs.Parser.WholeClass
import JackSyntax.Proofs.Text.Quotation

/-!
# What dumps tell

Dumps consist of lines, one for each token (`Row`) or for each entry of the outline of events
(`Entry`). Quotations keep the texts of tokens and terminals on their lines, so the lines can be
told apart (`eq_of_joinLines`). Within a line, each field ends at the first separator, which cannot
stand in the field itself, and the last field is a quotation. So a line says all that it was made
from, and so do the lines together. Events are more than their outline, but if they are balanced the
outline gives them back.

## Main statements

* `dumpTokens_eq_iff`: dumps show the place, kind and text of each token.
* `dumpEvents_eq_iff`: dumps show balanced events.
* `IsClass.dumpEvents_eq_iff`: dumps of classes show the lexemes.
-/

namespace JackSyntax

variable {α : Type} {u u' v v' : List Char} {sep : Char}

/-! ### Lines and fields -/

/-- A field ends at the first separator. -/
theorem append_cons_inj (hu : sep ∉ u) (hu' : sep ∉ u') (h : u ++ sep :: v = u' ++ sep :: v') :
    u = u' ∧ v = v' := by
  have hcut := cutAt_append hu v
  rw [h, cutAt_append hu'] at hcut
  obtain ⟨hfield, hrest⟩ := Prod.mk.inj (Option.some.inj hcut)
  exact ⟨hfield.symm, hrest.symm⟩

/-- The lines one after the other, each with a line feed. -/
def joinLines (line : α → List Char) (xs : List α) : List Char :=
  xs.flatMap fun a ↦ line a ++ ['\n']

theorem joinLines_cons (line : α → List Char) (a : α) (xs : List α) :
    joinLines line (a :: xs) = line a ++ '\n' :: joinLines line xs := by
  simp [joinLines]

/-- Lines without line feeds can be told apart, so things that can be told by their lines can be
told by the lines together. -/
theorem eq_of_joinLines {line : α → List Char} {p : α → Prop}
    (hfree : ∀ a, p a → '\n' ∉ line a)
    (hinj : ∀ a b, p a → p b → line a = line b → a = b) {xs ys : List α} (hxs : ∀ a ∈ xs, p a)
    (hys : ∀ a ∈ ys, p a) (h : joinLines line xs = joinLines line ys) : xs = ys := by
  induction xs generalizing ys with
  | nil =>
    cases ys with
    | nil => rfl
    | cons b ys => simp [joinLines] at h
  | cons a xs ih =>
    cases ys with
    | nil => simp [joinLines] at h
    | cons b ys =>
      obtain ⟨ha, hxs⟩ := List.forall_mem_cons.1 hxs
      obtain ⟨hb, hys⟩ := List.forall_mem_cons.1 hys
      rw [joinLines_cons, joinLines_cons] at h
      obtain ⟨hline, hlines⟩ := append_cons_inj (hfree a ha) (hfree b hb) h
      rw [hinj a b ha hb hline, ih hxs hys hlines]

theorem newline_not_mem_quotedChars (text : List Char) : '\n' ∉ quotedChars text := by
  intro hmem
  have hprintable : isPrintable '\n' = false := by decide +kernel
  simp [isPrintable_of_mem_quotedChars hmem] at hprintable

/-! ### The lines of tokens -/

/-- What the line of a token shows. -/
structure Row where
  /-- The line that the token starts on. -/
  line : Int
  /-- The column that it starts at. -/
  column : Int
  /-- Its kind. -/
  kind : Kind
  /-- Its text. -/
  text : String
deriving DecidableEq, Repr

/-- What the line of the token shows. -/
def Token.row (t : Token) : Row where
  line := t.span.start.line
  column := t.span.start.column
  kind := t.lexeme.kind
  text := t.lexeme.text

/-- The line, without its line feed. -/
def Row.chars (row : Row) : List Char :=
  (toString row.line).toList ++ ':' :: ((toString row.column).toList ++ '\t' ::
    (row.kind.name.toList ++ '\t' :: quotedChars row.text.toList))

theorem toList_tokenDumpLine (t : Token) : (tokenDumpLine t).toList = t.row.chars ++ ['\n'] := by
  simp [tokenDumpLine, Row.chars, Token.row, quoted]

theorem toList_dumpTokens (tokens : List Token) :
    (dumpTokens tokens).toList = joinLines Row.chars (tokens.map Token.row) := by
  rw [dumpTokens, String.toList_join, joinLines, List.flatMap_map, List.flatMap_map]
  simp only [toList_tokenDumpLine]

/-- Numbers are written with digits, and a minus before them. -/
theorem not_mem_toString_int {c : Char} (hc : c.isDigit = false) (hminus : c ≠ '-') (n : Int) :
    c ∉ (toString n).toList := by
  rw [Int.toString_eq_repr, Int.repr_eq_if]
  split
  · exact not_mem_toString hc
  · rw [String.toList_append]
    exact List.not_mem_append (by simpa using hminus) (not_mem_toString hc)

theorem newline_not_mem_row (row : Row) : '\n' ∉ row.chars := by
  have hnumber : ∀ n : Int, '\n' ∉ (toString n).toList :=
    not_mem_toString_int (by decide) (by decide)
  have hkind : '\n' ∉ row.kind.name.toList := row.kind.isPlain_name.not_mem (by decide)
  simp only [Row.chars, List.mem_append, List.mem_cons, hnumber, hkind,
    newline_not_mem_quotedChars, Char.reduceEq, or_false, not_false_eq_true]

/-- The line says what it shows: the two numbers end at a colon and at a tab, and the kind at the
next tab. -/
theorem Row.chars_inj {row row' : Row} (h : row.chars = row'.chars) : row = row' := by
  have hcolon : ∀ n : Int, ':' ∉ (toString n).toList := not_mem_toString_int (by decide) (by decide)
  have htab : ∀ n : Int, '\t' ∉ (toString n).toList := not_mem_toString_int (by decide) (by decide)
  have hname : ∀ k : Kind, '\t' ∉ k.name.toList := fun k ↦ k.isPlain_name.not_mem (by decide)
  obtain ⟨hline, h⟩ := append_cons_inj (hcolon _) (hcolon _) h
  obtain ⟨hcolumn, h⟩ := append_cons_inj (htab _) (htab _) h
  obtain ⟨hkind, htext⟩ := append_cons_inj (hname _) (hname _) h
  obtain ⟨line, column, kind, text⟩ := row
  obtain ⟨line', column', kind', text'⟩ := row'
  obtain rfl : line = line' := eq_of_toString (String.toList_inj.1 hline)
  obtain rfl : column = column' := eq_of_toString (String.toList_inj.1 hcolumn)
  obtain rfl : kind = kind' := Kind.name_inj (String.toList_inj.1 hkind)
  obtain rfl : text = text' := String.toList_inj.1 (quotedChars_inj htext)
  rfl

/-- Dumps are the same just when the tokens start at the same places and have the same kinds and
texts. -/
theorem dumpTokens_eq_iff {tokens tokens' : List Token} :
    dumpTokens tokens = dumpTokens tokens' ↔ tokens.map Token.row = tokens'.map Token.row := by
  rw [← String.toList_inj, toList_dumpTokens, toList_dumpTokens]
  constructor
  · exact eq_of_joinLines (p := fun _ ↦ True) (fun row _ ↦ newline_not_mem_row row)
      (fun _ _ _ _ ↦ Row.chars_inj) (fun _ _ ↦ trivial) (fun _ _ ↦ trivial)
  · exact congrArg _

/-! ### The lines of entries -/

/-- A name that can be told from what stands around it on a line: not empty and without blanks. -/
def IsOutlineName (name : String) : Prop :=
  name.toList ≠ [] ∧ ∀ c ∈ name.toList, isBlank c = false

instance (name : String) : Decidable (IsOutlineName name) :=
  decidable_of_iff (name.toList ≠ [] ∧ name.toList.all (fun c ↦ !isBlank c) = true) <| by
    simp only [IsOutlineName, List.all_eq_true, Bool.not_eq_true']

theorem IsOutlineName.not_mem {name : String} (h : IsOutlineName name) {c : Char}
    (hc : isBlank c = true) : c ∉ name.toList := by
  intro hmem
  simp [h.2 c hmem] at hc

theorem IsOutlineName.head?_ne {name : String} (h : IsOutlineName name) (rest : List Char) :
    (name.toList ++ rest).head? ≠ some ' ' := by
  rw [List.head?_append_of_ne_nil _ h.1]
  intro hhead
  exact h.not_mem (by decide +kernel) (List.mem_of_mem_head? hhead)

/-- The line of the entry after its indentation. -/
def Entry.body (entry : Entry) : List Char :=
  match entry.text with
  | none => entry.name.toList
  | some text => entry.name.toList ++ ' ' :: quotedChars text.toList

/-- The line of the entry, without its line feed. -/
def Entry.chars (entry : Entry) : List Char :=
  (indentation entry.depth).toList ++ entry.body

/-- Events that close all elements are dumped as the lines of their outline. -/
theorem toList_dumpEventsFrom {opened : List String} {events : List Event}
    (h : unclosed opened events = some []) (written : String) :
    (dumpEventsFrom opened.length written events).toList =
      written.toList ++ joinLines Entry.chars (outline opened.length events) := by
  fun_induction unclosed opened events generalizing written with
  | case1 opened =>
    rw [dumpEventsFrom, outline]
    exact (List.append_nil _).symm
  | case2 opened name events ih =>
    have hdepth : (opened.length : Int) + 1 = (name :: opened).length := rfl
    rw [dumpEventsFrom, hdepth, ih h, Int.toNat_natCast, outline, joinLines_cons]
    simp [Entry.chars, Entry.body]
  | case3 opened kind text events ih =>
    rw [dumpEventsFrom, ih h, Int.toNat_natCast, outline, joinLines_cons]
    simp [Entry.chars, Entry.body, quoted]
  | case4 name events => simp at h
  | case5 opened top events ih =>
    have hdepth : ((top :: opened).length : Int) - 1 = opened.length := by simp
    rw [dumpEventsFrom, hdepth, ih h]
    rfl
  | case6 top opened name events hname => simp at h

theorem newline_not_mem_entry {entry : Entry} (h : IsOutlineName entry.name) :
    '\n' ∉ entry.chars := by
  have hname : '\n' ∉ entry.name.toList := h.not_mem (by decide +kernel)
  have hindentation : '\n' ∉ (indentation entry.depth).toList := by
    rw [toList_indentation]
    exact fun hmem ↦ absurd (List.eq_of_mem_replicate hmem) (by decide)
  refine List.not_mem_append hindentation ?_
  unfold Entry.body
  split
  · exact hname
  · simp only [List.mem_append, List.mem_cons, hname, newline_not_mem_quotedChars, Char.reduceEq,
      or_false, not_false_eq_true]

theorem Entry.head?_body_ne {entry : Entry} (h : IsOutlineName entry.name) :
    entry.body.head? ≠ some ' ' := by
  unfold body
  split
  · have hname := h.head?_ne []
    rwa [List.append_nil] at hname
  · exact h.head?_ne _

/-- The name is what stands before the first space, or all of the line. -/
theorem Entry.body_inj {entry entry' : Entry} (h : IsOutlineName entry.name)
    (h' : IsOutlineName entry'.name) (hbody : entry.body = entry'.body) :
    entry.name = entry'.name ∧ entry.text = entry'.text := by
  have hspace : isBlank ' ' = true := by decide +kernel
  obtain ⟨depth, name, text⟩ := entry
  obtain ⟨depth', name', text'⟩ := entry'
  cases text <;> cases text' <;> simp only [body] at hbody ⊢
  case none.none => exact ⟨String.toList_inj.1 hbody, trivial⟩
  case none.some text' =>
    refine absurd ?_ (h.not_mem hspace)
    simp [hbody]
  case some.none text =>
    refine absurd ?_ (h'.not_mem hspace)
    simp [← hbody]
  case some.some text text' =>
    obtain ⟨hname, htext⟩ := append_cons_inj (h.not_mem hspace) (h'.not_mem hspace) hbody
    exact ⟨String.toList_inj.1 hname, congrArg some (String.toList_inj.1 (quotedChars_inj htext))⟩

/-- Spaces in front of what begins otherwise can be counted. -/
theorem replicate_append_inj {c : Char} (hu : u.head? ≠ some c) (hv : v.head? ≠ some c) {m n : Nat}
    (h : List.replicate m c ++ u = List.replicate n c ++ v) : m = n ∧ u = v := by
  induction m generalizing n with
  | zero =>
    cases n with
    | zero => exact ⟨rfl, h⟩
    | succ n =>
      rw [List.replicate_zero, List.nil_append, List.replicate_succ, List.cons_append] at h
      exact absurd (congrArg List.head? h) hu
  | succ m ih =>
    cases n with
    | zero =>
      rw [List.replicate_zero, List.nil_append, List.replicate_succ, List.cons_append] at h
      exact absurd (congrArg List.head? h.symm) hv
    | succ n =>
      obtain ⟨hmn, huv⟩ := ih (List.cons.inj h).2
      exact ⟨congrArg Nat.succ hmn, huv⟩

/-- The line says where the entry lies and what it is. -/
theorem Entry.chars_inj {entry entry' : Entry} (h : IsOutlineName entry.name)
    (h' : IsOutlineName entry'.name) (hchars : entry.chars = entry'.chars) : entry = entry' := by
  simp only [chars, toList_indentation] at hchars
  obtain ⟨hdepth, hbody⟩ := replicate_append_inj (head?_body_ne h) (head?_body_ne h') hchars
  obtain ⟨hname, htext⟩ := body_inj h h' hbody
  obtain ⟨depth, name, text⟩ := entry
  obtain ⟨depth', name', text'⟩ := entry'
  obtain rfl : depth = depth' := Nat.eq_of_mul_eq_mul_left (by decide) hdepth
  obtain rfl : name = name' := hname
  obtain rfl : text = text' := htext
  rfl

/-- Balanced events with such names can be told by their dumps. -/
theorem dumpEvents_eq_iff {x y : List Event} (hx : balanced x = true) (hy : balanced y = true)
    (hnamesx : ∀ e ∈ x, IsOutlineName e.tag) (hnamesy : ∀ e ∈ y, IsOutlineName e.tag) :
    dumpEvents x = dumpEvents y ↔ x = y := by
  have hlines : ∀ {x : List Event}, balanced x = true →
      (dumpEvents x).toList = joinLines Entry.chars (outline 0 x) :=
    fun hx ↦ toList_dumpEventsFrom (balanced_iff.1 hx) ""
  have hnames : ∀ {x : List Event}, (∀ e ∈ x, IsOutlineName e.tag) →
      ∀ entry ∈ outline 0 x, IsOutlineName entry.name :=
    fun hx entry hentry ↦ entry.tag_event ▸ hx _ (event_mem_of_mem_outline hentry)
  constructor
  · intro h
    refine eq_of_outline hx hy (eq_of_joinLines (fun _ ↦ newline_not_mem_entry)
      (fun _ _ ↦ Entry.chars_inj) (hnames hnamesx) (hnames hnamesy) ?_)
    rw [← hlines hx, ← hlines hy, h]
  · exact congrArg dumpEvents

example : dumpEvents [.enter "a", .terminal "b" "it's\n", .leave "a", .enter "c", .leave "c"] =
    "a\n  b \"it's\\n\"\nc\n" := by decide +kernel

/-- The elements and terminals of a class have such names. -/
theorem IsPlain.isOutlineName {name : String} (h : IsPlain name) : IsOutlineName name :=
  ⟨h.ne_nil, fun c hc ↦ isBlank_of_isAlpha (h.letters c hc)⟩

/-- The dumps of classes are the same just when the lexemes are. -/
theorem IsClass.dumpEvents_eq_iff {u v : List Lexeme} {x y : List Event} (hx : IsClass u x)
    (hy : IsClass v y) : dumpEvents x = dumpEvents y ↔ u = v := by
  rw [JackSyntax.dumpEvents_eq_iff hx.rooted.balanced hy.rooted.balanced
    (fun e he ↦ (hx.isPlain_tag e he).isOutlineName) fun e he ↦ (hy.isPlain_tag e he).isOutlineName]
  constructor
  · rintro rfl
    refine ofLexeme_map_inj ?_
    rw [← hx.filter_isTerminal, ← hy.filter_isTerminal]
  · rintro rfl
    exact hx.events_unique hy

/-! ### Dumps -/

/-- The dump of any tokens, such as those that are read up to the end of a text or up to an error,
has one line for each of them, whatever is in their texts, and shows where the token starts, its
kind and its text. The dump of balanced events, if their names are not empty and have no blanks in
them, shows all of them, though it has no lines for the ends of elements. -/
theorem dumps_faithful :
    (∀ tokens : List Token, ∃ lines : List (List Char),
      List.Forall₂ (fun t line ↦ (tokenDumpLine t).toList = line ++ ['\n'] ∧ '\n' ∉ line)
        tokens lines ∧
      (dumpTokens tokens).toList = lines.flatMap (· ++ ['\n'])) ∧
    (∀ tokens tokens' : List Token, dumpTokens tokens = dumpTokens tokens' ↔
      tokens.map Token.row = tokens'.map Token.row) ∧
    (∀ x y : List Event, balanced x = true → balanced y = true →
      (∀ e ∈ x, IsOutlineName e.tag) → (∀ e ∈ y, IsOutlineName e.tag) →
      (dumpEvents x = dumpEvents y ↔ x = y)) := by
  refine ⟨fun tokens ↦ ⟨tokens.map fun t ↦ t.row.chars, ?_, ?_⟩, fun _ _ ↦ dumpTokens_eq_iff,
    fun x y ↦ dumpEvents_eq_iff⟩
  · refine List.forall₂_map_right_iff.2 (List.forall₂_same.2 fun t _ ↦ ?_)
    exact ⟨toList_tokenDumpLine t, newline_not_mem_row t.row⟩
  · rw [toList_dumpTokens, joinLines, List.flatMap_map, List.flatMap_map]

/-- A line feed is not written as a backslash and a letter are, and an element after another not as
one inside it. -/
theorem dumps_faithful_escapes :
    let token (text : String) : Token := ⟨.string text, .empty ⟨1, 1, 0⟩⟩
    dumpTokens [token "\n"] ≠ dumpTokens [token "\\n"] ∧
    dumpEvents [.enter "a", .leave "a", .enter "b", .terminal "c" "'\n\"", .leave "b"] ≠
      dumpEvents [.enter "a", .enter "b", .terminal "c" "'\n\"", .leave "b", .leave "a"] := by
  intro token
  obtain ⟨-, htokens, hevents⟩ := dumps_faithful
  refine ⟨(htokens _ _).not.2 (by decide), (hevents _ _ ?_ ?_ ?_ ?_).not.2 (by decide)⟩
  · decide
  · decide
  · decide +kernel
  · decide +kernel

end JackSyntax
