import JackSyntax.Proofs.Event.Balance
import JackSyntax.Proofs.Markup.Lines

/-!
# Decoding markup

A tree can be read back from its markup (`readMarkup`). An event is read at a time: spaces, a
bracket, a name up to the next bracket, and for a terminal its content up to the bracket after that.
This works for any text of a terminal, since content has no bracket in it (`IsContent`), however
many lines it takes and whatever it looks like, and for any names without brackets, slashes and
blanks (`IsTagName`). Indentation is skipped, as it depends on the events before: it is two spaces
for each element that is open around the event (`getElem?_eventLines`).

## Main statements

* `isContent_flatMap`: the content of a terminal is element content, whatever its text is.
* `readLine_line`, `readEvents_markupLines`: one event, or any number of them, are read back.
* `render_decodes`: trees have markup that is indented and from which they are read back.
-/

namespace JackSyntax

/-! ### Content -/

/-- What stands for the characters that content cannot have. -/
def entities : List (List Char) :=
  ["&amp;".toList, "&lt;".toList, "&gt;".toList, "&quot;".toList]

/-- Element content: there is no bracket or quote in it, and every ampersand begins an entity. -/
structure IsContent (content : List Char) : Prop where
  less : '<' ∉ content
  greater : '>' ∉ content
  quote : '"' ∉ content
  entity : ∀ rest, '&' :: rest <:+ content → ∃ entity ∈ entities, entity <+: '&' :: rest

/-- An entity stands for a character, or the character for itself if there is none for it. -/
theorem markupEscape_cases (c : Char) :
    markupEscape c ∈ entities ∨ markupEscape c = [c] ∧ c ∉ ['&', '<', '>', '"'] := by
  unfold markupEscape
  split
  · exact .inl (by decide)
  split
  · exact .inl (by decide)
  split
  · exact .inl (by decide)
  split
  · exact .inl (by decide)
  · rename_i hamp hless hgreater hquote
    exact .inr ⟨rfl, by simp [hamp, hless, hgreater, hquote]⟩

/-- A suffix that begins with `a` starts after any piece in front that has no `a` in it. -/
theorem suffix_of_not_mem {α : Type} {a : α} {piece text rest : List α} (hpiece : a ∉ piece)
    (h : a :: rest <:+ piece ++ text) : a :: rest <:+ text := by
  induction piece with
  | nil => exact h
  | cons b piece ih =>
    rcases List.suffix_cons_iff.1 h with heq | hsuffix
    · obtain ⟨rfl, -⟩ := List.cons.inj heq
      exact absurd List.mem_cons_self hpiece
    · exact ih (List.not_mem_of_not_mem_cons hpiece) hsuffix

/-- No bracket or quote stands in an entity, and the only ampersand in it is the first character. -/
theorem entities_spec {entity : List Char} (h : entity ∈ entities) :
    '<' ∉ entity ∧ '>' ∉ entity ∧ '"' ∉ entity ∧ entity = '&' :: entity.tail ∧
      '&' ∉ entity.tail := by
  have hall : ∀ entity ∈ entities, '<' ∉ entity ∧ '>' ∉ entity ∧ '"' ∉ entity ∧
      entity = '&' :: entity.tail ∧ '&' ∉ entity.tail := by decide
  exact hall entity h

/-- An escaped character in front of content makes content. -/
theorem IsContent.escape_append {content : List Char} (h : IsContent content) (c : Char) :
    IsContent (markupEscape c ++ content) := by
  rcases markupEscape_cases c with hentity | ⟨hself, hc⟩
  · obtain ⟨hless, hgreater, hquote, hcons, htail⟩ := entities_spec hentity
    refine ⟨List.not_mem_append hless h.less, List.not_mem_append hgreater h.greater,
      List.not_mem_append hquote h.quote, fun rest hrest ↦ ?_⟩
    rw [hcons, List.cons_append] at hrest
    rcases List.suffix_cons_iff.1 hrest with heq | hsuffix
    · refine ⟨_, hentity, content, ?_⟩
      rw [hcons, heq, List.cons_append]
    · exact h.entity rest (suffix_of_not_mem htail hsuffix)
  · have hfree : ∀ special ∈ ['&', '<', '>', '"'], special ∉ [c] := by
      intro special hspecial hmem
      exact hc (List.mem_singleton.1 hmem ▸ hspecial)
    rw [hself]
    exact ⟨List.not_mem_append (hfree '<' (by decide)) h.less,
      List.not_mem_append (hfree '>' (by decide)) h.greater,
      List.not_mem_append (hfree '"' (by decide)) h.quote,
      fun rest hrest ↦ h.entity rest (suffix_of_not_mem (hfree '&' (by decide)) hrest)⟩

/-- Whatever the text of a terminal is, it is written as element content. -/
theorem isContent_flatMap (text : List Char) : IsContent (text.flatMap markupEscape) := by
  induction text with
  | nil => exact ⟨List.not_mem_nil, List.not_mem_nil, List.not_mem_nil, by simp⟩
  | cons c text ih => exact ih.escape_append c

/-! ### The decoder -/

/-- The characters before the first one that is `sep`, and those after it. -/
def cutAt (sep : Char) : List Char → Option (List Char × List Char)
  | [] => none
  | c :: text =>
    if c = sep then some ([], text) else (cutAt sep text).map fun (u, v) ↦ (c :: u, v)

/-- A text is cut at its first separator. -/
theorem cutAt_append {sep : Char} {u : List Char} (hu : sep ∉ u) (v : List Char) :
    cutAt sep (u ++ sep :: v) = some (u, v) := by
  induction u with
  | nil => exact if_pos rfl
  | cons c u ih =>
    have hc : c ≠ sep := fun heq ↦ hu (heq ▸ List.mem_cons_self)
    rw [List.cons_append, cutAt, if_neg hc, ih (List.not_mem_of_not_mem_cons hu)]
    rfl

/-- Cutting takes at least the separator. -/
theorem length_lt_of_cutAt {sep : Char} {text u v : List Char}
    (h : cutAt sep text = some (u, v)) : v.length < text.length := by
  induction text generalizing u with
  | nil => simp [cutAt] at h
  | cons c text ih =>
    rw [cutAt] at h
    split at h
    · obtain ⟨-, rfl⟩ := Prod.mk.inj (Option.some.inj h)
      exact Nat.lt_succ_self _
    · obtain ⟨⟨u, v⟩, hcut, heq⟩ := Option.map_eq_some_iff.1 h
      obtain ⟨-, rfl⟩ := Prod.mk.inj heq
      exact Nat.lt_succ_of_lt (ih hcut)

/-- The character that stands first in element content, and the content after it. -/
def unescape : List Char → Option (Char × List Char)
  | '&' :: 'a' :: 'm' :: 'p' :: ';' :: rest => some ('&', rest)
  | '&' :: 'l' :: 't' :: ';' :: rest => some ('<', rest)
  | '&' :: 'g' :: 't' :: ';' :: rest => some ('>', rest)
  | '&' :: 'q' :: 'u' :: 'o' :: 't' :: ';' :: rest => some ('"', rest)
  | c :: rest => some (c, rest)
  | [] => none

/-- What stands for a character is read as that character. -/
theorem unescape_markupEscape (c : Char) (rest : List Char) :
    unescape (markupEscape c ++ rest) = some (c, rest) := by
  unfold markupEscape
  split
  · rename_i hc
    exact hc ▸ rfl
  split
  · rename_i hc
    exact hc ▸ rfl
  split
  · rename_i hc
    exact hc ▸ rfl
  split
  · rename_i hc
    exact hc ▸ rfl
  · rename_i hamp _ _ _
    simp [unescape, hamp]

/-- Reading a character takes at least one. -/
theorem length_lt_of_unescape {c : Char} {content rest : List Char}
    (h : unescape content = some (c, rest)) : rest.length < content.length := by
  unfold unescape at h
  split at h <;> simp_all <;> omega

/-- The text that element content stands for. -/
def readContent (content : List Char) : List Char :=
  match _ : unescape content with
  | some (c, rest) => c :: readContent rest
  | none => []
termination_by content.length
decreasing_by
  rename_i h
  exact length_lt_of_unescape h

theorem readContent_of_some {c : Char} {content rest : List Char}
    (h : unescape content = some (c, rest)) : readContent content = c :: readContent rest := by
  rw [readContent]
  split <;> simp_all

/-- An escaped text is read back. -/
theorem readContent_flatMap (text : List Char) :
    readContent (text.flatMap markupEscape) = text := by
  induction text with
  | nil => rw [List.flatMap_nil, readContent, unescape]
  | cons c text ih =>
    rw [List.flatMap_cons, readContent_of_some (unescape_markupEscape c _), ih]

/-- The name in front of a bracket that ends a line, and the lines after it. -/
def readName (text : List Char) : Option (String × List Char) :=
  match cutAt '>' text with
  | some (name, '\n' :: rest) => some (String.ofList name, rest)
  | _ => none

/-- The event on a line of which the first bracket has been read, and the lines after it. -/
def readBody (text : List Char) : Option (Event × List Char) :=
  if text.head? = some '/' then (readName text.tail).map fun (name, rest) ↦ (.leave name, rest)
  else
    match cutAt '>' text with
    | some (name, '\n' :: rest) => some (.enter (String.ofList name), rest)
    | some (kind, ' ' :: text) =>
      match cutAt '<' text with
      | some (content, '/' :: text) =>
        -- The last character of the content is the space that stands before the end tag.
        (readName text).map fun (_, rest) ↦
          (.terminal (String.ofList kind) (String.ofList (readContent content.dropLast)), rest)
      | _ => none
    | _ => none

/-- The event that the next line is about, and the lines after it. -/
def readLine (text : List Char) : Option (Event × List Char) :=
  match text.dropWhile (· == ' ') with
  | '<' :: text => readBody text
  | _ => none

theorem length_lt_of_readName {name : String} {text rest : List Char}
    (h : readName text = some (name, rest)) : rest.length < text.length := by
  unfold readName at h
  split at h
  · rename_i hcut
    obtain ⟨-, rfl⟩ := Prod.mk.inj (Option.some.inj h)
    exact Nat.lt_of_succ_lt (length_lt_of_cutAt hcut)
  · simp at h

theorem length_lt_of_readBody {e : Event} {text rest : List Char}
    (h : readBody text = some (e, rest)) : rest.length < text.length := by
  unfold readBody at h
  split at h
  · obtain ⟨⟨name, rest⟩, hname, heq⟩ := Option.map_eq_some_iff.1 h
    obtain ⟨-, rfl⟩ := Prod.mk.inj heq
    have hlt := length_lt_of_readName hname
    rw [List.length_tail] at hlt
    omega
  · split at h
    · rename_i hcut
      obtain ⟨-, rfl⟩ := Prod.mk.inj (Option.some.inj h)
      exact Nat.lt_of_succ_lt (length_lt_of_cutAt hcut)
    · rename_i hkind
      split at h
      · rename_i hcontent
        obtain ⟨⟨name, rest⟩, hname, heq⟩ := Option.map_eq_some_iff.1 h
        obtain ⟨-, rfl⟩ := Prod.mk.inj heq
        calc rest.length < _ := length_lt_of_readName hname
          _ < _ := Nat.lt_of_succ_lt (length_lt_of_cutAt hcontent)
          _ < _ := Nat.lt_of_succ_lt (length_lt_of_cutAt hkind)
      · simp at h
    · simp at h

/-- Reading a line takes at least one character. -/
theorem length_lt_of_readLine {e : Event} {text rest : List Char}
    (h : readLine text = some (e, rest)) : rest.length < text.length := by
  unfold readLine at h
  split at h
  · rename_i htext
    have hlt := length_lt_of_readBody h
    have hle := (List.dropWhile_suffix (· == ' ') (l := text)).length_le
    rw [htext, List.length_cons] at hle
    omega
  · simp at h

/-- The events that the lines are about. -/
def readEvents (text : List Char) : Option (List Event) :=
  if text = [] then some []
  else
    match _ : readLine text with
    | some (e, rest) => (readEvents rest).map (e :: ·)
    | none => none
termination_by text.length
decreasing_by
  rename_i h
  exact length_lt_of_readLine h

/-- The events that the markup is written for. -/
def readMarkup (markup : String) : Option (List Event) :=
  readEvents markup.toList

/-- Events are read line by line. -/
theorem readEvents_of_some {e : Event} {text rest : List Char}
    (h : readLine text = some (e, rest)) : readEvents text = (readEvents rest).map (e :: ·) := by
  have hne : text ≠ [] := by
    rintro rfl
    exact absurd (length_lt_of_readLine h) (Nat.not_lt_zero _)
  rw [readEvents, if_neg hne]
  split <;> simp_all

/-! ### Lines are read back -/

/-- A name that can stand in a tag: it is not empty, and has no bracket, slash or blank in it. -/
def IsTagName (name : String) : Prop :=
  name.toList ≠ [] ∧ ∀ c ∈ name.toList, c ∉ ['<', '>', '/'] ∧ isBlank c = false

instance (name : String) : Decidable (IsTagName name) :=
  decidable_of_iff (name.toList ≠ [] ∧
      name.toList.all (fun c ↦ decide (c ∉ ['<', '>', '/'] ∧ isBlank c = false)) = true) <| by
    simp only [IsTagName, List.all_eq_true, decide_eq_true_eq]

/-- No letter is blank. -/
theorem isBlank_of_isAlpha {c : Char} (h : c.isAlpha = true) : isBlank c = false := by
  have hranges : ∀ n < 123, 65 ≤ n → blankRanges.contains n = false := by decide +kernel
  have hletter : (c.isUpper || c.isLower) = true := h
  have hbounds : 65 ≤ c.toNat ∧ c.toNat ≤ 122 := by
    rcases Bool.or_eq_true_iff.1 hletter with hupper | hlower
    · obtain ⟨hge, hle⟩ := of_decide_eq_true hupper
      exact ⟨hge, Nat.le_trans hle (by decide)⟩
    · have hends : (decide (c.val ≥ 'a'.val) && decide (c.val ≤ 'z'.val)) = true := hlower
      obtain ⟨hge, hle⟩ := Bool.and_eq_true_iff.1 hends
      exact ⟨Nat.le_trans (by decide) (of_decide_eq_true hge), of_decide_eq_true hle⟩
  exact hranges c.toNat (Nat.lt_succ_of_le hbounds.2) hbounds.1

/-- A name of letters can stand in a tag. -/
theorem IsPlain.isTagName {name : String} (h : IsPlain name) : IsTagName name := by
  refine ⟨h.ne_nil, fun c hc ↦ ⟨fun hmem ↦ ?_, isBlank_of_isAlpha (h.letters c hc)⟩⟩
  simp only [List.mem_cons, List.not_mem_nil, or_false] at hmem
  rcases hmem with rfl | rfl | rfl <;> exact h.not_mem rfl hc

variable {name : String}

theorem IsTagName.not_mem (h : IsTagName name) : '>' ∉ name.toList :=
  fun hmem ↦ (h.2 _ hmem).1 (by decide)

/-- A name in front of a bracket that ends a line is read. -/
theorem IsTagName.readName (h : IsTagName name) (rest : List Char) :
    readName (name.toList ++ '>' :: '\n' :: rest) = some (name, rest) := by
  rw [JackSyntax.readName, cutAt_append h.not_mem]
  simp only [String.ofList_toList]

/-- No name begins with a slash. -/
theorem IsTagName.head?_ne (h : IsTagName name) (rest : List Char) :
    (name.toList ++ rest).head? ≠ some '/' := by
  obtain ⟨c, more, hname⟩ := List.exists_cons_of_ne_nil h.1
  have hc := (h.2 c (hname ▸ List.mem_cons_self)).1
  rw [hname]
  intro heq
  obtain rfl := Option.some.inj heq
  exact hc (by decide)

/-- An event is read back from its line, without the bracket, whatever comes after it. -/
theorem readBody_body {e : Event} (h : IsTagName e.tag) (rest : List Char) :
    readBody (e.body ++ rest) = some (e, rest) := by
  cases e with
  | enter name =>
    replace h : IsTagName name := h
    rw [Event.body_enter_append, readBody, if_neg (h.head?_ne _), cutAt_append h.not_mem]
    simp only [String.ofList_toList]
  | terminal kind text =>
    replace h : IsTagName kind := h
    have hcontent : '<' ∉ text.toList.flatMap markupEscape ++ [' '] := by
      exact List.not_mem_append (isContent_flatMap text.toList).less (by decide)
    rw [Event.body_terminal_append, readBody, if_neg (h.head?_ne _), cutAt_append h.not_mem]
    simp only
    rw [List.append_cons, cutAt_append hcontent]
    simp only [h.readName rest, List.dropLast_concat, readContent_flatMap, String.ofList_toList]
    rfl
  | leave name =>
    replace h : IsTagName name := h
    rw [Event.body_leave_append, readBody, List.head?_cons, if_pos rfl, List.tail_cons,
      h.readName rest]
    rfl

/-- An event is read back from its line, whatever comes after it. -/
theorem readLine_line {e : Event} (h : IsTagName e.tag) (depth : Nat) (rest : List Char) :
    readLine ((e.line depth).toList ++ rest) = some (e, rest) := by
  have hspaces : ∀ c ∈ List.replicate (2 * e.lineDepth depth) ' ', (c == ' ') = true := by simp
  rw [readLine, e.toList_line, List.append_assoc, List.dropWhile_append_of_pos hspaces,
    List.cons_append, List.dropWhile_cons_of_neg (by decide)]
  exact readBody_body h rest

/-- Events are read back from their lines. -/
theorem readEvents_markupLines {events : List Event} (h : ∀ e ∈ events, IsTagName e.tag)
    (depth : Nat) : readEvents (markupLines depth events) = some events := by
  induction events generalizing depth with
  | nil => rw [markupLines, readEvents, if_pos rfl]
  | cons e events ih =>
    obtain ⟨he, hevents⟩ := List.forall_mem_cons.1 h
    rw [markupLines, readEvents_of_some (readLine_line he depth _), ih hevents]
    rfl

/-- Events with plain names can be read off their lines. -/
theorem markupLines_inj {events events' : List Event} (hplain : ∀ e ∈ events, IsPlain e.tag)
    (hplain' : ∀ e ∈ events', IsPlain e.tag) {depth : Nat}
    (h : markupLines depth events = markupLines depth events') : events = events' := by
  have hread := readEvents_markupLines (fun e he ↦ (hplain e he).isTagName) depth
  rw [h, readEvents_markupLines (fun e he ↦ (hplain' e he).isTagName) depth] at hread
  exact (Option.some.inj hread).symm

/-! ### Indentation -/

/-- The lines of the events inside `depth` elements, one for each of them. -/
def eventLines (depth : Nat) : List Event → List (List Char)
  | [] => []
  | e :: events => (e.line depth).toList :: eventLines (e.depthAfter depth) events

/-- The lines of events make up their markup. -/
theorem flatten_eventLines (depth : Nat) (events : List Event) :
    (eventLines depth events).flatten = markupLines depth events := by
  induction events generalizing depth with
  | nil => rfl
  | cons e events ih => rw [eventLines, List.flatten_cons, ih, markupLines]

/-- Each event has one line. -/
theorem length_eventLines (depth : Nat) (events : List Event) :
    (eventLines depth events).length = events.length := by
  induction events generalizing depth with
  | nil => rfl
  | cons e events ih => rw [eventLines, List.length_cons, List.length_cons, ih]

/-- The elements around the event, if some are open before it. No element is around its own end. -/
def Event.enclosing (opened : List String) : Event → List String
  | leave _ => opened.tail
  | _ => opened

/-- The elements around an event are as many as its line is deep. -/
theorem Event.length_enclosing (e : Event) (opened : List String) :
    (e.enclosing opened).length = e.lineDepth opened.length := by
  cases e with
  | enter name => rfl
  | terminal kind text => rfl
  | leave name => exact List.length_tail

variable {opened closed : List String} {events : List Event}

/-- After an event as many elements are open as it is counted. -/
theorem exists_unclosed_of_cons {e : Event} (h : unclosed opened (e :: events) = some closed) :
    ∃ opened', unclosed opened [e] = some opened' ∧
      opened'.length = e.depthAfter opened.length ∧ unclosed opened' events = some closed := by
  cases e with
  | enter name => exact ⟨name :: opened, rfl, rfl, h⟩
  | terminal kind text => exact ⟨opened, rfl, rfl, h⟩
  | leave name =>
    cases opened with
    | nil => simp [unclosed] at h
    | cons top opened =>
      rw [unclosed] at h
      split at h
      · rename_i htop
        exact ⟨opened, if_pos htop, rfl, h⟩
      · simp at h

/-- The line of an event is indented by two spaces for each element around the event. -/
theorem getElem?_eventLines (h : unclosed opened events = some closed) {i : Nat} {e : Event}
    (hi : events[i]? = some e) :
    ∃ opened', unclosed opened (events.take i) = some opened' ∧
      (eventLines opened.length events)[i]? =
        some (List.replicate (2 * (e.enclosing opened').length) ' ' ++ '<' :: e.body) := by
  induction events generalizing opened i with
  | nil => simp at hi
  | cons first events ih =>
    cases i with
    | zero =>
      obtain rfl := Option.some.inj hi
      refine ⟨opened, rfl, ?_⟩
      rw [Event.length_enclosing, ← Event.toList_line]
      rfl
    | succ i =>
      obtain ⟨opened₁, hfirst, hlength, hevents⟩ := exists_unclosed_of_cons h
      obtain ⟨opened₂, htake, hline⟩ := ih hevents hi
      have hsplit : (first :: events).take (i + 1) = [first] ++ events.take i := rfl
      rw [hlength] at hline
      exact ⟨opened₂, by rw [hsplit, unclosed_append_of_eq hfirst, htake], hline⟩

/-! ### Trees -/

/-- Events that close all elements have markup. -/
theorem exists_renderFrom (h : unclosed opened events = some []) (written : String) :
    ∃ tree, renderFrom opened.length written events = .ok tree := by
  fun_induction unclosed opened events generalizing written with
  | case1 opened =>
    obtain rfl := Option.some.inj h
    exact ⟨written, rfl⟩
  | case2 opened name events ih => exact ih h _
  | case3 opened kind text events ih => exact ih h _
  | case4 name events => simp at h
  | case5 top opened events ih => exact ih h _
  | case6 top opened name events hname => simp at h

/-- Balanced events have markup. -/
theorem exists_render_of_balanced (h : balanced events = true) :
    ∃ tree, render events = .ok tree :=
  exists_renderFrom (balanced_iff.1 h) ""

/-- A tree is read back from its markup. -/
theorem readMarkup_of_render {tree : String} (hnames : ∀ e ∈ events, IsTagName e.tag)
    (h : render events = .ok tree) : readMarkup tree = some events := by
  have hlines : tree.toList = markupLines 0 events := toList_of_renderFrom h
  rw [readMarkup, hlines, readEvents_markupLines hnames]

/-- The elements and terminals of a class have names that can stand in tags. Any tree with such
names, whatever the texts of its terminals are, has markup from which it is read back, so no other
tree has the same. There is a line for each event, indented by two spaces for each element around
it, and what is written for the text of a terminal is element content. -/
theorem render_decodes :
    (∀ r : Rule, IsTagName r.name) ∧ (∀ k : Kind, IsTagName k.name) ∧
    ∀ events : List Event, balanced events = true → (∀ e ∈ events, IsTagName e.tag) →
      ∃ tree, render events = .ok tree ∧ readMarkup tree = some events ∧
        (∀ events', balanced events' = true → (∀ e ∈ events', IsTagName e.tag) →
          render events' = .ok tree → events' = events) ∧
        (∃ lines : List (List Char), tree.toList = lines.flatten ∧ lines.length = events.length ∧
          ∀ i e, events[i]? = some e → ∃ opened, unclosed [] (events.take i) = some opened ∧
            lines[i]? =
              some (List.replicate (2 * (e.enclosing opened).length) ' ' ++ '<' :: e.body)) ∧
        (∀ kind text, .terminal kind text ∈ events → IsContent (markupContent text).toList) := by
  refine ⟨fun r ↦ r.isPlain_name.isTagName, fun k ↦ k.isPlain_name.isTagName,
    fun events hbalanced hnames ↦ ?_⟩
  obtain ⟨tree, htree⟩ := exists_render_of_balanced hbalanced
  have hread := readMarkup_of_render hnames htree
  refine ⟨tree, htree, hread, fun events' _ hnames' htree' ↦ ?_, ⟨eventLines 0 events, ?_, ?_, ?_⟩,
    fun kind text _ ↦ ?_⟩
  · rw [readMarkup_of_render hnames' htree'] at hread
    exact Option.some.inj hread
  · rw [flatten_eventLines]
    exact toList_of_renderFrom htree
  · exact length_eventLines 0 events
  · exact fun i e hi ↦ getElem?_eventLines (balanced_iff.1 hbalanced) hi
  · rw [markupContent, String.toList_ofList]
    exact isContent_flatMap text.toList

/-- A text that looks like an entity, a line break and an end tag. -/
theorem render_decodes_entity :
    let events : List Event :=
      [.enter "a", .terminal "b" " &lt;\n</b>\"", .enter "c", .leave "c", .leave "a"]
    let tree := "<a>\n  <b>  &amp;lt;\n&lt;/b&gt;&quot; </b>\n  <c>\n  </c>\n</a>\n"
    render events = .ok tree ∧ readMarkup tree = some events := by
  intro events tree
  have hnames : ∀ e ∈ events, IsTagName e.tag := by decide +kernel
  obtain ⟨tree', htree', hread, -⟩ := render_decodes.2.2 events (by decide) hnames
  have htree : render events = .ok tree := rfl
  obtain rfl := Except.ok.inj (htree.symm.trans htree')
  exact ⟨htree, hread⟩

end JackSyntax
