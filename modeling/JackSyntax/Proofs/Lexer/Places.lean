import JackSyntax.Lexer.Call
import JackSyntax.Proofs.Lexer.Segmentation

/-!
# The places that a tokenizer tells

A cursor is moved over one piece of text after the other, and counts lines and columns as it goes.
Where it stands can also be counted from the text at once: `Position.IsAt` does so, with the line
feeds before the place and the last of them. The two agree since a tokenizer of a text only ever
moves over what comes next in it (`Tokenizer.IsOn`), whether it reads trivia, a token or a word, and
stays where it is when it fails.

## Main statements

* `isAt_advance`: the place of a cursor, counted from the text.
* `position_advance_eq_endPosition`: a cursor that has read all of a text stands at its end.
* `Tokenizer.performAll_places`: the places told by a tokenizer that is asked for anything.
-/

namespace JackSyntax

/-- The position is the place after the first `offset` characters of the text. -/
structure Position.IsAt (p : Position) (text : List Char) (offset : Nat) : Prop where
  le : offset ≤ text.length
  offset_eq : p.offset = offset
  /-- Lines count the line feeds before the place. -/
  line_eq : p.line = 1 + (text.take offset).count '\n'
  /-- Columns count from the last line feed before the place, or from the start of the text. -/
  column_eq :
    (∃ i < offset, text[i]? = some '\n' ∧ (∀ j, i < j → j < offset → text[j]? ≠ some '\n') ∧
      p.column = offset - i) ∨
    (∀ i < offset, text[i]? ≠ some '\n') ∧ p.column = offset + 1

/-! ### Cursors -/

namespace Cursor

/-- The cursor past a character that is no line feed. -/
theorem step_of_ne {c : Char} (hc : c ≠ '\n') (cursor : Cursor) :
    (cursor.step c).line = cursor.line ∧ (cursor.step c).column = cursor.column + 1 :=
  ⟨if_neg hc, if_neg hc⟩

/-- Reading on counts the line feeds. -/
theorem line_advance (cursor : Cursor) (text : List Char) :
    (cursor.advance text).line = cursor.line + text.count '\n' := by
  induction text generalizing cursor with
  | nil => rfl
  | cons c text ih =>
    show ((cursor.step c).advance text).line = _
    rw [ih]
    by_cases hc : c = '\n'
    · subst hc
      rw [List.count_cons_self, Nat.add_comm _ 1, ← Nat.add_assoc]
      rfl
    · rw [(step_of_ne hc cursor).1, List.count_cons_of_ne hc]

/-- Reading on counts the bytes. -/
theorem consumed_advance (cursor : Cursor) (text : List Char) :
    (cursor.advance text).consumed = cursor.consumed + (String.ofList text).utf8ByteSize := by
  induction text generalizing cursor with
  | nil => rfl
  | cons c text ih =>
    show ((cursor.step c).advance text).consumed = _
    rw [ih, String.ofList_cons, String.utf8ByteSize_append, String.utf8ByteSize_singleton,
      ← Nat.add_assoc]
    rfl

/-- The column counts from the last line feed read, or goes on from where it was. -/
theorem column_advance_cases (cursor : Cursor) (text : List Char) :
    (∃ before line, text = before ++ '\n' :: line ∧ '\n' ∉ line ∧
      (cursor.advance text).column = line.length + 1) ∨
    '\n' ∉ text ∧ (cursor.advance text).column = cursor.column + text.length := by
  induction text generalizing cursor with
  | nil => exact .inr ⟨List.not_mem_nil, rfl⟩
  | cons c text ih =>
    have hstep : (cursor.advance (c :: text)).column = ((cursor.step c).advance text).column := rfl
    rw [hstep]
    rcases ih (cursor.step c) with ⟨before, line, rfl, hline, hcolumn⟩ | ⟨htext, hcolumn⟩
    · exact .inl ⟨c :: before, line, rfl, hline, hcolumn⟩
    · by_cases hc : c = '\n'
      · subst hc
        exact .inl ⟨[], text, rfl, htext, hcolumn.trans (Nat.add_comm _ _)⟩
      · rw [hcolumn, (step_of_ne hc cursor).2, List.length_cons]
        exact .inr ⟨by simpa [htext] using Ne.symm hc, by omega⟩

/-- What holds no line feed is passed on the same line. -/
theorem advance_of_not_mem {text : List Char} (htext : '\n' ∉ text) (cursor : Cursor) :
    (cursor.advance text).line = cursor.line ∧
      (cursor.advance text).column = cursor.column + text.length := by
  constructor
  · rw [line_advance, List.count_eq_zero_of_not_mem htext, Nat.add_zero]
  · rcases cursor.column_advance_cases text with ⟨_, _, rfl, -, -⟩ | ⟨-, hcolumn⟩
    · simp at htext
    · exact hcolumn

/-- The offset is the number of characters read. -/
theorem offset_start_advance (read : List Char) : (start.advance read).offset = read.length :=
  (offset_advance start read).trans (Nat.zero_add _)

end Cursor

/-- A cursor that has read the front part of a text is at the end of that part. -/
theorem isAt_advance (read rest : List Char) :
    (Cursor.start.advance read).position.IsAt (read ++ rest) read.length where
  le := by
    rw [List.length_append]
    exact Nat.le_add_right _ _
  offset_eq := congrArg Nat.cast (Cursor.offset_start_advance read)
  line_eq := by
    have hline := Cursor.line_advance .start read
    rw [List.take_left]
    exact congrArg Nat.cast hline
  column_eq := by
    have hread : ∀ i < read.length, (read ++ rest)[i]? = read[i]? :=
      fun i hi ↦ List.getElem?_append_left hi
    rcases Cursor.column_advance_cases .start read with
      ⟨before, line, rfl, hline, hcolumn⟩ | ⟨hnone, hcolumn⟩
    · have hlength : (before ++ '\n' :: line).length = before.length + (line.length + 1) := by
        rw [List.length_append, List.length_cons]
      have hbreak : before.length < (before ++ '\n' :: line).length := by omega
      refine .inl ⟨before.length, hbreak, ?_, fun j hlt hj ↦ ?_, ?_⟩
      · rw [hread _ hbreak, List.getElem?_append_right (Nat.le_refl _), Nat.sub_self]
        rfl
      · rw [hread j hj, List.getElem?_append_right (Nat.le_of_lt hlt)]
        obtain ⟨k, rfl⟩ := Nat.exists_eq_add_of_lt hlt
        rw [Nat.add_assoc, Nat.add_sub_cancel_left, List.getElem?_cons_succ]
        exact fun hmem ↦ hline (List.mem_of_getElem? hmem)
      · show ((Cursor.start.advance (before ++ '\n' :: line)).column : Int) = _
        omega
    · refine .inr ⟨fun i hi hmem ↦ ?_, ?_⟩
      · rw [hread i hi] at hmem
        exact hnone (List.mem_of_getElem? hmem)
      · show ((Cursor.start.advance read).column : Int) = _
        rw [hcolumn]
        show ((1 + read.length : Nat) : Int) = _
        omega

/-- A cursor that has read all of a text stands at its end. -/
theorem position_advance_eq_endPosition (text : String) :
    (Cursor.start.advance text.toList).position = endPosition text := by
  have hline := Cursor.line_advance .start text.toList
  have hcolumn : (Cursor.start.advance text.toList).column =
      (text.toList.reverse.takeWhile (· != '\n')).length + 1 := by
    rcases Cursor.column_advance_cases .start text.toList with
      ⟨before, line, htext, hline, hcolumn⟩ | ⟨hnone, hcolumn⟩
    · have hrun : MaximalRun (· != '\n') line.reverse ('\n' :: before.reverse) :=
        ⟨fun c hc ↦ by simpa using ne_of_mem_of_not_mem (List.mem_reverse.1 hc) hline, by simp⟩
      rw [hcolumn, htext, List.reverse_append, List.reverse_cons, List.append_assoc,
        List.singleton_append, hrun.takeWhile, List.length_reverse]
    · have hrun : MaximalRun (· != '\n') text.toList.reverse [] :=
        ⟨fun c hc ↦ by simpa using ne_of_mem_of_not_mem (List.mem_reverse.1 hc) hnone, by simp⟩
      have hall := hrun.takeWhile
      rw [List.append_nil] at hall
      rw [hcolumn, hall, List.length_reverse]
      exact Nat.add_comm _ _
  rw [Cursor.position, endPosition, hcolumn, hline, Cursor.offset_start_advance,
    Nat.add_comm _ (text.toList.count '\n')]
  rfl

namespace Tokenizer

variable {t t' t'' : Tokenizer} {text : String}

/-! ### Tokenizers of a text -/

/-- The tokenizer has read the front part of the text, and nothing else. -/
def IsOn (t : Tokenizer) (text : String) : Prop :=
  ∃ read, text.toList = read ++ t.rest ∧ t.cursor = Cursor.start.advance read

/-- A tokenizer at the start is on its text. -/
theorem isOn_ofText (text : String) (limits : Limits) : (ofText text limits).IsOn text :=
  ⟨[], rfl, rfl⟩

/-- The tokenizer moves on over what comes next. -/
theorem IsOn.advance (h : t.IsOn text) {pieces : List Char × List Char}
    (hpieces : pieces.1 ++ pieces.2 = t.rest) : (t.advance pieces).IsOn text := by
  obtain ⟨read, htext, hcursor⟩ := h
  refine ⟨read ++ pieces.1, ?_, ?_⟩
  · rw [htext, ← hpieces, List.append_assoc]
    rfl
  · rw [Cursor.advance_append, ← hcursor]
    rfl

/-- A tokenizer stays on its text when it passes over trivia. -/
theorem IsOn.skipTrivia (h : t.IsOn text) : t.skipTrivia.IsOn text :=
  h.advance (splitTrivia_append t.rest)

/-- A tokenizer stays on its text when it accepts a scan. -/
theorem IsOn.accept {scan : Scan} (h : t.IsOn text) (hscan : scan.Divides t.rest) :
    (t.accept scan).IsOn text :=
  h.advance hscan.taken_append_rest

/-- A tokenizer stands at a place of its text. -/
theorem IsOn.isAt (h : t.IsOn text) : t.cursor.position.IsAt text.toList t.cursor.offset := by
  obtain ⟨read, htext, hcursor⟩ := h
  rw [htext, hcursor, Cursor.offset_start_advance]
  exact isAt_advance read t.rest

/-- It has counted the bytes before that place. -/
theorem IsOn.consumed_eq (h : t.IsOn text) :
    t.cursor.consumed = (String.ofList (text.toList.take t.cursor.offset)).utf8ByteSize := by
  obtain ⟨read, htext, hcursor⟩ := h
  rw [htext, hcursor, Cursor.offset_start_advance, List.take_left, Cursor.consumed_advance]
  exact Nat.zero_add _

/-- Where nothing is left, it stands at the end of the text. -/
theorem IsOn.position_of_rest_nil (h : t.IsOn text) (hrest : t.rest = []) :
    t.cursor.offset = text.toList.length ∧ t.cursor.position = endPosition text := by
  obtain ⟨read, htext, hcursor⟩ := h
  rw [hrest, List.append_nil] at htext
  rw [hcursor, ← htext]
  exact ⟨Cursor.offset_start_advance _, position_advance_eq_endPosition text⟩

/-- Passing over trivia never leads back. -/
theorem offset_skipTrivia_le (t : Tokenizer) : t.cursor.offset ≤ t.skipTrivia.cursor.offset := by
  show _ ≤ (t.cursor.advance _).offset
  rw [Cursor.offset_advance]
  exact Nat.le_add_right _ _

/-- Accepting a scan leads on. -/
theorem offset_lt_accept {scan : Scan} (hscan : scan.Divides t.rest) :
    t.cursor.offset < (t.accept scan).cursor.offset := by
  show _ < (t.cursor.advance scan.taken).offset
  rw [Cursor.offset_advance]
  exact Nat.lt_add_of_pos_right (List.length_pos_iff.2 hscan.taken_ne_nil)

/-! ### Calls -/

/-- The places told by a reply. -/
def Reply.positions : Except LexError Reply → List Position
  | .error e => [e.position]
  | .ok (.token none) => []
  | .ok (.token (some given)) => [given.span.start, given.span.stop]
  | .ok (.position p) => [p]

/-- The token that a reply gives. -/
def Reply.token? : Except LexError Reply → Option Token
  | .ok (.token given) => given
  | _ => none

/-- The tokenizer goes on in the text with the replies, which tell places of the text, and gives
tokens that come one after the other. -/
structure Passes (t : Tokenizer) (text : String) (replies : List (Except LexError Reply))
    (t' : Tokenizer) : Prop where
  isOn : t'.IsOn text
  offset_le : t.cursor.offset ≤ t'.cursor.offset
  places : ∀ reply ∈ replies, ∀ p ∈ Reply.positions reply, ∃ offset, p.IsAt text.toList offset
  tokens : ∀ token ∈ replies.filterMap Reply.token?,
    t.cursor.offset ≤ token.span.start.offset ∧
      token.span.start.offset < token.span.stop.offset ∧
      token.span.stop.offset ≤ t'.cursor.offset
  ordered : (replies.filterMap Reply.token?).Pairwise fun token token' ↦
    token.span.stop.offset ≤ token'.span.start.offset

theorem Passes.nil (h : t.IsOn text) : t.Passes text [] t where
  isOn := h
  offset_le := Nat.le_refl _
  places := by simp
  tokens := by simp
  ordered := .nil

/-- What two series of calls do is what they do together. -/
theorem Passes.append {replies more : List (Except LexError Reply)} (h : t.Passes text replies t')
    (h' : t'.Passes text more t'') : t.Passes text (replies ++ more) t'' where
  isOn := h'.isOn
  offset_le := Nat.le_trans h.offset_le h'.offset_le
  places := List.forall_mem_append.2 ⟨h.places, h'.places⟩
  tokens := by
    have hle := h.offset_le
    have hle' := h'.offset_le
    rw [List.filterMap_append]
    refine List.forall_mem_append.2 ⟨fun token hmem ↦ ?_, fun token hmem ↦ ?_⟩
    · have htoken := h.tokens token hmem
      omega
    · have htoken := h'.tokens token hmem
      omega
  ordered := by
    rw [List.filterMap_append]
    refine List.pairwise_append.2 ⟨h.ordered, h'.ordered, fun token hmem token' hmem' ↦ ?_⟩
    have hstop := (h.tokens token hmem).2.2
    have hstart := (h'.tokens token' hmem').1
    omega

/-- A reply without a token tells places only. -/
theorem passes_of_token?_none {reply : Except LexError Reply} (h : t'.IsOn text)
    (hle : t.cursor.offset ≤ t'.cursor.offset) (hreply : Reply.token? reply = none)
    (hplaces : ∀ p ∈ Reply.positions reply, ∃ offset, p.IsAt text.toList offset) :
    t.Passes text [reply] t' where
  isOn := h
  offset_le := hle
  places := List.forall_mem_singleton.2 hplaces
  tokens := by simp [hreply]
  ordered := by simp [hreply]

/-- A token that was scanned at the cursor covers what was scanned. -/
theorem passes_of_scan {scan : Scan} (h : t.IsOn text) (hscan : scan.Divides t.rest)
    (hle : t'.cursor.offset ≤ t.cursor.offset) {emitted : Nat} :
    t'.Passes text [.ok (.token (some (t.tokenOf scan)))] { t.accept scan with emitted } where
  isOn := h.accept hscan
  offset_le := Nat.le_trans hle (Nat.le_of_lt (offset_lt_accept hscan))
  places := by
    refine List.forall_mem_singleton.2 fun p hp ↦ ?_
    rcases List.mem_cons.1 hp with rfl | hp
    · exact ⟨_, h.isAt⟩
    · obtain rfl := List.mem_singleton.1 hp
      exact ⟨_, (h.accept hscan).isAt⟩
  tokens := by
    have hlt := offset_lt_accept hscan
    refine List.forall_mem_singleton.2 ⟨?_, ?_, Int.le_refl _⟩
    · exact Int.ofNat_le.2 hle
    · exact Int.ofNat_lt.2 hlt
  ordered := List.pairwise_singleton _ _

/-- A call goes on in the text, however it ends. -/
theorem passes_perform (h : t.IsOn text) (call : Call) :
    t.Passes text [(t.perform text call).1] (t.perform text call).2 := by
  cases call with
  | next =>
    rcases hnext : t.next with ⟨answer, t'⟩
    have hperform : t.perform text .next = (answer.map .token, t') := by rw [perform, hnext]
    rw [hperform]
    cases answers_of_next hnext with
    | spent _ => exact passes_of_token?_none h (Nat.le_refl _) rfl (List.forall_mem_nil _)
    | ended _ _ =>
      exact passes_of_token?_none h.skipTrivia t.offset_skipTrivia_le rfl (List.forall_mem_nil _)
    | failed _ _ _ =>
      refine passes_of_token?_none h.skipTrivia t.offset_skipTrivia_le rfl ?_
      exact List.forall_mem_singleton.2 ⟨_, h.skipTrivia.isAt⟩
    | token _ hrest hscan =>
      have hdivides := scanLexeme_divides hscan
      rw [← hrest] at hdivides
      exact passes_of_scan h.skipTrivia hdivides t.offset_skipTrivia_le
  | word =>
    rw [perform, word]
    cases hscan : scanWord t.rest with
    | error cause =>
      exact passes_of_token?_none h (Nat.le_refl _) rfl (List.forall_mem_singleton.2 ⟨_, h.isAt⟩)
    | ok scan => exact passes_of_scan h (scanWord_divides hscan) (Nat.le_refl _)
  | endPosition =>
    refine passes_of_token?_none h (Nat.le_refl _) rfl ?_
    refine List.forall_mem_singleton.2 ⟨text.toList.length, ?_⟩
    have hend := isAt_advance text.toList []
    rwa [List.append_nil, position_advance_eq_endPosition] at hend

/-- Any calls lead on through the text. -/
theorem passes_performAll (h : t.IsOn text) (calls : List Call) :
    t.Passes text (t.performAll text calls).1 (t.performAll text calls).2 := by
  induction calls generalizing t with
  | nil => exact Passes.nil h
  | cons call calls ih =>
    have hcall := passes_perform h call
    exact hcall.append (ih hcall.isOn)

/-- Where there is no more though the limit is not reached, only trivia was left. -/
theorem rest_of_perform_next_none (h : t.perform text .next = (.ok (.token none), t'))
    (hspent : ¬ t.isSpent = true) : t'.rest = [] := by
  rcases hnext : t.next with ⟨answer, t''⟩
  rw [perform, hnext] at h
  obtain ⟨hreply, rfl⟩ := Prod.mk.inj h
  cases answers_of_next hnext with
  | spent hspent' => exact absurd hspent' hspent
  | ended _ hrest => exact hrest
  | failed _ _ _ => simp [Except.map] at hreply
  | token _ _ _ => simp [Except.map] at hreply

/-- A tokenizer of a text that is asked for anything, in any order and after any failure, stands at
a place of the text that it never goes back from, and has counted the bytes before it. All the
places that it tells are places of the text. The tokens that it gives are not empty and come one
after the other. If it gives no more though the limit on tokens is not reached, it stands at the end
of the text. -/
theorem performAll_places (text : String) (limits : Limits) (calls : List Call) :
    let replies := ((ofText text limits).performAll text calls).1
    let t := ((ofText text limits).performAll text calls).2
    t.cursor.position.IsAt text.toList t.cursor.offset ∧
    t.cursor.consumed = (String.ofList (text.toList.take t.cursor.offset)).utf8ByteSize ∧
    (∀ call, t.cursor.offset ≤ (t.perform text call).2.cursor.offset) ∧
    (∀ reply ∈ replies, ∀ p ∈ Reply.positions reply, ∃ offset, p.IsAt text.toList offset) ∧
    (∀ token ∈ replies.filterMap Reply.token?,
      token.span.start.offset < token.span.stop.offset) ∧
    ((replies.filterMap Reply.token?).Pairwise fun token token' ↦
      token.span.stop.offset ≤ token'.span.start.offset) ∧
    (∀ t', t.perform text .next = (.ok (.token none), t') → ¬ t.isSpent = true →
      t'.cursor.offset = text.toList.length ∧ t'.cursor.position = endPosition text) := by
  intro replies t
  have hpasses := passes_performAll (isOn_ofText text limits) calls
  refine ⟨hpasses.isOn.isAt, hpasses.isOn.consumed_eq,
    fun call ↦ (passes_perform hpasses.isOn call).offset_le, hpasses.places,
    fun token hmem ↦ (hpasses.tokens token hmem).2.1, hpasses.ordered, fun t' hend hspent ↦ ?_⟩
  have hlast := (passes_perform hpasses.isOn .next).isOn
  rw [hend] at hlast
  exact hlast.position_of_rest_nil (rest_of_perform_next_none hend hspent)

end Tokenizer

end JackSyntax
