import JackSyntax.Editor

/-!
# Serving an editor

An editor gives notice of each document that it opens or changes, with the text that the document
holds from then on. The texts are kept in a workspace, which is not part of this library
(`Workspace` says what is asked of it), and each notice is answered with all complaints about the
document.
-/

namespace JackSyntax

namespace Editor

variable {σ : Type}

/-- What keeps the texts of documents: its states and what is done with them. A text that has been
given for a document is the one that is found there next. -/
structure Workspace (σ : Type) where
  /-- A document has been opened with the text. -/
  opened : σ → (uri text : String) → σ
  /-- A document has been changed to the text. -/
  changed : σ → (uri text : String) → σ
  /-- The text of a document. -/
  text : σ → (uri : String) → String
  text_opened : ∀ s uri given, text (opened s uri given) uri = given
  text_changed : ∀ s uri given, text (changed s uri given) uri = given

/-- The workspace that keeps every text it was given, the last one first. -/
def Workspace.recent : Workspace (List (String × String)) where
  opened given uri text := (uri, text) :: given
  changed given uri text := (uri, text) :: given
  text given uri := (given.lookup uri).getD ""
  text_opened given uri text := by simp
  text_changed given uri text := by simp

/-- A notice of a document and the text that it holds from then on. -/
inductive Notice where
  /-- The document is opened. -/
  | opened (uri text : String)
  /-- The document is changed. -/
  | changed (uri text : String)
deriving DecidableEq, Repr

/-- Tells all complaints about a document, as the workspace has it. -/
def announce (w : Workspace σ) (s : σ) (uri : String) : List Publication :=
  [publish uri (w.text s uri)]

/-- What is published on a notice, and the workspace then. -/
def receive (w : Workspace σ) (s : σ) : Notice → List Publication × σ
  | .opened uri text =>
    let s := w.opened s uri text
    (announce w s uri, s)
  | .changed uri text =>
    let s := w.changed s uri text
    (announce w s uri, s)

/-- What is published on each of the notices, and the workspace after them. -/
def receiveAll (w : Workspace σ) (s : σ) : List Notice → List (List Publication) × σ
  | [] => ([], s)
  | notice :: notices =>
    let (published, s) := receive w s notice
    let (more, s) := receiveAll w s notices
    (published :: more, s)

end Editor

end JackSyntax
