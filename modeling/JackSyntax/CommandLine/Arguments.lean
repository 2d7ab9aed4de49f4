import JackSyntax.CommandLine.Integer

/-!
# Command line arguments

One source and some options, in any order. Options have a long form and some a short one; a long
form may be cut short as long as it is clear which is meant, and takes its value from the next
argument or after an equals sign. Short forms may be run together, and the last of them takes its
value from the rest of the argument or from the next one; an equals sign after the first letter does
not count. After a double dash all arguments are plain. So are a single dash, a negative number and
an argument with a space, even though they start like options. A double dash that is attached to an
option as its value is dropped, which leaves the option without a value.

These are the conventions of `argparse` up to its release 3.11.8. Later releases keep the attached
double dash and read an equals sign, or what follows a request for help, in another way: they differ
on `--max-tokens=--`, `-o=--`, `-vo=x`, `-v=v`, `-hx` and `-h=v`.

Arguments are first told apart (`Argument.ofStrings?`) and then taken in order (`takeArguments`):
what an option does is done before the arguments after it are looked at, so a request for help is
answered unless an earlier argument is wrong.
-/

namespace JackSyntax

/-- The options. -/
inductive Switch where
  | help | outputDir | tokens | config | maxTokens | debug | verbose
deriving DecidableEq, Repr

namespace Switch

/-- Every option once. -/
def all : List Switch :=
  [help, outputDir, tokens, config, maxTokens, debug, verbose]

/-- The long form. -/
def long : Switch → String
  | help => "--help"
  | outputDir => "--output-dir"
  | tokens => "--tokens"
  | config => "--config"
  | maxTokens => "--max-tokens"
  | debug => "--debug"
  | verbose => "--verbose"

/-- The letter of the short form. -/
def letter? : Switch → Option Char
  | help => some 'h'
  | outputDir => some 'o'
  | verbose => some 'v'
  | _ => none

/-- Whether the option has a value. -/
def takesValue : Switch → Bool
  | outputDir | config | maxTokens => true
  | _ => false

/-- The option with the short form. -/
def ofLetter? (c : Char) : Option Switch :=
  all.find? (·.letter? == some c)

/-- The options whose long form starts so. -/
def ofStart (start : List Char) : List Switch :=
  all.filter fun s ↦ start.isPrefixOf s.long.toList

end Switch

/-- What an argument is. -/
inductive Argument where
  /-- A source, or the value of the option before it. -/
  | plain (text : String)
  /-- The double dash after which all arguments are plain. -/
  | separator
  /-- An option in its long form, with the value after its equals sign. -/
  | long (s : Switch) (value : Option String)
  /-- An option in its short form and what is attached to it. -/
  | short (s : Switch) (attached : Option (List Char))
  /-- What starts like an option and is none. -/
  | unknown
deriving DecidableEq, Repr

/-- Whether the text after a dash makes it a negative number: digits, or a point with digits after
it and at will before it. A line feed at the end does not count. -/
def isNegativeNumber (text : List Char) : Bool :=
  let text := if text.getLast? = some '\n' then text.dropLast else text
  let isDigit := fun c ↦ (decimalDigit? c).isSome
  match text.dropWhile isDigit with
  | [] => !text.isEmpty
  | '.' :: fraction => !fraction.isEmpty && fraction.all isDigit
  | _ => false

/-- An argument that starts with a dash and is no option: plain if it is a number or has a space. -/
def Argument.ofOther (text : List Char) : Argument :=
  if isNegativeNumber (text.drop 1) || text.contains ' ' then .plain (String.ofList text)
  else .unknown

/-- What is attached to an option by the characters after its letter. The equals sign is dropped
where the letters are told apart, so it is read only after the first of them, with a value or
without one (up to `argparse` 3.11.8). -/
def attachment? : List Char → Option (List Char)
  | [] => none
  | c :: rest => some (if c = '=' then rest else c :: rest)

/-- What an argument before a double dash is, or nothing if it could be several options. -/
def Argument.ofString? (text : String) : Option Argument :=
  match text.toList with
  | '-' :: '-' :: rest =>
    let start := ('-' :: '-' :: rest).takeWhile (· != '=')
    let value := ((('-' :: '-' :: rest).dropWhile (· != '=')).tail?).map String.ofList
    let exact := Switch.all.find? fun s ↦ s.long.toList == start
    match exact, Switch.ofStart start with
    -- A form in full is meant even if it also starts another.
    | some s, _ => some (.long s value)
    | none, [s] => some (.long s value)
    | none, [] => some (.ofOther text.toList)
    | none, _ => none
  | '-' :: c :: rest =>
    match Switch.ofLetter? c with
    | some s => some (.short s (attachment? rest))
    | none => some (.ofOther text.toList)
  | _ => some (.plain text)

/-- What the arguments are, or nothing if one could be several options. -/
def Argument.ofStrings? : List String → Option (List Argument)
  | [] => some []
  | text :: texts =>
    if text = "--" then some (.separator :: texts.map .plain)
    else do return (← ofString? text) :: (← ofStrings? texts)

/-- What one argument of options asks for. -/
structure Request where
  /-- The options, each with the value that came with it. -/
  given : List (Switch × Option String) := []
  /-- The last option, if its value is the next argument. -/
  awaiting : Option Switch := none
deriving DecidableEq, Repr

namespace Request

/-- The request with one more option before its others. -/
def cons (s : Switch) (r : Request) : Request :=
  { r with given := (s, none) :: r.given }

/-- The request of an option that nothing is attached to. -/
def bare (s : Switch) : Request :=
  if s.takesValue then { awaiting := some s } else { given := [(s, none)] }

/-- The request of an option with a text attached to it. A double dash is no value (up to `argparse`
3.11.8, which drops it wherever it stands). -/
def valued (s : Switch) (text : String) : Request :=
  { given := [(s, if text = "--" then none else some text)] }

/-- The request of an option in its long form, or nothing if it has no value and is given one. -/
def ofLong? (s : Switch) : (value : Option String) → Option Request
  | some value => if s.takesValue then some (valued s value) else none
  | none => some (bare s)

/-- The request of options in their short form, run together: the first, and the characters after
its letter. Nothing comes of it if one of those should be an option and is none. -/
def ofLetters? (s : Switch) : List Char → Option Request
  | [] => some (bare s)
  | c :: rest =>
    if s.takesValue then some (valued s (String.ofList (c :: rest)))
    else
      match Switch.ofLetter? c with
      | some next => (ofLetters? next rest).map (cons s)
      | none => none

/-- The request of an option in its short form. An empty attachment is a value. -/
def ofShort? (s : Switch) : (attached : Option (List Char)) → Option Request
  | none => some (bare s)
  -- Only an equals sign leaves an empty attachment.
  | some [] => ofLong? s (some "")
  | some attached => ofLetters? s attached

end Request

/-- The limit on tokens that the command line gives. -/
inductive TokenLimit where
  /-- There is none. -/
  | absent
  /-- The option is there without its value. -/
  | valueless
  /-- A number. -/
  | value (n : Int)
deriving DecidableEq, Repr

/-- What the command line asks for. -/
structure Arguments where
  /-- The source. -/
  source : String
  /-- The output directory. -/
  outputDir : Option String := none
  /-- Whether listings are asked for. -/
  tokens : Bool := false
  /-- The configuration file. -/
  config : Option String := none
  /-- The limit on tokens. -/
  maxTokens : TokenLimit := .absent
  /-- Whether dumps are asked for. -/
  debug : Bool := false
  /-- Whether written files are to be reported. -/
  verbose : Bool := false
deriving DecidableEq, Repr

/-- Why there are no arguments to go by. -/
inductive Refusal where
  /-- Help was asked for. -/
  | help
  /-- The arguments are wrong. -/
  | misuse
deriving DecidableEq, Repr

/-- What was taken of a command line. -/
structure Taken where
  /-- The options so far, with an empty source until there is one. -/
  arguments : Arguments := { source := "" }
  /-- Whether there is a source. -/
  hasSource : Bool := false
  /-- Whether there are arguments that have no place. -/
  surplus : Bool := false
deriving DecidableEq, Repr

namespace Taken

/-- Does what an option asks for. -/
def apply (t : Taken) (s : Switch) (value : Option String) : Except Refusal Taken :=
  let set := fun (a : Arguments) ↦ Except.ok { t with arguments := a }
  match s with
  | .help => .error .help
  | .outputDir => set { t.arguments with outputDir := value }
  | .tokens => set { t.arguments with tokens := true }
  | .config => set { t.arguments with config := value }
  | .maxTokens =>
    match value with
    | none => set { t.arguments with maxTokens := .valueless }
    | some text =>
      match integerArgument? text with
      | some n => set { t.arguments with maxTokens := .value n }
      | none => .error .misuse
  | .debug => set { t.arguments with debug := true }
  | .verbose => set { t.arguments with verbose := true }

/-- Does what options ask for, in order. -/
def applyAll (t : Taken) : List (Switch × Option String) → Except Refusal Taken
  | [] => .ok t
  | (s, value) :: given =>
    match t.apply s value with
    | .error e => .error e
    | .ok t => t.applyAll given

/-- Takes a plain argument, which is the source if there is none yet. -/
def addPlain (t : Taken) (text : String) : Taken :=
  if t.hasSource then { t with surplus := true }
  else { t with arguments := { t.arguments with source := text }, hasSource := true }

/-- The arguments, if there is a source and nothing else. -/
def finish (t : Taken) : Except Refusal Arguments :=
  if t.hasSource && !t.surplus then .ok t.arguments else .error .misuse

end Taken

mutual

/-- Takes the arguments in order. A double dash goes with the plain argument that is the source,
before or after it, and has no other place. -/
def takeArguments (t : Taken) : List Argument → Except Refusal Arguments
  | [] => t.finish
  | .plain text :: .separator :: rest =>
    takeArguments (if t.hasSource then { t with surplus := true } else t.addPlain text) rest
  | .plain text :: rest => takeArguments (t.addPlain text) rest
  | .separator :: .plain text :: rest =>
    takeArguments (if t.hasSource then { t with surplus := true } else t.addPlain text) rest
  | .separator :: rest => takeArguments { t with surplus := true } rest
  | .unknown :: rest => takeArguments { t with surplus := true } rest
  | .long s value :: rest => takeRequest t (Request.ofLong? s value) rest
  | .short s text :: rest => takeRequest t (Request.ofShort? s text) rest
termination_by arguments => 2 * arguments.length

/-- Takes a request, with the next argument as its value if it awaits one, and the arguments after
it. -/
def takeRequest (t : Taken) : Option Request → List Argument → Except Refusal Arguments
  | none, _ => .error .misuse
  | some r, rest =>
    match r.awaiting with
    | none =>
      match t.applyAll r.given with
      | .error e => .error e
      | .ok t => takeArguments t rest
    | some s =>
      match rest with
      | .plain text :: rest =>
        match t.applyAll (r.given ++ [(s, some text)]) with
        | .error e => .error e
        | .ok t => takeArguments t rest
      | _ => .error .misuse
termination_by _ rest => 2 * rest.length + 1

end

/-- What a command line asks for, by the conventions of `argparse` up to its release 3.11.8. -/
def Arguments.ofStrings (texts : List String) : Except Refusal Arguments :=
  match Argument.ofStrings? texts with
  | none => .error .misuse
  | some arguments => takeArguments {} arguments

end JackSyntax
