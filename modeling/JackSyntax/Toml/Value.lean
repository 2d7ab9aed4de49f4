import JackSyntax.Decimal.Digits
import JackSyntax.Text.Quoted
import JackSyntax.Toml.Moment

/-!
# TOML values

What a configuration file says: tables of values under keys, in the order in which the keys were
first met. Reals are kept as their text, since nothing is computed with them.
-/

namespace JackSyntax

/-- A value of a configuration file. -/
inductive Toml where
  /-- A text. -/
  | string (s : String)
  /-- An integer. -/
  | integer (n : Int)
  /-- A real number, in its shortest decimal form. -/
  | real (text : String)
  /-- A truth value. -/
  | boolean (b : Bool)
  /-- A date, a time of day or both. -/
  | moment (m : Moment)
  /-- Values in a row. -/
  | array (items : List Toml)
  /-- Values under keys. -/
  | table (entries : List (String × Toml))

namespace Toml

mutual

/-- The value as part of another value: texts are quoted and moments are calls. -/
def quotedText : Toml → Except DigitError String
  | string s => .ok (quoted s)
  | integer n => integerText n
  | real text => .ok text
  | boolean b => .ok (if b then "True" else "False")
  | moment m => .ok m.quotedText
  | array items => (itemTexts items).map fun texts ↦ "[" ++ ", ".intercalate texts ++ "]"
  | table entries =>
    (entryTexts entries).map fun texts ↦ "\x7b" ++ ", ".intercalate texts ++ "\x7d"

/-- The values of an array. -/
def itemTexts : List Toml → Except DigitError (List String)
  | [] => .ok []
  | item :: items => do
    let text ← quotedText item
    return text :: (← itemTexts items)

/-- The entries of a table, each with its key. -/
def entryTexts : List (String × Toml) → Except DigitError (List String)
  | [] => .ok []
  | (key, value) :: entries => do
    let text ← quotedText value
    return (quoted key ++ ": " ++ text) :: (← entryTexts entries)

end

/-- The value as text: texts and moments themselves, and any other value as it is written inside
others. Nothing comes of an integer with too many digits. -/
def text : Toml → Except DigitError String
  | string s => .ok s
  | moment m => .ok m.text
  | value => value.quotedText

/-- Values under keys. -/
abbrev Table := List (String × Toml)

/-- A key of several parts. -/
abbrev Key := List String

namespace Table

/-- The table with the value under the key, in place of any other there. -/
def set (key : String) (value : Toml) : Table → Table
  | [] => [(key, value)]
  | (k, v) :: rest => if k = key then (key, value) :: rest else (k, v) :: set key value rest

/-- Changes the table under the key, and makes it first if nothing is there. Where the key leads to
an array, the last table of the array is meant if `intoArrays` holds; no other value can be
entered. -/
def update (intoArrays : Bool) (change : Table → Option Table) : Key → Table → Option Table
  | [], t => change t
  | k :: key, t =>
    match t.lookup k with
    | none => (update intoArrays change key []).map fun inner ↦ t ++ [(k, .table inner)]
    | some (.table inner) =>
      (update intoArrays change key inner).map fun inner ↦ t.set k (.table inner)
    | some (.array items) =>
      match intoArrays, items.getLast? with
      | true, some (.table inner) =>
        (update intoArrays change key inner).map fun inner ↦
          t.set k (.array (items.dropLast ++ [.table inner]))
      | _, _ => none
    | some _ => none

/-- Adds a value under a key that is not there yet. -/
def add (key : String) (value : Toml) (t : Table) : Option Table :=
  if (t.lookup key).isSome then none else some (t ++ [(key, value)])

/-- Adds an empty table to the array under the key, which is made if nothing is there. -/
def addToArray (key : String) (t : Table) : Option Table :=
  match t.lookup key with
  | none => some (t ++ [(key, .array [.table []])])
  | some (.array items) => some (t.set key (.array (items ++ [.table []])))
  | some _ => none

end Table

end Toml

end JackSyntax
