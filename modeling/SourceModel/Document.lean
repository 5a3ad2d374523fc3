/-!
JSON documents. Objects keep the order of their fields, and numbers are held as text.
-/

namespace SourceModel

inductive Document where
  | null
  | bool (value : Bool)
  /-- A number, as it is written. -/
  | number (text : String)
  | string (value : String)
  | array (items : List Document)
  | object (fields : List (String × Document))

namespace Document

instance : Inhabited Document := ⟨.null⟩

/-- One character of a string. Characters below the space are written as escapes. -/
def escapeChar (c : Char) : List Char :=
  if c = '"' then ['\\', '"']
  else if c = '\\' then ['\\', '\\']
  else if c = '\x08' then ['\\', 'b']
  else if c = '\x0c' then ['\\', 'f']
  else if c = '\n' then ['\\', 'n']
  else if c = '\r' then ['\\', 'r']
  else if c = '\t' then ['\\', 't']
  else if c.toNat < 0x20 then
    let digits := Nat.toDigits 16 c.toNat
    ['\\', 'u'] ++ List.replicate (4 - digits.length) '0' ++ digits
  else [c]

def quoted (s : String) : String :=
  String.ofList ('"' :: s.toList.flatMap escapeChar ++ ['"'])

/-- A line break and two spaces for each level. -/
def newLine (level : Nat) : String :=
  String.ofList ('\n' :: List.replicate (2 * level) ' ')

/-- Items on lines of their own between two brackets; nothing between them if there are none. -/
def block (opening closing : String) (level : Nat) : List String → String
  | [] => opening ++ closing
  | items =>
    opening ++ newLine (level + 1) ++ String.intercalate ("," ++ newLine (level + 1)) items ++
      newLine level ++ closing

mutual

/-- The document on several lines, inside the given number of levels. -/
def prettyAt (level : Nat) : Document → String
  | .null => "null"
  | .bool b => if b then "true" else "false"
  | .number text => text
  | .string s => quoted s
  | .array items => block "[" "]" level (prettyItems (level + 1) items)
  | .object fields => block "\x7b" "\x7d" level (prettyFields (level + 1) fields)

def prettyItems (level : Nat) : List Document → List String
  | [] => []
  | d :: ds => prettyAt level d :: prettyItems level ds

def prettyFields (level : Nat) : List (String × Document) → List String
  | [] => []
  | (key, d) :: fields => (quoted key ++ ": " ++ prettyAt level d) :: prettyFields level fields

end

def pretty (d : Document) : String :=
  prettyAt 0 d

/-! ## Building objects -/

/-- A value under a tag of its own. -/
def tagged (tag : String) (d : Document) : Document :=
  .object [(tag, d)]

/-- A field that is left out if there is no value. -/
def optional (key : String) (value : Option Document) : List (String × Document) :=
  value.toList.map fun d => (key, d)

/-- A field that is left out if there are no items. -/
def nonempty (key : String) (items : List Document) : List (String × Document) :=
  if items.isEmpty then [] else [(key, .array items)]

end Document

end SourceModel
