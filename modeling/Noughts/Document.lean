import Noughts.Number.Shortest
import Noughts.Setting
import Noughts.Text.Quoted

/-!
# Documents

The value that a report holds, and its JSON text: one item or field to a line, two more spaces
for each level, the fields in the order in which they were put.  The text is pure ASCII; what is
not is escaped by the units of its UTF-16 form.

How doubles are written is a parameter (`Document.text`).  Reports use `Number.plain`.
-/

set_option autoImplicit false

namespace Noughts

/-- A value in a report. -/
inductive Document where
  | null
  | bool (b : Bool)
  | integer (n : Int)
  | double (x : Float)
  | text (s : String)
  | list (items : List Document)
  | record (fields : List (String × Document))
  deriving Inhabited

namespace Document

/-- A setting as a document: its value, or an empty list. -/
def ofSetting {α : Type} (f : α → Document) : Setting α → Document
  | .value a => f a
  | .blank => .list []

/-- A UTF-16 unit as an escape. -/
def unitEscape (n : Nat) : List Char := '\\' :: 'u' :: Text.hexDigits 4 n

/-- A character inside a string. -/
def escaped (c : Char) : List Char :=
  if c = '"' ∨ c = '\\' then ['\\', c]
  else if c = '\n' then ['\\', 'n']
  else if c = '\r' then ['\\', 'r']
  else if c = '\t' then ['\\', 't']
  else if c = '\x0c' then ['\\', 'f']
  else if c = '\x08' then ['\\', 'b']
  else if 0x20 ≤ c.toNat ∧ c.toNat ≤ 0x7e then [c]
  else if c.toNat ≤ 0xffff then unitEscape c.toNat
  else
    unitEscape (0xd800 + (c.toNat - 0x10000) / 0x400)
      ++ unitEscape (0xdc00 + (c.toNat - 0x10000) % 0x400)

/-- A string with its quotes. -/
def quotedString (s : String) : String :=
  String.ofList ('"' :: (s.toList.flatMap escaped ++ ['"']))

/-- The line break before a line at the given level. -/
def newline (level : Nat) : String :=
  "\n" ++ String.ofList (List.replicate (2 * level) ' ')

/-- Lines between brackets; nothing stands between them if there is no line. -/
def bracketed (opening closing : String) (level : Nat) (lines : List String) : String :=
  if lines.isEmpty then opening ++ closing
  else
    opening ++ newline (level + 1) ++ ("," ++ newline (level + 1)).intercalate lines
      ++ newline level ++ closing

mutual

/-- The text of a document that starts at the given level. -/
def textAt (number : Float → String) (level : Nat) : Document → String
  | .null => "null"
  | .bool b => if b then "true" else "false"
  | .integer n => toString n
  | .double x => number x
  | .text s => quotedString s
  | .list items => bracketed "[" "]" level (itemLines number (level + 1) items)
  | .record fields => bracketed "\x7b" "\x7d" level (fieldLines number (level + 1) fields)

/-- The lines of the items of a list. -/
def itemLines (number : Float → String) (level : Nat) : List Document → List String
  | [] => []
  | d :: rest => textAt number level d :: itemLines number level rest

/-- The lines of the fields of a record. -/
def fieldLines (number : Float → String) (level : Nat) : List (String × Document) → List String
  | [] => []
  | (name, d) :: rest =>
    (quotedString name ++ ": " ++ textAt number level d) :: fieldLines number level rest

end

/-- The text of a document. -/
def render (number : Float → String) (d : Document) : String := textAt number 0 d

end Document

end Noughts
