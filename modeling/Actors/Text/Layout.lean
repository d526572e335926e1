/-! The two layouts of a compound value: its parts side by side, or each on a line of its own and
indented by four spaces. -/
namespace Actors.Text

inductive Layout
  | compact
  | pretty
  deriving DecidableEq, Repr

def indentFrom (atStart : Bool) : List Char → List Char
  | [] => []
  | c :: rest =>
    (if atStart then [' ', ' ', ' ', ' '] else []) ++ c :: indentFrom (c == '\n') rest

def indent (s : String) : String := String.ofList (indentFrom true s.toList)

namespace Layout

/-- Parts between two delimiters. A padded group has a blank inside each delimiter when it stands on
one line. A group without parts is the same in both layouts. -/
def enclose (layout : Layout) (padded : Bool) (opening closing : String) (parts : List String) :
    String :=
  match layout, parts with
  | _, [] => opening ++ closing
  | .compact, parts =>
    let pad := if padded then " " else ""
    opening ++ pad ++ String.intercalate ", " parts ++ pad ++ closing
  | .pretty, parts =>
    opening ++ "\n" ++ String.join (parts.map fun part => indent (part ++ ",\n")) ++ closing

def sequence (layout : Layout) (parts : List String) : String :=
  layout.enclose false "[" "]" parts

def tuple (layout : Layout) (name : String) (parts : List String) : String :=
  layout.enclose false (name ++ "(") ")" parts

def set (layout : Layout) (parts : List String) : String :=
  layout.enclose false "\x7b" "\x7d" parts

def record (layout : Layout) (name : String) (fields : List (String × String)) : String :=
  layout.enclose true (name ++ " \x7b") "\x7d"
    (fields.map fun (label, value) => label ++ ": " ++ value)

end Layout

end Actors.Text
