import Delivery.Json.Basic

/-!
The text of a JSON value, on one line or with one item per line.
-/

namespace Delivery
namespace Json

def hexPair (n : Nat) : String :=
  String.ofList [Nat.digitChar (n / 16), Nat.digitChar (n % 16)]

def escapedChar (c : Char) : String :=
  match c with
  | '"' => "\\\""
  | '\\' => "\\\\"
  | '\x08' => "\\b"
  | '\x0c' => "\\f"
  | '\n' => "\\n"
  | '\r' => "\\r"
  | '\t' => "\\t"
  | c => if c < ' ' then "\\u00" ++ hexPair c.toNat else c.toString

def stringText (s : String) : String :=
  "\"" ++ String.join (s.toList.map escapedChar) ++ "\""

mutual

def compact : Json → String
  | null => "null"
  | bool true => "true"
  | bool false => "false"
  | number n => n.render
  | string s => stringText s
  | array items => "[" ++ String.intercalate "," (compactItems items) ++ "]"
  | object members => "\x7b" ++ String.intercalate "," (compactMembers members) ++ "\x7d"

def compactItems : List Json → List String
  | [] => []
  | j :: rest => compact j :: compactItems rest

def compactMembers : List (String × Json) → List String
  | [] => []
  | (k, j) :: rest => (stringText k ++ ":" ++ compact j) :: compactMembers rest

end

def newline (level : Nat) : String := "\n" ++ "".pushn ' ' (2 * level)

def block (opening closing : String) (level : Nat) (lines : List String) : String :=
  if lines.isEmpty then opening ++ closing
  else
    opening ++ newline (level + 1) ++ String.intercalate ("," ++ newline (level + 1)) lines ++
      newline level ++ closing

mutual

def pretty (level : Nat) : Json → String
  | array items => block "[" "]" level (prettyItems (level + 1) items)
  | object members => block "\x7b" "\x7d" level (prettyMembers (level + 1) members)
  | null => "null"
  | bool true => "true"
  | bool false => "false"
  | number n => n.render
  | string s => stringText s

def prettyItems (level : Nat) : List Json → List String
  | [] => []
  | j :: rest => pretty level j :: prettyItems level rest

def prettyMembers (level : Nat) : List (String × Json) → List String
  | [] => []
  | (k, j) :: rest => (stringText k ++ ": " ++ pretty level j) :: prettyMembers level rest

end

end Json
end Delivery
