import Delivery.Toml.Text
import Delivery.Json.Printer

/-!
Writing the strings of a TOML document. Of the four forms of a string the first is taken that needs no
escape: basic, literal, block of basic lines, block of literal lines. A string that needs escapes in every
form is basic, as a block if it has several lines.
-/

namespace Delivery
namespace Toml
namespace Text

inductive Form where
  | basic
  | literal
  | basicBlock
  | literalBlock
deriving DecidableEq, Repr

/-- The length of the longest run of a character. `run`: the length of the run just before. -/
def longestRun (c : Char) (run : Nat) : List Char → Nat
  | [] => run
  | d :: rest => if d = c then longestRun c (run + 1) rest else max run (longestRun c 0 rest)

def isControl (c : Char) : Bool := (c < ' ' && c != '\t' && c != '\n') || c == '\x7f'

def form (text : List Char) : Form :=
  let controls := text.any isControl
  let backslash := text.contains '\\'
  let lines := text.contains '\n'
  let quotes := longestRun '"' 0 text
  let marks := longestRun '\'' 0 text
  if !controls && !backslash && !lines && quotes == 0 then .basic
  else if !controls && !lines && marks == 0 then .literal
  else if !controls && !backslash && quotes ≤ 2 then .basicBlock
  else if !controls && marks ≤ 2 then .literalBlock
  else if lines then .basicBlock
  else .basic

def hexDigit (n : Nat) : Char := (Nat.digitChar n).toUpper

def codeEscape (c : Char) : List Char :=
  let n := c.toNat
  ['\\', 'u', hexDigit (n / 4096 % 16), hexDigit (n / 256 % 16), hexDigit (n / 16 % 16),
    hexDigit (n % 16)]

def escapedChar (lines : Bool) (c : Char) : List Char :=
  match c with
  | '\x08' => ['\\', 'b']
  | '\t' => ['\\', 't']
  | '\n' => if lines then ['\n'] else ['\\', 'n']
  | '\x0c' => ['\\', 'f']
  | '\r' => ['\\', 'r']
  | '\\' => ['\\', '\\']
  | c => if isControl c then codeEscape c else [c]

/-- The characters of a basic string. A quote is escaped when it is one too many in its run: the first one
in a line of its own, the third one in a block. `run`: the quotes just before, since the last escape. -/
def escape (lines : Bool) (run : Nat) : List Char → List Char
  | [] => []
  | '"' :: rest =>
    if (if lines then 2 else 0) < run + 1 then '\\' :: '"' :: escape lines 0 rest
    else '"' :: escape lines (run + 1) rest
  | c :: rest => escapedChar lines c ++ escape lines 0 rest

/-- A string as it is written. A block that has several lines begins on a line of its own. -/
def write (s : String) : String :=
  let text := s.toList
  let start := if text.contains '\n' then "\n" else ""
  match form text with
  | .basic => "\"" ++ String.ofList (escape false 0 text) ++ "\""
  | .literal => "'" ++ s ++ "'"
  | .basicBlock => "\"\"\"" ++ start ++ String.ofList (escape true 0 text) ++ "\"\"\""
  | .literalBlock => "'''" ++ start ++ s ++ "'''"

end Text
end Toml
end Delivery
