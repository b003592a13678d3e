import Delivery.Json.Reader

/-!
Strings of a TOML document: basic ones with escapes and literal ones without, each on one line or as a
block of lines.
-/

namespace Delivery
namespace Toml
namespace Text

def isPlain (c : Char) : Bool := c == '\t' || (' ' ≤ c && c != '\x7f')

def charOfHex (digits : List Char) : Option Char := do
  let n ← Draft.hexNumber? digits
  if n.isValidChar then return .ofNat n else none

def escapeLetter? : Char → Option Char
  | 'b' => some '\x08'
  | 't' => some '\t'
  | 'n' => some '\n'
  | 'f' => some '\x0c'
  | 'r' => some '\r'
  | 'e' => some '\x1b'
  | '"' => some '"'
  | '\\' => some '\\'
  | _ => none

def finish (done rest : List Char) : Option (String × List Char) :=
  some (String.ofList done.reverse, rest)

/-- The rest of a basic string on one line. `done`: the characters so far, the last one first. -/
def takeBasic (done : List Char) : List Char → Option (String × List Char)
  | [] => none
  | '"' :: rest => finish done rest
  | '\\' :: 'x' :: a :: b :: rest => do takeBasic ((← charOfHex [a, b]) :: done) rest
  | '\\' :: 'u' :: a :: b :: c :: d :: rest => do
    takeBasic ((← charOfHex [a, b, c, d]) :: done) rest
  | '\\' :: 'U' :: a :: b :: c :: d :: e :: f :: g :: h :: rest => do
    takeBasic ((← charOfHex [a, b, c, d, e, f, g, h]) :: done) rest
  | '\\' :: e :: rest => do takeBasic ((← escapeLetter? e) :: done) rest
  | c :: rest => if isPlain c then takeBasic (c :: done) rest else none

def takeLiteral (done : List Char) : List Char → Option (String × List Char)
  | [] => none
  | '\'' :: rest => finish done rest
  | c :: rest => if isPlain c then takeLiteral (c :: done) rest else none

inductive Gap where
  | closed
  /-- Blanks up to the end of the line, which must come. -/
  | line
  /-- Blanks and ends of lines. -/
  | lines

/-- The rest of a block of basic lines. Up to two quotes may stand before the closing three. -/
def takeBasicBlock (gap : Gap) (done : List Char) : List Char → Option (String × List Char)
  | [] => none
  | '\n' :: rest =>
    match gap with
    | .closed => takeBasicBlock .closed ('\n' :: done) rest
    | _ => takeBasicBlock .lines done rest
  | '\r' :: '\n' :: rest =>
    match gap with
    | .closed => takeBasicBlock .closed ('\n' :: '\r' :: done) rest
    | _ => takeBasicBlock .lines done rest
  | ' ' :: rest =>
    match gap with
    | .closed => takeBasicBlock .closed (' ' :: done) rest
    | gap => takeBasicBlock gap done rest
  | '\t' :: rest =>
    match gap with
    | .closed => takeBasicBlock .closed ('\t' :: done) rest
    | gap => takeBasicBlock gap done rest
  | '"' :: '"' :: '"' :: '"' :: '"' :: rest =>
    if gap matches .line then none else finish ('"' :: '"' :: done) rest
  | '"' :: '"' :: '"' :: '"' :: rest =>
    if gap matches .line then none else finish ('"' :: done) rest
  | '"' :: '"' :: '"' :: rest => if gap matches .line then none else finish done rest
  | '\\' :: 'x' :: a :: b :: rest =>
    if gap matches .line then none
    else do takeBasicBlock .closed ((← charOfHex [a, b]) :: done) rest
  | '\\' :: 'u' :: a :: b :: c :: d :: rest =>
    if gap matches .line then none
    else do takeBasicBlock .closed ((← charOfHex [a, b, c, d]) :: done) rest
  | '\\' :: 'U' :: a :: b :: c :: d :: e :: f :: g :: h :: rest =>
    if gap matches .line then none
    else do takeBasicBlock .closed ((← charOfHex [a, b, c, d, e, f, g, h]) :: done) rest
  | '\\' :: '\n' :: rest => if gap matches .line then none else takeBasicBlock .lines done rest
  | '\\' :: '\r' :: '\n' :: rest =>
    if gap matches .line then none else takeBasicBlock .lines done rest
  | '\\' :: e :: rest =>
    if gap matches .line then none
    else if e = ' ' ∨ e = '\t' then takeBasicBlock .line done rest
    else do takeBasicBlock .closed ((← escapeLetter? e) :: done) rest
  | c :: rest =>
    if gap matches .line then none
    else if isPlain c then takeBasicBlock .closed (c :: done) rest
    else none

def takeLiteralBlock (done : List Char) : List Char → Option (String × List Char)
  | [] => none
  | '\n' :: rest => takeLiteralBlock ('\n' :: done) rest
  | '\r' :: '\n' :: rest => takeLiteralBlock ('\n' :: '\r' :: done) rest
  | '\'' :: '\'' :: '\'' :: '\'' :: '\'' :: rest => finish ('\'' :: '\'' :: done) rest
  | '\'' :: '\'' :: '\'' :: '\'' :: rest => finish ('\'' :: done) rest
  | '\'' :: '\'' :: '\'' :: rest => finish done rest
  | c :: rest => if isPlain c then takeLiteralBlock (c :: done) rest else none

/-- The text behind the end of a line that stands at its head. A block does not begin with it. -/
def dropLineEnd : List Char → List Char
  | '\n' :: rest => rest
  | '\r' :: '\n' :: rest => rest
  | text => text

def take : List Char → Option (String × List Char)
  | '"' :: '"' :: '"' :: rest => takeBasicBlock .closed [] (dropLineEnd rest)
  | '\'' :: '\'' :: '\'' :: rest => takeLiteralBlock [] (dropLineEnd rest)
  | '"' :: rest => takeBasic [] rest
  | '\'' :: rest => takeLiteral [] rest
  | _ => none

end Text
end Toml
end Delivery
