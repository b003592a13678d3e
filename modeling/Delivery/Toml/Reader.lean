import Delivery.Toml.Scalar
import Delivery.Toml.Table
import Delivery.Toml.Text

/-!
Reading a TOML document.
-/

namespace Delivery
namespace Toml

def skipLines (comment : Bool) : List Char → Option (List Char)
  | [] => some []
  | '\n' :: rest => skipLines false rest
  | '\r' :: '\n' :: rest => skipLines false rest
  | c :: rest =>
    if comment then if Text.isPlain c then skipLines true rest else none
    else if c = ' ' ∨ c = '\t' then skipLines false rest
    else if c = '#' then skipLines true rest
    else some (c :: rest)

def endLine (comment : Bool) : List Char → Option (List Char)
  | [] => some []
  | '\n' :: rest => some rest
  | '\r' :: '\n' :: rest => some rest
  | c :: rest =>
    if comment then if Text.isPlain c then endLine true rest else none
    else if c = ' ' ∨ c = '\t' then endLine false rest
    else if c = '#' then endLine true rest
    else none

def skipBlanks (text : List Char) : List Char := text.dropWhile fun c => c == ' ' || c == '\t'

def isBare (c : Char) : Bool := c.isAlphanum || c == '_' || c == '-'

def takePart (text : List Char) : Option (String × List Char) :=
  match text with
  | '"' :: rest => Text.takeBasic [] rest
  | '\'' :: rest => Text.takeLiteral [] rest
  | text =>
    let part := text.takeWhile isBare
    if part.isEmpty then none else some (String.ofList part, text.dropWhile isBare)

/-- The parts of a dotted key. `fuel` bounds their number; the length of the text suffices. Blanks around
the parts are passed over. -/
def takeKey : Nat → List Char → Option (List String × String × List Char)
  | 0, _ => none
  | fuel + 1, text => do
    let (part, rest) ← takePart (skipBlanks text)
    match skipBlanks rest with
    | '.' :: rest => do
      let (path, key, rest) ← takeKey fuel rest
      return (part :: path, key, rest)
    | rest => return ([], part, rest)

def isScalarChar (c : Char) : Bool :=
  c.isAlphanum || c == '+' || c == '-' || c == '_' || c == '.' || c == ':'

/-- A value without quotes. A blank may stand between a date and a time. -/
def takeScalar (text : List Char) : Option (Node × List Char) :=
  let first := text.takeWhile isScalarChar
  let rest := text.dropWhile isScalarChar
  match Scalar.takeDate first, rest with
  | some [], ' ' :: more =>
    if (more.head?.map Char.isDigit).getD false then
      (Scalar.ofChars (first ++ ' ' :: more.takeWhile isScalarChar)).map
        fun node => (node, more.dropWhile isScalarChar)
    else (Scalar.ofChars first).map fun node => (node, rest)
  | _, _ => (Scalar.ofChars first).map fun node => (node, rest)

def depthLimit : Nat := 80

mutual

/-- A value. `fuel` bounds the steps; three for each character suffice. -/
def takeValue : Nat → Nat → List Char → Option (Node × List Char)
  | 0, _, _ => none
  | fuel + 1, depth, text =>
    match text with
    | '"' :: _ => (Text.take text).map fun (s, rest) => (.value (.string s), rest)
    | '\'' :: _ => (Text.take text).map fun (s, rest) => (.value (.string s), rest)
    | '[' :: rest =>
      match depth with
      | 0 => none
      | depth + 1 => (takeItems fuel depth rest).map fun (items, rest) => (.array items, rest)
    | '{' :: rest =>
      match depth with
      | 0 => none
      | depth + 1 => do
        let (entries, rest) ← takeEntries fuel depth rest
        let node ← (Node.table .inline []).addEntries entries
        return (node, rest)
    | text => takeScalar text

/-- The items of an array, up to its bracket. A comma may stand behind the last one. -/
def takeItems : Nat → Nat → List Char → Option (List Node × List Char)
  | 0, _, _ => none
  | fuel + 1, depth, text => do
    match ← skipLines false text with
    | ']' :: rest => return ([], rest)
    | text =>
      let (item, rest) ← takeValue fuel depth text
      match ← skipLines false rest with
      | ']' :: rest => return ([item], rest)
      | ',' :: rest =>
        let (items, rest) ← takeItems fuel depth rest
        return (item :: items, rest)
      | _ => failure

def takeEntries : Nat → Nat → List Char → Option (List Entry × List Char)
  | 0, _, _ => none
  | fuel + 1, depth, text => do
    match ← skipLines false text with
    | '}' :: rest => return ([], rest)
    | text =>
      let (entry, rest) ← takeEntry fuel depth text
      match ← skipLines false rest with
      | '}' :: rest => return ([entry], rest)
      | ',' :: rest =>
        let (entries, rest) ← takeEntries fuel depth rest
        return (entry :: entries, rest)
      | _ => failure

def takeEntry : Nat → Nat → List Char → Option (Entry × List Char)
  | 0, _, _ => none
  | fuel + 1, depth, text => do
    let (path, key, rest) ← takeKey (text.length + 1) text
    match rest with
    | '=' :: rest =>
      let (node, rest) ← takeValue fuel depth (skipBlanks rest)
      return ({ path, key, node }, rest)
    | _ => failure

end

def takeHeader (text : List Char) : Option (Header × List Char) := do
  let adds := text.head? == some '['
  let text := if adds then text.drop 1 else text
  let (path, key, rest) ← takeKey (text.length + 1) text
  match adds, rest with
  | false, ']' :: rest => return ({ adds, path, key }, rest)
  | true, ']' :: ']' :: rest => return ({ adds, path, key }, rest)
  | _, _ => failure

def takeBody : Nat → List Char → Option (List Entry × List Char)
  | 0, _ => none
  | fuel + 1, text => do
    match ← skipLines false text with
    | [] => return ([], [])
    | '[' :: rest => return ([], '[' :: rest)
    | text =>
      let (entry, rest) ← takeEntry (3 * text.length + 3) depthLimit text
      let rest ← endLine false rest
      let (entries, rest) ← takeBody fuel rest
      return (entry :: entries, rest)

def takeSections : Nat → List Char → Option (List Section)
  | 0, _ => none
  | fuel + 1, text =>
    match text with
    | [] => some []
    | '[' :: rest => do
      let (header, rest) ← takeHeader rest
      let rest ← endLine false rest
      let (entries, rest) ← takeBody (rest.length + 1) rest
      let sections ← takeSections fuel rest
      return { header, entries } :: sections
    | _ => none

def Document.ofText? (text : String) : Option Document := do
  let text := text.toList
  let text := if text.head? == some '\ufeff' then text.drop 1 else text
  let (entries, rest) ← takeBody (text.length + 1) text
  let sections ← takeSections (rest.length + 1) rest
  return { entries, sections }

def readJson? (text : String) : Option Json := do
  let document ← Document.ofText? text
  let root ← document.table?
  return root.toJson

end Toml
end Delivery
