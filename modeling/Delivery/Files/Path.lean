/-!
Paths as they are written. A path is a text; its segments are what stands between the slashes. Empty
segments and, behind the first place, segments of one dot mean nothing.
-/

namespace Delivery

structure FilePath where
  text : String
deriving DecidableEq, Repr, Inhabited

namespace FilePath

def isAbsolute (p : FilePath) : Bool := p.text.startsWith "/"

def segments (p : FilePath) : List String := (p.text.toList.splitOn '/').map String.ofList

def isNamed (index : Nat) (segment : String) : Bool :=
  segment != "" && (segment != "." || index == 0)

def named (segments : List String) : List Nat :=
  (segments.zipIdx.filter fun s => isNamed s.2 s.1).map (·.2)

/-- The path without its last segment. Nothing stands above the root and the empty path. -/
def parent? (p : FilePath) : Option FilePath :=
  match (named p.segments).reverse with
  | [] => none
  | [_] => some ⟨if p.isAbsolute then "/" else ""⟩
  | _ :: above :: _ => some ⟨String.intercalate "/" (p.segments.take (above + 1))⟩

/-- One path behind another. An absolute path stays what it is. -/
def join (p q : FilePath) : FilePath :=
  if q.isAbsolute then q
  else if p.text = "" || p.text.endsWith "/" then ⟨p.text ++ q.text⟩
  else ⟨p.text ++ "/" ++ q.text⟩

/-- A file name without its extension: up to its last dot, unless that is its first character. -/
def stem (name : List Char) : List Char :=
  let before := ((name.reverse.dropWhile (· ≠ '.')).drop 1).reverse
  if before.isEmpty then name else before

/-- The path with another extension of its last segment. A path that ends in no name stays what it is. -/
def withExtension (p : FilePath) (extension : String) : FilePath :=
  match (named p.segments).getLast? with
  | none => p
  | some last =>
    let name := p.segments[last]?.getD ""
    if name = "." || name = ".." then p
    else
      let above := p.segments.take last
      ⟨String.intercalate "/" (above ++ [String.ofList (stem name.toList) ++ "." ++ extension])⟩

end FilePath
end Delivery
