import Delivery.Files.Path

/-!
A tree of files and directories, and the operations on it. A place in the tree is the list of names from
the root; a path is looked up from the root or from the current directory, and every directory on the
way must be there.

An operation that fails says why and leaves the tree as it was, except that directories made on the way
to a deeper one stay.
-/

namespace Delivery

inductive FileError where
  | notFound
  | busy
  | exists
  | notDirectory
  | isDirectory
  | nameTooLong
  | invalidText
  | nulInName
deriving DecidableEq, Repr

def FileError.message : FileError → String
  | .notFound => "No such file or directory (os error 2)"
  | .busy => "Device or resource busy (os error 16)"
  | .exists => "File exists (os error 17)"
  | .notDirectory => "Not a directory (os error 20)"
  | .isDirectory => "Is a directory (os error 21)"
  | .nameTooLong => "File name too long (os error 36)"
  | .invalidText => "stream did not contain valid UTF-8"
  | .nulInName => "file name contained an unexpected NUL byte"

inductive FileNode where
  | file (content : ByteArray)
  | directory

structure FileTree where
  nodes : List (List String × FileNode)
  current : List String

namespace FileTree

def empty : FileTree := ⟨[], []⟩

instance : Inhabited FileTree := ⟨empty⟩

def lookup (place : List String) : List (List String × FileNode) → Option FileNode
  | [] => none
  | (p, n) :: rest => if p = place then some n else lookup place rest

def replace (place : List String) (node : FileNode) :
    List (List String × FileNode) → List (List String × FileNode)
  | [] => [(place, node)]
  | (p, n) :: rest => if p = place then (place, node) :: rest else (p, n) :: replace place node rest

def get? (t : FileTree) (place : List String) : Option FileNode :=
  if place.isEmpty then some .directory else lookup place t.nodes

def put (t : FileTree) (place : List String) (node : FileNode) : FileTree :=
  { t with nodes := replace place node t.nodes }

def remove (t : FileTree) (place : List String) : FileTree :=
  { t with nodes := t.nodes.filter (·.1 ≠ place) }

def isDirectoryAt (t : FileTree) (place : List String) : Bool :=
  t.get? place matches some .directory

def nameLimit : Nat := 255

/-- Follows the segments of a path from a place. Every segment but the last must lead to a directory;
the last one need not lead anywhere. -/
def follow (t : FileTree) (place : List String) : List String → Except FileError (List String)
  | [] => .ok place
  | segment :: rest =>
    if !t.isDirectoryAt place then
      .error (if (t.get? place).isSome then .notDirectory else .notFound)
    else if segment = "" || segment = "." then t.follow place rest
    else if segment = ".." then t.follow place.dropLast rest
    else if nameLimit < segment.utf8ByteSize then .error .nameTooLong
    else t.follow (place ++ [segment]) rest

/-- The place of a path, whose last name need not be there. A path that ends in a slash names a
directory, so its place must not be a file. -/
def locate (t : FileTree) (p : FilePath) : Except FileError (List String) :=
  if p.text = "" then .error .notFound
  else if p.text.toList.contains '\x00' then .error .nulInName
  else do
    let segments := (p.segments.reverse.dropWhile (· == "")).reverse
    let place ← t.follow (if p.isAbsolute then [] else t.current) segments
    if p.text.endsWith "/" && (t.get? place matches some (.file _)) then throw .notDirectory
    return place

def find (t : FileTree) (p : FilePath) : Except FileError FileNode := do
  let place ← t.locate p
  match t.get? place with
  | some node => return node
  | none => throw .notFound

def pathExists (t : FileTree) (p : FilePath) : Bool := (t.find p).isOk

def isDirectory (t : FileTree) (p : FilePath) : Bool :=
  match t.find p with
  | .ok .directory => true
  | _ => false

def readText (t : FileTree) (p : FilePath) : Except FileError String := do
  match ← t.find p with
  | .directory => throw .isDirectory
  | .file content =>
    match String.fromUTF8? content with
    | some text => return text
    | none => throw .invalidText

def writeText (t : FileTree) (p : FilePath) (text : String) : Except FileError FileTree := do
  let place ← t.locate p
  match t.get? place with
  | some .directory => throw .isDirectory
  | some (.file _) => return t.put place (.file text.toUTF8)
  | none =>
    if p.text.endsWith "/" then throw .isDirectory
    return t.put place (.file text.toUTF8)

def makeDirectory (t : FileTree) (p : FilePath) : Except FileError FileTree := do
  let place ← t.locate p
  match t.get? place with
  | some _ => throw .exists
  | none => return t.put place .directory

def ensureDirectory (t : FileTree) (p : FilePath) : Except FileError FileTree :=
  match t.makeDirectory p with
  | .ok t => .ok t
  | .error e => if t.isDirectory p then .ok t else .error e

/-- Makes a directory and, before it, those on the way to it. `fuel` bounds the way; the length of the
path suffices. What has been made stays if a deeper directory cannot be made. -/
def makeDirectoriesIn : Nat → FileTree → FilePath → Except FileError Unit × FileTree
  | 0, t, _ => (.error .notFound, t)
  | fuel + 1, t, p =>
    if p.text = "" then (.ok (), t)
    else
      match t.ensureDirectory p with
      | .ok t => (.ok (), t)
      | .error .notFound =>
        match p.parent? with
        | none => (.error .notFound, t)
        | some above =>
          match makeDirectoriesIn fuel t above with
          | (.error e, t) => (.error e, t)
          | (.ok (), t) =>
            match t.ensureDirectory p with
            | .ok t => (.ok (), t)
            | .error e => (.error e, t)
      | .error e => (.error e, t)

def makeDirectories (t : FileTree) (p : FilePath) : Except FileError Unit × FileTree :=
  makeDirectoriesIn (p.text.length + 1) t p

/-- Why a file cannot take the place of the directory to which a path leads. It depends on how the path ends: only a
name without a slash behind it could stand for a file. -/
def barred (p : FilePath) : FileError :=
  match (p.segments.filter (· ≠ "")).getLast? with
  | none | some "." | some ".." => .busy
  | some _ => if p.text.endsWith "/" then .notDirectory else .isDirectory

/-- Moves a file over what the second path names, unless that is a directory. -/
def rename (t : FileTree) (source target : FilePath) : Except FileError FileTree := do
  let sourcePlace ← t.locate source
  let targetPlace ← t.locate target
  match t.get? sourcePlace, t.get? targetPlace with
  | none, _ => throw .notFound
  | _, some .directory => throw (barred target)
  | some node, found =>
    if found.isNone && target.text.endsWith "/" then throw .notDirectory
    if sourcePlace = targetPlace then return t
    return (t.remove sourcePlace).put targetPlace node

end FileTree
end Delivery
