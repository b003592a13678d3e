import Delivery.Files.Tree

/-!
Working directories. Each promotion has one, two levels below a common root, named for its project and
itself; it is kept between invocations. Names are cleaned so that each is one component that leads
nowhere else.
-/

namespace Delivery
namespace WorkDir

def isPlain (c : Char) : Bool := c.isAlphanum || c == '-' || c == '_' || c == '.'

/-- A name as a component of a path. All but plain characters become `_`; what is empty or made of dots
is replaced. -/
def component (name fallback : String) : String :=
  let cleaned := name.toList.map fun c => if isPlain c then c else '_'
  if cleaned.all (· == '.') then fallback else String.ofList cleaned

def path (root : FilePath) (project promotion : String) : FilePath :=
  (root.join ⟨component project "default"⟩).join ⟨component promotion "promotion"⟩

def prepare (t : FileTree) (root : FilePath) (project promotion : String) :
    Except FileError FilePath × FileTree :=
  let dir := path root project promotion
  let (made, t) := t.makeDirectories dir
  (made.map fun _ => dir, t)

def failure (dir : FilePath) (error : FileError) : String :=
  "create working directory " ++ dir.text ++ ": " ++ error.message

end WorkDir
end Delivery
