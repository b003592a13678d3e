import Delivery.CommandLine.Run
import Std.Time.DateTime

/-!
The program: it gathers the files that a command names, runs the command on them, and makes the directories
that the run has made.
-/

namespace Delivery

def nodeAt (path : String) : IO (Option FileNode) := do
  try
    let real ← IO.FS.realPath path
    if ← real.isDir then return some .directory
    return some (.file (← IO.FS.readBinFile real))
  catch _ => return none

def gather (t : FileTree) (place : List String) : IO FileTree := do
  let mut tree := t
  for length in [1:place.length + 1] do
    let above := place.take length
    if (tree.get? above).isNone then
      if let some node ← nodeAt ("/" ++ String.intercalate "/" above) then
        tree := tree.put above node
  return tree

def placeOf (current : List String) (path : FilePath) : List String :=
  (path.segments.filter fun s => s != "" && s != ".").foldl
    (fun place segment => if segment = ".." then place.dropLast else place ++ [segment])
    (if path.isAbsolute then [] else current)

def Command.paths : Command → List FilePath
  | .validate steps => [steps]
  | .promote steps _ _ _ state resume config _ =>
    steps :: state.toList ++ resume.toList ++ config.toList
  | .checkHealth criteria _ _ _ => [criteria]

def Command.workDir? (t : FileTree) (temporary : FilePath) : Command → Option FilePath
  | .promote _ project stage promotion _ _ config _ =>
    let settings := (config.map fun path => (Settings.load t path).toOption.getD {}).getD {}
    some (WorkDir.path (settings.effectiveWorkDirRoot temporary) project
      (promotion.getD (stage ++ ".local")))
  | _ => none

/-- The wall clock, which is read once. -/
def readClock : IO (Nat → Instant) := do
  let now := (← Std.Time.Timestamp.now).toNanosecondsSinceUnixEpoch.val
  let instant : Instant := ⟨now / Span.second, (now % Span.second).toNat⟩
  return fun _ => instant

def gatherFor (command : Command) (temporary : FilePath) : IO FileTree := do
  let current := ((← IO.currentDir).toString.splitOn "/").filter (· != "")
  let mut files : FileTree := { FileTree.empty with current }
  files ← gather files current
  for path in command.paths do
    files ← gather files (placeOf current path)
  if let some dir := command.workDir? files temporary then
    files ← gather files (placeOf current dir)
  return files

def runOnFiles (args : List String) : IO Report := do
  let temporary : FilePath := ⟨(← IO.getEnv "TMPDIR").getD "/tmp"⟩
  let files ←
    match CommandLine.ofArguments args with
    | .error _ => pure .empty
    | .ok command => gatherFor command temporary
  let (report, after) := CommandLine.execute
    { temporary, clock := ← readClock, files, complaint := fun _ => "TOML parse error" } args
  for (place, node) in after.nodes do
    if (node matches .directory) && (files.get? place).isNone then
      IO.FS.createDirAll ("/" ++ String.intercalate "/" place)
  return report

end Delivery

def main (args : List String) : IO UInt32 := do
  let report ← Delivery.runOnFiles args
  IO.print report.output
  IO.eprint report.diagnostics
  return report.exit.code
