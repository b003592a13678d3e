import Delivery.Decimal.Power
import Delivery.Files.Path
import Delivery.Keyed

/-!
Commands and how they are read from arguments. An option is `--name value` or `--name=value`, and is given
once at most.
-/

namespace Delivery

inductive Command where
  | validate (steps : FilePath)
  | promote (steps : FilePath) (project stage : String) (promotion : Option String)
      (state resume config : Option FilePath) (timeoutSecs : Option UInt64)
  | checkHealth (criteria : FilePath) (project stage : String) (timeoutSecs : Option UInt64)
deriving DecidableEq, Repr

inductive Refusal where
  | usage
  | information (text : String)
deriving DecidableEq, Repr

namespace CommandLine

inductive OptionKind where
  | path
  | text
  | seconds
deriving DecidableEq, Repr

/-- The number of a text of digits, with a plus sign or without, if it fits a 64-bit word. -/
def seconds? (text : String) : Option UInt64 :=
  let digits := match text.toList with
    | '+' :: rest => rest
    | chars => chars
  let n := digits.foldl (fun n c => n * 10 + (c.toNat - '0'.toNat)) 0
  if digits.isEmpty || !digits.all Char.isDigit || twoPower 64 ≤ n then none else some (.ofNat n)

def OptionKind.allows : OptionKind → String → Bool
  | path, value => value != ""
  | text, _ => true
  | seconds, value => (seconds? value).isSome

abbrev OptionTable := List (String × OptionKind)

/-- An argument begins like an option. A single hyphen does not. -/
def isOption (arg : String) : Bool := arg.startsWith "-" && arg != "-"

def help : String :=
  "Run promotion steps and health checks\n\nCommands:\n" ++
    "  validate      --steps <STEPS>\n" ++
    "  promote       --steps <STEPS> --project <PROJECT> --stage <STAGE> [OPTIONS]\n" ++
    "  check-health  --criteria <CRITERIA> --project <PROJECT> --stage <STAGE> [OPTIONS]\n"

def version : String := "promoter 0.1.0\n"

def accept (table : OptionTable) (given : Keyed String) (name value : String) :
    Except Refusal (Keyed String) :=
  match Entries.get? name table with
  | some kind =>
    if kind.allows value && !given.contains name then .ok (given.insert name value)
    else .error .usage
  | none => .error .usage

def splitOption (arg : String) : String × Option String :=
  let chars := arg.toList.drop 2
  let name := String.ofList (chars.takeWhile (· ≠ '='))
  match chars.dropWhile (· ≠ '=') with
  | [] => (name, none)
  | _ :: value => (name, some (String.ofList value))

def readOptions (table : OptionTable) (given : Keyed String) :
    List String → Except Refusal (Keyed String)
  | [] => .ok given
  | "--" :: rest => if rest.isEmpty then .ok given else .error .usage
  | "--help" :: _ => .error (.information help)
  | arg :: rest =>
    if arg.startsWith "-h" then .error (.information help)
    else if !arg.startsWith "--" then .error .usage
    else
      match splitOption arg, rest with
      | (name, some value), rest => do readOptions table (← accept table given name value) rest
      | (name, none), value :: rest =>
        if isOption value then .error .usage
        else do readOptions table (← accept table given name value) rest
      | (_, none), [] => .error .usage

def required (given : Keyed String) (name : String) : Except Refusal String :=
  match given.get? name with
  | some value => .ok value
  | none => .error .usage

def path? (given : Keyed String) (name : String) : Option FilePath := (given.get? name).map (⟨·⟩)

def timeout? (given : Keyed String) : Option UInt64 := (given.get? "timeout-secs").bind seconds?

def readValidate (args : List String) : Except Refusal Command := do
  let given ← readOptions [("steps", .path)] .empty args
  return .validate ⟨← required given "steps"⟩

/-- Reads the options of `promote`. A state cannot be given with a result to resume from. -/
def readPromote (args : List String) : Except Refusal Command := do
  let given ← readOptions
    [("steps", .path), ("project", .text), ("stage", .text), ("promotion", .text), ("state", .path),
      ("resume", .path), ("config", .path), ("timeout-secs", .seconds)] .empty args
  if given.contains "state" && given.contains "resume" then throw .usage
  return .promote ⟨← required given "steps"⟩ (← required given "project") (← required given "stage")
    (given.get? "promotion") (path? given "state") (path? given "resume") (path? given "config")
    (timeout? given)

def readCheckHealth (args : List String) : Except Refusal Command := do
  let given ← readOptions
    [("criteria", .path), ("project", .text), ("stage", .text), ("timeout-secs", .seconds)] .empty args
  return .checkHealth ⟨← required given "criteria"⟩ (← required given "project")
    (← required given "stage") (timeout? given)

def commandNames : List String := ["validate", "promote", "check-health", "help"]

def ofArguments : List String → Except Refusal Command
  | "validate" :: args => readValidate args
  | "promote" :: args => readPromote args
  | "check-health" :: args => readCheckHealth args
  | "help" :: args =>
    if args.isEmpty || (args.length == 1 && args.all commandNames.contains) then
      .error (.information help)
    else .error .usage
  | arg :: _ =>
    if arg = "--help" ∨ arg.startsWith "-h" then .error (.information help)
    else if arg = "--version" ∨ arg.startsWith "-V" then .error (.information version)
    else .error .usage
  | [] => .error .usage

end CommandLine
end Delivery
