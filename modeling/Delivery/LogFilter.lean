import Delivery.Text.Blank
import Delivery.Text.Letter

/-!
Log filters: which levels of diagnostics are let through. A filter is a list of directives; each names a
level, or a target and a level, and may name a span and fields of it.
-/

namespace Delivery

inductive LogLevel where
  | off
  | error
  | warn
  | info
  | debug
  | trace
deriving DecidableEq, Repr

namespace LogLevel

def all : List LogLevel := [off, error, warn, info, debug, trace]

def name : LogLevel → String
  | off => "off"
  | error => "error"
  | warn => "warn"
  | info => "info"
  | debug => "debug"
  | trace => "trace"

def rank : LogLevel → Nat
  | off => 0
  | error => 1
  | warn => 2
  | info => 3
  | debug => 4
  | trace => 5

def max (a b : LogLevel) : LogLevel := if a.rank < b.rank then b else a

def number? (text : List Char) : Option Nat :=
  let digits := if text.head? == some '+' then text.drop 1 else text
  if digits.isEmpty || !digits.all Char.isDigit then none
  else some (digits.foldl (fun n c => n * 10 + (c.toNat - '0'.toNat)) 0)

def ofText? (text : List Char) : Option LogLevel :=
  match number? text with
  | some n => all[n]?
  | none => all.find? fun level => level.name.toList == text.map Char.toLower

end LogLevel

structure LogDirective where
  level : LogLevel
  byValue : Bool := false

namespace LogDirective

/-- The part of a directive that is being read. The positions are those at which a part starts. -/
inductive Part where
  | start
  | levelOrTarget
  | span
  | field (start : Nat)
  | fields
  | target
  | level (start : Nat)

structure Progress where
  part : Part := .start
  byValue : Bool := false

def slice (text : List Char) (start stop : Nat) : List Char := (text.drop start).take (stop - start)

def enterField (text : List Char) (p : Progress) (start stop : Nat) (next : Part) :
    Option Progress :=
  let field := slice text start stop
  if field.isEmpty then none else some ⟨next, p.byValue || field.contains '='⟩

def Progress.next (text : List Char) (p : Progress) (position : Nat) (c : Char) : Option Progress :=
  match p.part, c with
  | .start, '[' => some { p with part := .span }
  | .start, c =>
    if c = '-' ∨ c = ':' ∨ c = '_' ∨ Text.isLetterOrNumber c then
      some { p with part := .levelOrTarget }
    else none
  | .levelOrTarget, '=' => some { p with part := .level (position + 1) }
  | .levelOrTarget, '[' => some { p with part := .span }
  | .levelOrTarget, _ => some p
  | .target, '=' => some { p with part := .level (position + 1) }
  | .target, _ => none
  | .span, ']' => some { p with part := .target }
  | .span, '{' => some { p with part := .field (position + 1) }
  | .span, _ => some p
  | .field start, '}' => enterField text p start position .fields
  | .field _, _ => some p
  | .fields, ']' => some { p with part := .target }
  | .fields, _ => none
  | .level _, _ => some p

def Progress.run (text : List Char) (p : Progress) (position : Nat) : List Char → Option Progress
  | [] => some p
  | c :: rest => do (← p.next text position c).run text (position + 1) rest

/-- What has been read up to the end. A target without a level lets everything through. -/
def Progress.finish (text : List Char) (p : Progress) : Option LogDirective :=
  match p.part with
  | .levelOrTarget => some ⟨(LogLevel.ofText? text).getD .trace, p.byValue⟩
  | .level start =>
    let level := text.drop start
    if level.isEmpty then some ⟨.trace, p.byValue⟩
    else (LogLevel.ofText? level).map fun level => ⟨level, p.byValue⟩
  | .target => some ⟨.trace, p.byValue⟩
  | _ => none

/-- Reads a directive. Blanks around it are not read, but its parts are cut out of the whole text, at the
positions at which they are read. -/
def ofText? (text : List Char) : Option LogDirective := do
  let trimmed := ((text.dropWhile Text.isBlank).reverse.dropWhile Text.isBlank).reverse
  (← Progress.run text {} 0 trimmed).finish text

end LogDirective

namespace LogFilter

def fallback : LogLevel := .warn

/-- The greatest level that directives let through; values of fields are not known in advance, so that
everything may have to be let through for them. -/
def level (directives : List LogDirective) : LogLevel :=
  if directives.isEmpty then .error
  else if directives.any (·.byValue) then .trace
  else (directives.map (·.level)).foldl LogLevel.max .off

def ofText (directives : Option String) : LogLevel :=
  match directives with
  | none => fallback
  | some text =>
    if Text.allBlank text then fallback
    else
      let parts := (text.toList.splitOn ',').filter (· ≠ [])
      match parts.mapM LogDirective.ofText? with
      | some directives => level directives
      | none => fallback

/-- The variables that may hold a filter. The first one that is not blank counts. -/
def sources : List String := ["PROMOTER_LOG", "RUST_LOG"]

def ofVariables (value? : String → Option String) : LogLevel :=
  ofText ((sources.filterMap value?).find? fun text => !Text.allBlank text)

end LogFilter
end Delivery
