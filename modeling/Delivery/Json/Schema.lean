import Delivery.Json.Printer

/-!
Schemas: what a JSON value must look like before it is read as a value of a type. A schema finds all
problems of a value, those of items and members first.
-/

namespace Delivery

inductive TextRule where
  | notEmpty
  | pattern (text : String) (accepts : List Char → Bool)

inductive Schema where
  | list (items : Schema)
  | text (rule : TextRule)
  | count
  | anyObject
  /-- An object that has some members at least, and others only of the given names. -/
  | record (required : List String) (fields : List (String × Schema))

inductive SchemaProblem where
  | wrongType (value : Json) (wanted : String)
  | negative (value : Json)
  | empty (value : Json)
  | noMatch (value : Json) (pattern : String)
  | additional (names : List String)
  | missing (name : String)

def SchemaProblem.message : SchemaProblem → String
  | .wrongType value wanted => s!"{value.compact} is not of type \"{wanted}\""
  | .negative value => s!"{value.compact} is less than the minimum of 0"
  | .empty value => s!"{value.compact} is shorter than 1 character"
  | .noMatch value pattern => s!"{value.compact} does not match \"{pattern}\""
  | .additional names =>
    let quoted := names.map fun name => "'" ++ name ++ "'"
    "Additional properties are not allowed (" ++ String.intercalate ", " quoted ++
      (if names.length = 1 then " was unexpected)" else " were unexpected)")
  | .missing name => s!"\"{name}\" is a required property"

namespace Number

def isNegative : Number → Bool
  | integer n => n < 0
  | real x => x.negative && x.rank != 0

def isWhole : Number → Bool
  | integer _ => true
  | real x => Binary64.units x.rank % twoPower 1074 == 0

end Number

namespace Schema

def textProblems (rule : TextRule) (value : Json) : List SchemaProblem :=
  match value, rule with
  | .string s, .notEmpty => if s = "" then [.empty value] else []
  | .string s, .pattern shown accepts =>
    if accepts s.toList then [] else [.noMatch value shown]
  | value, _ => [.wrongType value "string"]

def countProblems (value : Json) : List SchemaProblem :=
  match value with
  | .number n =>
    (if n.isNegative then [.negative value] else []) ++
      (if n.isWhole then [] else [.wrongType value "integer"])
  | value => [.wrongType value "integer"]

def nameProblems (required known : List String) (names : List String) : List SchemaProblem :=
  let unknown := names.filter fun name => !known.contains name
  (if unknown.isEmpty then [] else [.additional unknown]) ++
    (required.filter fun name => !names.contains name).map .missing

mutual

def problems : Schema → Json → List SchemaProblem
  | list items, value =>
    match value with
    | .array values => values.flatMap fun item => items.problems item
    | value => [.wrongType value "array"]
  | text rule, value => textProblems rule value
  | count, value => countProblems value
  | anyObject, value =>
    match value with
    | .object _ => []
    | value => [.wrongType value "object"]
  | record required fields, value =>
    match value with
    | .object members =>
      fieldProblems fields members ++
        nameProblems required (fields.map (·.1)) (members.map (·.1))
    | value => [.wrongType value "object"]

def fieldProblems : List (String × Schema) → List (String × Json) → List SchemaProblem
  | [], _ => []
  | (key, schema) :: rest, members =>
    (match Entries.get? key members with
      | some value => schema.problems value
      | none => []) ++ fieldProblems rest members

end

end Schema
end Delivery
