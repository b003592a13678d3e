import Delivery.Json.Basic

/-!
Tables of a TOML document. A document is a list of sections, each under a header that names a table or adds
one to an array of tables; a section is a list of entries under dotted keys. A table may be written in
several places only as far as the rules allow: what a header or an inline table has defined is closed.
-/

namespace Delivery
namespace Toml

inductive Origin where
  | header
  /-- On the way to the table of a header. -/
  | implied
  /-- On the way to the last part of a dotted key. -/
  | dotted
  | inline
deriving DecidableEq, Repr

inductive Node where
  | value (value : Json)
  | array (items : List Node)
  | table (origin : Origin) (members : List (String × Node))
  | tables (items : List (List (String × Node)))
deriving Inhabited

def find? (key : String) : List (String × Node) → Option Node
  | [] => none
  | (k, node) :: rest => if k = key then some node else find? key rest

def put (key : String) (node : Node) : List (String × Node) → List (String × Node)
  | [] => [(key, node)]
  | (k, old) :: rest => if k = key then (key, node) :: rest else (k, old) :: put key node rest

namespace Node

def onTheWay (dotted : Bool) : Node := table (if dotted then .dotted else .implied) []

/-- A table that may be passed through on the way to another. A dotted key passes only through tables
that no header defines. -/
def isOpen (dotted : Bool) : Origin → Bool
  | .header => !dotted
  | .implied => true
  | .dotted => true
  | .inline => false

/-- Changes the table at a path below a table. Tables on the way are made where they are missing; in an
array of tables a header leads to the last one. -/
def amend (dotted : Bool) (f : Node → Option Node) : List String → Node → Option Node
  | [], node => f node
  | key :: rest, table origin members =>
    match find? key members with
    | none => do
      let child ← amend dotted f rest (onTheWay dotted)
      return table origin (put key child members)
    | some (table inner children) =>
      if isOpen dotted inner then do
        let child ← amend dotted f rest (table inner children)
        return table origin (put key child members)
      else none
    | some (tables items) =>
      match dotted, items.reverse with
      | false, last :: earlier =>
        match amend dotted f rest (table .header last) with
        | some (table _ last) =>
          some (table origin (put key (tables (last :: earlier).reverse) members))
        | _ => none
      | _, _ => none
    | some _ => none
  | _ :: _, _ => none

/-- Adds an entry to a table; its key must be new. The last part of a dotted key must not go into a table
that a header has made or implied. -/
def addEntry (target : Node) (path : List String) (key : String) (node : Node) : Option Node :=
  target.amend true
    (fun
      | table origin members =>
        if !path.isEmpty && origin != .dotted then none
        else if (find? key members).isSome then none
        else some (table origin (put key node members))
      | _ => none)
    path

end Node

structure Entry where
  path : List String
  key : String
  node : Node

def Node.addEntries (node : Node) : List Entry → Option Node
  | [] => some node
  | entry :: rest => do (← node.addEntry entry.path entry.key entry.node).addEntries rest

structure Header where
  adds : Bool
  path : List String
  key : String

structure Section where
  header : Header
  entries : List Entry

def Section.define (s : Section) : Node → Option Node
  | .table origin members =>
    match s.header.adds, find? s.header.key members with
    | false, none => do
      let child ← (Node.table .header []).addEntries s.entries
      return .table origin (put s.header.key child members)
    | false, some (.table .implied children) => do
      let child ← (Node.table .header children).addEntries s.entries
      return .table origin (put s.header.key child members)
    | true, none => add origin members []
    | true, some (.tables items) => add origin members items
    | _, _ => none
  | _ => none
where
  add (origin : Origin) (members : List (String × Node)) (items : List (List (String × Node))) :
      Option Node :=
    match (Node.table .header []).addEntries s.entries with
    | some (.table _ item) =>
      some (.table origin (put s.header.key (.tables (items ++ [item])) members))
    | _ => none

structure Document where
  entries : List Entry
  sections : List Section

def Document.table? (d : Document) : Option Node := do
  let root ← (Node.table .header []).addEntries d.entries
  d.sections.foldlM (fun root s => root.amend false s.define s.header.path) root

namespace Node

mutual

def toJson : Node → Json
  | value v => v
  | array items => .array (itemsToJson items)
  | table _ members => .object (membersToJson members)
  | tables items => .array (tablesToJson items)

def itemsToJson : List Node → List Json
  | [] => []
  | node :: rest => toJson node :: itemsToJson rest

def membersToJson : List (String × Node) → List (String × Json)
  | [] => []
  | (key, node) :: rest => (key, toJson node) :: membersToJson rest

def tablesToJson : List (List (String × Node)) → List Json
  | [] => []
  | members :: rest => .object (membersToJson members) :: tablesToJson rest

end

end Node
end Toml
end Delivery
