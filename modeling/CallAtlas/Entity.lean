/-!
# Entities

An **entity** is a named function: one node of the call graph. Its id joins the
file, the name and the first line, so two entities of one file can share a name.
The degrees are kept by the graph that holds the entity.
-/

namespace CallAtlas

/-- The syntactic form an entity was declared with. -/
inductive EntityKind where
  /-- `function f() {}` or `function* f() {}`. -/
  | declaration
  /-- A method of a class or an object literal. -/
  | method
  /-- An arrow function bound to a name. -/
  | arrow
  /-- A function expression bound to a name. -/
  | expression
deriving DecidableEq, Repr, Inhabited

namespace EntityKind

/-- The kind's name in reports. -/
def name : EntityKind → String
  | declaration => "declaration"
  | method => "method"
  | arrow => "arrow"
  | expression => "expression"

/-- Reads a kind back from its name. -/
def ofName? : String → Option EntityKind
  | "declaration" => some declaration
  | "method" => some method
  | "arrow" => some arrow
  | "expression" => some expression
  | _ => none

theorem ofName?_name (k : EntityKind) : ofName? k.name = some k := by
  cases k <;> rfl

end EntityKind

/-- A named function of a source file. -/
structure Entity where
  /-- Unique within a graph. -/
  id : String
  name : String
  filePath : String
  /-- The key of the group the file belongs to. -/
  group : String
  kind : EntityKind
  startLine : Nat
  endLine : Nat
  /-- The parameters as written, without types and defaults. -/
  parameters : List String
  /-- How many distinct entities this one calls. -/
  outDegree : Nat := 0
  /-- How many distinct entities call this one. -/
  inDegree : Nat := 0
deriving DecidableEq, Repr, Inhabited

namespace Entity

/-- The id of the entity with a given name that starts on a given line of a
file. -/
def makeId (filePath name : String) (startLine : Nat) : String :=
  filePath ++ ":" ++ name ++ ":" ++ toString startLine

/-- An entity that has no calls yet, under the id made from its place. -/
def make (name filePath group : String) (kind : EntityKind) (startLine endLine : Nat)
    (parameters : List String) : Entity :=
  { id := makeId filePath name startLine, name, filePath, group, kind, startLine, endLine,
    parameters }

/-- The entity with no calls recorded. -/
def unlinked (e : Entity) : Entity := { e with outDegree := 0, inDegree := 0 }

end Entity

end CallAtlas
