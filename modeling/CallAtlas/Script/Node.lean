/-!
# Concrete trees of a script

A **node** is a stretch of source text with a grammatical kind, the role it
plays in its parent, the lines it starts and ends on, and its parts in document
order. The kinds that the extraction of functions and calls looks at have
constructors of their own; everything else is `other`, with a label that says
what was read.

Nothing in the type forces a tree to be one that the grammar can produce: the
extractions are total and mean something on every tree.
-/

namespace CallAtlas.Script

/-- The grammatical kind of a node. -/
inductive Kind where
  /-- `function f() {}` as a statement. -/
  | functionDeclaration
  /-- `function* f() {}` as a statement. -/
  | generatorDeclaration
  /-- A method of a class or of an object literal. -/
  | methodDefinition
  | arrowFunction
  | functionExpression
  | generatorExpression
  /-- A call, and also a tagged template. -/
  | callExpression
  /-- `a.b` and `a?.b`. -/
  | memberExpression
  | identifier
  /-- A name after a dot, or a plain key of an object or class member. -/
  | propertyName
  /-- A name that starts with `#`. -/
  | privateName
  | numberLiteral
  | stringLiteral
  /-- `x = v` within a `const`, `let` or `var` statement. -/
  | variableDeclarator
  /-- `key: value` in an object literal. -/
  | pair
  /-- A plain `target = value`. -/
  | assignment
  /-- A field of a class, with or without a value. -/
  | fieldDefinition
  | parenthesized
  /-- `v as T`. -/
  | asExpression
  /-- `v satisfies T`. -/
  | satisfiesExpression
  /-- `v!`. -/
  | nonNullExpression
  /-- `<T>v`. -/
  | typeAssertion
  /-- A parameter with room for modifiers, a type and a default. -/
  | requiredParameter
  /-- A parameter marked `?`. -/
  | optionalParameter
  /-- `target = default` within a parameter list or a pattern. -/
  | assignmentPattern
  | comment
  | decorator
  /-- Text that could not be read. -/
  | error
  /-- A token that should be there and is not. -/
  | missing
  /-- Any other kind. -/
  | other (label : String)
deriving DecidableEq, Repr, Inhabited

namespace Kind

/-- The kinds that introduce a function body. -/
def isFunctionLike : Kind → Bool
  | functionDeclaration | generatorDeclaration | methodDefinition | arrowFunction
  | functionExpression | generatorExpression => true
  | _ => false

/-- The kinds that stand for a fault in the text. -/
def isFault : Kind → Bool
  | error | missing => true
  | _ => false

/-- The kinds that wrap a value without changing what it is bound to: `(f)`,
`f as T`, `f satisfies T`, `f!` and `<T>f`. -/
def isTransparent : Kind → Bool
  | parenthesized | asExpression | satisfiesExpression | nonNullExpression
  | typeAssertion => true
  | _ => false

end Kind

/-- The role a node plays in its parent, where the parent tells its parts
apart. -/
inductive Role where
  | name
  | key
  | value
  | left
  | right
  | object
  | property
  /-- What a call calls. -/
  | callee
  /-- The one bare parameter of `x => …`. -/
  | parameter
  /-- The parenthesised parameter list. -/
  | parameters
  /-- What a parameter binds, without type and default. -/
  | pattern
deriving DecidableEq, Repr, Inhabited

/-- A node of a concrete tree. -/
inductive Node where
  | mk (kind : Kind) (role : Option Role) (text : String) (startLine endLine : Nat)
      (children : List Node)
deriving Repr, Inhabited

namespace Node

/-- The grammatical kind. -/
def kind : Node → Kind
  | mk k _ _ _ _ _ => k

/-- The role in the parent, if the parent names one. -/
def role : Node → Option Role
  | mk _ r _ _ _ _ => r

/-- The source text the node covers. -/
def text : Node → String
  | mk _ _ t _ _ _ => t

/-- The line, counted from one, of the first character. -/
def startLine : Node → Nat
  | mk _ _ _ l _ _ => l

/-- The line, counted from one, of the last character. -/
def endLine : Node → Nat
  | mk _ _ _ _ l _ => l

/-- The parts in document order. -/
def children : Node → List Node
  | mk _ _ _ _ _ cs => cs

/-- The node in another role. -/
def withRole (r : Role) : Node → Node
  | mk k _ t l m cs => mk k (some r) t l m cs

/-- The first part that plays a given role. -/
def child? (n : Node) (r : Role) : Option Node :=
  n.children.find? (·.role == some r)

/-- The position, among the parts, of the first one that plays a given role. -/
def childIndex? (n : Node) (r : Role) : Option Nat :=
  n.children.findIdx? (·.role == some r)

end Node

end CallAtlas.Script
