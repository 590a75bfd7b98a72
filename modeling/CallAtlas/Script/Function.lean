import CallAtlas.Entity
import CallAtlas.Script.Node
import CallAtlas.Text.Blank

/-!
# Functions of a script

Which functions of a tree have a name, and under which. A declaration and a
method name themselves. A function literal is named by what it is bound to: a
declared variable, a key of an object literal, the target of an assignment or a
field of a class. Parentheses and type annotations between the binding and the
function do not matter; anything else does.

**The walk.** `visits` lists every node of a tree, parents before their parts,
each with the name its surroundings would give a function there and the
innermost enclosing function that has a name. This is the order in which
entities and calls are found.
-/

namespace CallAtlas.Script

/-- What identifies a function within its file. -/
structure Identity where
  name : String
  kind : EntityKind
  startLine : Nat
deriving DecidableEq, Repr, Inhabited

/-- Is the character one that quotes a key? -/
def isQuote (c : Char) : Bool := c == '"' || c == '\'' || c == '\x60'

/-- The text without the quotes of any kind at its two ends. -/
def unquote (text : String) : String :=
  String.ofList ((text.toList.dropWhile isQuote).reverse.dropWhile isQuote).reverse

namespace Node

/-- The name of a method, if it does not have to be computed. -/
def methodName? (n : Node) : Option String :=
  (n.child? .name).bind fun name =>
    match name.kind with
    | .propertyName | .privateName | .identifier | .numberLiteral => some name.text
    | .stringLiteral => some (unquote name.text)
    | _ => none

/-- The name a declared variable gives its value. -/
def variableName? (n : Node) : Option String :=
  (n.child? .name).bind fun name => if name.kind = .identifier then some name.text else none

/-- The name an entry of an object literal gives its value. -/
def keyName? (n : Node) : Option String :=
  (n.child? .key).bind fun key =>
    match key.kind with
    | .propertyName | .identifier | .numberLiteral => some key.text
    | .stringLiteral => some (unquote key.text)
    | _ => none

/-- The name an assignment gives its value: the variable assigned to, or the
last member of the path assigned to. -/
def targetName? (n : Node) : Option String :=
  (n.child? .left).bind fun target =>
    match target.kind with
    | .identifier => some target.text
    | .memberExpression => (target.child? .property).map text
    | _ => none

/-- The name a field of a class gives its value. Where the field has no name, it has a
property. -/
def fieldName? (n : Node) : Option String :=
  ((n.child? .name).or (n.child? .property)).bind fun name =>
    match name.kind with
    | .propertyName | .privateName => some name.text
    | .stringLiteral => some (unquote name.text)
    | _ => none

/-- The name that `parent` gives a function at position `index` among its parts,
when `parent` itself stands where its own surroundings give the name
`inherited`. -/
def bindingAt (parent : Node) (inherited : Option String) (index : Nat) : Option String :=
  let bound (role : Role) (name? : Option String) : Option String :=
    if parent.childIndex? role = some index then name? else none
  match parent.kind with
  | .variableDeclarator => bound .value parent.variableName?
  | .pair => bound .value parent.keyName?
  | .assignment => bound .right parent.targetName?
  | .fieldDefinition => bound .value parent.fieldName?
  | kind => if kind.isTransparent then inherited else none

/-- The name and form of a function that stands where its surroundings give the
name `binding`. -/
def namedForm? (n : Node) (binding : Option String) : Option (String × EntityKind) :=
  match n.kind with
  | .functionDeclaration | .generatorDeclaration =>
      (n.child? .name).map fun name => (name.text, .declaration)
  | .methodDefinition => n.methodName?.map (·, .method)
  | .arrowFunction => binding.map (·, .arrow)
  | .functionExpression | .generatorExpression => binding.map (·, .expression)
  | _ => none

/-- The identity of a function that stands where its surroundings give the name
`binding`. A node that is no function, or whose name is empty, has none. -/
def identity? (n : Node) (binding : Option String) : Option Identity :=
  match n.namedForm? binding with
  | some (name, kind) =>
      if name.isEmpty then none else some { name, kind, startLine := n.startLine }
  | none => none

/-- What a parameter binds, as written. Comments and decorators bind nothing. -/
def parameterText? (n : Node) : Option String :=
  let target? : Option Node :=
    match n.kind with
    | .comment | .decorator => none
    | .requiredParameter | .optionalParameter => n.child? .pattern
    | .assignmentPattern => n.child? .left
    | _ => some n
  target?.bind fun target =>
    match target.kind with
    | .assignmentPattern => (target.child? .left).map (Text.squeeze ·.text)
    | _ => some (Text.squeeze target.text)

/-- The parameters of a function as written, without types and defaults. -/
def parameterTexts (n : Node) : List String :=
  match n.child? .parameter with
  | some single => [single.text]
  | none =>
      match n.child? .parameters with
      | some list => list.children.filterMap parameterText?
      | none => []

end Node

/-- A node as the walk meets it. -/
structure Visit where
  node : Node
  /-- The name its surroundings would give a function here. -/
  binding : Option String
  /-- The innermost enclosing function that has a name. -/
  enclosing : Option Identity
deriving Inhabited

/-- The identity of the visited node. -/
def Visit.identity? (v : Visit) : Option Identity := v.node.identity? v.binding

mutual

/-- Every node of a tree in document order, parents before their parts. -/
def visits (binding : Option String) (enclosing : Option Identity) : Node → List Visit
  | .mk kind role text startLine endLine children =>
      let n := Node.mk kind role text startLine endLine children
      ⟨n, binding, enclosing⟩ ::
        visitsOfParts n binding ((n.identity? binding).or enclosing) 0 children

/-- The same for the parts of `parent` from position `index` on. -/
def visitsOfParts (parent : Node) (inherited : Option String) (enclosing : Option Identity)
    (index : Nat) : List Node → List Visit
  | [] => []
  | part :: parts =>
      visits (parent.bindingAt inherited index) enclosing part ++
        visitsOfParts parent inherited enclosing (index + 1) parts

end

/-- Every node of a whole tree: nothing surrounds its root. -/
def walk (tree : Node) : List Visit := visits none none tree

end CallAtlas.Script
