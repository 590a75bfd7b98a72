import CallAtlas.Script.Lexeme

/-!
# Patterns, arguments and decorators

A pattern is what can stand left of an assignment or bind a parameter: a name, a
member or subscript, or a destructuring of an object or array. Defaults within a
pattern are not assignments, so a function there is bound to no name.
-/

namespace CallAtlas.Script.Rule

/-- Reads one argument or array item. -/
def argument (g : Grammar) : Rule Node :=
  (do
    let start ← nextStart
    symbol "..."
    let value ← g (.expression .inner)
    plain "spread" start [value]) <|> g (.expression .inner)

/-- Reads arguments in parentheses. -/
def arguments (g : Grammar) : Rule Node := do
  let start ← nextStart
  let items ← listed "(" ")" true (argument g)
  plain "arguments" start items

/-- Is this an expression that a value can be assigned to? -/
def isTarget (n : Node) : Bool :=
  match n.kind with
  | .identifier | .memberExpression | .nonNullExpression => true
  | .other label => label == "subscript" || label == "undefined"
  | _ => false

/-- Reads a pattern and, if there is one, its default. -/
def patternWithDefault (g : Grammar) : Rule Node := do
  let start ← nextStart
  let target ← g .pattern
  match ← optionally equals with
  | none => return target
  | some _ =>
      let value ← g (.expression .inner)
      node .assignmentPattern start [target.withRole .left, value.withRole .right]

/-- Reads what collects the rest of an array, object or argument list. -/
def restPattern (g : Grammar) : Rule Node := do
  let start ← nextStart
  symbol "..."
  let target ← g .pattern
  plain "rest pattern" start [target]

/-- Reads one entry of an object pattern. -/
def objectPatternEntry (g : Grammar) : Rule Node :=
  restPattern g <|> (do
    let start ← nextStart
    let key ← propertyName g
    symbol ":"
    let value ← patternWithDefault g
    plain "pattern entry" start [key.withRole .key, value.withRole .value]) <|> (do
    let start ← nextStart
    let name ← wordAs (.other "shorthand pattern")
    match ← optionally equals with
    | none => return name
    | some _ =>
        let value ← g (.expression .inner)
        plain "shorthand default" start [name.withRole .left, value.withRole .right])

/-- Reads a destructuring of an object or array. -/
def destructuring (g : Grammar) : Rule Node := do
  let start ← nextStart
  match ← nextChar? with
  | some '\x7b' =>
      let entries ← listed "\x7b" "\x7d" true (objectPatternEntry g)
      plain "object pattern" start entries
  | some '[' =>
      let items ← listed "[" "]" true (patternWithDefault g)
      plain "array pattern" start items
  | _ => failure

/-- Reads a pattern. -/
def pattern (g : Grammar) : Rule Node := do
  match ← nextChar? with
  | some '\x7b' | some '[' => destructuring g
  | some '.' => restPattern g
  | some '<' => failure
  | _ =>
      let target ← g (.chain .inner)
      guard (isTarget target)
      return target

/-- Reads a name or a destructuring, as variables are declared with. -/
def declaredName (g : Grammar) : Rule Node := wordAs .identifier <|> destructuring g

/-- Reads type arguments. -/
def typeArguments (g : Grammar) : Rule Node := do
  let start ← nextStart
  symbol "<"
  let types ← commaSeparated (g .type)
  let _ ← optionally (symbol ",")
  symbol ">"
  plain "type arguments" start types

/-- Reads what a decorator applies: a dotted name, perhaps called once, or an
expression in parentheses. -/
def decoratorBody (g : Grammar) : Rule Node := do
  let start ← nextStart
  if (← nextChar?) == some '(' then
    symbol "("
    let value ← g (.expressions .inner)
    symbol ")"
    node .parenthesized start [value]
  else
    let base ← wordAs .identifier
    let path ← grow (fun object => do
      symbol "."
      let name ← wordAs .propertyName
      node .memberExpression start [object.withRole .object, name.withRole .property]) base
    let types ← optionally do onlyTyped; typeArguments g
    match ← optionally (arguments g) with
    | some args => node .callExpression start ([path.withRole .callee] ++ types.toList ++ [args])
    | none => return path

/-- Reads a decorator. -/
def decorator (g : Grammar) : Rule Node := do
  let start ← nextStart
  symbol "@"
  let body ← decoratorBody g
  node .decorator start [body]

/-- Reads any number of decorators. -/
def decorators (g : Grammar) : Rule (List Node) := many (decorator g)

end CallAtlas.Script.Rule
