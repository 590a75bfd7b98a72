import CallAtlas.Script.Grammar.Types

/-!
# Functions

Function expressions, arrow functions and methods, and the object literals whose
members methods can be.
-/

namespace CallAtlas.Script.Rule

/-- Reads a function expression. A name of its own does not bind it. -/
def functionExpression (g : Grammar) : Rule Node := do
  let start ← nextStart
  let _ ← optionally (keyword "async")
  keyword "function"
  let star ← optionally (symbol "*")
  let name ← optionally (wordAs .identifier)
  let parts ← signature g true
  let body ← g .block
  node (if star.isSome then .generatorExpression else .functionExpression) start
    ((name.map (·.withRole .name)).toList ++ parts ++ [body])

/-- Reads an arrow and the body after it. An opening brace starts a block. -/
def arrowBody (g : Grammar) (setting : Setting) : Rule Node := do
  symbol "=>"
  if (← nextChar?) == some '\x7b' then g .block else g (.expression setting)

/-- Could an arrow function with parenthesised parameters start here? Looks past
the closing parenthesis. -/
def arrowAhead (setting : Setting) : Rule Bool := do
  let s ← source
  let i ← nextStart
  if s.isAt i '(' then
    match s.afterParentheses? i with
    | none => return true
    | some j =>
        return s.startsWith j ['=', '>'] ||
          (setting.typedArrows && s.language.hasTypes && s.isAt j ':')
  else return s.language.hasTypes && s.isAt i '<'

/-- Reads an arrow function: one bare parameter or a parameter list, an arrow,
and a body. -/
def arrowFunction (g : Grammar) (setting : Setting) : Rule Node := do
  let start ← nextStart
  let asynchronous : Rule Unit := do
    keyword "async"
    continues setting
  let parts ← (do
      let parameter ← wordAs .identifier
      guard (← ahead (symbol "=>"))
      return [parameter.withRole .parameter]) <|> (do
      let _ ← optionally asynchronous
      (do
        let parameter ← wordAs .identifier
        guard (← ahead (symbol "=>"))
        return [parameter.withRole .parameter]) <|> (do
        guard (← arrowAhead setting)
        let parts ← signature g setting.typedArrows
        guard (← ahead (symbol "=>"))
        return parts))
  let body ← arrowBody g setting
  node .arrowFunction start (parts ++ [body])

/-- Reads a method, modifiers included; `lead` are the decorators that belong to
it. -/
def method (g : Grammar) (inClass : Bool) (start : Nat) (lead : List Node) : Rule Node := do
  let modifier (w : String) : Rule Unit := do
    let _ ← optionally (memberModifier inClass w)
  if ← typed then
    let _ ← optionally (memberModifier inClass "public" <|> memberModifier inClass "private" <|>
      memberModifier inClass "protected")
  if inClass then modifier "static"
  if ← typed then
    modifier "override"
    modifier "readonly"
  modifier "async"
  let _ ← optionally (memberModifier inClass "get" <|> memberModifier inClass "set" <|> symbol "*")
  let name ← propertyName g
  if ← typed then
    let _ ← optionally (symbol "?")
  let parts ← signature g true
  let body ← g .block
  node .methodDefinition start (lead ++ [name.withRole .name] ++ parts ++ [body])

/-- Reads a member of an object literal. -/
def objectMember (g : Grammar) : Rule Node := do
  let start ← nextStart
  if ← ahead (symbol "...") then argument g
  else
    method g false start [] <|> (do
      let key ← propertyName g
      symbol ":"
      let value ← g (.expression .inner)
      node .pair start [key.withRole .key, value.withRole .value]) <|>
    wordAs (.other "shorthand")

/-- Reads an object literal. -/
def object (g : Grammar) : Rule Node := do
  let start ← nextStart
  let members ← listed "\x7b" "\x7d" true (objectMember g)
  plain "object" start members

/-- Reads an array literal. -/
def array (g : Grammar) : Rule Node := do
  let start ← nextStart
  let items ← listed "[" "]" true (argument g)
  plain "array" start items

end CallAtlas.Script.Rule
