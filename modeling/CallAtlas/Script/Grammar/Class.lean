import CallAtlas.Script.Grammar.Function

/-!
# Classes

In the plain language a member's decorators belong to it; in the typed languages
a method's decorators stand beside the method and a field's decorators belong to
the field.
-/

namespace CallAtlas.Script.Rule

/-- Reads a block that runs when the class is made. -/
def staticBlock (g : Grammar) : Rule Node := do
  let start ← nextStart
  keyword "static"
  let body ← g .block
  plain "static block" start [body]

/-- Reads a field's value, if it has one. -/
def fieldValue (g : Grammar) : Rule (Option Node) :=
  optionally do
    equals
    return (← g (.expression .last)).withRole .value

/-- Reads a field of the plain language and its semicolon. -/
def plainField (g : Grammar) (start : Nat) (lead : List Node) : Rule Node := do
  let _ ← optionally (memberModifier true "static")
  let name ← propertyName g
  let value ← fieldValue g
  let field ← node .fieldDefinition start (lead ++ [name.withRole .property] ++ value.toList)
  semicolon ⟨value.isSome, false⟩
  return field

/-- Reads the modifiers a field of the typed languages may have. -/
def fieldModifiers : Rule Unit := do
  let modifier (w : String) : Rule Unit := do
    let _ ← optionally (memberModifier true w)
  modifier "declare"
  let _ ← optionally (memberModifier true "public" <|> memberModifier true "private" <|>
    memberModifier true "protected")
  modifier "declare"
  modifier "static"
  modifier "override"
  modifier "readonly"
  modifier "abstract"
  modifier "override"
  modifier "readonly"
  modifier "accessor"

/-- Reads a field of the typed languages. Says whether a value ended it. -/
def typedField (g : Grammar) (start : Nat) (lead : List Node) : Rule (Node × Bool) := do
  fieldModifiers
  let name ← propertyName g
  let _ ← optionally (symbol "?" <|> symbolBut "!" "=")
  let type ← optionally (typeMark g)
  let value ← fieldValue g
  let field ← node .fieldDefinition start
    (lead ++ [name.withRole .name] ++ type.toList ++ value.toList)
  return (field, value.isSome)

/-- Reads a method of the typed languages that has no body. -/
def methodSignature (g : Grammar) (start : Nat) : Rule Node := do
  let modifier (w : String) : Rule Unit := do
    let _ ← optionally (memberModifier true w)
  let _ ← optionally (memberModifier true "public" <|> memberModifier true "private" <|>
    memberModifier true "protected")
  modifier "static"
  modifier "abstract"
  modifier "override"
  modifier "readonly"
  modifier "async"
  let _ ← optionally (memberModifier true "get" <|> memberModifier true "set" <|> symbol "*")
  let name ← propertyName g
  let _ ← optionally (symbol "?")
  let parts ← signature g true
  plain "method signature" start (name :: parts)

/-- Reads what ends a member of the typed languages that has no body. -/
def memberEnd (ending : Ending) : Rule Unit := symbol "," <|> semicolon ending

/-- Reads one member of a class. -/
def classMember (g : Grammar) : Rule (List Node) := do
  let start ← nextStart
  if ← ahead (symbol ";") then
    symbol ";"
    return []
  else if ← typed then
    (return [← staticBlock g]) <|> (do
      let lead ← decorators g
      let own ← nextStart
      let method ← method g true own []
      return lead ++ [method]) <|> (do
      let signature ← methodSignature g start
      memberEnd ⟨false, true⟩
      return [signature]) <|> (do
      let _ ← optionally (memberModifier true "static")
      let index ← indexSignature g
      memberEnd ⟨false, false⟩
      return [index]) <|> (do
      let lead ← decorators g
      let (field, valued) ← typedField g start lead
      memberEnd ⟨valued, false⟩
      return [field])
  else
    (return [← staticBlock g]) <|> (do
      let lead ← decorators g
      (return [← method g true start lead]) <|> (return [← plainField g start lead]))

/-- Reads the members of a class in braces. -/
def classBody (g : Grammar) : Rule Node := do
  let start ← nextStart
  symbol "\x7b"
  let members ← many (classMember g)
  symbol "\x7d"
  plain "class body" start members.flatten

/-- Reads what a class extends and implements. -/
def heritage (g : Grammar) : Rule (List Node) := do
  if ← typed then
    let bases ← optionally do
      keyword "extends"
      commaSeparated (g (.chain { heritage := true }))
    let types ← optionally do
      keyword "implements"
      commaSeparated (g .type)
    return bases.getD [] ++ types.getD []
  else
    let base ← optionally do
      keyword "extends"
      g (.expression .inner)
    return base.toList

/-- Reads a class from the word `class` on. A class that is declared has a
name. -/
def classFrom (g : Grammar) (start : Nat) (lead : List Node) (named : Bool) : Rule Node := do
  keyword "class"
  let name ← optionally do
    guard !((← isNextWord "extends") || (← isNextWord "implements"))
    wordAs .identifier
  guard (name.isSome || !named)
  let types ← optionally do onlyTyped; typeParameters g
  let bases ← heritage g
  let body ← classBody g
  plain "class" start (lead ++ name.toList ++ types.toList ++ bases ++ [body])

/-- Reads a class with its decorators. -/
def classWithDecorators (g : Grammar) (named : Bool) : Rule Node := do
  let start ← nextStart
  let lead ← decorators g
  classFrom g start lead named

end CallAtlas.Script.Rule
