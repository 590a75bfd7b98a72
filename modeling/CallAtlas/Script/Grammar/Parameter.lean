import CallAtlas.Script.Grammar.Pattern

/-!
# Parameter lists

In the plain language a parameter is a pattern, perhaps with a default. In the
typed languages it is a node of its own that may also hold decorators,
modifiers, a question mark and a type.
-/

namespace CallAtlas.Script.Rule

/-- Reads a colon and a type. -/
def typeMark (g : Grammar) : Rule Node := do
  let start ← nextStart
  symbol ":"
  let type ← g .type
  plain "type annotation" start [type]

/-- Reads the word `w` where it modifies the name or pattern that follows. -/
def parameterModifier (w : String) : Rule Unit := do
  keyword w
  let isWord := (← nextWord?).isSome
  let c ← nextChar?
  guard (isWord || c == some '\x7b' || c == some '[' || c == some '.')

/-- Reads a parameter of the typed languages. -/
def typedParameter (g : Grammar) : Rule Node := do
  let start ← nextStart
  let decorators ← decorators g
  let _ ← optionally (parameterModifier "public" <|> parameterModifier "private" <|>
    parameterModifier "protected")
  let _ ← optionally (parameterModifier "override")
  let _ ← optionally (parameterModifier "readonly")
  let target ← (do
    let start ← nextStart
    keyword "this"
    plain "this" start []) <|> g .pattern
  let optional ← optionally (symbolBut "?" "?.")
  let type ← optionally (typeMark g)
  let value ← optionally do equals; g (.expression .inner)
  node (if optional.isSome then .optionalParameter else .requiredParameter) start
    (decorators ++ [target.withRole .pattern] ++ type.toList ++
      (value.map (·.withRole .value)).toList)

/-- Reads a parameter list in parentheses. -/
def parameterList (g : Grammar) : Rule Node := do
  let start ← nextStart
  let item := if ← typed then typedParameter g else patternWithDefault g
  let items ← listed "(" ")" false item
  let list ← plain "parameters" start items
  return list.withRole .parameters

end CallAtlas.Script.Rule
