import CallAtlas.Script.Grammar.Types

/-!
# Markup

Elements within expressions: tags with attributes, text, nested elements and
expressions in braces.
-/

namespace CallAtlas.Script

namespace Source

/-- The end of the character reference at `i`, if there is one. -/
def referenceEnd? (s : Source) (i : Nat) : Option Nat :=
  if s.isAt i '&' then
    let bounded (start limit : Nat) (p : Char → Bool) : Option Nat :=
      let j := s.skipWhile p start
      if start < j && j ≤ start + limit && s.isAt j ';' then some (j + 1) else none
    if s.isAt (i + 1) '#' then
      if s.isAt (i + 2) 'x' || s.isAt (i + 2) 'X' then bounded (i + 3) 6 isHexDigit
      else bounded (i + 2) 5 Char.isDigit
    else bounded (i + 1) 30 Char.isAlpha
  else none

/-- May the character continue the name of a tag or attribute after a
hyphen? -/
def isTagPart (c : Char) : Bool := isWordPart c || c == '-'

end Source

namespace Rule

/-- Reads a tag or attribute name that may hold hyphens. -/
def tagWord : Rule Node := do
  let s ← source
  let start ← nextStart
  match s.wordEnd? start with
  | some j =>
      set (if s.isAt j '-' then s.skipWhile Source.isTagPart j else j)
      node .identifier start []
  | none => failure

/-- Reads the name of an element: a word, a dotted path, or two words with a
colon. -/
def tagName : Rule Node := do
  let start ← nextStart
  let head ← tagWord
  (do
    symbol ":"
    let _ ← tagWord
    plain "qualified name" start []) <|>
  grow (fun object => do
    symbol "."
    let name ← wordAs .propertyName
    node .memberExpression start [object.withRole .object, name.withRole .property]) head

/-- Reads an expression in braces, perhaps spread or missing. -/
def elementExpression (g : Grammar) : Rule Node := do
  let start ← nextStart
  symbol "\x7b"
  let value ← optionally ((do
    let start ← nextStart
    symbol "..."
    let value ← g (.expression .inner)
    plain "spread" start [value]) <|> g (.expressions .inner))
  symbol "\x7d"
  plain "element expression" start value.toList

/-- Reads an attribute's string, which may span lines and has no escapes. -/
def attributeString : Rule Node := do
  let s ← source
  let start ← nextStart
  match s.at? start with
  | some quote =>
      guard (quote == '"' || quote == '\'')
      let stop := s.skipWhile (· != quote) (start + 1)
      guard (s.isAt stop quote)
      set (stop + 1)
      node .stringLiteral start []
  | none => failure

/-- Reads an attribute. -/
def tagAttribute (g : Grammar) : Rule Node :=
  elementExpression g <|> do
    let start ← nextStart
    let name ← tagWord
    let _ ← optionally do symbol ":"; tagWord
    let value ← optionally do
      symbol "="
      attributeString <|> elementExpression g <|> g .element
    plain "attribute" start (name :: value.toList)

/-- Reads a run of text within an element. -/
def elementText : Rule (List Node) := do
  let s ← source
  let i ← position
  let j := s.skipWhile (!"<>&\x7b\x7d".contains ·) i
  guard (i < j)
  set j
  return []

/-- Reads a character reference within an element. -/
def characterReference : Rule (List Node) := do
  match (← source).referenceEnd? (← position) with
  | some j =>
      set j
      return []
  | none => failure

/-- Reads one child of an element. -/
def elementChild (g : Grammar) : Rule (List Node) :=
  elementText <|> characterReference <|> (return [← elementExpression g]) <|> (do
    guard !(← ahead (do symbol "<"; symbol "/"))
    return [← g .element])

/-- Reads an element. -/
def element (g : Grammar) : Rule Node := do
  let start ← nextStart
  symbol "<"
  let name ← optionally tagName
  let types ← optionally do
    onlyTyped
    guard name.isSome
    typeArguments g
  let attributes ← if name.isSome then many (tagAttribute g) else pure []
  let lead := name.toList ++ types.toList ++ attributes
  (do
    guard name.isSome
    symbol "/"
    symbol ">"
    plain "element" start lead) <|> (do
    symbol ">"
    let children ← many (elementChild g)
    symbol "<"
    symbol "/"
    let _ ← optionally tagName
    symbol ">"
    plain "element" start (lead ++ children.flatten))

end Rule

end CallAtlas.Script
