import CallAtlas.Script.Grammar.Parameter

/-!
# Types

The typed languages' annotations. Their shape matters little to the call graph;
what matters is where a type ends, and that expressions inside it (`typeof`
queries, computed names, defaults in function types) are not lost.
-/

namespace CallAtlas.Script

namespace Source

/-- Is the character one after which a slash starts a pattern and not a
division? -/
def expectsOperand (c : Char) : Bool := "(,=:[!&|?;+-*%<>~^\x7b\x7d".contains c

/-- The position of the bracket that closes the outermost of `stack`, reading on
at `i` after the character `last`. Strings, templates, comments and patterns
between slashes are stepped over; a slash at the edge of a tag is none of
them. -/
def closingFrom? (s : Source) : Nat → List Char → Char → Nat → Option Nat
  | 0, _, _, _ => none
  | fuel + 1, stack, last, i =>
      match s.at? i, stack with
      | none, _ => none
      | _, [] => none
      | some c, top :: outer =>
          if top == '\x60' then
            if c == '\\' then s.closingFrom? fuel stack last (i + 2)
            else if c == '\x60' then s.closingFrom? fuel outer c (i + 1)
            else if c == '$' && s.isAt (i + 1) '\x7b' then
              s.closingFrom? fuel ('\x7b' :: stack) '\x7b' (i + 2)
            else s.closingFrom? fuel stack last (i + 1)
          else if c == '(' || c == '[' || c == '\x7b' || c == '\x60' then
            s.closingFrom? fuel (c :: stack) c (i + 1)
          else if c == ')' || c == ']' || c == '\x7d' then
            if outer.isEmpty then some i else s.closingFrom? fuel outer c (i + 1)
          else if c == '"' || c == '\'' then
            s.closingFrom? fuel stack c ((s.stringEnd? i).getD (i + 1))
          else if c == '/' then
            match s.commentEnd? i with
            | some j => s.closingFrom? fuel stack last j
            | none =>
                let inTag := last == '<' || s.isAt (i + 1) '>'
                let j :=
                  if expectsOperand last && !inTag then (s.regexEnd? i).getD (i + 1) else i + 1
                s.closingFrom? fuel stack c j
          else s.closingFrom? fuel stack (if isGap c then last else c) (i + 1)

/-- The start of the token after the parenthesis that closes the one at `i`. -/
def afterParentheses? (s : Source) (i : Nat) : Option Nat :=
  (s.closingFrom? s.size ['('] '(' (i + 1)).map fun j => s.tokenStart (j + 1)

end Source

namespace Rule

/-- Reads type parameters. -/
def typeParameters (g : Grammar) : Rule Node := do
  let start ← nextStart
  let modifier (w : String) : Rule Unit := do
    keyword w
    guard (← nextWord?).isSome
  let items ← listed "<" ">" false do
    let start ← nextStart
    let _ ← optionally (modifier "const")
    let _ ← optionally (modifier "in")
    let _ ← optionally (modifier "out")
    let name ← wordAs (.other "type name")
    let bound ← optionally do keyword "extends"; g .type
    let default ← optionally do equals; g .type
    plain "type parameter" start ([name] ++ bound.toList ++ default.toList)
  guard !items.isEmpty
  plain "type parameters" start items

/-- Reads a statement about a parameter that a result type may make: `x is T`,
`asserts x` or `asserts x is T`. -/
def typePredicate (g : Grammar) : Rule Node := do
  let start ← nextStart
  let asserts ← optionally do
    keyword "asserts"
    guard (← nextWord?).isSome
    guard !(← isNextWord "is")
  let _ ← word
  let type ← optionally do keyword "is"; g .type
  guard (asserts.isSome || type.isSome)
  plain "type predicate" start type.toList

/-- Reads a colon and a result type. -/
def resultType (g : Grammar) : Rule Node := do
  let start ← nextStart
  symbol ":"
  let type ← typePredicate g <|> g .type
  plain "type annotation" start [type]

/-- Reads what stands between a function's name and its body. -/
def signature (g : Grammar) (results : Bool) : Rule (List Node) := do
  if ← typed then
    let types ← optionally (typeParameters g)
    let parameters ← parameterList g
    let result ← if results then optionally (resultType g) else pure none
    return types.toList ++ [parameters] ++ result.toList
  else return [← parameterList g]

/-- Reads a function type or a constructor type. -/
def functionType (g : Grammar) : Rule Node := do
  let start ← nextStart
  let constructor ← optionally do
    let _ ← optionally (keyword "abstract")
    keyword "new"
  let types ← optionally (typeParameters g)
  if constructor.isNone && types.isNone then
    let s ← source
    let i ← nextStart
    guard (s.isAt i '(')
    guard ((s.afterParentheses? i).any (s.startsWith · ['=', '>']))
  let parameters ← parameterList g
  symbol "=>"
  let result ← typePredicate g <|> g .type
  plain "function type" start (types.toList ++ [parameters, result])

/-- Reads operands with `|` and `&` between them, one of which may also come
first. -/
def typeUnion (g : Grammar) : Rule Node := do
  let start ← nextStart
  let sign : Rule Unit := symbolBut "|" "|\x7d" <|> symbolBut "&" "&"
  let operand := functionType g <|> g .typeOperand
  let lead ← optionally sign
  let first ← operand
  let rest ← many do sign; operand
  if lead.isNone && rest.isEmpty then return first
  plain "union type" start (first :: rest)

/-- Reads a type. -/
def type (g : Grammar) : Rule Node := functionType g <|> do
  let start ← nextStart
  let subject ← typeUnion g
  let condition ← optionally do
    keyword "extends"
    let bound ← g .type
    symbol "?"
    let yes ← g .type
    symbol ":"
    let no ← g .type
    plain "conditional type" start [subject, bound, yes, no]
  return condition.getD subject

/-- Reads the two signs that a mapped type puts before `?`. -/
def mappedMark : Rule Unit := do
  let _ ← optionally (symbol "-" <|> symbol "+")
  symbol "?"

/-- Reads an index signature or the clause of a mapped type. -/
def indexSignature (g : Grammar) : Rule Node := do
  let start ← nextStart
  let _ ← optionally do
    let _ ← optionally (symbol "-" <|> symbol "+")
    keyword "readonly"
  symbol "["
  let _ ← word
  let keys ← (do symbol ":"; return [← g .type]) <|> (do
    keyword "in"
    let keys ← g .type
    let name ← optionally do keyword "as"; g .type
    return [keys] ++ name.toList)
  symbol "]"
  let _ ← optionally mappedMark
  let type ← typeMark g
  plain "index signature" start (keys ++ [type])

/-- Reads the word `w` where it modifies a member's name that follows. Within a
class body a line break may make it a member of its own. -/
def memberModifier (inClass : Bool) (w : String) : Rule Unit := do
  keyword w
  if inClass then guard !(← impliedEnd ⟨false, false⟩)
  let c ← nextChar?
  guard !(c.all ("(<=;,:?!\x7d".contains ·))

/-- Reads a member of an object type. -/
def typeMember (g : Grammar) : Rule Node := do
  let start ← nextStart
  let call : Rule Node := do
    let parts ← signature g true
    plain "call signature" start parts
  let construct : Rule Node := do
    let _ ← optionally (memberModifier false "abstract")
    keyword "new"
    let parts ← signature g true
    plain "construct signature" start parts
  let named : Rule Node := do
    let _ ← optionally (memberModifier false "public" <|> memberModifier false "private" <|>
      memberModifier false "protected")
    let _ ← optionally (memberModifier false "static")
    let _ ← optionally (memberModifier false "override")
    let _ ← optionally (memberModifier false "readonly")
    let _ ← optionally (memberModifier false "async")
    let _ ← optionally (memberModifier false "get" <|> memberModifier false "set" <|> symbol "*")
    let name ← propertyName g
    let _ ← optionally (symbol "?")
    let parts ← signature g true <|> (return (← optionally (typeMark g)).toList)
    plain "member signature" start (name :: parts)
  match ← nextChar? with
  | some '(' | some '<' => call
  | _ => indexSignature g <|> construct <|> named

/-- Reads the members of an object type in braces. -/
def objectType (g : Grammar) : Rule Node := do
  let start ← nextStart
  symbol "\x7b"
  let _ ← optionally (symbol "," <|> symbol ";")
  let members ← many do
    let member ← typeMember g
    symbol "," <|> semicolon ⟨false, false⟩ <|> (do guard (← ahead (symbol "\x7d")))
    return member
  symbol "\x7d"
  plain "object type" start members

/-- Reads one item of a tuple type: a type, perhaps named, optional or a rest. -/
def tupleItem (g : Grammar) : Rule Node := do
  let start ← nextStart
  let _ ← optionally (symbol "...")
  (do
    let _ ← word
    let _ ← optionally (symbol "?")
    symbol ":"
    let type ← g .type
    plain "named item" start [type]) <|> (do
    let type ← g .type
    let _ ← optionally (symbol "?")
    plain "item" start [type])

/-- Reads what `typeof` asks about: a name or an imported module, with the
members, subscripts and calls that follow. -/
def typeQuery (g : Grammar) : Rule Node := do
  let start ← nextStart
  keyword "typeof"
  let base ← nextStart
  let head ← match ← nextWord? with
    | some "import" => wordAs (.other "import")
    | some "this" => wordAs (.other "this")
    | _ => wordAs .identifier
  let subject ← grow (fun object =>
    (do
      symbol "." <|> optionalChain
      let name ← memberName
      node .memberExpression base [object.withRole .object, name.withRole .property]) <|>
    (do
      let args ← arguments g
      node .callExpression base [object.withRole .callee, args])) head
  let types ← optionally (typeArguments g)
  plain "type query" start (subject :: types.toList)

/-- Reads a type taken from an imported module. -/
def importedType (g : Grammar) : Rule Node := do
  let start ← nextStart
  keyword "import"
  let head ← plain "import" start []
  let args ← arguments g
  let call ← node .callExpression start [head.withRole .callee, args]
  let path ← grow (fun object => do
    symbol "."
    let name ← memberName
    node .memberExpression start [object.withRole .object, name.withRole .property]) call
  let types ← optionally (typeArguments g)
  plain "imported type" start (path :: types.toList)

/-- Reads a dotted type name with its type arguments. -/
def namedType (g : Grammar) : Rule Node := do
  let start ← nextStart
  let _ ← word
  let _ ← many do symbol "."; word
  let types ← optionally (typeArguments g)
  plain "type name" start types.toList

/-- Reads a type operand without the brackets that may follow it. -/
def typePrimary (g : Grammar) : Rule Node := do
  let start ← nextStart
  match ← nextChar? with
  | some '(' =>
      symbol "("
      let type ← g .type
      symbol ")"
      plain "parenthesized type" start [type]
  | some '\x7b' => objectType g
  | some '[' =>
      let items ← listed "[" "]" false (tupleItem g)
      plain "tuple type" start items
  | some '\x60' => template (g .type)
  | some '-' =>
      symbol "-"
      let value ← number
      plain "literal type" start [value]
  | some '?' =>
      symbol "?"
      let type ← g .typeOperand
      plain "maybe type" start [type]
  | some '*' =>
      symbol "*"
      plain "existential type" start []
  | _ =>
      string <|> number <|> (do
        match ← nextWord? with
        | some "typeof" => typeQuery g
        | some "import" => importedType g
        | _ => namedType g)

/-- Reads a type operand: a prefix word with its operand, or a primary type with
any number of array brackets or subscripts on the same line. -/
def typeOperand (g : Grammar) : Rule Node := do
  let start ← nextStart
  let prefixed (w : String) : Rule Node := do
    keyword w
    let type ← g .typeOperand
    plain "type operator" start [type]
  let inferred : Rule Node := do
    keyword "infer"
    let _ ← word
    let bound ← optionally do
      keyword "extends"
      let bound ← typeUnion g
      guard !(← ahead (symbol "?"))
      return bound
    plain "inferred type" start bound.toList
  let suffixed : Rule Node := do
    let base ← typePrimary g
    grow (fun type => do
      let s ← source
      let from' ← position
      let next ← nextStart
      guard (s.lineAt from' == s.lineAt next)
      symbol "["
      let index ← optionally (g .type)
      symbol "]"
      plain "indexed type" start (type :: index.toList)) base
  prefixed "keyof" <|> prefixed "readonly" <|> prefixed "unique" <|> inferred <|> suffixed

end Rule

end CallAtlas.Script
