import CallAtlas.Script.Grammar.Class
import CallAtlas.Script.Grammar.Element

/-!
# Expressions

From the inside out: primary expressions, chains of members, subscripts and
calls, operands with assignments and unary operators, binary operations by
precedence, conditionals, and sequences with commas.

Where a statement may end by an implied semicolon (`Setting.terminable`), no
operator is read across a line break that ends it.
-/

namespace CallAtlas.Script.Rule

/-- Reads an expression in parentheses; in the typed languages a type may
follow it inside. -/
def parenthesized (g : Grammar) : Rule Node := do
  let start ← nextStart
  symbol "("
  let value ← g (.expressions .inner)
  let type ← optionally do onlyTyped; typeMark g
  symbol ")"
  node .parenthesized start (value :: type.toList)

/-- Reads the word `import` as what is called or has a member, or
`import.meta`. -/
def importHead : Rule Node := do
  let start ← nextStart
  keyword "import"
  (do
    symbol "."
    keyword "meta"
    plain "meta property" start []) <|> (do
    guard (← ahead (symbol "(" <|> symbol "." <|> optionalChain))
    plain "import" start [])

/-- Reads a primary expression that starts with a word. -/
def wordPrimary (g : Grammar) (setting : Setting) : Rule Node := do
  let constant (label : String) : Rule Node := wordAs (.other label)
  match ← nextWord? with
  | none => failure
  | some "function" => functionExpression g
  | some "async" =>
      (do
        let start ← nextStart
        guard (← ahead do keyword "async"; continues setting; keyword "function")
        let f ← functionExpression g
        node f.kind start f.children) <|> arrowFunction g setting <|> wordAs .identifier
  | some "class" => classFrom g (← nextStart) [] false
  | some "import" => importHead
  | some "this" => constant "this"
  | some "super" => constant "super"
  | some "null" => constant "null"
  | some "true" => constant "true"
  | some "false" => constant "false"
  | some "undefined" => arrowFunction g setting <|> constant "undefined"
  | some w =>
      guard !(["new", "typeof", "void", "delete", "await", "yield"].contains w)
      (do
        guard (← ahead do let _ ← word; symbol "=>")
        arrowFunction g setting) <|> wordAs .identifier

/-- Reads a primary expression. -/
def primary (g : Grammar) (setting : Setting) : Rule Node := do
  let s ← source
  match ← nextChar? with
  | none => failure
  | some '(' =>
      if ← arrowAhead setting then arrowFunction g setting <|> parenthesized g
      else parenthesized g
  | some '[' => array g
  | some '\x7b' => object g
  | some '"' => string
  | some '\'' => string
  | some '\x60' => template (g (.expressions .inner))
  | some '/' => regex
  | some '@' => classWithDecorators g false
  | some '#' => do
      let name ← privateName
      guard (← ahead (keyword "in"))
      return name
  | some '<' =>
      arrowFunction g setting <|> (do
        guard s.language.hasMarkup
        g .element)
  | some c =>
      if c.isDigit || c == '.' then number
      else wordPrimary g setting

/-- Reads the member, subscript or optional step that follows `object`. -/
def memberStep (g : Grammar) (start : Nat) (object : Node) : Rule Node :=
  (do
    symbol "." <|> optionalChain
    let name ← memberName
    node .memberExpression start [object.withRole .object, name.withRole .property]) <|> (do
    let _ ← optionally optionalChain
    symbol "["
    let index ← g (.expressions .inner)
    symbol "]"
    plain "subscript" start [object.withRole .object, index]) <|> (do
    onlyTyped
    symbolBut "!" "="
    node .nonNullExpression start [object])

/-- Reads the template that follows `tag`. -/
def taggedTemplate (g : Grammar) (start : Nat) (tag : Node) (types : List Node) : Rule Node := do
  let text ← template (g (.expressions .inner))
  node .callExpression start ([tag.withRole .callee] ++ types ++ [text])

/-- Can type arguments without a call end here? They can where no operand can
follow. -/
def typeArgumentsEnd (setting : Setting) : Rule Bool := do
  let s ← source
  let i ← nextStart
  if setting.heritage then return true
  if setting.terminable && (← impliedEnd ⟨true, false⟩) then return true
  match s.at? i with
  | none => return true
  | some c => return ")]:;,.?|&=*%^\x7d".contains c || s.startsWith i ['!', '=']

/-- Reads the call, with or without type arguments, that follows `callee`. -/
def callStep (g : Grammar) (setting : Setting) (start : Nat) (callee : Node) : Rule Node :=
  (do
    let _ ← optionally optionalChain
    let args ← arguments g
    node .callExpression start [callee.withRole .callee, args]) <|> taggedTemplate g start callee []
  <|> (do
    onlyTyped
    let chained ← optionally optionalChain
    let types ← typeArguments g
    (do
      let args ← arguments g
      node .callExpression start [callee.withRole .callee, types, args]) <|> (do
      guard chained.isNone
      taggedTemplate g start callee [types] <|> (do
        guard (← typeArgumentsEnd setting)
        plain "instantiation" start [callee, types])))

/-- Reads `new` with what it makes: a chain without calls, and the arguments if
there are any. -/
def construction (g : Grammar) (setting : Setting) : Rule Node := do
  let start ← nextStart
  keyword "new"
  (do
    symbol "."
    keyword "target"
    plain "meta property" start []) <|> (do
    let base ← nextStart
    let head ← if ← isNextWord "new" then g (.chain setting) else primary g setting
    let target ← grow (fun n =>
      memberStep g base n <|> taggedTemplate g base n []) head
    let types ← optionally do
      onlyTyped
      let types ← typeArguments g
      guard ((← ahead (symbol "(")) || (← typeArgumentsEnd setting))
      return types
    let args ← optionally (arguments g)
    plain "new" start ([target] ++ types.toList ++ args.toList))

/-- Reads a primary expression with the members, subscripts and calls that
follow it. -/
def chain (g : Grammar) (setting : Setting) : Rule Node := do
  let start ← nextStart
  let head ← if ← isNextWord "new" then construction g setting else primary g setting
  grow (fun n => do
    continues setting
    memberStep g start n <|> callStep g setting start n) head

/-- The signs of assignments that also compute. -/
def computingAssignments : List String :=
  [">>>=", "**=", "<<=", ">>=", "&&=", "||=", "??=", "+=", "-=", "*=", "/=", "%=", "&=", "|=", "^="]

/-- Reads the assignment or the `++` or `--` that follows an operand. -/
def assignmentStep (g : Grammar) (setting : Setting) (start : Nat) (target : Node) : Rule Node := do
  continues setting
  (do
    guard (isTarget target || target.kind == .parenthesized)
    equals
    let value ← g (.expression setting)
    node .assignment start [target.withRole .left, value.withRole .right]) <|> (do
    guard (isTarget target || target.kind == .parenthesized)
    computingAssignments.foldr (fun sign rest => symbol sign <|> rest) failure
    let value ← g (.expression setting)
    plain "computing assignment" start [target, value]) <|> (do
    symbol "++" <|> symbol "--"
    plain "update" start [target])

/-- Reads an assignment to a destructuring. -/
def destructuringAssignment (g : Grammar) (setting : Setting) : Rule Node := do
  let start ← nextStart
  let target ← destructuring g
  equals
  let value ← g (.expression setting)
  node .assignment start [target.withRole .left, value.withRole .right]

/-- Reads an operand: a chain with the assignment that may follow it. A literal
in braces or brackets with an equals sign after it is a destructuring. -/
def operand (g : Grammar) (setting : Setting) : Rule Node := do
  let start ← nextStart
  let c ← nextChar?
  let assigned : Rule Node := do
    let target ← g (.chain setting)
    assignmentStep g setting start target <|> pure target
  if c == some '\x7b' || c == some '[' then
    (do
      let value ← assigned
      guard !(← ahead equals)
      return value) <|> destructuringAssignment g setting
  else assigned

/-- Reads an operand with its unary operators. -/
def unary (g : Grammar) (setting : Setting) : Rule Node := do
  let start ← nextStart
  let applied (sign : Rule Unit) : Rule Node := do
    sign
    let value ← g (.unary setting)
    plain "unary" start [value]
  let asserted : Rule Node := do
    let types ← typeArguments g
    let value ← g (.unary setting)
    node .typeAssertion start [types, value]
  let yielded : Rule Node := do
    keyword "yield"
    let value ← (do
      symbol "*"
      return some (← g (.expression setting))) <|> optionally do
        continues setting
        g (.expression setting)
    plain "yield" start value.toList
  match ← nextChar? with
  | some '!' => applied (symbol "!")
  | some '~' => applied (symbol "~")
  | some '+' => applied (symbol "++" <|> symbol "+")
  | some '-' => applied (symbol "--" <|> symbol "-")
  | some '<' =>
      if (← source).language == .typeScript then operand g setting <|> asserted
      else operand g setting
  | _ =>
      match ← nextWord? with
      | some "typeof" => applied (keyword "typeof")
      | some "void" => applied (keyword "void")
      | some "delete" => applied (keyword "delete")
      | some "await" => applied (keyword "await")
      | some "yield" => yielded
      | _ => operand g setting

/-- The binary operators by sign, longer signs first, with how tightly each
binds. -/
def operators : List (String × Nat) :=
  [(">>>", 9), ("===", 7), ("!==", 7), ("**", 12), ("<<", 9), (">>", 9), ("<=", 8), (">=", 8),
    ("==", 7), ("!=", 7), ("&&", 3), ("||", 2), ("??", 1), ("<", 8), (">", 8), ("+", 10),
    ("-", 10), ("*", 11), ("/", 11), ("%", 11), ("&", 6), ("|", 4), ("^", 5)]

/-- Does an equals sign after this operator make it an assignment? -/
def isComputing (sign : String) : Bool :=
  !(["===", "!==", "<=", ">=", "==", "!=", "<", ">"].contains sign)

/-- Reads a binary operator and says how tightly it binds. -/
def binaryOperator : Rule Nat := fun s i =>
  let j := s.tokenStart i
  match operators.find? fun op => s.startsWith j op.1.toList with
  | some (sign, level) =>
      let k := j + sign.length
      if isComputing sign && s.isAt k '=' then none
      else if (sign == "+" && s.isAt k '+') || (sign == "-" && s.isAt k '-') then none
      else some (level, k)
  | none =>
      match s.wordEnd? j with
      | some k =>
          let w := s.slice j k
          if w == "in" || w == "instanceof" then some (8, k) else none
      | none => none

/-- Reads operands joined by operators that bind at least as tightly as
`level`. -/
def operation (g : Grammar) (setting : Setting) (level : Nat) : Rule Node := do
  let start ← nextStart
  let first ← unary g setting
  grow (fun left => do
    continues setting
    (do
      let bound ← binaryOperator
      guard (level ≤ bound)
      let right ← g (.operation setting (if bound == 12 then 12 else bound + 1))
      plain "binary" start [left, right]) <|> (do
      onlyTyped
      guard (level ≤ 8)
      keyword "as"
      let type ← g .type
      node .asExpression start [left, type]) <|> (do
      onlyTyped
      guard (level ≤ 8)
      keyword "satisfies"
      let type ← g .type
      node .satisfiesExpression start [left, type])) first

/-- Reads the two branches of a conditional whose condition is given. When the
first branch swallows the colon as the result type of an arrow function, it is
read again without such types. -/
def branches (g : Grammar) (setting : Setting) (start : Nat) (condition : Node) : Rule Node := do
  continues setting
  questionMark
  let first (typedArrows : Bool) : Rule Node := do
    let value ← g (.expression { terminable := false, typedArrows })
    symbol ":"
    return value
  let yes ← first setting.typedArrows <|> (do onlyTyped; first false)
  let no ← g (.expression setting)
  plain "conditional" start [condition, yes, no]

/-- Reads one expression. -/
def expression (g : Grammar) (setting : Setting) : Rule Node := do
  let start ← nextStart
  let value ← g (.operation setting 0)
  branches g setting start value <|> pure value

/-- Reads expressions with commas between them. -/
def expressions (g : Grammar) (setting : Setting) : Rule Node := do
  let start ← nextStart
  let first ← g (.expression setting)
  let rest ← many do symbol ","; g (.expression setting)
  if rest.isEmpty then return first
  plain "sequence" start (first :: rest)

end CallAtlas.Script.Rule
