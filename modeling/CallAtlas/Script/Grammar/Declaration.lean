import CallAtlas.Script.Grammar.Expression

/-!
# Declarations

Variables, functions and classes, and what the typed languages add to them:
interfaces, type aliases, enumerations, namespaces and ambient declarations.
-/

namespace CallAtlas.Script.Rule

/-- Reads one declared variable. Says whether a value ended it. -/
def variableDeclarator (g : Grammar) : Rule (Node × Bool) := do
  let start ← nextStart
  let name ← declaredName g
  let type ← optionally do
    onlyTyped
    let _ ← optionally (symbolBut "!" "=")
    typeMark g
  let value ← optionally do
    equals
    return (← g (.expression .last)).withRole .value
  let declarator ← node .variableDeclarator start
    ([name.withRole .name] ++ type.toList ++ value.toList)
  return (declarator, value.isSome)

/-- Reads a declaration of variables that starts with one of `words`. -/
def variableDeclaration (g : Grammar) (words : List String) : Rule Node := do
  let start ← nextStart
  let _ ← oneOfWords words
  let first ← variableDeclarator g
  let rest ← many do symbol ","; variableDeclarator g
  let all := first :: rest
  semicolon ⟨(all.getLast?.map (·.2)).getD false, false⟩
  plain "variables" start (all.map (·.1))

/-- Reads a function declaration, or in the typed languages its bare
signature. -/
def functionDeclaration (g : Grammar) : Rule Node := do
  let start ← nextStart
  let _ ← optionally do
    keyword "async"
    continues .last
  keyword "function"
  let star ← optionally (symbol "*")
  let name ← wordAs .identifier
  let parts ← signature g true
  (do
    let body ← g .block
    node (if star.isSome then .generatorDeclaration else .functionDeclaration) start
      ([name.withRole .name] ++ parts ++ [body])) <|> (do
    onlyTyped
    guard star.isNone
    semicolon ⟨false, true⟩
    plain "function signature" start (name :: parts))

/-- Reads a class declaration, perhaps an abstract one. -/
def classDeclaration (g : Grammar) : Rule Node := do
  let start ← nextStart
  let lead ← decorators g
  if ← isNextWord "abstract" then
    onlyTyped
    keyword "abstract"
  classFrom g start lead true

/-- Reads an interface. -/
def interfaceDeclaration (g : Grammar) : Rule Node := do
  let start ← nextStart
  keyword "interface"
  let _ ← word
  let types ← optionally (typeParameters g)
  let bases ← optionally do
    keyword "extends"
    commaSeparated (namedType g)
  let body ← objectType g
  plain "interface" start (types.toList ++ bases.getD [] ++ [body])

/-- Reads a type alias. -/
def typeAlias (g : Grammar) : Rule Node := do
  let start ← nextStart
  keyword "type"
  let _ ← word
  let types ← optionally (typeParameters g)
  equals
  let type ← g .type
  semicolon ⟨false, false⟩
  plain "type alias" start (types.toList ++ [type])

/-- Reads an enumeration. -/
def enumeration (g : Grammar) : Rule Node := do
  let start ← nextStart
  let _ ← optionally (keyword "const")
  keyword "enum"
  let _ ← word
  let items ← listed "\x7b" "\x7d" false do
    let start ← nextStart
    let name ← propertyName g
    let value ← optionally do equals; g (.expression .inner)
    plain "enumeration item" start (name :: value.toList)
  plain "enumeration" start items

/-- Reads a namespace or a module. -/
def namespaceDeclaration (g : Grammar) : Rule Node := do
  let start ← nextStart
  let _ ← oneOfWords ["namespace", "module"]
  let _ ← (do
    let _ ← word
    let _ ← many do symbol "."; word
    pure ()) <|> (do
    let _ ← string
    pure ())
  let body ← optionally (g .block)
  if body.isNone then semicolon ⟨false, false⟩
  plain "namespace" start body.toList

/-- Reads `import x = a.b`. -/
def importAlias : Rule Node := do
  let start ← nextStart
  keyword "import"
  let _ ← word
  equals
  let _ ← word
  let _ ← many do symbol "."; word
  semicolon ⟨false, false⟩
  plain "import alias" start []

/-- Reads a declaration that the typed languages add, ambient ones apart. -/
def typedDeclaration (g : Grammar) : Rule Node := do
  onlyTyped
  match ← nextWord? with
  | some "interface" => interfaceDeclaration g
  | some "type" => typeAlias g
  | some "enum" | some "const" => enumeration g
  | some "namespace" | some "module" => namespaceDeclaration g
  | some "import" => importAlias
  | some "abstract" => classDeclaration g
  | _ => failure

/-- Reads a declaration that does not start with `declare`. -/
def plainDeclaration (g : Grammar) : Rule Node :=
  typedDeclaration g <|> do
    match ← nextWord? with
    | some "function" | some "async" => functionDeclaration g
    | some "class" => classDeclaration g
    | some "var" => variableDeclaration g ["var"]
    | some "let" | some "const" => variableDeclaration g ["let", "const"]
    | none => classDeclaration g
    | _ => failure

/-- Reads a declaration of something that is defined elsewhere. -/
def ambientDeclaration (g : Grammar) : Rule Node := do
  onlyTyped
  let start ← nextStart
  keyword "declare"
  let body ← (do
    keyword "global"
    g .block) <|> plainDeclaration g
  plain "ambient declaration" start [body]

/-- Reads any declaration. -/
def declaration (g : Grammar) : Rule Node := ambientDeclaration g <|> plainDeclaration g

end CallAtlas.Script.Rule
