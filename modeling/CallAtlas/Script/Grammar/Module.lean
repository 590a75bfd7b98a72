import CallAtlas.Script.Grammar.Declaration

/-!
# Imports and exports
-/

namespace CallAtlas.Script.Rule

/-- Reads the name something is exported or imported under. -/
def exportedName : Rule Unit :=
  (do let _ ← word; pure ()) <|> (do let _ ← string; pure ())

/-- Reads one entry of an import or export list. -/
def listedName : Rule Node := do
  let start ← nextStart
  let marked : Rule Unit := do
    onlyTyped
    let _ ← oneOfWords ["type", "typeof"]
    guard ((← nextWord?).isSome && !(← isNextWord "as"))
  let _ ← optionally marked
  exportedName
  let _ ← optionally do keyword "as"; exportedName
  plain "listed name" start []

/-- Reads a list of names in braces. -/
def nameList : Rule Unit := do
  let _ ← listed "\x7b" "\x7d" false listedName

/-- Reads where names come from, with the attributes that may follow. -/
def origin (g : Grammar) : Rule (List Node) := do
  keyword "from"
  let _ ← string
  let attributes ← optionally do keyword "with"; object g
  return attributes.toList

/-- Reads an import statement. -/
def importStatement (g : Grammar) : Rule Node := do
  let start ← nextStart
  keyword "import"
  let whole : Rule Unit := do symbol "*"; keyword "as"; let _ ← word
  let bare : Rule (List Node) := do
    let _ ← string
    let attributes ← optionally do keyword "with"; object g
    return attributes.toList
  let clause : Rule (List Node) := do
    (whole <|> nameList <|> do
      let _ ← word
      let _ ← optionally do symbol ","; whole <|> nameList)
    origin g
  let required : Rule (List Node) := do
    onlyTyped
    let _ ← word
    equals
    keyword "require"
    symbol "("
    let _ ← string
    symbol ")"
    return []
  let marked : Rule (List Node) := do
    onlyTyped
    let _ ← oneOfWords ["type", "typeof"]
    clause <|> required
  let parts ← bare <|> clause <|> required <|> marked
  semicolon ⟨false, false⟩
  plain "import" start parts

/-- Reads what follows `export default`. -/
def defaultExport (g : Grammar) : Rule Node :=
  declaration g <|> do
    let value ← g (.expression .last)
    semicolon ⟨true, false⟩
    return value

/-- Reads an export statement after its decorators. -/
def exportFrom (g : Grammar) (start : Nat) (lead : List Node) : Rule Node := do
  keyword "export"
  let whole : Rule (List Node) := do
    symbol "*"
    let _ ← optionally do keyword "as"; exportedName
    let parts ← origin g
    semicolon ⟨false, false⟩
    return parts
  let names : Rule (List Node) := do
    let _ ← optionally do onlyTyped; keyword "type"
    nameList
    let parts ← optionally (origin g)
    semicolon ⟨false, false⟩
    return parts.getD []
  let replaced : Rule (List Node) := do
    onlyTyped
    equals
    let value ← g (.expression .last)
    semicolon ⟨true, false⟩
    return [value]
  let exposed : Rule (List Node) := do
    onlyTyped
    keyword "as"
    keyword "namespace"
    let _ ← word
    semicolon ⟨false, false⟩
    return []
  let parts ← whole <|> names <|> (do
      keyword "default"
      return [← defaultExport g]) <|> replaced <|> exposed <|> (return [← declaration g])
  plain "export" start (lead ++ parts)

/-- Reads an export statement. -/
def exportStatement (g : Grammar) : Rule Node := do
  let start ← nextStart
  let lead ← decorators g
  exportFrom g start lead

end CallAtlas.Script.Rule
