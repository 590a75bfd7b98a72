import CallAtlas.Script.Grammar.Module

/-!
# Statements
-/

namespace CallAtlas.Script.Rule

/-- Reads statements in braces. -/
def block (g : Grammar) : Rule Node := do
  let start ← nextStart
  symbol "\x7b"
  let statements ← many (g .statement)
  symbol "\x7d"
  plain "block" start statements

/-- Reads an expression as a statement. -/
def expressionStatement (g : Grammar) : Rule Node := do
  let start ← nextStart
  let value ← g (.expressions .last)
  semicolon ⟨true, false⟩
  plain "expression statement" start [value]

/-- Reads a condition in parentheses. -/
def condition (g : Grammar) : Rule Node := parenthesized g

/-- Reads `if`. -/
def ifStatement (g : Grammar) : Rule Node := do
  let start ← nextStart
  keyword "if"
  let test ← condition g
  let yes ← g .statement
  let no ← optionally do keyword "else"; g .statement
  plain "if" start ([test, yes] ++ no.toList)

/-- Reads the statements of one case, up to the next case. -/
def caseBody (g : Grammar) : Rule (List Node) := many do
  guard !((← isNextWord "case") || (← isNextWord "default"))
  g .statement

/-- Reads `switch`. -/
def switchStatement (g : Grammar) : Rule Node := do
  let start ← nextStart
  keyword "switch"
  let value ← condition g
  symbol "\x7b"
  let cases ← many do
    let start ← nextStart
    let test ← (do
      keyword "case"
      return [← g (.expressions .inner)]) <|> (do
      keyword "default"
      return [])
    symbol ":"
    let body ← caseBody g
    plain "case" start (test ++ body)
  symbol "\x7d"
  plain "switch" start (value :: cases)

/-- Reads the header of a loop over the items or keys of something. -/
def iterationHeader (g : Grammar) : Rule (List Node) := do
  symbol "("
  let left ← (do
      keyword "var"
      let name ← declaredName g
      let value ← optionally do equals; g (.expression .inner)
      return name :: value.toList) <|> (do
      let _ ← oneOfWords ["let", "const"]
      return [← declaredName g]) <|> (return [← g .pattern]) <|> (return [← parenthesized g])
  let _ ← oneOfWords ["in", "of"]
  let right ← g (.expressions .inner)
  symbol ")"
  return left ++ [right]

/-- Reads the header of a loop with a start, a test and a step. -/
def countingHeader (g : Grammar) : Rule (List Node) := do
  symbol "("
  let part : Rule (List Node) :=
    (do symbol ";"; return []) <|> (do
      let value ← g (.expressions .inner)
      symbol ";"
      return [value])
  let first ← (return [← variableDeclaration g ["var", "let", "const"]]) <|> part
  let test ← part
  let step ← optionally (g (.expressions .inner))
  symbol ")"
  return first ++ test ++ step.toList

/-- Reads `for`. -/
def forStatement (g : Grammar) : Rule Node := do
  let start ← nextStart
  keyword "for"
  let header ← (do
    let _ ← optionally (keyword "await")
    iterationHeader g) <|> countingHeader g
  let body ← g .statement
  plain "for" start (header ++ [body])

/-- Reads `while` or `with`. -/
def guardedStatement (g : Grammar) : Rule Node := do
  let start ← nextStart
  let _ ← oneOfWords ["while", "with"]
  let test ← condition g
  let body ← g .statement
  plain "guarded" start [test, body]

/-- Reads `do`. The semicolon at its end may be missing. -/
def doStatement (g : Grammar) : Rule Node := do
  let start ← nextStart
  keyword "do"
  let body ← g .statement
  keyword "while"
  let test ← condition g
  let _ ← optionally (symbol ";")
  plain "do" start [body, test]

/-- Reads `try`. -/
def tryStatement (g : Grammar) : Rule Node := do
  let start ← nextStart
  keyword "try"
  let body ← block g
  let handler ← optionally do
    keyword "catch"
    let parameter ← optionally do
      symbol "("
      let name ← declaredName g
      let type ← optionally do onlyTyped; typeMark g
      symbol ")"
      return name :: type.toList
    let body ← block g
    return parameter.getD [] ++ [body]
  let finalizer ← optionally do keyword "finally"; block g
  plain "try" start ([body] ++ handler.getD [] ++ finalizer.toList)

/-- Reads a jump: `break` or `continue`, perhaps to a label. -/
def jumpStatement : Rule Node := do
  let start ← nextStart
  let _ ← oneOfWords ["break", "continue"]
  let _ ← optionally do
    guard !(← impliedEnd ⟨false, false⟩)
    word
  semicolon ⟨false, false⟩
  plain "jump" start []

/-- Reads `return`. -/
def returnStatement (g : Grammar) : Rule Node := do
  let start ← nextStart
  keyword "return"
  let value ← optionally do
    guard !(← impliedEnd ⟨false, false⟩)
    g (.expressions .last)
  semicolon ⟨value.isSome, false⟩
  plain "return" start value.toList

/-- Reads `throw`. -/
def throwStatement (g : Grammar) : Rule Node := do
  let start ← nextStart
  keyword "throw"
  let value ← g (.expressions .last)
  semicolon ⟨true, false⟩
  plain "throw" start [value]

/-- Reads a statement with a label. -/
def labelled (g : Grammar) : Rule Node := do
  let start ← nextStart
  let _ ← word
  symbol ":"
  let body ← g .statement
  plain "labelled" start [body]

/-- Reads a statement that starts with an opening brace. A name with a colon
after the brace makes it an object if it can be read as one; otherwise it is a
block if it can be read as one. -/
def bracedStatement (g : Grammar) : Rule Node := do
  if ← ahead do symbol "\x7b"; let _ ← word; symbol ":" then
    expressionStatement g <|> block g
  else block g <|> expressionStatement g

/-- Reads a statement. -/
def statement (g : Grammar) : Rule Node := do
  let start ← nextStart
  match ← nextChar? with
  | none => failure
  | some '\x7b' => bracedStatement g
  | some ';' =>
      symbol ";"
      plain "empty" start []
  | some '@' => exportStatement g <|> classDeclaration g
  | _ =>
      match ← nextWord? with
      | some "if" => ifStatement g
      | some "for" => forStatement g
      | some "while" | some "with" => guardedStatement g
      | some "do" => doStatement g
      | some "switch" => switchStatement g
      | some "try" => tryStatement g
      | some "break" | some "continue" => jumpStatement
      | some "return" => returnStatement g
      | some "throw" => throwStatement g
      | some "debugger" =>
          keyword "debugger"
          semicolon ⟨false, false⟩
          plain "debugger" start []
      | some "var" | some "const" => declaration g
      | some "let" | some "function" | some "async" | some "class" =>
          declaration g <|> expressionStatement g <|> labelled g
      | some "import" => importStatement g <|> declaration g <|> expressionStatement g
      | some "export" => exportStatement g
      | some _ => labelled g <|> declaration g <|> expressionStatement g
      | none => expressionStatement g

end CallAtlas.Script.Rule
