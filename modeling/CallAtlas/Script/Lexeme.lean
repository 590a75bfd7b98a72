import CallAtlas.Script.Rule

/-!
# Literals

Numbers, strings, patterns between slashes, and names with their kinds: the
tokens that the grammar reads as nodes without parts.
-/

namespace CallAtlas.Script

namespace Source

/-- The end of a run of digits from `i` on, where single underscores may stand
between two digits. -/
def digitsEnd (s : Source) (isDigit : Char → Bool) (i : Nat) : Nat :=
  if h : i < s.chars.size then
    if isDigit s.chars[i] then s.digitsEnd isDigit (i + 1)
    else if s.chars[i] == '_' && s.holdsAt (i + 1) isDigit then s.digitsEnd isDigit (i + 1)
    else i
  else i
termination_by s.chars.size - i

/-- The end of the exponent at `i`, or `i` if there is none. -/
def exponentEnd (s : Source) (i : Nat) : Nat :=
  if s.isAt i 'e' || s.isAt i 'E' then
    let j := if s.isAt (i + 1) '+' || s.isAt (i + 1) '-' then i + 2 else i + 1
    if s.holdsAt j Char.isDigit then s.digitsEnd Char.isDigit j else i
  else i

/-- The end of digits in a base that is marked by two characters. -/
def basedEnd? (s : Source) (isDigit : Char → Bool) (i : Nat) : Option Nat :=
  if s.holdsAt (i + 2) isDigit then
    let j := s.digitsEnd isDigit (i + 2)
    some (if s.isAt j 'n' then j + 1 else j)
  else none

/-- The end of the number that starts at `i`, if one does. -/
def numberEnd? (s : Source) (i : Nat) : Option Nat :=
  let isOctal (c : Char) := '0' ≤ c && c ≤ '7'
  let isBinary (c : Char) := c == '0' || c == '1'
  let based : Option Nat :=
    if s.isAt i '0' then
      match s.at? (i + 1) with
      | some 'x' | some 'X' => s.basedEnd? isHexDigit i
      | some 'o' | some 'O' => s.basedEnd? isOctal i
      | some 'b' | some 'B' => s.basedEnd? isBinary i
      | _ => none
    else none
  if based.isSome then based
  else if s.holdsAt i Char.isDigit then
    let j := s.digitsEnd Char.isDigit i
    if s.isAt j 'n' then some (j + 1)
    else if s.isAt j '.' then
      let k := if s.holdsAt (j + 1) Char.isDigit then s.digitsEnd Char.isDigit (j + 1) else j + 1
      some (s.exponentEnd k)
    else some (s.exponentEnd j)
  else if s.isAt i '.' && s.holdsAt (i + 1) Char.isDigit then
    some (s.exponentEnd (s.digitsEnd Char.isDigit (i + 1)))
  else none

/-- The end of the escape whose backslash stands at `i`. -/
def escapeEnd? (s : Source) (i : Nat) : Option Nat :=
  match s.at? (i + 1) with
  | none => none
  | some 'x' =>
      if s.holdsAt (i + 2) isHexDigit && s.holdsAt (i + 3) isHexDigit then some (i + 4) else none
  | some 'u' => s.wordEscapeEnd? i
  | some '\r' => some (if s.isAt (i + 2) '\n' then i + 3 else i + 2)
  | some _ => some (i + 2)

/-- The position after the string that `quote` closes, reading on at `i`. -/
def stringEndFrom? (s : Source) (quote : Char) : Nat → Nat → Option Nat
  | 0, _ => none
  | fuel + 1, i =>
      match s.at? i with
      | none => none
      | some '\\' => (s.escapeEnd? i).bind (s.stringEndFrom? quote fuel)
      | some c =>
          if c == quote then some (i + 1)
          else if c == '\n' || c == '\r' then none
          else s.stringEndFrom? quote fuel (i + 1)

/-- The end of the string that starts at `i`, if one does. -/
def stringEnd? (s : Source) (i : Nat) : Option Nat :=
  match s.at? i with
  | some '"' => s.stringEndFrom? '"' s.size (i + 1)
  | some '\'' => s.stringEndFrom? '\'' s.size (i + 1)
  | _ => none

/-- The end of the bracketed class that is being read at `i` within a pattern
between slashes. -/
def classEndFrom? (s : Source) : Nat → Nat → Option Nat
  | 0, _ => none
  | fuel + 1, i =>
      match s.at? i with
      | none => none
      | some '\n' => none
      | some ']' => some (i + 1)
      | some '\\' => if s.holdsAt (i + 1) (· != '\n') then s.classEndFrom? fuel (i + 2) else none
      | some _ => s.classEndFrom? fuel (i + 1)

/-- The position of the slash that closes the pattern that is being read at
`i`. -/
def patternEndFrom? (s : Source) : Nat → Nat → Option Nat
  | 0, _ => none
  | fuel + 1, i =>
      match s.at? i with
      | none => none
      | some '\n' => none
      | some '/' => some i
      | some '[' => (s.classEndFrom? s.size (i + 1)).bind (s.patternEndFrom? fuel)
      | some '\\' => if s.holdsAt (i + 1) (· != '\n') then s.patternEndFrom? fuel (i + 2) else none
      | some _ => s.patternEndFrom? fuel (i + 1)

/-- The end of the pattern between slashes, flags included, that starts at
`i`. -/
def regexEnd? (s : Source) (i : Nat) : Option Nat :=
  if s.isAt i '/' then
    match s.patternEndFrom? s.size (i + 1) with
    | some j => if i + 1 < j then some (s.skipWhile Char.isLower (j + 1)) else none
    | none => none
  else none

end Source

namespace Rule

/-- Reads a token whose end a function of its start gives. -/
def token (kind : Kind) (end? : Source → Nat → Option Nat) : Rule Node := do
  let s ← source
  let start ← nextStart
  match end? s start with
  | some stop =>
      set stop
      node kind start []
  | none => failure

/-- Reads a number. -/
def number : Rule Node := token .numberLiteral Source.numberEnd?

/-- Reads a string between single or double quotes. -/
def string : Rule Node := token .stringLiteral Source.stringEnd?

/-- Reads a pattern between slashes. -/
def regex : Rule Node := token (.other "regex") Source.regexEnd?

/-- Reads a name that starts with `#`. -/
def privateName : Rule Node := do
  let s ← source
  let start ← nextStart
  guard (s.isAt start '#')
  match s.wordEnd? (start + 1) with
  | some stop =>
      set stop
      node .privateName start []
  | none => failure

/-- Reads the name after a dot. -/
def memberName : Rule Node := wordAs .propertyName <|> privateName

/-- Reads the name of a property: a word, a private name, a string, a number, or
an expression in brackets. -/
def propertyName (g : Grammar) : Rule Node :=
  wordAs .propertyName <|> privateName <|> string <|> number <|> do
    let start ← nextStart
    symbol "["
    let key ← g (.expression .inner)
    symbol "]"
    plain "computed name" start [key]

/-- Reads the text of a template up to its closing quote, with the parts that
`part` reads between braces. -/
def templateBody (part : Rule Node) : Nat → List Node → Rule (List Node)
  | 0, _ => failure
  | fuel + 1, parts => do
      let s ← source
      let i ← position
      match s.at? i with
      | none => failure
      | some '\x60' =>
          set (i + 1)
          return parts.reverse
      | some '\\' =>
          match s.escapeEnd? i with
          | some j =>
              set j
              templateBody part fuel parts
          | none => failure
      | some '$' =>
          if s.isAt (i + 1) '\x7b' then
            set (i + 2)
            let p ← part
            symbol "\x7d"
            templateBody part fuel (p :: parts)
          else
            set (i + 1)
            templateBody part fuel parts
      | some _ =>
          set (i + 1)
          templateBody part fuel parts

/-- Reads a template between backquotes. -/
def template (part : Rule Node) : Rule Node := do
  let start ← nextStart
  symbol "\x60"
  let parts ← templateBody part ((← source).size + 1) []
  plain "template" start parts

end Rule

end CallAtlas.Script
