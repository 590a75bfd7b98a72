import CallAtlas.Toml.Basic

/-!
# Reading TOML

A reader for TOML 1.0. It accepts a document or it does not; where and why a
document fails is not recorded.
-/

namespace CallAtlas.Toml

/-- Reads an `α` from the front of a text. -/
abbrev Reader (α : Type) := StateT (List Char) Option α

namespace Reader

variable {α : Type}

/-- The next character; nothing is read. -/
def peek? : Reader (Option Char) := return (← get).head?

/-- Reads a given text. -/
def literal (text : String) : Reader Unit := do
  let cs ← get
  guard (text.toList.isPrefixOf cs)
  set (cs.drop text.length)

/-- Reads one character that satisfies `p`. -/
def satisfy (p : Char → Bool) : Reader Char := do
  match ← get with
  | c :: cs =>
      guard (p c)
      set cs
      return c
  | [] => failure

/-- Reads the longest run of characters that satisfy `p`. -/
def run (p : Char → Bool) : Reader (List Char) := do
  let cs ← get
  set (cs.dropWhile p)
  return cs.takeWhile p

/-- Reads `r` if it can be read. -/
def optionally (r : Reader α) : Reader (Option α) := (some <$> r) <|> pure none

/-- Reads `r` as often as it can be read, at most `fuel` times. -/
def manyUpTo (r : Reader α) : Nat → Reader (List α)
  | 0 => pure []
  | fuel + 1 => (do
      let a ← r
      return a :: (← manyUpTo r fuel)) <|> pure []

/-- Reads `r` as often as it can be read. `r` must read something. -/
def many (r : Reader α) : Reader (List α) := do manyUpTo r (← get).length

/-! ### Blanks, comments and line ends -/

/-- Skips spaces and tabs. -/
def blanks : Reader Unit := do
  let _ ← run fun c => c == ' ' || c == '\t'

/-- Reads a line end. -/
def newLine : Reader Unit := literal "\n" <|> literal "\r\n"

/-- May the character stand in a comment or a literal string? -/
def isPlain (c : Char) : Bool :=
  c == '\t' || (0x20 ≤ c.toNat && c.toNat != 0x7F)

/-- Reads a comment. -/
def comment : Reader Unit := do
  literal "#"
  let _ ← run isPlain

/-- Skips blanks and a comment up to the end of the line or of the text. -/
def lineEnd : Reader Unit := do
  blanks
  let _ ← optionally comment
  if (← get).isEmpty then pure () else newLine

/-- Skips blanks, comments and line ends. -/
def gap : Reader Unit := do
  let _ ← many do
    let before := (← get).length
    blanks
    let _ ← optionally comment
    let _ ← optionally newLine
    guard ((← get).length < before)

/-! ### Strings -/

/-- The amount of a hexadecimal digit. -/
def hexValue? (c : Char) : Option Nat :=
  if c.isDigit then some (c.toNat - 48)
  else if 'a' ≤ c && c ≤ 'f' then some (c.toNat - 87)
  else if 'A' ≤ c && c ≤ 'F' then some (c.toNat - 55)
  else none

/-- Reads a character given by `count` hexadecimal digits. -/
def codePoint (count : Nat) : Reader Char := do
  let cs ← get
  match (cs.take count).mapM hexValue? with
  | none => failure
  | some digits =>
      guard (digits.length == count)
      let n := digits.foldl (fun n d => 16 * n + d) 0
      guard (n < 0xD800 || (0xDFFF < n && n < 0x110000))
      set (cs.drop count)
      return Char.ofNat n

/-- Reads the rest of an escape after its backslash. -/
def escape : Reader Char := do
  match ← satisfy fun _ => true with
  | 'b' => return '\x08'
  | 't' => return '\t'
  | 'n' => return '\n'
  | 'f' => return '\x0c'
  | 'r' => return '\r'
  | '"' => return '"'
  | '\\' => return '\\'
  | 'u' => codePoint 4
  | 'U' => codePoint 8
  | _ => failure

/-- Reads one character of a string with escapes. -/
def basicChar : Reader Char :=
  (do
    literal "\\"
    escape) <|> satisfy fun c => isPlain c && c != '"' && c != '\\'

/-- Reads a string with escapes on one line. -/
def basicString : Reader String := do
  literal "\""
  let cs ← many basicChar
  literal "\""
  return String.ofList cs

/-- Reads a string without escapes on one line. -/
def literalString : Reader String := do
  literal "'"
  let cs ← run fun c => isPlain c && c != '\''
  literal "'"
  return String.ofList cs

/-- Reads the quotes at the end of a string over several lines: three close it,
and up to two before them belong to it. -/
def closingQuotes (quote : Char) : Reader (List Char) := do
  let cs ← run (· == quote)
  guard (3 ≤ cs.length && cs.length ≤ 5)
  return cs.drop 3

/-- Reads one or two quotes that do not close a string over several lines. -/
def innerQuotes (quote : Char) : Reader (List Char) := do
  let cs ← run (· == quote)
  guard (1 ≤ cs.length && cs.length ≤ 2)
  return cs

/-- Reads a piece of a string over several lines with escapes. A backslash at the
end of a line joins it to the next text. -/
def longBasicPiece : Reader (List Char) :=
  (do
    literal "\\"
    blanks
    newLine
    let _ ← run fun c => c == ' ' || c == '\t' || c == '\n' || c == '\r'
    return []) <|> (return [← basicChar]) <|> (do newLine; return ['\n']) <|> innerQuotes '"'

/-- Reads a string over several lines with escapes. -/
def longBasicString : Reader String := do
  literal "\"\"\""
  let _ ← optionally newLine
  let pieces ← many longBasicPiece
  let last ← closingQuotes '"'
  return String.ofList (pieces.flatten ++ last)

/-- Reads a string over several lines without escapes. -/
def longLiteralString : Reader String := do
  literal "'''"
  let _ ← optionally newLine
  let pieces ← many ((return [← satisfy fun c => isPlain c && c != '\'']) <|>
    (do newLine; return ['\n']) <|> innerQuotes '\'')
  let last ← closingQuotes '\''
  return String.ofList (pieces.flatten ++ last)

/-! ### Keys -/

/-- May the character stand in a bare key? -/
def isBare (c : Char) : Bool := c.isAlphanum || c == '_' || c == '-'

/-- Reads one part of a key. -/
def simpleKey : Reader String :=
  basicString <|> literalString <|> (do
    let cs ← run isBare
    guard !cs.isEmpty
    return String.ofList cs)

/-- Reads a key with the dots between its parts. -/
def key : Reader (List String) := do
  blanks
  let first ← simpleKey
  let rest ← many do
    blanks
    literal "."
    blanks
    simpleKey
  blanks
  return first :: rest

/-! ### Numbers and moments -/

/-- The digits of a text in which single underscores stand between digits. -/
def plainDigits? (isDigit : Char → Bool) (cs : List Char) : Option (List Char) :=
  let pieces := cs.splitOn '_'
  if pieces.all fun p => !p.isEmpty && p.all isDigit then some pieces.flatten else none

/-- The amount of digits in a base. -/
def digitsValue (base : Nat) (cs : List Char) : Nat :=
  cs.foldl (fun n c => base * n + ((hexValue? c).getD 0)) 0

/-- Decimal digits without a leading zero. -/
def wholeDigits? (cs : List Char) : Option (List Char) := do
  let digits ← plainDigits? Char.isDigit cs
  guard (digits.length == 1 || digits.head? != some '0')
  return digits

/-- Splits a sign off. -/
def signed (cs : List Char) : Bool × List Char :=
  match cs with
  | '-' :: rest => (true, rest)
  | '+' :: rest => (false, rest)
  | _ => (false, cs)

/-- The integer a text is, if it fits into 64 bits. -/
def integer? (cs : List Char) : Option Int := do
  let value : Int ← match cs with
    | '0' :: 'x' :: rest => do
        let digits ← plainDigits? (hexValue? · |>.isSome) rest
        pure (digitsValue 16 digits : Int)
    | '0' :: 'o' :: rest => do
        let digits ← plainDigits? (fun c => '0' ≤ c && c ≤ '7') rest
        pure (digitsValue 8 digits : Int)
    | '0' :: 'b' :: rest => do
        let digits ← plainDigits? (fun c => c == '0' || c == '1') rest
        pure (digitsValue 2 digits : Int)
    | _ => do
        let (negative, rest) := signed cs
        let digits ← wholeDigits? rest
        let n : Int := digitsValue 10 digits
        pure (if negative then -n else n)
  guard (-0x8000000000000000 ≤ value && value < 0x8000000000000000)
  return value

/-- The double nearest to `digits · 10 ^ exponent`. Amounts that no double comes
near are not computed in full. -/
def scaled (digits : Nat) (exponent : Int) : Float :=
  if digits == 0 || exponent < -400 - (Nat.toDigits 10 digits).length then 0.0
  else if 400 < exponent then 1.0 / 0.0
  else Float.ofScientific digits (exponent < 0) exponent.natAbs

/-- The double a text is. An amount above all doubles is none; one below them is
infinite. -/
def float? (cs : List Char) : Option Float := do
  let (negative, rest) := signed cs
  let sign (x : Float) : Float := if negative then -x else x
  if rest == "inf".toList then return sign (1.0 / 0.0)
  if rest == "nan".toList then return sign (0.0 / 0.0)
  let mantissa := rest.takeWhile fun c => c != 'e' && c != 'E'
  let tail := rest.drop mantissa.length
  let whole ← wholeDigits? (mantissa.takeWhile (· != '.'))
  let fraction ← match mantissa.dropWhile (· != '.') with
    | [] => some []
    | _ :: digits => plainDigits? Char.isDigit digits
  let exponent : Int ← match tail with
    | [] => some 0
    | _ :: digits => do
        let (negative, digits) := signed digits
        let digits ← plainDigits? Char.isDigit digits
        let n : Int := digitsValue 10 digits
        pure (if negative then -n else n)
  guard (mantissa.contains '.' || !tail.isEmpty)
  let value := scaled (digitsValue 10 (whole ++ fraction)) (exponent - fraction.length)
  guard (value.isFinite || negative)
  return sign value

/-- Two digits as a number within bounds. -/
def twoDigits? (low high : Nat) (cs : List Char) : Option (List Char) := do
  let digits := cs.take 2
  guard (digits.length == 2 && digits.all Char.isDigit)
  let n := digitsValue 10 digits
  guard (low ≤ n && n ≤ high)
  return cs.drop 2

/-- Drops one given character. -/
def dropChar? (p : Char → Bool) (cs : List Char) : Option (List Char) :=
  match cs with
  | c :: rest => if p c then some rest else none
  | [] => none

/-- The number of days of a month. -/
def daysIn (year month : Nat) : Nat :=
  if month == 2 then
    if year % 4 == 0 && (year % 100 != 0 || year % 400 == 0) then 29 else 28
  else if [4, 6, 9, 11].contains month then 30
  else 31

/-- Drops a date from the front. -/
def dropDate? (cs : List Char) : Option (List Char) := do
  let year := cs.take 4
  guard (year.length == 4 && year.all Char.isDigit)
  let rest ← dropChar? (· == '-') (cs.drop 4)
  let month := digitsValue 10 (rest.take 2)
  let rest ← twoDigits? 1 12 rest
  let rest ← dropChar? (· == '-') rest
  twoDigits? 1 (daysIn (digitsValue 10 year) month) rest

/-- Drops a time of day from the front. -/
def dropTime? (cs : List Char) : Option (List Char) := do
  let rest ← twoDigits? 0 23 cs
  let rest ← dropChar? (· == ':') rest
  let rest ← twoDigits? 0 59 rest
  let rest ← dropChar? (· == ':') rest
  let rest ← twoDigits? 0 60 rest
  match rest with
  | '.' :: fraction =>
      guard ((fraction.head?).any Char.isDigit)
      return fraction.dropWhile Char.isDigit
  | _ => return rest

/-- Drops the offset of a time zone from the front, if there is one. -/
def dropOffset? (cs : List Char) : Option (List Char) :=
  match cs with
  | 'Z' :: rest => some rest
  | 'z' :: rest => some rest
  | c :: rest =>
      if c == '+' || c == '-' then do
        let rest ← twoDigits? 0 23 rest
        let rest ← dropChar? (· == ':') rest
        twoDigits? 0 59 rest
      else some cs
  | [] => some []

/-- Reads a date, a time, or both. -/
def moment : Reader Toml := do
  let cs ← get
  match dropDate? cs with
  | some rest =>
      let timed : Option (List Char) := do
        let rest ← dropChar? (fun c => c == 'T' || c == 't' || c == ' ') rest
        let rest ← dropTime? rest
        dropOffset? rest
      set (timed.getD rest)
      return .moment
  | none =>
      match dropTime? cs with
      | some rest =>
          set rest
          return .moment
      | none => failure

/-- Reads a number. -/
def number : Reader Toml := do
  let cs ← run fun c => c.isAlphanum || c == '_' || c == '+' || c == '-' || c == '.'
  match integer? cs with
  | some n => return .integer n
  | none =>
      match float? cs with
      | some x => return .float x
      | none => failure

/-! ### Values -/

/-- Reads a value that is neither an array nor a table. -/
def scalar : Reader Toml := do
  match ← peek? with
  | some '"' => .string <$> (longBasicString <|> basicString)
  | some '\'' => .string <$> (longLiteralString <|> literalString)
  | some 't' => do literal "true"; return .boolean true
  | some 'f' => do literal "false"; return .boolean false
  | _ => moment <|> number

/-- Reads an array of the values that `item` reads. A comma may follow the last
one. -/
def arrayOf (item : Reader Toml) : Reader Toml := do
  literal "["
  gap
  let first ← optionally item
  let rest ← many do
    guard first.isSome
    gap
    literal ","
    gap
    item
  gap
  let _ ← optionally do
    guard first.isSome
    literal ","
  gap
  literal "]"
  return .array (first.toList ++ rest)

/-- Reads one key of a table in braces with the value that `item` reads. -/
def inlineEntry (item : Reader Toml) : Reader (List String × Toml) := do
  let path ← key
  literal "="
  blanks
  let v ← item
  blanks
  return (path, v)

/-- Reads a table in braces. It stands on one line, and no comma follows its last
entry. -/
def inlineTableOf (item : Reader Toml) : Reader Toml := do
  literal "\x7b"
  let first ← optionally (inlineEntry item)
  let rest ← many do
    guard first.isSome
    literal ","
    inlineEntry item
  blanks
  literal "\x7d"
  match (first.toList ++ rest).foldlM (fun es (path, v) => setDotted v path es) [] with
  | some entries => return .table .inline entries
  | none => failure

/-- Reads a value; arrays and tables in braces nest at most `depth` deep. -/
def value : Nat → Reader Toml
  | 0 => scalar
  | depth + 1 => do
      match ← peek? with
      | some '[' => arrayOf (value depth)
      | some '\x7b' => inlineTableOf (value depth)
      | _ => scalar

/-- How deep arrays and tables in braces may nest. -/
def depthLimit : Nat := 79

/-! ### Documents -/

/-- A document being read: its entries and the path of the open table. -/
structure Document where
  entries : List (String × Toml) := []
  path : List String := []

/-- Reads one line of a document. -/
def line (d : Document) : Reader Document := do
  blanks
  match ← peek? with
  | some '[' =>
      let repeated := (← optionally (literal "[[")).isSome
      if !repeated then literal "["
      let path ← key
      literal (if repeated then "]]" else "]")
      lineEnd
      match path.getLast? with
      | none => failure
      | some last =>
          let opened := if repeated then openElement last else openTable last
          match changeAt opened path.dropLast d.entries with
          | some entries => return { entries, path }
          | none => failure
  | _ =>
      let path ← key
      literal "="
      blanks
      let item ← value depthLimit
      lineEnd
      match changeAt (setDotted item path) d.path d.entries with
      | some entries => return { d with entries }
      | none => failure

/-- Reads lines until the text ends, at most `fuel` of them. -/
def document : Nat → Document → Reader Document
  | 0, _ => failure
  | fuel + 1, d => do
      gap
      if (← get).isEmpty then return d
      document fuel (← line d)

end Reader

/-- Reads a document. A byte order mark at the start is skipped. -/
def parse? (text : String) : Option (List (String × Toml)) :=
  let cs := match text.toList with
    | '\uFEFF' :: rest => rest
    | cs => cs
  (Reader.document (cs.length + 1) {} cs).map (·.1.entries)

end CallAtlas.Toml
