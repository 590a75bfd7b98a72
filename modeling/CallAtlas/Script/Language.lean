import CallAtlas.Path

/-!
# Script languages

The three grammars a source file can be read with, and how a file's name
chooses one of them. TypeScript files have types and no markup, TSX files have
both, and JavaScript files have markup and no types.
-/

namespace CallAtlas.Script

/-- The grammar a source file is read with. -/
inductive Language where
  | typeScript
  | tsx
  | javaScript
deriving DecidableEq, Repr, Inhabited

namespace Language

/-- The language's name in reports. -/
def name : Language → String
  | typeScript => "typescript"
  | tsx => "tsx"
  | javaScript => "javascript"

/-- The language's name with capitals, as it stands in a file's description. -/
def title : Language → String
  | typeScript => "TypeScript"
  | tsx => "Tsx"
  | javaScript => "JavaScript"

/-- Reads a language back from its name. -/
def ofName? : String → Option Language
  | "typescript" => some typeScript
  | "tsx" => some tsx
  | "javascript" => some javaScript
  | _ => none

/-- May type annotations stand in this language? -/
def hasTypes : Language → Bool
  | typeScript => true
  | tsx => true
  | javaScript => false

/-- May markup elements stand in this language's expressions? -/
def hasMarkup : Language → Bool
  | typeScript => false
  | tsx => true
  | javaScript => true

/-- The language of a file extension. Capitals of the ASCII alphabet do not
matter. -/
def ofExtension? (extension : String) : Option Language :=
  match extension.map Char.toLower with
  | "ts" | "mts" | "cts" => some typeScript
  | "tsx" => some tsx
  | "js" | "jsx" | "mjs" | "cjs" => some javaScript
  | _ => none

/-- The language of a path, by the extension of its last component. -/
def ofPath? (path : String) : Option Language :=
  (Path.extension? path).bind ofExtension?

theorem ofName?_name (l : Language) : ofName? l.name = some l := by
  cases l <;> rfl

end Language

end CallAtlas.Script
