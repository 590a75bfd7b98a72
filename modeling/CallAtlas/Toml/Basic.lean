/-!
# TOML documents

The values of the format that settings are written in. A table remembers how it
came to be, because that decides which later lines may still add to it.
-/

namespace CallAtlas

/-- How a table came to be. -/
inductive TableOrigin where
  /-- As a part of the path of a longer header. -/
  | implied
  /-- By a header of its own. -/
  | header
  /-- By a dotted key. -/
  | dotted
  /-- Written in braces, complete as it stands. -/
  | inline
deriving DecidableEq, Repr, Inhabited

/-- A TOML value. -/
inductive Toml where
  | string (value : String)
  | integer (value : Int)
  | float (value : Float)
  | boolean (value : Bool)
  /-- A date, a time, or both. No setting holds one. -/
  | moment
  | array (items : List Toml)
  | table (origin : TableOrigin) (entries : List (String × Toml))
  /-- Tables under one repeated header. -/
  | tables (elements : List (List (String × Toml)))
deriving Inhabited

namespace Toml

/-- The value of a key. -/
def lookup (key : String) (entries : List (String × Toml)) : Option Toml :=
  (entries.find? (·.1 == key)).map (·.2)

/-- The entries with one key's value replaced. -/
def replace (key : String) (value : Toml) (entries : List (String × Toml)) :
    List (String × Toml) :=
  entries.map fun e => if e.1 == key then (key, value) else e

/-- Changes the last item of a list. -/
def changeLast {α : Type} (f : α → Option α) : List α → Option (List α)
  | [] => none
  | [a] => (f a).map ([·])
  | a :: rest => (changeLast f rest).map (a :: ·)

/-- Changes the table at the end of a header's path, making the tables on the way
as needed. A path leads through the last element of repeated tables and through
no finished value. -/
def changeAt (f : List (String × Toml) → Option (List (String × Toml))) :
    List String → List (String × Toml) → Option (List (String × Toml))
  | [], entries => f entries
  | key :: path, entries =>
      match lookup key entries with
      | none => (changeAt f path []).map fun sub => entries ++ [(key, .table .implied sub)]
      | some (.table .inline _) => none
      | some (.table origin sub) =>
          (changeAt f path sub).map fun sub => replace key (.table origin sub) entries
      | some (.tables elements) =>
          (changeLast (changeAt f path) elements).map fun elements =>
            replace key (.tables elements) entries
      | some _ => none

/-- Opens the table of a header whose last key is given. A table can be opened
once, and only if no dotted key made it. -/
def openTable (key : String) (entries : List (String × Toml)) : Option (List (String × Toml)) :=
  match lookup key entries with
  | none => some (entries ++ [(key, .table .header [])])
  | some (.table .implied sub) => some (replace key (.table .header sub) entries)
  | some _ => none

/-- Starts a new element of the repeated tables of a header whose last key is
given. -/
def openElement (key : String) (entries : List (String × Toml)) : Option (List (String × Toml)) :=
  match lookup key entries with
  | none => some (entries ++ [(key, .tables [[]])])
  | some (.tables elements) => some (replace key (.tables (elements ++ [[]])) entries)
  | some _ => none

/-- Sets the value of a dotted key. The table that gets it must be one that dotted
keys made, and the last key must be new. Tables that a longer header implied, or
repeated ones, may only be passed through. -/
def setDotted (value : Toml) : List String → List (String × Toml) → Option (List (String × Toml))
  | [], _ => none
  | [key], entries =>
      match lookup key entries with
      | none => some (entries ++ [(key, value)])
      | some _ => none
  | key :: path, entries =>
      match lookup key entries with
      | none => (setDotted value path []).map fun sub => entries ++ [(key, .table .dotted sub)]
      | some (.table .dotted sub) =>
          (setDotted value path sub).map fun sub => replace key (.table .dotted sub) entries
      | some (.table .implied sub) =>
          if path.length < 2 then none
          else (setDotted value path sub).map fun sub => replace key (.table .implied sub) entries
      | some (.tables elements) =>
          if path.length < 2 then none
          else
            (changeLast (setDotted value path) elements).map fun elements =>
              replace key (.tables elements) entries
      | some _ => none

end Toml

end CallAtlas
