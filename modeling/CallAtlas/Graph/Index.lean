/-!
# Finding entities by id and by name

Entities stand in an array and are known by their position. An **index** leads from
a text to positions: the index of ids from an id to one position, the index of names
from a name to all of its positions. Both are filled entry by entry while entities
are added, and a search never looks at the entities themselves.
-/

namespace CallAtlas

/-- From ids to positions. The latest entry of an id stands first, and counts. -/
structure IdIndex where
  entries : List (String × Nat) := []
deriving DecidableEq, Repr, Inhabited

namespace IdIndex

/-- The position under an id. -/
def find? (index : IdIndex) (id : String) : Option Nat := index.entries.lookup id

/-- Puts a position under an id, in the place of an earlier one. -/
def insert (index : IdIndex) (id : String) (i : Nat) : IdIndex :=
  { entries := (id, i) :: index.entries }

/-- The index of the ids that stand at the positions 0, 1, 2 and so on. -/
def ofIds (ids : List String) : IdIndex :=
  ids.zipIdx.foldl (fun index (id, i) => index.insert id i) {}

theorem empty_eq : ({} : IdIndex) = ofIds [] := rfl

theorem ofIds_concat (ids : List String) (id : String) :
    ofIds (ids ++ [id]) = (ofIds ids).insert id ids.length := by
  simp [ofIds, List.zipIdx_append]

end IdIndex

/-- From names to positions. The latest entry of a name stands first, and counts. -/
structure NameIndex where
  entries : List (String × List Nat) := []
deriving DecidableEq, Repr, Inhabited

namespace NameIndex

/-- The positions under a name, in the order they were added. -/
def positions (index : NameIndex) (name : String) : List Nat :=
  (index.entries.lookup name).getD []

/-- Adds a position to those under a name. -/
def push (index : NameIndex) (name : String) (i : Nat) : NameIndex :=
  { entries := (name, index.positions name ++ [i]) :: index.entries }

/-- The index of the names that stand at the positions 0, 1, 2 and so on. -/
def ofNames (names : List String) : NameIndex :=
  names.zipIdx.foldl (fun index (name, i) => index.push name i) {}

theorem empty_eq : ({} : NameIndex) = ofNames [] := rfl

theorem ofNames_concat (names : List String) (name : String) :
    ofNames (names ++ [name]) = (ofNames names).push name names.length := by
  simp [ofNames, List.zipIdx_append]

end NameIndex

end CallAtlas
