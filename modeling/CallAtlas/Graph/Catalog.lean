import CallAtlas.Entity
import CallAtlas.Graph.Index

/-!
# Catalogs of entities

The entities of an analysis are collected in an **arena** before any call is looked
at. The first entity with an id is kept and later ones are only counted. The arena is
then frozen into a **catalog**, where an entity is known by its position and is found
by its id or by its name.

Arenas and catalogs carry the indexes they are searched by, and the proof that these
were filled from their entities.
-/

namespace CallAtlas

/-- Entities with distinct ids, in the order they came. -/
structure Arena where
  entities : Array Entity := #[]
  byId : IdIndex := {}
  /-- How many entities were dropped because their id was taken. -/
  duplicates : Nat := 0
  byId_eq : byId = .ofIds (entities.toList.map Entity.id)
deriving Repr

namespace Arena

/-- The arena without entities. -/
def empty : Arena := { byId_eq := IdIndex.empty_eq }

instance : Inhabited Arena := ⟨empty⟩

/-- Is there an entity with this id? -/
def contains (a : Arena) (id : String) : Bool := (a.byId.find? id).isSome

/-- The number of entities kept. -/
def size (a : Arena) : Nat := a.entities.size

/-- Adds an entity, unless its id is taken. -/
def insert (a : Arena) (e : Entity) : Arena :=
  if a.contains e.id then { a with duplicates := a.duplicates + 1 }
  else
    { a with
      entities := a.entities.push e
      byId := a.byId.insert e.id a.size
      byId_eq := by simp [a.byId_eq, size, IdIndex.ofIds_concat] }

/-- Adds entities one after the other. -/
def insertAll (a : Arena) (es : List Entity) : Arena := es.foldl insert a

/-- The arena of a list of entities. -/
def ofList (es : List Entity) : Arena := empty.insertAll es

end Arena

/-- The entities of an analysis, found by position, id and name. -/
structure Catalog where
  entities : Array Entity
  byId : IdIndex
  byName : NameIndex
  byId_eq : byId = .ofIds (entities.toList.map Entity.id)
  byName_eq : byName = .ofNames (entities.toList.map Entity.name)
deriving Repr

/-- The catalog of the entities collected, which are now also indexed by name. -/
def Arena.freeze (a : Arena) : Catalog where
  entities := a.entities
  byId := a.byId
  byName := .ofNames (a.entities.toList.map Entity.name)
  byId_eq := a.byId_eq
  byName_eq := rfl

namespace Catalog

instance : Inhabited Catalog := ⟨Arena.empty.freeze⟩

/-- The catalog of a list of entities. -/
def ofList (es : List Entity) : Catalog := (Arena.ofList es).freeze

/-- The number of entities kept. -/
def size (c : Catalog) : Nat := c.entities.size

/-- The entity at a position. -/
def get? (c : Catalog) (i : Nat) : Option Entity := c.entities[i]?

/-- The position of the entity with an id. -/
def indexOf? (c : Catalog) (id : String) : Option Nat := c.byId.find? id

/-- The positions of the entities with a name, in order. -/
def named (c : Catalog) (name : String) : List Nat := c.byName.positions name

end Catalog

end CallAtlas
