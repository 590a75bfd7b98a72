import CallAtlas.Failure
import CallAtlas.Graph.Catalog

/-!
# The call graph

Entities are nodes, known by their position; a **link** joins a caller to a
callee and remembers the first line of such a call. There is at most one link
for an ordered pair, and the degrees stored in the entities count the links.

Links are kept in the order they were made. The neighbours of a node come newest
link first, in both directions. Entities are found by id and by name through the
indexes of the graph, which are filled when its entities are added.
-/

namespace CallAtlas

/-- A caller and a callee by position, and the line of the first call. -/
structure Link where
  source : Nat
  target : Nat
  line : Nat
deriving DecidableEq, Repr, Inhabited

/-- A caller and a callee by id, and the line of the first call. -/
structure Edge where
  source : String
  target : String
  line : Nat
deriving DecidableEq, Repr, Inhabited

/-- The order of edges: by caller, then callee, then line. -/
def Edge.order (a b : Edge) : Ordering :=
  (compare a.source b.source).then ((compare a.target b.target).then (compare a.line b.line))

/-- Which way links are followed. -/
inductive Direction where
  /-- Towards callers. -/
  | upstream
  /-- Towards callees. -/
  | downstream
deriving DecidableEq, Repr, Inhabited

/-- Changing an item in what `key` does not read leaves the keys as they are. -/
theorem map_modify_of_eq {α β : Type} {key : α → β} {f : α → α} (h : ∀ a, key (f a) = key a)
    (as : Array α) (i : Nat) : (as.modify i f).toList.map key = as.toList.map key := by
  apply List.ext_getElem?
  intro j
  rw [Array.toList_modify, List.getElem?_map, List.getElem?_modify, List.getElem?_map]
  split <;> simp [Function.comp_def, h]

/-- A directed graph of calls, with the indexes of its entities and the proof that
these are in step with them. -/
structure Graph where
  entities : Array Entity := #[]
  /-- In the order they were made. -/
  links : Array Link := #[]
  byId : IdIndex := {}
  byName : NameIndex := {}
  byId_eq : byId = .ofIds (entities.toList.map Entity.id)
  byName_eq : byName = .ofNames (entities.toList.map Entity.name)
deriving Repr

namespace Graph

/-- The graph without entities. -/
def empty : Graph := { byId_eq := IdIndex.empty_eq, byName_eq := NameIndex.empty_eq }

instance : Inhabited Graph := ⟨empty⟩

/-- Adds an entity that has no calls yet, and puts its position into both indexes. -/
def addNode (g : Graph) (e : Entity) : Graph where
  entities := g.entities.push e.unlinked
  links := g.links
  byId := g.byId.insert e.id g.entities.size
  byName := g.byName.push e.name g.entities.size
  byId_eq := by simp [g.byId_eq, Entity.unlinked, IdIndex.ofIds_concat]
  byName_eq := by simp [g.byName_eq, Entity.unlinked, NameIndex.ofNames_concat]

/-- The graph of a catalog's entities, without any link. -/
def ofCatalog (c : Catalog) : Graph := c.entities.foldl addNode empty

/-- The number of entities. -/
def entityCount (g : Graph) : Nat := g.entities.size

/-- The number of links. -/
def edgeCount (g : Graph) : Nat := g.links.size

/-- Are there no entities? -/
def isEmpty (g : Graph) : Bool := g.entities.isEmpty

/-- The position of the entity with an id. -/
def indexOf? (g : Graph) (id : String) : Option Nat := g.byId.find? id

/-- Is there an entity with this id? -/
def contains (g : Graph) (id : String) : Bool := (g.indexOf? id).isSome

/-- The entity at a position; past the end it is an empty one. -/
def node (g : Graph) (i : Nat) : Entity := (g.entities[i]?).getD default

/-- The entity with an id. -/
def entity? (g : Graph) (id : String) : Option Entity := (g.indexOf? id).map g.node

/-- The position of the entity with an id, which is known to callers by that id
only. -/
def locate (g : Graph) (id : String) : Except GraphFailure Nat :=
  match g.indexOf? id with
  | some i => .ok i
  | none => .error (.entityNotFound id)

/-- The entity with an id, or why there is none. -/
def get (g : Graph) (id : String) : Except GraphFailure Entity :=
  match g.entity? id with
  | some e => .ok e
  | none => .error (.entityNotFound id)

/-- The entities with a name, in order. -/
def named (g : Graph) (name : String) : List Entity := (g.byName.positions name).map g.node

/-- The entities of a group, in order. -/
def inGroup (g : Graph) (group : String) : List Entity :=
  g.entities.toList.filter (·.group == group)

/-- Is there a link from one position to another? -/
def linked (g : Graph) (source target : Nat) : Bool :=
  g.links.any fun l => l.source == source && l.target == target

/-- The neighbours of a position, newest link first. -/
def neighbours (g : Graph) (direction : Direction) (i : Nat) : List Nat :=
  match direction with
  | .downstream => (g.links.toList.reverse.filter (·.source == i)).map (·.target)
  | .upstream => (g.links.toList.reverse.filter (·.target == i)).map (·.source)

/-- Changes the entity at a position. Its id and its name stay, so the indexes do. -/
def modifyNode (g : Graph) (i : Nat) (f : Entity → Entity)
    (h : ∀ e, (f e).id = e.id ∧ (f e).name = e.name) : Graph :=
  { g with
    entities := g.entities.modify i f
    byId_eq := by rw [map_modify_of_eq fun e => (h e).1]; exact g.byId_eq
    byName_eq := by rw [map_modify_of_eq fun e => (h e).2]; exact g.byName_eq }

/-- Links two positions, unless they are linked, and keeps the degrees in step.
An existing link keeps its line. -/
def link (g : Graph) (source target line : Nat) : Graph :=
  if g.linked source target then g
  else
    let g := { g with links := g.links.push ⟨source, target, line⟩ }
    let g := g.modifyNode source (fun e => { e with outDegree := e.outDegree + 1 })
      fun _ => ⟨rfl, rfl⟩
    g.modifyNode target (fun e => { e with inDegree := e.inDegree + 1 }) fun _ => ⟨rfl, rfl⟩

/-- Links two entities by id. Says whether the link is new. -/
def insertEdge (g : Graph) (source target : String) (line : Nat) :
    Except GraphFailure (Graph × Bool) := do
  let s ← g.locate source
  let t ← g.locate target
  return (g.link s t line, !g.linked s t)

/-- Is one entity linked to another? -/
def hasEdge (g : Graph) (source target : String) : Bool :=
  match g.indexOf? source, g.indexOf? target with
  | some s, some t => g.linked s t
  | _, _ => false

/-- Positions in the order of their entities' ids. -/
def sortedById (g : Graph) (is : List Nat) : List Nat :=
  is.mergeSort fun i j => (compare (g.node i).id (g.node j).id).isLE

/-- The direct neighbours of an entity, by id. -/
def adjacent (g : Graph) (direction : Direction) (id : String) :
    Except GraphFailure (List Entity) := do
  let i ← g.locate id
  return (g.sortedById (g.neighbours direction i)).map g.node

/-- What an entity calls directly, by id. -/
def callees (g : Graph) (id : String) : Except GraphFailure (List Entity) :=
  g.adjacent .downstream id

/-- What calls an entity directly, by id. -/
def callers (g : Graph) (id : String) : Except GraphFailure (List Entity) :=
  g.adjacent .upstream id

/-- The edge a link stands for. -/
def edgeOf (g : Graph) (l : Link) : Edge :=
  { source := (g.node l.source).id, target := (g.node l.target).id, line := l.line }

/-- All edges in order. -/
def edges (g : Graph) : List Edge :=
  (g.links.toList.map g.edgeOf).mergeSort fun a b => (a.order b).isLE

end Graph

/-- A list without the items that equal the one before them. -/
def dedupSorted {α : Type} [BEq α] : List α → List α
  | [] => []
  | [a] => [a]
  | a :: b :: rest => if a == b then dedupSorted (b :: rest) else a :: dedupSorted (b :: rest)

/-- The distinct texts of a list, in order. -/
def distinctSorted (ss : List String) : List String :=
  dedupSorted (ss.mergeSort fun a b => (compare a b).isLE)

/-- The distinct groups of a graph, in order. -/
def Graph.groups (g : Graph) : List String :=
  distinctSorted (g.entities.toList.map (·.group))

end CallAtlas
