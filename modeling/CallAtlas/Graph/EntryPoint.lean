import CallAtlas.Graph.Basic
import CallAtlas.Text.Lowercase

/-!
# Entry points

An entry point is an entity that nobody calls and that, where the rule names
patterns, has one of them in its name or path, letter case aside.
-/

namespace CallAtlas

/-- What makes an entity an entry point. -/
inductive EntryPointRule where
  /-- Having no callers. -/
  | noCallers
  /-- Having no callers and a name or path that contains one of the patterns. -/
  | namedRoots (patterns : List String)
deriving DecidableEq, Repr, Inhabited

/-- Does a rule make this entity an entry point? -/
def EntryPointRule.accepts (rule : EntryPointRule) (e : Entity) : Bool :=
  e.inDegree == 0 &&
    match rule with
    | .noCallers => true
    | .namedRoots patterns =>
        let name := Text.lowercase e.name
        let path := Text.lowercase e.filePath
        patterns.any fun p =>
          let p := Text.lowercase p
          Text.contains name p || Text.contains path p

/-- The entry points of a graph, in order. -/
def Graph.entryPoints (g : Graph) (rule : EntryPointRule) : List Entity :=
  g.entities.toList.filter rule.accepts

end CallAtlas
