import CallAtlas.Script.Language
import CallAtlas.Script.Sweep

/-!
# Parsed files

A source file with its tree, and the two things that are taken from it: the
entities it defines and the calls it makes.
-/

namespace CallAtlas.Script

/-- A source file that has been read. -/
structure ParsedFile where
  /-- The path relative to the analysis root, with forward slashes. -/
  path : String
  group : String
  language : Language
  /-- The text that was read. -/
  source : String
  tree : Node
  /-- The hash of the text. -/
  contentHash : UInt64
deriving Inhabited

namespace ParsedFile

/-- The entity a visit finds, if it finds one. -/
def entityAt? (file : ParsedFile) (v : Visit) : Option Entity :=
  if v.node.kind.isFunctionLike then
    v.identity?.map fun identity =>
      Entity.make identity.name file.path file.group identity.kind identity.startLine
        v.node.endLine v.node.parameterTexts
  else none

/-- Takes the entity that a visit finds. -/
def takeEntity (file : ParsedFile) (found : Array Entity) (v : Visit) : Array Entity :=
  match file.entityAt? v with
  | some entity => found.push entity
  | none => found

/-- Every entity of a file in document order. Entities nest. -/
def entities (file : ParsedFile) : List Entity :=
  (file.tree.sweep file.takeEntity #[]).toList

/-- The id of the entity that an identity of this file belongs to. -/
def idOf (file : ParsedFile) (identity : Identity) : String :=
  Entity.makeId file.path identity.name identity.startLine

end ParsedFile

/-- One call whose callee has a static name. -/
structure CallSite where
  /-- The id of the innermost enclosing entity; top-level code has none. -/
  caller : Option String
  callee : String
  /-- The text of the object whose member is called. -/
  receiver : Option String
  line : Nat
deriving DecidableEq, Repr, Inhabited

/-- The static name of what a call calls, with the receiver of a member call. -/
def Node.callee? (call : Node) : Option (String × Option String) :=
  (call.child? .callee).bind fun callee =>
    match callee.kind with
    | .identifier => some (callee.text, none)
    | .memberExpression =>
        (callee.child? .property).bind fun property =>
          if property.kind = .propertyName ∨ property.kind = .privateName then
            some (property.text, (callee.child? .object).map text)
          else none
    | _ => none

namespace ParsedFile

/-- The call site a visit finds, if it finds one with a static name. -/
def callSiteAt? (file : ParsedFile) (v : Visit) : Option CallSite :=
  if v.node.kind = .callExpression then
    v.node.callee?.map fun (callee, receiver) =>
      { caller := v.enclosing.map file.idOf, callee, receiver, line := v.node.startLine }
  else none

/-- Is this a call whose callee has no static name? -/
def isDynamicCall (v : Visit) : Bool :=
  v.node.kind = .callExpression && v.node.callee?.isNone

/-- The calls that have been found. -/
structure FoundCalls where
  sites : Array CallSite := #[]
  /-- How many calls had a callee without a static name. -/
  dynamic : Nat := 0

/-- Takes the call that a visit finds. -/
def takeCall (file : ParsedFile) (found : FoundCalls) (v : Visit) : FoundCalls :=
  match file.callSiteAt? v with
  | some site => { found with sites := found.sites.push site }
  | none => if isDynamicCall v then { found with dynamic := found.dynamic + 1 } else found

/-- Every call of a file. -/
def foundCalls (file : ParsedFile) : FoundCalls := file.tree.sweep file.takeCall {}

/-- The calls of a file whose callee has a static name, in document order. -/
def callSites (file : ParsedFile) : List CallSite := file.foundCalls.sites.toList

/-- How many calls of a file have no static name. -/
def dynamicCalls (file : ParsedFile) : Nat := file.foundCalls.dynamic

end ParsedFile

end CallAtlas.Script
