import SceneTemplates.Component.Tree
import SceneTemplates.Text.Base64

/-!
# Export

The form in which values and compiled templates are written as JSON. An expression becomes a
mapping with the single key `$`, a literal stands for what it holds, and bytes are Base64.
-/
namespace SceneTemplates

namespace Value

/-- The exported form of an expression. -/
def marker (source : Text) : Value := newMapping [("$", .text source)]

mutual

/-- The exported form of a value. -/
def exported : Value → Value
  | .dynamic _ source => marker source
  | .literal _ v => exported v
  | .mapping _ entries => newMapping (exportedEntries entries)
  | .list _ items => newList (exportedItems items)
  | .tuple items => newList (exportedItems items)
  | .bytes _ content => .text (Text.Base64.encode content)
  | v => v

def exportedItems : List Value → List Value
  | [] => []
  | v :: rest => exported v :: exportedItems rest

def exportedEntries : List (Text × Value) → List (Text × Value)
  | [] => []
  | (key, v) :: rest => (key, exported v) :: exportedEntries rest

end

end Value

namespace Tree

mutual

def exported : Tree → Value
  | .scalar v => v.exported
  | .dynamic source => Value.marker source
  | .literal content => exported content
  | .mapping entries => Value.newMapping (exportedEntries entries)
  | .sequence items => Value.newList (exportedItems items)
  | .component slots children _ =>
    Value.newMapping (exportedSlots (Value.newList (exportedItems children)) slots)

/-- The exported form of a slot, given that of the children. -/
def exportedSlot (children : Value) : Slot → Value
  | .tree t => exported t
  | .children => children

def exportedItems : List Tree → List Value
  | [] => []
  | t :: rest => exported t :: exportedItems rest

def exportedEntries : List (Text × Tree) → List (Text × Value)
  | [] => []
  | (key, t) :: rest => (key, exported t) :: exportedEntries rest

def exportedSlots (children : Value) : List (Text × Slot) → List (Text × Value)
  | [] => []
  | (key, slot) :: rest => (key, exportedSlot children slot) :: exportedSlots children rest

end

mutual

/-- The value of a tree that is not resolved. Components have their exported form. -/
def toValue : Tree → Value
  | .scalar v => v
  | .dynamic source => .dynamic .fresh source
  | .literal content => .literal .fresh (toValue content)
  | .mapping entries => Value.newMapping (entryValues entries)
  | .sequence items => Value.newList (itemValues items)
  | .component slots children line => exported (.component slots children line)

def itemValues : List Tree → List Value
  | [] => []
  | t :: rest => toValue t :: itemValues rest

def entryValues : List (Text × Tree) → List (Text × Value)
  | [] => []
  | (key, t) :: rest => (key, toValue t) :: entryValues rest

end

end Tree

def CompiledTemplate.exported (t : CompiledTemplate) : Value := t.toTree.exported

end SceneTemplates
