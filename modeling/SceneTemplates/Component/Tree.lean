import SceneTemplates.Component.Basic

/-!
# Trees

What can be resolved and written out: mappings and sequences that hold expressions, values and
components at any depth. A component is the mapping of its slots: its kind, its condition, its
identifier, its attributes and its children, in this order. An attribute may take over a slot that
comes before it, and its children are kept beside the slots.
-/
namespace SceneTemplates

mutual

/-- A tree of attributes and values. -/
inductive Tree where
  /-- A value that stays as it is. -/
  | scalar (v : Value)
  /-- An expression by its source. -/
  | dynamic (source : Text)
  /-- What stands for itself and is not resolved. -/
  | literal (content : Tree)
  | mapping (entries : List (Text × Tree))
  | sequence (items : List Tree)
  /-- A mapping of slots with the children beside it, and the line for errors in it. -/
  | component (slots : List (Text × Slot)) (children : List Tree) (line : Option Int)

/-- What a slot of a component holds. -/
inductive Slot where
  | tree (t : Tree)
  /-- The children of the component. -/
  | children

end

instance : Inhabited Tree := ⟨.scalar .null⟩

namespace Tree

def text (t : Text) : Tree := .scalar (.text t)

/-- Whether a tree can be left out of a sequence because of a test of its own. -/
def isPrunable : Tree → Bool
  | .mapping _ => true
  | .component _ _ _ => true
  | _ => false

end Tree

namespace Slot

/-- Stores a tree in a slot; one that is missing changes nothing. -/
def putOptional (key : Text) (t : Option Tree) (slots : Entries Slot) : Entries Slot :=
  match t with
  | some t => Entries.put key (.tree t) slots
  | none => slots

/-- Stores trees in slots, one after the other. -/
def putAll (fields : Entries Tree) (slots : Entries Slot) : Entries Slot :=
  fields.foldl (fun stored field => Entries.put field.1 (.tree field.2) stored) slots

/-- The slots of a component. -/
def ofComponent (kind : ComponentKind) (cond id : Option Tree) (fields : Entries Tree) :
    Entries Slot :=
  let named : Entries Slot := [("kind", .tree (.text kind.tag))]
  let slots := putAll fields (putOptional "id" id (putOptional "cond" cond named))
  if kind.isContainer then Entries.put "children" .children slots else slots

end Slot

def Attribute.toTree : Attribute → Tree
  | .literal v => .literal (.scalar v)
  | .dynamic source => .dynamic source

def Attribute.toTrees (fields : Entries Attribute) : Entries Tree :=
  fields.map fun field => (field.1, field.2.toTree)

namespace Component

def slots (c : Component) : Entries Slot :=
  Slot.ofComponent c.kind (c.cond.map .scalar) (c.id.map Attribute.toTree)
    (Attribute.toTrees c.fields)

mutual

def toTree : Component → Tree
  | ⟨kind, id, fields, children, cond, line⟩ =>
    .component (Component.mk kind id fields [] cond line).slots (toTrees children) line

def toTrees : List Component → List Tree
  | [] => []
  | c :: rest => toTree c :: toTrees rest

end

end Component

namespace Effect

/-- An entry that is there only if the attribute is. -/
def optionalEntry (key : Text) : Option Attribute → Entries Tree
  | some a => [(key, a.toTree)]
  | none => []

def entries : Effect → Entries Tree
  | .transition component duration easing start finish =>
    let named : Entries Tree := [("type", .text "transition"), ("component", .text component)]
    named ++ optionalEntry "duration" duration ++ optionalEntry "easing" easing ++
      optionalEntry "from" start ++ optionalEntry "to" finish
  | .override component values =>
    Entries.putAll (Attribute.toTrees values)
      [("type", .text "override"), ("component", .text component)]
  | .typing component duration =>
    [("type", .text "effect"), ("name", .text typingName), ("component", .text component),
     ("duration", .scalar (.number duration))]

def toTree (e : Effect) : Tree := .mapping e.entries

end Effect

def Phase.toTree (p : Phase) : Tree :=
  .mapping [("name", .text p.name), ("effects", .sequence (p.effects.map Effect.toTree))]

def CompiledTemplate.toTree (t : CompiledTemplate) : Tree :=
  .mapping [("root", t.root.toTree), ("phases", .sequence (t.phases.map Phase.toTree))]

end SceneTemplates
