import SceneTemplates.Number.IntegerText
import SceneTemplates.Template.Node

/-!
# Nodes read from data

A markup parser gives its tree as data: a node is a mapping whose `type` says what it is. Every
value is read once for all places where it can stand, from the leaves up, and a node picks the
readings of the keys that its type has.
-/
namespace SceneTemplates

/-- Why a value is no node. -/
inductive NodeFault where
  /-- A mapping lacks a key that its type requires. -/
  | missingKey (key : Text)
  /-- A value of a wrong kind stands where a node, a list or a line belongs. -/
  | malformed
  deriving DecidableEq

/-- What a value reads as in the places where it can stand. -/
structure Reading where
  value : Value
  node : Except NodeFault Node
  /-- As a block; null is the empty one. -/
  block : Except NodeFault Block
  /-- As a list of nodes. -/
  nodes : Except NodeFault (List Node)

namespace Reading

/-- The line a value denotes: an integer, a number without its fraction, or digits. -/
def lineOf (v : Option Value) : Except NodeFault Int :=
  match v with
  | none => .ok 0
  | some v =>
    if !v.isGiven then .ok 0
    else
      match v with
      | .bool _ => .ok 1
      | .number (.int n) => .ok n
      | .number (.double x) =>
        match x.toRat? with
        | some q => .ok (Double.truncateRat q)
        | none => .error .malformed
      | .text t =>
        match IntegerText.value? t with
        | some n => .ok n
        | none => .error .malformed
      | .bytes _ content =>
        match IntegerText.value? (content.map UInt8.toNat) with
        | some n => .ok n
        | none => .error .malformed
      | _ => .error .malformed

/-- The members of a value that stands for a list. -/
def listOf : Option Value → Except NodeFault (List Value)
  | none => .ok []
  | some (.list _ items) => .ok items
  | some (.text []) | some (.mapping _ []) | some (.bytes _ []) => .ok []
  | some _ => .error .malformed

/-- The value under a key that has to be there. -/
def required (key : Text) (v : Option Value) : Except NodeFault Value :=
  match v with
  | some v => .ok v
  | none => .error (.missingKey key)

def attributeOf : Value → Except NodeFault TagAttribute
  | .mapping _ entries => do
    let name ← required "name" (Entries.get? "name" entries)
    let line ← lineOf (Entries.get? "line" entries)
    return ⟨name, (Entries.get? "val" entries).getD .null, line⟩
  | _ => .error .malformed

/-- The readings of the values of a mapping. -/
abbrev Fields := Entries Reading

namespace Fields

def value? (fields : Fields) (key : Text) : Option Value :=
  (Entries.get? key fields).map Reading.value

/-- The reading of a value that is there and not null. -/
def present? (fields : Fields) (key : Text) : Option Reading := do
  let r ← Entries.get? key fields
  let _ ← r.value.nonNull?
  return r

def line (fields : Fields) : Except NodeFault Int := lineOf (fields.value? "line")

/-- The block under a key; a missing one is empty. -/
def block (fields : Fields) (key : Text) : Except NodeFault Block :=
  match Entries.get? key fields with
  | some r => r.block
  | none => .ok Block.empty

/-- The mapping itself as a block. -/
def asBlock (fields : Fields) : Except NodeFault Block := do
  let nodes ←
    match Entries.get? "nodes" fields with
    | some r => r.nodes
    | none => pure []
  return ⟨nodes, ← fields.line⟩

def asTag (fields : Fields) : Except NodeFault Node := do
  let name ← required "name" (fields.value? "name")
  let attrs ← (← listOf (fields.value? "attrs")).mapM attributeOf
  let block ← fields.block "block"
  return .tag name attrs block (← fields.line)

def asMixin (fields : Fields) : Except NodeFault Node := do
  let name ← required "name" (fields.value? "name")
  let isCall := (fields.value? "call").any Value.isGiven
  let block ←
    match Entries.get? "block" fields with
    | some r => if r.value.isGiven then r.block.map some else pure none
    | none => pure none
  let args := (fields.value? "args").getD .null
  return .mixin name isCall block args (← fields.line)

def asConditional (fields : Fields) : Except NodeFault Node := do
  let alternate ←
    match fields.present? "alternate" with
    | some r => r.node.map some
    | none => pure none
  let test ← required "test" (fields.value? "test")
  let consequent ← fields.block "consequent"
  return .conditional test consequent alternate (← fields.line)

/-- What a text node or a comment holds. -/
def content (fields : Fields) : Value := (fields.value? "val").getD (.text [])

/-- The mapping as a node, by its type. -/
def asNode (fields : Fields) : Except NodeFault Node := do
  let type := (fields.value? "type").getD .null
  let name := type.display
  if !(match type with | .text _ => true | _ => false) then
    return .unknown name (← fields.line)
  else if name = "Block" || name = "NamedBlock" then return .block (← fields.asBlock)
  else if name = "Tag" then fields.asTag
  else if name = "Mixin" then fields.asMixin
  else if name = "Conditional" then fields.asConditional
  else if name = "Text" then return .text fields.content (← fields.line)
  else if name = "Comment" || name = "BlockComment" then
    return .comment fields.content (← fields.line)
  else return .unknown name (← fields.line)

end Fields

mutual

/-- The reading of a value. -/
def ofValue : Value → Reading
  | .mapping id entries =>
    let fields : Fields := ofEntries entries
    { value := .mapping id entries
      node := fields.asNode
      block := fields.asBlock
      nodes := if entries.isEmpty then .ok [] else .error .malformed }
  | .list id items =>
    { value := .list id items
      node := .error .malformed
      block := .error .malformed
      nodes := (ofItems items).mapM Reading.node }
  | .null => ⟨.null, .error .malformed, .ok Block.empty, .error .malformed⟩
  | v =>
    { value := v
      node := .error .malformed
      block := .error .malformed
      nodes := (listOf (some v)).map fun _ => [] }

def ofItems : List Value → List Reading
  | [] => []
  | v :: rest => ofValue v :: ofItems rest

def ofEntries : List (Text × Value) → List (Text × Reading)
  | [] => []
  | (key, v) :: rest => (key, ofValue v) :: ofEntries rest

end

end Reading

/-- The node that a value describes. -/
def Node.ofValue (v : Value) : Except NodeFault Node := (Reading.ofValue v).node

/-- The block that a value describes; null is the empty one. -/
def Block.ofValue (v : Value) : Except NodeFault Block := (Reading.ofValue v).block

end SceneTemplates
