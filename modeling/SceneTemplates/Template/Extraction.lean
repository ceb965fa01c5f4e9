import SceneTemplates.Component.Classification
import SceneTemplates.Template.Error
import SceneTemplates.Template.Node

/-!
# Extraction of attributes

The attributes of a tag are classified in order and stored by name, so that the last one of a
name counts. Only then the names that the tag does not have are dropped: an attribute that cannot
be read is an error under any name.
-/
namespace SceneTemplates

/-- The attribute that a written value stands for. -/
def classify (v : Value) (line : Option Int) : Except CompileError Attribute :=
  match v with
  | .text t =>
    match Attribute.ofText t with
    | .ok a => .ok a
    | .error fault => .error ⟨.invalidQuotedText t fault, line⟩
  | v => .ok (.literal v)

/-- The attributes stored behind those already there. An attribute without a line has that of
its tag; one whose name is no text is read and not stored. -/
def classifyAll (line : Option Int) (stored : Entries Attribute) :
    List TagAttribute → Except CompileError (Entries Attribute)
  | [] => .ok stored
  | attr :: rest => do
    let a ← classify attr.value (if attr.line = 0 then line else some attr.line)
    match attr.name.text? with
    | some name => classifyAll line (Entries.put name a stored) rest
    | none => classifyAll line stored rest

/-- The attributes of a tag with an allowed name. All are classified; of two with one name the
later one counts. -/
def extractAttributes (attrs : List TagAttribute) (allowed : List Text) (line : Option Int) :
    Except CompileError (Entries Attribute) :=
  (classifyAll line [] attrs).map fun stored => stored.filter fun entry => entry.1 ∈ allowed

end SceneTemplates
