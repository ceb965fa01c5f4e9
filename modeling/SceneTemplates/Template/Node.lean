import SceneTemplates.Value.Basic

/-!
# Template nodes

The tree of a template as a markup parser gives it. A node of a type that is not known here is
kept, so that compiling can point at it. So is a name or a test that is no text.
-/
namespace SceneTemplates

/-- An attribute of a tag as it is written; a bare attribute has a value that is no text. -/
structure TagAttribute where
  name : Value
  value : Value
  line : Int

mutual

inductive Node where
  | block (b : Block)
  | tag (name : Value) (attrs : List TagAttribute) (block : Block) (line : Int)
  /-- The declaration of a mixin or a call of one. -/
  | mixin (name : Value) (isCall : Bool) (block : Option Block) (args : Value) (line : Int)
  /-- A test with the nodes that stand if it holds, and possibly a node that stands if not. -/
  | conditional (test : Value) (consequent : Block) (alternate : Option Node) (line : Int)
  | text (value : Value) (line : Int)
  | comment (value : Value) (line : Int)
  | unknown (type : Text) (line : Int)

/-- Nodes in order. -/
inductive Block where
  | mk (nodes : List Node) (line : Int)

end

namespace Block

instance : Inhabited Block := ⟨⟨[], 0⟩⟩

def nodes : Block → List Node
  | ⟨nodes, _⟩ => nodes

def line : Block → Int
  | ⟨_, line⟩ => line

def empty : Block := ⟨[], 0⟩

end Block

namespace Node

def line : Node → Int
  | .block b => b.line
  | .tag _ _ _ line | .mixin _ _ _ _ line | .conditional _ _ _ line => line
  | .text _ line | .comment _ line | .unknown _ line => line

/-- What a message calls a node that is no tag. -/
def typeName : Node → String
  | .block _ => "Block"
  | .tag _ _ _ _ => "Tag"
  | .mixin _ _ _ _ _ => "Mixin"
  | .conditional _ _ _ _ => "Conditional"
  | .text _ _ => "Text"
  | .comment _ _ => "Comment"
  | .unknown _ _ => "UnknownNode"

end Node

end SceneTemplates
