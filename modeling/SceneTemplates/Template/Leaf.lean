import SceneTemplates.Template.Mixin
import SceneTemplates.Template.Phase

/-!
# Content of leaves

What stands under a leaf is ignored. It is counted, so that the author can be told, and nodes
that are valid nowhere are errors there too.
-/
namespace SceneTemplates

namespace Leaf

mutual

/-- The number of nodes under a leaf that are ignored. Nodes that are nowhere valid are errors. -/
def countNode (mixins : Mixins) : Node → Except CompileError Nat
  | .text _ _ => .ok 0
  | .comment _ _ => .ok 0
  | .conditional _ _ _ line => .error ⟨.misplacedConditional, some line⟩
  | .block ⟨nodes, _⟩ => countNodes mixins nodes
  | .tag name _ ⟨nodes, _⟩ line =>
    if name.text? ≠ some PhaseTag.tag ∧ (name.text?.bind ComponentKind.ofTag?).isNone then
      .error ⟨.unknownTag name.display, some line⟩
    else (countNodes mixins nodes).map (1 + ·)
  | .mixin name isCall _ _ line =>
    if isCall && !mixins.has name then .error ⟨.unknownMixin name.display, some line⟩ else .ok 1
  | .unknown type line => .error ⟨.unknownNode type, some line⟩

def countNodes (mixins : Mixins) : List Node → Except CompileError Nat
  | [] => .ok 0
  | node :: rest => do
    let first ← countNode mixins node
    let others ← countNodes mixins rest
    return first + others

end

end Leaf

end SceneTemplates
