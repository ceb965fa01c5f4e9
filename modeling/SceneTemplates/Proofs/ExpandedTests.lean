import SceneTemplates.Proofs.ExpandedParts

/-!
# Tests of an expanded template

Every test in the expansion of a template stands in the template, be it in the body of a mixin.
-/
namespace SceneTemplates

mutual

/-- The tests in a node, with those in the bodies of its mixins. -/
def Node.tests : Node → List Value
  | .block b => b.tests
  | .tag _ _ b _ => b.tests
  | .mixin _ _ none _ _ => []
  | .mixin _ _ (some b) _ _ => b.tests
  | .conditional test b none _ => test :: b.tests
  | .conditional test b (some alternate) _ => test :: (b.tests ++ alternate.tests)
  | _ => []

def Block.tests : Block → List Value
  | ⟨nodes, _⟩ => Node.allTests nodes

def Node.allTests : List Node → List Value
  | [] => []
  | node :: rest => node.tests ++ Node.allTests rest

end

def Node.optionalTests : Option Node → List Value
  | none => []
  | some node => node.tests

@[simp]
theorem Node.tests_conditional (test : Value) (b : Block) (alternate : Option Node) (line : Int) :
    (Node.conditional test b alternate line).tests =
      test :: (b.tests ++ Node.optionalTests alternate) := by
  cases alternate with
  | none => rw [Node.tests, Node.optionalTests, List.append_nil]
  | some alternate => rw [Node.tests, Node.optionalTests]

@[simp] theorem Block.tests_mk (nodes : List Node) (line : Int) :
    (Block.mk nodes line).tests = Node.allTests nodes := by rw [Block.tests]

theorem Node.forall_allTests {P : Value → Prop} {node : Node} {rest : List Node} :
    (∀ test ∈ Node.allTests (node :: rest), P test) ↔
      (∀ test ∈ node.tests, P test) ∧ ∀ test ∈ Node.allTests rest, P test := by
  rw [Node.allTests]
  exact List.forall_mem_append

variable {test : Value}

mutual

/-- The tests of a node are those among its parts. -/
theorem Node.mem_tests_iff (node : Node) :
    test ∈ node.tests ↔ NodePart.test test ∈ node.parts := by
  match node with
  | .block b =>
    rw [Node.tests, Node.parts]
    exact b.mem_tests_iff
  | .tag _ _ b _ =>
    rw [Node.tests, Node.parts, List.mem_cons, or_iff_right (by rintro ⟨⟩)]
    exact b.mem_tests_iff
  | .mixin _ _ none _ _ => simp [Node.tests, Node.parts]
  | .mixin _ _ (some b) _ _ =>
    rw [Node.tests, Node.parts]
    exact b.mem_tests_iff
  | .conditional _ b alternate _ =>
    rw [Node.tests_conditional, Node.parts_conditional]
    simp only [List.mem_cons, List.mem_append, NodePart.test.injEq, b.mem_tests_iff,
      Node.mem_optionalTests_iff alternate]
  | .text _ _ | .comment _ _ | .unknown _ _ => simp [Node.tests, Node.parts]

theorem Node.mem_optionalTests_iff (node : Option Node) :
    test ∈ Node.optionalTests node ↔ NodePart.test test ∈ Node.optionalParts node := by
  match node with
  | none => simp [Node.optionalTests, Node.optionalParts]
  | some node =>
    rw [Node.optionalTests, Node.optionalParts]
    exact node.mem_tests_iff

theorem Block.mem_tests_iff (block : Block) :
    test ∈ block.tests ↔ NodePart.test test ∈ block.parts := by
  match block with
  | ⟨nodes, _⟩ =>
    rw [Block.tests_mk, Block.parts_mk]
    exact Node.mem_allTests_iff nodes

theorem Node.mem_allTests_iff (nodes : List Node) :
    test ∈ Node.allTests nodes ↔ NodePart.test test ∈ Node.allParts nodes := by
  match nodes with
  | [] => simp [Node.allTests, Node.allParts]
  | node :: rest =>
    rw [Node.allTests, Node.allParts, List.mem_append, List.mem_append, node.mem_tests_iff,
      Node.mem_allTests_iff rest]

end

/-- A property of all tests in a template is one of all tests in its expansion. -/
theorem Block.expanded?_tests {P : Value → Prop} {block expanded : Block}
    (htests : ∀ test ∈ block.tests, P test) (h : block.expanded? = some expanded) :
    ∀ test ∈ expanded.tests, P test := by
  have hparts : ∀ part ∈ block.parts, ∀ test, part = .test test → P test := by
    rintro _ hpart test rfl
    exact htests test (block.mem_tests_iff.2 hpart)
  intro test htest
  exact Block.expanded?_parts hparts h _ (expanded.mem_tests_iff.1 htest) test rfl

end SceneTemplates
