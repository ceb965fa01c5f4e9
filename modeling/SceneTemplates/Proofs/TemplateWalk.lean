import SceneTemplates.Proofs.ResolvedComponents

/-!
# Walking a template

The tree that a template stands for over data, built directly: a walk of the expanded template
evaluates each test as it meets it and goes down only into the branch that the test selects. The
test of a conditional that is skipped is not evaluated.
-/
namespace SceneTemplates

/-- The outcome of a test: a text is the source of an expression. -/
def Value.tested (outcome : Outcomes) : Value → Except ExpressionError Value
  | .text source => outcome source
  | v => .ok v

/-- The attributes of a tag in the order of the data of its component: the identifier first, and
nothing that is called as the children. -/
def Attribute.ordered (extracted : Entries Attribute) : Entries Attribute :=
  (match extracted.get? "id" with
    | some a => [(Text.ofString "id", a)]
    | none => []) ++ (extracted.erase "id").erase "children"

mutual

/-- Whether a node without mixins contributes no component. -/
def Node.isBare : Node → Bool
  | .block ⟨nodes, _⟩ => Node.allBare nodes
  | .tag name _ _ _ => decide (name.text? = some PhaseTag.tag)
  | .conditional _ ⟨nodes, _⟩ alternate _ => Node.allBare nodes && Node.optionalBare alternate
  | _ => true

def Node.optionalBare : Option Node → Bool
  | none => true
  | some node => Node.isBare node

def Node.allBare : List Node → Bool
  | [] => true
  | node :: rest => Node.isBare node && Node.allBare rest

end

mutual

/-- The data that a node without mixins contributes to its container. The test of a conditional
that is skipped is not evaluated. -/
def Node.walk (outcome : Outcomes) (skips : Node → Bool) : Node → Option (List Value)
  | .block ⟨nodes, _⟩ => Node.walkAll outcome skips nodes
  | .tag name attrs ⟨nodes, _⟩ line =>
    if name.text? = some PhaseTag.tag then some []
    else
      match name.text?.bind ComponentKind.ofTag? with
      | none => none
      | some kind => do
        let extracted ← (extractAttributes attrs kind.fields (some line)).toOption
        let values ← (Attribute.values outcome (Attribute.ordered extracted)).toOption
        let children ← (if kind.isContainer then Node.walkAll outcome skips nodes else some [])
        return [Value.newMapping (("kind", .text kind.tag) ::
          (values ++ Component.childData kind children))]
  | .conditional test ⟨nodes, blockLine⟩ alternate line =>
    if skips (.conditional test ⟨nodes, blockLine⟩ alternate line) then some []
    else do
      let v ← (test.tested outcome).toOption
      if v.isTruthy then Node.walkAll outcome skips nodes
      else Node.walkOptional outcome skips alternate
  | _ => some []

def Node.walkOptional (outcome : Outcomes) (skips : Node → Bool) :
    Option Node → Option (List Value)
  | none => some []
  | some node => Node.walk outcome skips node

/-- The data that nodes contribute, in source order. -/
def Node.walkAll (outcome : Outcomes) (skips : Node → Bool) : List Node → Option (List Value)
  | [] => some []
  | node :: rest => do
    let first ← Node.walk outcome skips node
    let others ← Node.walkAll outcome skips rest
    return first ++ others

end

/-- The root of an expanded template over data. -/
def Block.walk (outcome : Outcomes) (skips : Node → Bool) (block : Block) : Option Value := do
  let children ← Node.walkAll outcome skips block.nodes
  return Value.newMapping [("kind", .text ComponentKind.zstack.tag),
    ("children", Value.newList children)]

/-! ## Chains -/

namespace Node

variable {outcome : Outcomes} {items : List Value}

mutual

/-- The branch that the tests of a chain select, the first one whose test holds; none if no test
holds and no branch stands for that. -/
def selected? (holds : Value → Bool) : Node → Option (List Node)
  | .conditional test ⟨nodes, _⟩ alternate _ =>
    if holds test then some nodes else selectedOptional? holds alternate
  | node => some [node]

/-- The branch that stands if a test does not hold. -/
def selectedOptional? (holds : Value → Bool) : Option Node → Option (List Node)
  | none => none
  | some node => selected? holds node

end

/-- Whether a test has a value and holds. -/
def testHolds (outcome : Outcomes) (test : Value) : Bool :=
  match test.tested outcome with
  | .ok v => v.isTruthy
  | .error _ => false

mutual

@[simp] theorem walk_of_bare (node : Node) (h : node.isBare = true) :
    node.walk outcome isBare = some [] := by
  match node with
  | .block ⟨nodes, line⟩ =>
    rw [isBare] at h
    rw [walk]
    exact walkAll_of_bare nodes h
  | .tag name attrs ⟨nodes, blockLine⟩ line =>
    rw [isBare, decide_eq_true_iff] at h
    rw [walk, if_pos h]
  | .conditional test ⟨nodes, blockLine⟩ alternate line => rw [walk, if_pos h]
  | .mixin _ _ _ _ _ | .text _ _ | .comment _ _ | .unknown _ _ =>
    rw [walk]
    all_goals simp

@[simp] theorem walkAll_of_bare (nodes : List Node) (h : allBare nodes = true) :
    walkAll outcome isBare nodes = some [] := by
  match nodes with
  | [] => rw [walkAll]
  | node :: rest =>
    rw [allBare, Bool.and_eq_true] at h
    rw [walkAll, walk_of_bare node h.1, walkAll_of_bare rest h.2]
    rfl

end

@[simp] theorem walkOptional_of_bare (node : Option Node) (h : optionalBare node = true) :
    walkOptional outcome isBare node = some [] := by
  cases node with
  | none => rw [walkOptional]
  | some node =>
    rw [optionalBare] at h
    rw [walkOptional]
    exact walk_of_bare node h

theorem walkAll_single {node : Node} (h : node.walk outcome isBare = some items) :
    walkAll outcome isBare [node] = some items := by
  rw [walkAll, h, walkAll]
  show some (items ++ []) = some items
  rw [List.append_nil]

mutual

/-- A chain contributes what the one branch contributes that its tests select, and nothing if they
select none. -/
theorem walk_selected (node : Node) {items : List Value}
    (h : node.walk outcome isBare = some items) :
    match node.selected? (testHolds outcome) with
    | some branch => walkAll outcome isBare branch = some items
    | none => items = [] := by
  match node with
  | .conditional test ⟨nodes, blockLine⟩ alternate line =>
    rw [walk] at h
    rw [selected?]
    by_cases hbare : isBare (.conditional test ⟨nodes, blockLine⟩ alternate line) = true
    · rw [if_pos hbare] at h
      cases h
      rw [isBare, Bool.and_eq_true] at hbare
      by_cases htest : testHolds outcome test = true
      · rw [if_pos htest]
        exact walkAll_of_bare nodes hbare.1
      · rw [if_neg htest]
        exact walkOptional_selected alternate (walkOptional_of_bare alternate hbare.2)
    · rw [if_neg hbare] at h
      cases hv : test.tested outcome with
      | error e =>
        rw [hv] at h
        cases h
      | ok v =>
        have htest : testHolds outcome test = v.isTruthy := by
          rw [testHolds, hv]
        rw [hv] at h
        change (if v.isTruthy then walkAll outcome isBare nodes
          else walkOptional outcome isBare alternate) = some items at h
        rw [htest]
        by_cases htruthy : v.isTruthy = true
        · rw [if_pos htruthy] at h ⊢
          exact h
        · rw [if_neg htruthy] at h ⊢
          exact walkOptional_selected alternate h
  | .block _ | .tag _ _ _ _ | .mixin _ _ _ _ _ | .text _ _ | .comment _ _ | .unknown _ _ =>
    rw [selected?]
    · exact walkAll_single h
    all_goals simp

theorem walkOptional_selected (node : Option Node) {items : List Value}
    (h : walkOptional outcome isBare node = some items) :
    match selectedOptional? (testHolds outcome) node with
    | some branch => walkAll outcome isBare branch = some items
    | none => items = [] := by
  match node with
  | none =>
    rw [walkOptional] at h
    cases h
    rw [selectedOptional?]
  | some node =>
    rw [walkOptional] at h
    rw [selectedOptional?]
    exact walk_selected node h

end

end Node

end SceneTemplates
