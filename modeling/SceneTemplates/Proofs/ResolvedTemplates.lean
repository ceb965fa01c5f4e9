import SceneTemplates.Proofs.ExpandedTests
import SceneTemplates.Proofs.GuardedComponents
import SceneTemplates.Proofs.TemplateWalk
import SceneTemplates.Proofs.WellFormedTemplates

/-!
# Resolved templates

Resolving what a template compiles to gives the tree of a walk of the template, if each of its
tests is an expression alone. No guard is made of the test of a conditional without components, so
that the walk has to skip these.
-/
namespace SceneTemplates

/-! ## Nodes without components -/

namespace Node

mutual

/-- A node is bare exactly if no component is made of it. -/
theorem isBare_iff (node : Node) {components : List Component}
    (h : node.components = .ok components) : node.isBare = true ↔ components = [] := by
  match node with
  | .block ⟨nodes, line⟩ =>
    rw [Node.components] at h
    rw [isBare]
    exact allBare_iff nodes h
  | .tag name attrs ⟨nodes, blockLine⟩ line =>
    rw [isBare, decide_eq_true_iff]
    by_cases hphase : name.text? = some PhaseTag.tag
    · rw [Node.components, if_pos hphase] at h
      cases h
      exact ⟨fun _ => rfl, fun _ => hphase⟩
    · obtain ⟨kind, extracted, children, -, -, -, rfl⟩ := (Node.components_tag_eq_ok hphase).1 h
      exact ⟨fun hp => absurd hp hphase, fun hnil => by cases hnil⟩
  | .conditional test ⟨nodes, blockLine⟩ alternate line =>
    rw [Node.components] at h
    obtain ⟨consequent, hconsequent, h⟩ := Except.bind_eq_ok.1 h
    obtain ⟨others, hothers, hpure⟩ := Except.bind_eq_ok.1 h
    cases hpure
    rw [isBare, Bool.and_eq_true, allBare_iff nodes hconsequent, optionalBare_iff alternate hothers,
      List.append_eq_nil_iff, List.map_eq_nil_iff, List.map_eq_nil_iff]
  | .mixin _ _ _ _ _ | .text _ _ | .comment _ _ | .unknown _ _ =>
    rw [Node.components] at h
    · cases h
      exact ⟨fun _ => rfl, fun _ => rfl⟩
    all_goals simp

theorem optionalBare_iff (node : Option Node) {components : List Component}
    (h : optionalComponents node = .ok components) :
    optionalBare node = true ↔ components = [] := by
  match node with
  | none =>
    rw [optionalComponents] at h
    cases h
    exact ⟨fun _ => rfl, fun _ => rfl⟩
  | some node =>
    rw [optionalComponents] at h
    rw [optionalBare]
    exact isBare_iff node h

theorem allBare_iff (nodes : List Node) {components : List Component}
    (h : allComponents nodes = .ok components) : allBare nodes = true ↔ components = [] := by
  match nodes with
  | [] =>
    rw [allComponents] at h
    cases h
    exact ⟨fun _ => rfl, fun _ => rfl⟩
  | node :: rest =>
    rw [allComponents] at h
    obtain ⟨first, hfirst, h⟩ := Except.bind_eq_ok.1 h
    obtain ⟨others, hothers, hpure⟩ := Except.bind_eq_ok.1 h
    cases hpure
    rw [allBare, Bool.and_eq_true, isBare_iff node hfirst, allBare_iff rest hothers,
      List.append_eq_nil_iff]

end

end Node

/-! ## Compiled nodes -/

/-- A test that is an expression alone. -/
def Value.IsTest (test : Value) : Prop :=
  ∃ source limit tree, test = .text source ∧ parse source limit = .ok tree

theorem Value.IsTest.closed {test : Value} (h : test.IsTest) :
    ∃ source, test = .text source ∧ IsClosed source := by
  obtain ⟨source, limit, tree, rfl, hparse⟩ := h
  exact ⟨source, rfl, isClosed_of_parse hparse⟩

theorem Component.isMade_compiled :
    IsMade (fun part => ∀ test, part = .test test → test.IsTest) IsCompiled where
  guard c test htest h := by
    obtain ⟨source, rfl, hclosed⟩ := (htest test rfl).closed
    exact ⟨h.guard hclosed, h.guard hclosed.negated⟩
  tag _ hextracted hleaf := by
    refine ⟨isProper_of_extracted hextracted, hleaf, ?_⟩
    intro v hv
    cases hv

namespace Node

/-- What compiling makes of nodes whose tests are expressions alone. -/
theorem allComponents_isCompiled (nodes : List Node)
    (htests : ∀ test ∈ allTests nodes, test.IsTest) {components : List Component}
    (h : allComponents nodes = .ok components) : ∀ c ∈ components, c.IsCompiled := by
  have hparts : ∀ part ∈ allParts nodes, ∀ test, part = .test test → test.IsTest := by
    rintro _ hpart test rfl
    exact htests test ((mem_allTests_iff nodes).2 hpart)
  exact fun c hc => (allComponents_everywhere Component.isMade_compiled nodes hparts h c hc).here

theorem optionalComponents_isCompiled (node : Option Node)
    (htests : ∀ test ∈ optionalTests node, test.IsTest) {components : List Component}
    (h : optionalComponents node = .ok components) : ∀ c ∈ components, c.IsCompiled := by
  have hparts : ∀ part ∈ optionalParts node, ∀ test, part = .test test → test.IsTest := by
    rintro _ hpart test rfl
    exact htests test ((mem_optionalTests_iff node).2 hpart)
  exact fun c hc =>
    (optionalComponents_everywhere Component.isMade_compiled node hparts h c hc).here

theorem components_isCompiled (node : Node) (htests : ∀ test ∈ node.tests, test.IsTest)
    {components : List Component} (h : node.components = .ok components) :
    ∀ c ∈ components, c.IsCompiled := by
  have hparts : ∀ part ∈ node.parts, ∀ test, part = .test test → test.IsTest := by
    rintro _ hpart test rfl
    exact htests test (node.mem_tests_iff.2 hpart)
  exact fun c hc => (components_everywhere Component.isMade_compiled node hparts h c hc).here

/-! ## Resolving and walking -/

variable {outcome : Outcomes} {components : List Component} {items : List Value}

/-- What a list without components is resolved to. -/
theorem eq_nil_of_resolvedItems (hempty : components = [])
    (h : Tree.resolvedItems outcome (Component.toTrees components) = .ok items) : items = [] := by
  subst hempty
  cases h
  rfl

/-- The single component of a tag, resolved. -/
theorem resolvedItems_single {c : Component} (hc : c.IsCompiled) (hcond : c.cond = none)
    (h : Tree.resolvedItems outcome (Component.toTrees [c]) = .ok items) :
    ∃ values children, Attribute.values outcome c.attributes = .ok values ∧
      Tree.resolvedItems outcome (Component.toTrees c.children) = .ok children ∧
      items = [Value.newMapping (("kind", .text c.kind.tag) ::
        (values ++ Component.childData c.kind children))] := by
  obtain ⟨v, others, hv, hothers, rfl⟩ := Component.resolvedItems_cons_eq_ok.1 h
  cases hothers
  obtain ⟨present, hpresent, hbody⟩ := (Component.resolved_eq_ok hc.proper).1 hv
  rw [hcond] at hpresent
  cases hpresent
  obtain ⟨values, children, hvalues, hchildren, rfl⟩ :=
    (Component.body_eq_ok hc.proper hc.leaf).1 hbody
  exact ⟨values, children, hvalues, hchildren, rfl⟩

/-- What the component of a tag is resolved to is what a walk of the tag gives, if that holds of its
content. -/
theorem walk_tag_of_resolved {name : Value} {attrs : List TagAttribute} {nodes : List Node}
    {blockLine line : Int}
    (hnodes : ∀ {below : List Component} {children : List Value},
      allComponents nodes = .ok below →
        Tree.resolvedItems outcome (Component.toTrees below) = .ok children →
          walkAll outcome isBare nodes = some children)
    (htests : ∀ test ∈ (Node.tag name attrs ⟨nodes, blockLine⟩ line).tests, test.IsTest)
    {components : List Component}
    (h : (Node.tag name attrs ⟨nodes, blockLine⟩ line).components = .ok components)
    {items : List Value}
    (hitems : Tree.resolvedItems outcome (Component.toTrees components) = .ok items) :
    (Node.tag name attrs ⟨nodes, blockLine⟩ line).walk outcome isBare = some items := by
  rw [walk]
  by_cases hphase : name.text? = some PhaseTag.tag
  · rw [Node.components, if_pos hphase] at h
    cases h
    cases hitems
    rw [if_pos hphase]
  have hcompiled := components_isCompiled (.tag name attrs ⟨nodes, blockLine⟩ line) htests h
  obtain ⟨kind, extracted, below, hkind, hextracted, hbelow, rfl⟩ :=
    (Node.components_tag_eq_ok hphase).1 h
  obtain ⟨values, children, hvalues, hchildren, rfl⟩ :=
    resolvedItems_single (hcompiled _ List.mem_cons_self) rfl hitems
  have hwalk : (if kind.isContainer then walkAll outcome isBare nodes else some []) =
      some children := by
    split
    · next hc =>
      rw [if_pos hc] at hbelow
      exact hnodes hbelow hchildren
    · next hc =>
      rw [if_neg hc] at hbelow
      cases hbelow
      cases hchildren
      rfl
  have hvalues' : Attribute.values outcome (Attribute.ordered extracted) = .ok values := hvalues
  rw [if_neg hphase, hkind]
  dsimp only
  rw [hextracted]
  show ((Attribute.values outcome (Attribute.ordered extracted)).toOption >>= _) = _
  rw [hvalues', hwalk]
  rfl

/-- The components of a conditional are resolved to what the branch gives that its test selects. -/
theorem walk_conditional_of_resolved (hg : outcome.RespectGuards) {test : Value}
    {nodes : List Node} {alternate : Option Node} {blockLine line : Int}
    (hnodes : ∀ {consequent : List Component} {items : List Value},
      allComponents nodes = .ok consequent →
        Tree.resolvedItems outcome (Component.toTrees consequent) = .ok items →
          walkAll outcome isBare nodes = some items)
    (halternate : ∀ {others : List Component} {items : List Value},
      optionalComponents alternate = .ok others →
        Tree.resolvedItems outcome (Component.toTrees others) = .ok items →
          walkOptional outcome isBare alternate = some items)
    (htests : ∀ t ∈ (Node.conditional test ⟨nodes, blockLine⟩ alternate line).tests, t.IsTest)
    {components : List Component}
    (h : (Node.conditional test ⟨nodes, blockLine⟩ alternate line).components = .ok components)
    {items : List Value}
    (hitems : Tree.resolvedItems outcome (Component.toTrees components) = .ok items) :
    (Node.conditional test ⟨nodes, blockLine⟩ alternate line).walk outcome isBare = some items := by
  rw [walk]
  by_cases hbare : isBare (.conditional test ⟨nodes, blockLine⟩ alternate line) = true
  · rw [if_pos hbare, eq_nil_of_resolvedItems ((isBare_iff _ h).1 hbare) hitems]
  rw [if_neg hbare]
  have hsome : components ≠ [] := fun hnil => hbare ((isBare_iff _ h).2 hnil)
  rw [tests_conditional, Block.tests_mk] at htests
  obtain ⟨htest, hrest⟩ := List.forall_mem_cons.1 htests
  obtain ⟨hbranch, hrest⟩ := List.forall_mem_append.1 hrest
  obtain ⟨source, rfl, hclosed⟩ := htest.closed
  rw [Node.components] at h
  obtain ⟨consequent, hconsequent, h⟩ := Except.bind_eq_ok.1 h
  obtain ⟨others, hothers, hpure⟩ := Except.bind_eq_ok.1 h
  cases hpure
  have hcompiled := allComponents_isCompiled nodes hbranch hconsequent
  have hcompiled' := optionalComponents_isCompiled alternate hrest hothers
  obtain ⟨v, hv, hdecides⟩ :=
    Component.resolvedItems_conditional hg hclosed hcompiled hcompiled' hsome hitems
  rw [Value.tested, hv]
  show (if v.isTruthy then walkAll outcome isBare nodes
    else walkOptional outcome isBare alternate) = _
  by_cases htruthy : v.isTruthy = true
  · rw [if_pos htruthy] at hdecides ⊢
    exact hnodes hconsequent hdecides
  · rw [if_neg htruthy] at hdecides ⊢
    exact halternate hothers hdecides

mutual

/-- What the components of a node are resolved to is what a walk of the node gives. -/
theorem walk_of_resolved (hg : outcome.RespectGuards) (node : Node)
    (htests : ∀ test ∈ node.tests, test.IsTest) {components : List Component}
    (h : node.components = .ok components) {items : List Value}
    (hitems : Tree.resolvedItems outcome (Component.toTrees components) = .ok items) :
    node.walk outcome isBare = some items := by
  match node with
  | .block ⟨nodes, line⟩ =>
    rw [tests, Block.tests_mk] at htests
    rw [Node.components] at h
    rw [walk]
    exact walkAll_of_resolved hg nodes htests h hitems
  | .tag name attrs ⟨nodes, blockLine⟩ line =>
    refine walk_tag_of_resolved (fun {below children} hbelow hchildren => ?_) htests h hitems
    rw [tests, Block.tests_mk] at htests
    exact walkAll_of_resolved hg nodes htests hbelow hchildren
  | .conditional test ⟨nodes, blockLine⟩ alternate line =>
    have hall := htests
    rw [tests_conditional, Block.tests_mk] at hall
    obtain ⟨hnodes, halternate⟩ := List.forall_mem_append.1 (List.forall_mem_cons.1 hall).2
    refine walk_conditional_of_resolved hg (fun {consequent items} hconsequent hitems => ?_)
      (fun {others items} hothers hitems => ?_) htests h hitems
    · exact walkAll_of_resolved hg nodes hnodes hconsequent hitems
    · exact walkOptional_of_resolved hg alternate halternate hothers hitems
  | .mixin _ _ _ _ _ | .text _ _ | .comment _ _ | .unknown _ _ =>
    rw [Node.components] at h
    · cases h
      cases hitems
      rw [walk]
      all_goals simp
    all_goals simp

theorem walkOptional_of_resolved (hg : outcome.RespectGuards) (node : Option Node)
    (htests : ∀ test ∈ optionalTests node, test.IsTest) {components : List Component}
    (h : optionalComponents node = .ok components) {items : List Value}
    (hitems : Tree.resolvedItems outcome (Component.toTrees components) = .ok items) :
    walkOptional outcome isBare node = some items := by
  match node with
  | none =>
    rw [optionalComponents] at h
    cases h
    cases hitems
    rw [walkOptional]
  | some node =>
    rw [optionalComponents] at h
    rw [walkOptional]
    exact walk_of_resolved hg node htests h hitems

theorem walkAll_of_resolved (hg : outcome.RespectGuards) (nodes : List Node)
    (htests : ∀ test ∈ allTests nodes, test.IsTest) {components : List Component}
    (h : allComponents nodes = .ok components) {items : List Value}
    (hitems : Tree.resolvedItems outcome (Component.toTrees components) = .ok items) :
    walkAll outcome isBare nodes = some items := by
  match nodes with
  | [] =>
    rw [allComponents] at h
    cases h
    cases hitems
    rw [walkAll]
  | node :: rest =>
    obtain ⟨hnode, hrest⟩ := forall_allTests.1 htests
    rw [allComponents] at h
    obtain ⟨first, hfirst, h⟩ := Except.bind_eq_ok.1 h
    obtain ⟨others, hothers, hpure⟩ := Except.bind_eq_ok.1 h
    cases hpure
    obtain ⟨a, b, ha, hb, rfl⟩ := Component.resolvedItems_append hitems
    rw [walkAll, walk_of_resolved hg node hnode hfirst ha,
      walkAll_of_resolved hg rest hrest hothers hb]
    rfl

end

end Node

/-! ## Templates -/

/-- A compiled root that can be resolved is the root of the template that it was compiled from. -/
theorem walk_of_resolved_root {outcome : Outcomes} (hg : outcome.RespectGuards)
    {t : CompiledTemplate} {expanded : Block} (hstands : t.Stands expanded)
    (htests : ∀ test ∈ expanded.tests, test.IsTest) {root : Value}
    (h : t.root.toTree.resolved outcome = .ok root) :
    expanded.walk outcome Node.isBare = some root := by
  obtain ⟨components, hcomponents, hroot⟩ := hstands.root
  obtain ⟨nodes, line⟩ := expanded
  rw [Block.tests_mk] at htests
  have hproper : t.root.IsProper := by
    rw [hroot]
    exact ⟨List.nodup_nil, fun _ hkey => absurd hkey List.not_mem_nil, List.not_mem_nil,
      List.not_mem_nil⟩
  have hleaf : t.root.kind.isContainer = false → t.root.children = [] := by
    intro hc
    rw [hroot] at hc
    cases hc
  obtain ⟨present, hpresent, hbody⟩ := (Component.resolved_eq_ok hproper).1 h
  rw [hroot] at hpresent
  cases hpresent
  obtain ⟨values, children, hvalues, hchildren, rfl⟩ :=
    (Component.body_eq_ok hproper hleaf).1 hbody
  rw [hroot] at hvalues hchildren ⊢
  cases hvalues
  have hwalk := Node.walkAll_of_resolved hg nodes htests hcomponents hchildren
  show (Node.walkAll outcome Node.isBare nodes >>= _) = _
  rw [hwalk]
  rfl

/-- A block expands to one whose walk gives a tree. In it a chain of tests contributes what the one
branch contributes that stands, or nothing if none stands. -/
structure Block.WalksTo (block : Block) (outcome : Outcomes) (expanded : Block) (root : Value) :
    Prop where
  expands : block.expanded? = some expanded
  walks : expanded.walk outcome Node.isBare = some root
  chains : ∀ chain items, Node.walk outcome Node.isBare chain = some items →
    match chain.selected? (Node.testHolds outcome) with
    | some branch => Node.walkAll outcome Node.isBare branch = some items
    | none => items = []

/-- If each test in a template is an expression alone, then resolving what it compiles to, whatever
was resolved before, gives the tree of a walk of the expanded template. The walk goes down only
into the branch that a test selects, so that a chain of tests contributes what one of its branches
contributes, or nothing if none stands. It passes over conditionals without any component. -/
theorem resolve_eq_walk {σ : Type} {host : Host σ} (hpure : host.IsPure) {block : Block}
    (htests : ∀ test ∈ block.tests, test.IsTest) {t : CompiledTemplate} {notices : List Notice}
    (hcompile : compileTemplate block = (.ok t, notices)) {data : Entries Value}
    {options : SandboxOptions} {r : Resolver σ} (hr : r.Over ⟨data, globalEnvironment⟩ options)
    (start : σ) {root : Value} (hroot : (r.resolve host t.root.toTree).1 = .ok root) :
    let outcome := Sandbox.outcome host ⟨data, globalEnvironment⟩ options start
    ∃ expanded, block.WalksTo outcome expanded root := by
  intro outcome
  obtain ⟨expanded, hexpanded, hstands⟩ := stands_of_compileTemplate hcompile
  have hresolved : t.root.toTree.resolved outcome = .ok root := by
    rw [← hroot]
    exact (Resolution.tree_gives hpure start t.root.toTree r hr).symm
  have hg := Sandbox.outcome_respectGuards hpure ⟨data, globalEnvironment⟩ options start
  have hwalk := walk_of_resolved_root hg hstands (Block.expanded?_tests htests hexpanded) hresolved
  exact ⟨expanded, hexpanded, hwalk, fun chain items h => Node.walk_selected chain h⟩

theorem Host.isPure_none : Host.none.IsPure := fun _ _ _ _ => rfl

/-- What a block compiles to, resolved over data with a host without functions. -/
def resolvedRoot (block : Block) (data : Entries Value) : Option Value :=
  match (compileTemplate block).1 with
  | .ok t =>
    ((Resolver.ofData data SandboxOptions.standard ()).resolve Host.none t.root.toTree).1.toOption
  | .error _ => none

theorem exists_of_resolvedRoot {block : Block} {data : Entries Value}
    (h : (resolvedRoot block data).isSome = true) :
    ∃ t notices root, compileTemplate block = (.ok t, notices) ∧
      ((Resolver.ofData data SandboxOptions.standard ()).resolve Host.none t.root.toTree).1 =
        .ok root := by
  obtain ⟨root, hroot⟩ := Option.isSome_iff_exists.1 h
  unfold resolvedRoot at hroot
  cases hcompile : compileTemplate block with
  | mk made notices =>
    rw [hcompile] at hroot
    cases made with
    | error e => cases hroot
    | ok t =>
      refine ⟨t, notices, root, rfl, ?_⟩
      dsimp only at hroot
      cases hresolve : ((Resolver.ofData data SandboxOptions.standard ()).resolve Host.none
          t.root.toTree).1 with
      | error e =>
        rw [hresolve] at hroot
        cases hroot
      | ok v =>
        rw [hresolve] at hroot
        cases hroot
        rfl

/-- A tag that contributes a component. -/
def rectangleTag (line : Int) : Node := .tag (.text "rectangle") [] .empty line

/-- A chain of two tests with a last branch. -/
def rectangleChain : Block :=
  ⟨[.conditional (.text "a") ⟨[rectangleTag 3], 3⟩
    (some (.conditional (.text "b") ⟨[rectangleTag 5, rectangleTag 6], 5⟩
      (some (.block ⟨[], 7⟩)) 4)) 2], 1⟩

theorem resolve_eq_walk_rectangleChain :
    let outcome := Sandbox.outcome Host.none ⟨[("b", .bool true)], globalEnvironment⟩
      SandboxOptions.standard ()
    ∃ expanded root, rectangleChain.WalksTo outcome expanded root := by
  intro outcome
  have ha : Value.IsTest (.text "a") := ⟨"a", 1, _, rfl, rfl⟩
  have hb : Value.IsTest (.text "b") := ⟨"b", 1, _, rfl, rfl⟩
  have htests : ∀ test ∈ rectangleChain.tests, test.IsTest :=
    List.forall_mem_cons.2 ⟨ha, List.forall_mem_cons.2 ⟨hb, fun _ h => by cases h⟩⟩
  obtain ⟨t, notices, root, hcompile, hroot⟩ :=
    @exists_of_resolvedRoot rectangleChain [("b", .bool true)] (by decide +kernel)
  obtain ⟨expanded, hwalk⟩ := resolve_eq_walk Host.isPure_none htests hcompile
    (Resolver.over_ofData [("b", .bool true)] SandboxOptions.standard ()) () hroot
  exact ⟨expanded, root, hwalk⟩

/-- A conditional without components, whose test calls a function that is nowhere. -/
def idleConditional : Block := ⟨[.conditional (.text "nowhere()") ⟨[], 2⟩ none 2], 1⟩

/-- The test of a conditional without components fails in a walk that evaluates it, and resolving
the compiled template succeeds. -/
theorem walk_idleConditional :
    (∀ test ∈ idleConditional.tests, test.IsTest) ∧
      ∃ t notices root expanded, compileTemplate idleConditional = (.ok t, notices) ∧
        ((Resolver.ofData [] SandboxOptions.standard ()).resolve Host.none t.root.toTree).1 =
          .ok root ∧
        idleConditional.expanded? = some expanded ∧
        expanded.walk (Sandbox.outcome Host.none ⟨[], globalEnvironment⟩ SandboxOptions.standard ())
          (fun _ => false) = none := by
  have htest : Value.IsTest (.text "nowhere()") := ⟨"nowhere()", 1, _, rfl, rfl⟩
  obtain ⟨t, notices, root, hcompile, hroot⟩ :=
    @exists_of_resolvedRoot idleConditional [] (by decide +kernel)
  obtain ⟨expanded, hexpanded, -⟩ := stands_of_compileTemplate hcompile
  have hwalk : (idleConditional.expanded?.bind fun expanded =>
      expanded.walk (Sandbox.outcome Host.none ⟨[], globalEnvironment⟩ SandboxOptions.standard ())
        fun _ => false).isNone = true := by decide +kernel
  rw [hexpanded, Option.bind_some, Option.isNone_iff_eq_none] at hwalk
  exact ⟨List.forall_mem_cons.2 ⟨htest, fun _ h => by cases h⟩, t, notices, root, expanded,
    hcompile, hroot, hexpanded, hwalk⟩

end SceneTemplates
