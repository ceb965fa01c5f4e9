import SceneTemplates.Proofs.Expansion

/-!
# Parts of an expanded template

What is written in the nodes of a template: its tests, the attributes of its tags, and the types
that are not known. Everything in the expansion of a template stands in the template, be it in the
body of a mixin.
-/
namespace SceneTemplates

/-- What a node holds beside other nodes. -/
inductive NodePart where
  | test (v : Value)
  | attributes (attrs : List TagAttribute)
  | unknown (type : Text)

mutual

/-- What is written in a node, with what is in the bodies of its mixins. -/
def Node.parts : Node → List NodePart
  | .block b => b.parts
  | .tag _ attrs b _ => .attributes attrs :: b.parts
  | .mixin _ _ none _ _ => []
  | .mixin _ _ (some b) _ _ => b.parts
  | .conditional test b none _ => .test test :: b.parts
  | .conditional test b (some alternate) _ => .test test :: (b.parts ++ alternate.parts)
  | .unknown type _ => [.unknown type]
  | .text _ _ | .comment _ _ => []

def Block.parts : Block → List NodePart
  | ⟨nodes, _⟩ => Node.allParts nodes

def Node.allParts : List Node → List NodePart
  | [] => []
  | node :: rest => node.parts ++ Node.allParts rest

end

def Node.optionalParts : Option Node → List NodePart
  | none => []
  | some node => node.parts

@[simp]
theorem Node.parts_conditional (test : Value) (b : Block) (alternate : Option Node) (line : Int) :
    (Node.conditional test b alternate line).parts =
      .test test :: (b.parts ++ Node.optionalParts alternate) := by
  cases alternate with
  | none => rw [Node.parts, Node.optionalParts, List.append_nil]
  | some alternate => rw [Node.parts, Node.optionalParts]

@[simp] theorem Block.parts_mk (nodes : List Node) (line : Int) :
    (Block.mk nodes line).parts = Node.allParts nodes := by rw [Block.parts]

variable {P : NodePart → Prop}

namespace Mixins

variable {mixins : Mixins} {name : Value} {body : Block}

/-- Everything in the bodies of mixins has a property. -/
def PartsHold (P : NodePart → Prop) (mixins : Mixins) : Prop :=
  ∀ mixin ∈ mixins, ∀ part ∈ mixin.2.parts, P part

theorem partsHold_nil : PartsHold P [] := by
  intro mixin h
  cases h

theorem PartsHold.put (h : mixins.PartsHold P) (hbody : ∀ part ∈ body.parts, P part) :
    (mixins.put name body).PartsHold P := by
  induction mixins with
  | nil =>
    intro mixin hmixin
    rw [Mixins.put, List.mem_singleton] at hmixin
    subst hmixin
    exact hbody
  | cons mixin rest ih =>
    obtain ⟨declared, former⟩ := mixin
    have hrest : PartsHold P rest := fun m hm => h m (List.mem_cons_of_mem _ hm)
    intro m hm
    rw [Mixins.put] at hm
    split at hm
    · obtain rfl | hm := List.mem_cons.1 hm
      · exact hbody
      · exact hrest m hm
    · obtain rfl | hm := List.mem_cons.1 hm
      · exact h _ List.mem_cons_self
      · exact ih hrest m hm

theorem PartsHold.get? (h : mixins.PartsHold P) (hget : mixins.get? name = some body) :
    ∀ part ∈ body.parts, P part := by
  induction mixins with
  | nil => cases hget
  | cons mixin rest ih =>
    obtain ⟨declared, former⟩ := mixin
    rw [Mixins.get?] at hget
    split at hget
    · cases hget
      exact h _ List.mem_cons_self
    · exact ih (fun m hm => h m (List.mem_cons_of_mem _ hm)) hget

theorem PartsHold.declareAll {nodes : List Node} (h : mixins.PartsHold P)
    (hnodes : ∀ part ∈ Node.allParts nodes, P part) : (mixins.declareAll nodes).PartsHold P := by
  induction nodes generalizing mixins with
  | nil => exact h
  | cons node rest ih =>
    have hnode : ∀ part ∈ node.parts, P part := by
      intro part hp
      refine hnodes part ?_
      rw [Node.allParts]
      exact List.mem_append_left _ hp
    have hrest : ∀ part ∈ Node.allParts rest, P part := by
      intro part hp
      refine hnodes part ?_
      rw [Node.allParts]
      exact List.mem_append_right _ hp
    cases node with
    | mixin name isCall body args line =>
      cases isCall with
      | true => exact ih h hrest
      | false =>
        rw [Mixins.declareAll]
        refine ih (h.put ?_) hrest
        cases body with
        | none =>
          intro part hp
          cases hp
        | some body =>
          rw [Node.parts] at hnode
          exact hnode
    | _ => exact ih h hrest

end Mixins

/-- The expansion of a body adds nothing but what stands in the body and in the mixins. -/
def BodyExpansion.KeepsParts (P : NodePart → Prop) (body : BodyExpansion) : Prop :=
  ∀ open', body = some open' → ∀ block mixins block' mixins',
    (∀ part ∈ block.parts, P part) → mixins.PartsHold P →
      open' block mixins = some (block', mixins') →
        (∀ part ∈ block'.parts, P part) ∧ mixins'.PartsHold P

namespace Node

variable {body : BodyExpansion} {mixins mixins' : Mixins}

theorem forall_allParts {node : Node} {rest : List Node} :
    (∀ part ∈ allParts (node :: rest), P part) ↔
      (∀ part ∈ node.parts, P part) ∧ ∀ part ∈ allParts rest, P part := by
  rw [allParts]
  exact List.forall_mem_append

mutual

/-- Expanding a node adds nothing but what stands in the node and in the mixins. -/
theorem expand_parts (hbody : body.KeepsParts P) (node : Node) {node' : Node}
    {mixins mixins' : Mixins} (hparts : ∀ part ∈ node.parts, P part) (hm : mixins.PartsHold P)
    (h : node.expand body mixins = some (node', mixins')) :
    (∀ part ∈ node'.parts, P part) ∧ mixins'.PartsHold P := by
  match node with
  | .block ⟨nodes, line⟩ =>
    rw [parts, Block.parts_mk] at hparts
    rw [expand] at h
    obtain ⟨⟨nodes', last⟩, hnodes, hpure⟩ := Option.bind_eq_some_iff.1 h
    cases hpure
    rw [parts, Block.parts_mk]
    exact expandAll_parts hbody nodes hparts (hm.declareAll hparts) hnodes
  | .tag name attrs ⟨nodes, blockLine⟩ line =>
    rw [expand] at h
    split at h
    · rw [parts, Block.parts_mk] at hparts
      obtain ⟨hattrs, hbelow⟩ := List.forall_mem_cons.1 hparts
      obtain ⟨⟨nodes', last⟩, hnodes, hpure⟩ := Option.bind_eq_some_iff.1 h
      cases hpure
      obtain ⟨hbelow', hlast⟩ := expandAll_parts hbody nodes hbelow (hm.declareAll hbelow) hnodes
      rw [parts, Block.parts_mk]
      exact ⟨List.forall_mem_cons.2 ⟨hattrs, hbelow'⟩, hlast⟩
    · cases h
      exact ⟨hparts, hm⟩
  | .mixin name true found args line =>
    rw [expand] at h
    obtain ⟨block, hget, h⟩ := Option.bind_eq_some_iff.1 h
    obtain ⟨open', hopen, h⟩ := Option.bind_eq_some_iff.1 h
    obtain ⟨⟨block', last⟩, hblock, hpure⟩ := Option.bind_eq_some_iff.1 h
    cases hpure
    -- The call stands for the body of its mixin, which is opened one level further down.
    rw [parts]
    exact hbody open' hopen block mixins block' mixins' (hm.get? hget) hm hblock
  | .mixin name false found args line =>
    rw [expand] at h
    cases h
    refine ⟨?_, hm.put ?_⟩
    · intro part hp
      rw [parts, Block.parts_mk] at hp
      cases hp
    · cases found with
      | none =>
        intro part hp
        cases hp
      | some block =>
        rw [parts] at hparts
        exact hparts
  | .conditional test ⟨nodes, blockLine⟩ alternate line =>
    rw [parts_conditional, Block.parts_mk] at hparts
    obtain ⟨htest, hrest⟩ := List.forall_mem_cons.1 hparts
    obtain ⟨hnodes, halternate⟩ := List.forall_mem_append.1 hrest
    rw [expand] at h
    obtain ⟨⟨nodes', middle⟩, hexpand, h⟩ := Option.bind_eq_some_iff.1 h
    obtain ⟨⟨alternate', last⟩, hexpand', hpure⟩ := Option.bind_eq_some_iff.1 h
    cases hpure
    obtain ⟨hnodes', hmiddle⟩ :=
      expandAll_parts hbody nodes hnodes (hm.declareAll hnodes) hexpand
    obtain ⟨halternate', hlast⟩ :=
      expandOptional_parts hbody alternate halternate hmiddle hexpand'
    rw [parts_conditional, Block.parts_mk]
    exact ⟨List.forall_mem_cons.2 ⟨htest, List.forall_mem_append.2 ⟨hnodes', halternate'⟩⟩, hlast⟩
  | .text _ _ | .comment _ _ | .unknown _ _ =>
    rw [expand] at h
    cases h
    exact ⟨hparts, hm⟩

theorem expandOptional_parts (hbody : body.KeepsParts P) (node : Option Node)
    {node' : Option Node} {mixins mixins' : Mixins}
    (hparts : ∀ part ∈ optionalParts node, P part) (hm : mixins.PartsHold P)
    (h : expandOptional body node mixins = some (node', mixins')) :
    (∀ part ∈ optionalParts node', P part) ∧ mixins'.PartsHold P := by
  match node with
  | none =>
    rw [expandOptional] at h
    cases h
    exact ⟨hparts, hm⟩
  | some node =>
    rw [expandOptional] at h
    obtain ⟨⟨node', last⟩, hnode, hpure⟩ := Option.bind_eq_some_iff.1 h
    cases hpure
    exact expand_parts hbody node hparts hm hnode

theorem expandAll_parts (hbody : body.KeepsParts P) (nodes : List Node) {nodes' : List Node}
    {mixins mixins' : Mixins} (hparts : ∀ part ∈ allParts nodes, P part)
    (hm : mixins.PartsHold P) (h : expandAll body nodes mixins = some (nodes', mixins')) :
    (∀ part ∈ allParts nodes', P part) ∧ mixins'.PartsHold P := by
  match nodes with
  | [] =>
    rw [expandAll] at h
    cases h
    exact ⟨hparts, hm⟩
  | node :: rest =>
    obtain ⟨hnode, hrest⟩ := forall_allParts.1 hparts
    by_cases hd : node.isDeclaration = true
    · rw [expandAll_declaration hd] at h
      exact expandAll_parts hbody rest hrest hm h
    · have hother : node.isDeclaration = false := by simpa using hd
      rw [expandAll_cons hother] at h
      obtain ⟨⟨node', middle⟩, hexpand, h⟩ := Option.bind_eq_some_iff.1 h
      obtain ⟨⟨rest', last⟩, hexpand', hpure⟩ := Option.bind_eq_some_iff.1 h
      cases hpure
      obtain ⟨hnode', hmiddle⟩ := expand_parts hbody node hnode hm hexpand
      obtain ⟨hrest', hlast⟩ := expandAll_parts hbody rest hrest hmiddle hexpand'
      exact ⟨forall_allParts.2 ⟨hnode', hrest'⟩, hlast⟩

end

end Node

theorem Block.expand_parts {body : BodyExpansion} (hbody : body.KeepsParts P) {block block' : Block}
    {mixins mixins' : Mixins} (hparts : ∀ part ∈ block.parts, P part) (hm : mixins.PartsHold P)
    (h : block.expand body mixins = some (block', mixins')) :
    (∀ part ∈ block'.parts, P part) ∧ mixins'.PartsHold P := by
  obtain ⟨nodes, line⟩ := block
  rw [Block.parts_mk] at hparts
  rw [Block.expand] at h
  obtain ⟨⟨nodes', last⟩, hnodes, hpure⟩ := Option.bind_eq_some_iff.1 h
  cases hpure
  rw [Block.parts_mk]
  exact Node.expandAll_parts hbody nodes hparts (hm.declareAll hparts) hnodes

theorem Block.expansion_keepsParts (n : Nat) : (Block.expansion n).KeepsParts P := by
  induction n with
  | zero =>
    intro open' h
    cases h
  | succ n ih =>
    intro open' h
    cases h
    intro block mixins block' mixins' hparts hm hexpand
    exact Block.expand_parts ih hparts hm hexpand

/-- A property of everything in a template is one of everything in its expansion. -/
theorem Block.expanded?_parts {block expanded : Block} (hparts : ∀ part ∈ block.parts, P part)
    (h : block.expanded? = some expanded) : ∀ part ∈ expanded.parts, P part := by
  obtain ⟨⟨opened, last⟩, hexpand, rfl⟩ := Option.map_eq_some_iff.1 h
  exact (Block.expand_parts (Block.expansion_keepsParts _) hparts Mixins.partsHold_nil hexpand).1

end SceneTemplates
