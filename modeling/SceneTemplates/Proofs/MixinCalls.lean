import Mathlib.Logic.Relation
import SceneTemplates.Proofs.DeclaredNames

/-!
# Calls of mixins

The calls of mixins in a template, and the template that comes of replacing each of them by the
body that is called. If the mixins are declared at the top, under different names, and none of them
calls itself by way of others, then calls end after no more steps than there are names, so that
replacing them as often leaves no mixin at all.
-/
namespace SceneTemplates

/-! ## Mixins and their calls -/

/-- The mixin that a node declares, with its body. -/
def Node.declared? : Node → Option (Value × Block)
  | .mixin name false body _ line => some (name, body.getD ⟨[], line⟩)
  | _ => none

/-- The mixins that are declared directly in a block. -/
def Block.mixins (block : Block) : Mixins := block.nodes.filterMap Node.declared?

mutual

/-- The names that are called in a node, be it in the body of a mixin. -/
def Node.calls : Node → List Value
  | .block b => b.calls
  | .tag _ _ b _ => b.calls
  | .mixin name true _ _ _ => [name]
  | .mixin _ false none _ _ => []
  | .mixin _ false (some b) _ _ => b.calls
  | .conditional _ b none _ => b.calls
  | .conditional _ b (some alternate) _ => b.calls ++ alternate.calls
  | _ => []

def Block.calls : Block → List Value
  | ⟨nodes, _⟩ => Node.allCalls nodes

def Node.allCalls : List Node → List Value
  | [] => []
  | node :: rest => node.calls ++ Node.allCalls rest

end

@[simp]
theorem Node.calls_conditional (test : Value) (b : Block) (alternate : Option Node) (line : Int) :
    (Node.conditional test b alternate line).calls =
      b.calls ++ alternate.elim [] Node.calls := by
  cases alternate with
  | none => rw [Node.calls, Option.elim_none, List.append_nil]
  | some alternate => rw [Node.calls, Option.elim_some]

@[simp] theorem Block.calls_mk (nodes : List Node) (line : Int) :
    (Block.mk nodes line).calls = Node.allCalls nodes := by rw [Block.calls]

@[simp] theorem Node.mem_allCalls {name : Value} {nodes : List Node} :
    name ∈ Node.allCalls nodes ↔ ∃ node ∈ nodes, name ∈ node.calls := by
  induction nodes with
  | nil => simp [Node.allCalls]
  | cons node rest ih => simp [Node.allCalls, ih]

/-- Whether the content of a tag is that of a phase or is ignored below a leaf. -/
def Value.isClosedTag (name : Value) : Bool :=
  if name.text? = some PhaseTag.tag then true
  else
    match name.text?.bind ComponentKind.ofTag? with
    | some kind => !kind.isContainer
    | none => false

mutual

/-- Whether a node declares no mixin, and calls one only outside of leaves and phases, and only if
calls are allowed. -/
def Node.isPlain (calls : Bool) : Node → Bool
  | .block b => b.isPlain calls
  | .tag name _ b _ => b.isPlain (calls && !name.isClosedTag)
  | .mixin _ isCall _ _ _ => isCall && calls
  | .conditional _ b none _ => b.isPlain calls
  | .conditional _ b (some alternate) _ => b.isPlain calls && alternate.isPlain calls
  | _ => true

def Block.isPlain (calls : Bool) : Block → Bool
  | ⟨nodes, _⟩ => Node.allPlain calls nodes

def Node.allPlain (calls : Bool) : List Node → Bool
  | [] => true
  | node :: rest => node.isPlain calls && Node.allPlain calls rest

end

@[simp] theorem Node.isPlain_conditional (calls : Bool) (test : Value) (b : Block)
    (alternate : Option Node) (line : Int) :
    (Node.conditional test b alternate line).isPlain calls =
      (b.isPlain calls && alternate.all (Node.isPlain calls)) := by
  cases alternate with
  | none => rw [Node.isPlain, Option.all_none, Bool.and_true]
  | some alternate => rw [Node.isPlain, Option.all_some]

@[simp] theorem Block.isPlain_mk (calls : Bool) (nodes : List Node) (line : Int) :
    (Block.mk nodes line).isPlain calls = Node.allPlain calls nodes := by rw [Block.isPlain]

@[simp] theorem Node.allPlain_eq_true {calls : Bool} {nodes : List Node} :
    Node.allPlain calls nodes = true ↔ ∀ node ∈ nodes, node.isPlain calls = true := by
  induction nodes with
  | nil => simp [Node.allPlain]
  | cons node rest ih => simp [Node.allPlain, ih]

theorem Node.isDeclaration_of_isPlain {calls : Bool} {node : Node}
    (h : node.isPlain calls = true) : node.isDeclaration = false := by
  cases node with
  | mixin name isCall body args line =>
    rw [Node.isPlain, Bool.and_eq_true] at h
    rw [Node.isDeclaration, h.1, Bool.not_true]
  | _ => rfl

/-! ## Replacing calls -/

mutual

/-- The node with each call replaced by a block that holds the body, if there is one. -/
def Node.inline (bodies : Value → Option Block) : Node → Node
  | .block b => .block (b.inline bodies)
  | .tag name attrs b line => .tag name attrs (b.inline bodies) line
  | .mixin name true found args line =>
    match bodies name with
    | some body => .block body
    | none => .mixin name true found args line
  | .mixin name false found args line => .mixin name false found args line
  | .conditional test b none line => .conditional test (b.inline bodies) none line
  | .conditional test b (some alternate) line =>
    .conditional test (b.inline bodies) (some (alternate.inline bodies)) line
  | .text value line => .text value line
  | .comment value line => .comment value line
  | .unknown type line => .unknown type line

def Block.inline (bodies : Value → Option Block) : Block → Block
  | ⟨nodes, line⟩ => ⟨Node.inlineAll bodies nodes, line⟩

def Node.inlineAll (bodies : Value → Option Block) : List Node → List Node
  | [] => []
  | node :: rest => node.inline bodies :: Node.inlineAll bodies rest

end

@[simp] theorem Node.inline_conditional (bodies : Value → Option Block) (test : Value) (b : Block)
    (alternate : Option Node) (line : Int) :
    (Node.conditional test b alternate line).inline bodies =
      .conditional test (b.inline bodies) (alternate.map (Node.inline bodies)) line := by
  cases alternate with
  | none => rw [Node.inline, Option.map_none]
  | some alternate => rw [Node.inline, Option.map_some]

@[simp] theorem Block.inline_mk (bodies : Value → Option Block) (nodes : List Node) (line : Int) :
    (Block.mk nodes line).inline bodies = ⟨Node.inlineAll bodies nodes, line⟩ := by
  rw [Block.inline]

@[simp] theorem Node.inlineAll_eq_map (bodies : Value → Option Block) (nodes : List Node) :
    Node.inlineAll bodies nodes = nodes.map (Node.inline bodies) := by
  induction nodes with
  | nil => rfl
  | cons node rest ih => rw [Node.inlineAll, ih, List.map_cons]

/-- What a call is replaced by declares no mixin. -/
@[simp] theorem Node.isDeclaration_inline (bodies : Value → Option Block) (node : Node) :
    (node.inline bodies).isDeclaration = node.isDeclaration := by
  match node with
  | .mixin name true _ _ _ =>
    rw [Node.inline]
    cases bodies name <;> rfl
  | .mixin _ false _ _ _ => rw [Node.inline]
  | .conditional _ _ none _ | .conditional _ _ (some _) _ => rw [Node.inline]; rfl
  | .block _ | .tag _ _ _ _ => rw [Node.inline]; rfl
  | .text _ _ | .comment _ _ | .unknown _ _ => rw [Node.inline]

mutual

/-- Nothing is replaced in a node without calls. -/
theorem Node.inline_of_isPlain (bodies : Value → Option Block) {node : Node}
    (h : node.isPlain false = true) : node.inline bodies = node := by
  match node with
  | .block b =>
    rw [Node.isPlain] at h
    rw [Node.inline, Block.inline_of_isPlain bodies h]
  | .tag name attrs b line =>
    rw [Node.isPlain, Bool.false_and] at h
    rw [Node.inline, Block.inline_of_isPlain bodies h]
  | .mixin name isCall _ _ _ =>
    rw [Node.isPlain, Bool.and_false] at h
    cases h
  | .conditional test b none line =>
    rw [Node.isPlain] at h
    rw [Node.inline, Block.inline_of_isPlain bodies h]
  | .conditional test b (some alternate) line =>
    rw [Node.isPlain, Bool.and_eq_true] at h
    rw [Node.inline, Block.inline_of_isPlain bodies h.1, Node.inline_of_isPlain bodies h.2]
  | .text _ _ | .comment _ _ | .unknown _ _ => rw [Node.inline]

theorem Block.inline_of_isPlain (bodies : Value → Option Block) {block : Block}
    (h : block.isPlain false = true) : block.inline bodies = block := by
  match block with
  | ⟨nodes, line⟩ =>
    rw [Block.isPlain] at h
    rw [Block.inline, Node.inlineAll_of_allPlain bodies h]

theorem Node.inlineAll_of_allPlain (bodies : Value → Option Block) {nodes : List Node}
    (h : Node.allPlain false nodes = true) : Node.inlineAll bodies nodes = nodes := by
  match nodes with
  | [] => rfl
  | node :: rest =>
    rw [Node.allPlain, Bool.and_eq_true] at h
    rw [Node.inlineAll, Node.inline_of_isPlain bodies h.1, Node.inlineAll_of_allPlain bodies h.2]

end

/-- Bodies without mixins for some names. -/
def Replaces (bodies : Value → Option Block) (names : List Value) : Prop :=
  ∀ name ∈ names, ∃ body, bodies name = some body ∧ body.isPlain false = true

mutual

/-- No mixin is left when all calls are replaced by bodies without mixins. -/
theorem Node.isPlain_inline {bodies : Value → Option Block} {node : Node}
    (hplain : node.isPlain true = true) (hbodies : Replaces bodies node.calls) :
    (node.inline bodies).isPlain false = true := by
  match node with
  | .block b =>
    rw [Node.isPlain] at hplain
    rw [Node.calls] at hbodies
    rw [Node.inline, Node.isPlain]
    exact Block.isPlain_inline hplain hbodies
  | .tag name attrs b line =>
    rw [Node.isPlain, Bool.true_and] at hplain
    rw [Node.calls] at hbodies
    rw [Node.inline, Node.isPlain, Bool.false_and]
    cases hclosed : name.isClosedTag with
    | true =>
      rw [hclosed, Bool.not_true] at hplain
      rwa [Block.inline_of_isPlain bodies hplain]
    | false =>
      rw [hclosed, Bool.not_false] at hplain
      exact Block.isPlain_inline hplain hbodies
  | .mixin name true _ _ _ =>
    rw [Node.calls] at hbodies
    obtain ⟨body, hbody, hplain'⟩ := hbodies name (List.mem_singleton.2 rfl)
    rw [Node.inline, hbody]
    dsimp only
    rwa [Node.isPlain]
  | .mixin _ false _ _ _ =>
    rw [Node.isPlain, Bool.false_and] at hplain
    cases hplain
  | .conditional _ b none _ =>
    rw [Node.isPlain] at hplain
    rw [Node.calls] at hbodies
    rw [Node.inline, Node.isPlain]
    exact Block.isPlain_inline hplain hbodies
  | .conditional _ b (some alternate) _ =>
    rw [Node.isPlain, Bool.and_eq_true] at hplain
    rw [Node.calls] at hbodies
    rw [Node.inline, Node.isPlain, Bool.and_eq_true]
    exact ⟨Block.isPlain_inline hplain.1 fun name h => hbodies name (List.mem_append_left _ h),
      Node.isPlain_inline hplain.2 fun name h => hbodies name (List.mem_append_right _ h)⟩
  | .text _ _ | .comment _ _ | .unknown _ _ => rfl

theorem Block.isPlain_inline {bodies : Value → Option Block} {block : Block}
    (hplain : block.isPlain true = true) (hbodies : Replaces bodies block.calls) :
    (block.inline bodies).isPlain false = true := by
  match block with
  | ⟨nodes, line⟩ =>
    rw [Block.isPlain] at hplain
    rw [Block.calls] at hbodies
    rw [Block.inline, Block.isPlain]
    exact Node.allPlain_inlineAll hplain hbodies

theorem Node.allPlain_inlineAll {bodies : Value → Option Block} {nodes : List Node}
    (hplain : Node.allPlain true nodes = true) (hbodies : Replaces bodies (Node.allCalls nodes)) :
    Node.allPlain false (Node.inlineAll bodies nodes) = true := by
  match nodes with
  | [] => rw [Node.inlineAll, Node.allPlain]
  | node :: rest =>
    rw [Node.allPlain, Bool.and_eq_true] at hplain
    rw [Node.allCalls] at hbodies
    rw [Node.inlineAll, Node.allPlain, Bool.and_eq_true]
    exact ⟨Node.isPlain_inline hplain.1 fun name h => hbodies name (List.mem_append_left _ h),
      Node.allPlain_inlineAll hplain.2 fun name h => hbodies name (List.mem_append_right _ h)⟩

end

namespace Mixins

variable {mixins : Mixins} {names : List MixinName} {stack : List Value} {name called : Value}
  {body : Block} {n : Nat}

/-- The body of a mixin with the calls in it replaced, and those in the bodies that are called, up
to a number of bodies inside each other. -/
def inlinedBody (mixins : Mixins) : Nat → Value → Option Block
  | 0, _ => none
  | n + 1, name => (mixins.get? name).map (Block.inline (mixins.inlinedBody n))

/-- The body of a mixin has a call of a name. -/
def Calls (mixins : Mixins) (name called : Value) : Prop :=
  ∃ body, mixins.get? name = some body ∧ called ∈ body.calls

/-- Calls end after a number of bodies inside each other. -/
def Unfolds (mixins : Mixins) : Nat → Value → Prop
  | 0, _ => False
  | n + 1, name =>
    ∃ body, mixins.get? name = some body ∧ ∀ called ∈ body.calls, mixins.Unfolds n called

/-- Mixins that can be inlined: different names, no mixins in the bodies but calls of these names
outside of leaves and phases, and no mixin that calls itself by way of others. -/
structure IsInlinable (mixins : Mixins) : Prop where
  distinct : mixins.Pairwise fun a b => a.1.sameName b.1 = false
  plain : ∀ mixin ∈ mixins, mixin.2.isPlain true = true
  declared : ∀ mixin ∈ mixins, ∀ called ∈ mixin.2.calls, mixins.has called = true
  acyclic : ∀ name called, Relation.TransGen mixins.Calls name called → name.sameName called = false

theorem get?_eq_some_iff (h : mixins.Pairwise fun a b => a.1.sameName b.1 = false) :
    mixins.get? name = some body ↔
      ∃ mixin ∈ mixins, mixin.1.sameName name = true ∧ mixin.2 = body := by
  refine ⟨exists_of_get?, ?_⟩
  rintro ⟨mixin, hmixin, hsame, rfl⟩
  induction mixins with
  | nil => cases hmixin
  | cons first rest ih =>
    rw [List.pairwise_cons] at h
    rw [get?]
    obtain rfl | hrest := List.mem_cons.1 hmixin
    · rw [if_pos hsame]
    · have hfirst : ¬ first.1.sameName name = true := by
        intro hfirst
        rw [Value.sameName_comm] at hsame
        have hboth := Value.sameName_trans hfirst hsame
        rw [h.1 mixin hrest] at hboth
        cases hboth
      rw [if_neg hfirst]
      exact ih h.2 hrest

@[simp] theorem put_of_distinct (name : Value) (body : Block)
    (h : ∀ mixin ∈ mixins, mixin.1.sameName name = false) :
    mixins.put name body = mixins ++ [(name, body)] := by
  induction mixins with
  | nil => rfl
  | cons mixin rest ih =>
    have hmixin := h mixin List.mem_cons_self
    have hrest := ih fun other hother => h other (List.mem_cons_of_mem _ hother)
    rw [put, hmixin, if_neg Bool.false_ne_true, hrest, List.cons_append]

/-- Declarations under different names are stored as they are written. -/
@[simp] theorem declareAll_of_distinct {nodes : List Node}
    (h : (mixins ++ nodes.filterMap Node.declared?).Pairwise fun a b => a.1.sameName b.1 = false) :
    mixins.declareAll nodes = mixins ++ nodes.filterMap Node.declared? := by
  induction nodes generalizing mixins with
  | nil => rw [declareAll, List.filterMap_nil, List.append_nil]
  | cons node rest ih =>
    cases hnode : node.declared? with
    | none =>
      rw [List.filterMap_cons_none hnode] at h ⊢
      cases node with
      | mixin name isCall body args line =>
        cases isCall with
        | true => exact ih h
        | false => cases hnode
      | _ => exact ih h
    | some mixin =>
      rw [List.filterMap_cons_some hnode] at h ⊢
      cases node with
      | mixin name isCall body args line =>
        cases isCall with
        | true => cases hnode
        | false =>
          cases hnode
          have hput := put_of_distinct name (body.getD ⟨[], line⟩) fun other hother =>
            (List.pairwise_append.1 h).2.2 other hother _ List.mem_cons_self
          rw [List.append_cons] at h ⊢
          rw [declareAll, hput]
          exact ih h
      | _ => cases hnode

/-- A chain of names, each of which leads to all that follow, goes on with a call. -/
theorem pairwise_concat (hchain : (stack ++ [name]).Pairwise (Relation.TransGen mixins.Calls))
    (hcalls : mixins.Calls name called) :
    (stack ++ [name] ++ [called]).Pairwise (Relation.TransGen mixins.Calls) := by
  rw [List.pairwise_append]
  refine ⟨hchain, List.pairwise_singleton _ _, fun other hother last hlast => ?_⟩
  rw [List.mem_singleton.1 hlast]
  obtain hother | hother := List.mem_append.1 hother
  · have hleads := (List.pairwise_append.1 hchain).2.2 other hother name (List.mem_singleton.2 rfl)
    exact hleads.tail hcalls
  · rw [List.mem_singleton.1 hother]
    exact .single hcalls

/-- A call is replaced by a body without mixins if calls end. -/
theorem Unfolds.replaces (hplain : ∀ mixin ∈ mixins, mixin.2.isPlain true = true)
    (h : mixins.Unfolds n name) :
    ∃ body, mixins.inlinedBody n name = some body ∧ body.isPlain false = true := by
  induction n generalizing name with
  | zero => cases h
  | succ n ih =>
    obtain ⟨body, hbody, hcalls⟩ := h
    obtain ⟨mixin, hmixin, -, rfl⟩ := exists_of_get? hbody
    refine ⟨_, by rw [inlinedBody, hbody, Option.map_some], ?_⟩
    exact Block.isPlain_inline (hplain mixin hmixin) fun called hcalled =>
      ih (hcalls called hcalled)

/-- Calls end in mixins that can be inlined: those that lead to each other have different names. -/
theorem IsInlinable.unfolds (h : mixins.IsInlinable) (hwithin : mixins.Within names)
    (stack : List Value) {name : Value}
    (hdeclared : ∀ open' ∈ stack ++ [name], mixins.has open' = true)
    (hchain : (stack ++ [name]).Pairwise (Relation.TransGen mixins.Calls))
    (hbound : names.dedup.length ≤ stack.length + n) : mixins.Unfolds n name := by
  induction n generalizing stack name with
  | zero =>
    have hlength := hwithin.length_le (hchain.imp fun {a b} => h.acyclic a b) hdeclared
    rw [List.length_append, List.length_singleton] at hlength
    omega
  | succ n ih =>
    have hname := hdeclared name (List.mem_append_right _ (List.mem_singleton.2 rfl))
    obtain ⟨body, hbody⟩ := Option.isSome_iff_exists.1 hname
    obtain ⟨mixin, hmixin, -, rfl⟩ := exists_of_get? hbody
    refine ⟨mixin.2, hbody, fun called hcalled => ih (stack ++ [name]) ?_ ?_ ?_⟩
    · intro other hother
      obtain hother | hother := List.mem_append.1 hother
      · exact hdeclared other hother
      · rw [List.mem_singleton.1 hother]
        exact h.declared mixin hmixin called hcalled
    · exact pairwise_concat hchain ⟨mixin.2, hbody, hcalled⟩
    · rw [List.length_append, List.length_singleton]
      omega

/-- Of mixins with different names it does not matter in which order they are declared. -/
theorem get?_perm {mixins' : Mixins} (hperm : mixins'.Perm mixins)
    (hdistinct : mixins.Pairwise fun a b => a.1.sameName b.1 = false) (name : Value) :
    mixins'.get? name = mixins.get? name := by
  have hdistinct' : mixins'.Pairwise fun a b => a.1.sameName b.1 = false := by
    refine (hperm.pairwise_iff fun {a b} h => ?_).2 hdistinct
    rwa [Value.sameName_comm]
  ext body
  rw [get?_eq_some_iff hdistinct, get?_eq_some_iff hdistinct']
  simp only [hperm.mem_iff]

theorem inlinedBody_congr {mixins' : Mixins} (h : ∀ name, mixins'.get? name = mixins.get? name)
    (n : Nat) : mixins'.inlinedBody n = mixins.inlinedBody n := by
  induction n with
  | zero => rfl
  | succ n ih =>
    funext name
    rw [inlinedBody, inlinedBody, h, ih]

theorem IsInlinable.perm {mixins' : Mixins} (h : mixins.IsInlinable) (hperm : mixins'.Perm mixins) :
    mixins'.IsInlinable := by
  have hget := get?_perm hperm h.distinct
  have hcalls : mixins'.Calls = mixins.Calls := by
    funext name called
    simp only [Calls, hget]
  refine ⟨?_, fun mixin hmixin => h.plain mixin (hperm.mem_iff.1 hmixin),
    fun mixin hmixin called hcalled => ?_, ?_⟩
  · refine (hperm.pairwise_iff fun {a b} h => ?_).2 h.distinct
    rwa [Value.sameName_comm]
  · rw [has, hget]
    exact h.declared mixin (hperm.mem_iff.1 hmixin) called hcalled
  · rw [hcalls]
    exact h.acyclic

end Mixins

theorem Node.allDeclarations_perm {nodes nodes' : List Node} (h : nodes'.Perm nodes) :
    Node.allDeclarations nodes' = Node.allDeclarations nodes := by
  induction h with
  | nil => rfl
  | cons node _ ih => rw [Node.allDeclarations, Node.allDeclarations, ih]
  | swap first second rest =>
    simp only [Node.allDeclarations]
    omega
  | trans _ _ ih ih' => rw [ih, ih']

namespace Block

variable {block : Block}

theorem declarations_perm {other : Block} (h : other.nodes.Perm block.nodes) :
    other.declarations = block.declarations := by
  obtain ⟨nodes, line⟩ := block
  obtain ⟨nodes', line'⟩ := other
  rw [Block.declarations, Block.declarations]
  exact Node.allDeclarations_perm h

/-- The nodes of a block that declare no mixin. -/
def others (block : Block) : List Node := block.nodes.filter fun node => !node.isDeclaration

/-- The template without its declarations and with each call replaced by the body of the mixin. -/
def inlined (block : Block) : Block :=
  (Block.mk block.others block.line).inline (block.mixins.inlinedBody block.declarations)

/-- A template whose mixins stand at the top and can be inlined, with no other declarations, and
with calls of these mixins outside of leaves and phases. -/
structure IsInlinable (block : Block) : Prop where
  mixins : block.mixins.IsInlinable
  plain : ∀ node ∈ block.others, node.isPlain true = true
  declared : ∀ node ∈ block.others, ∀ called ∈ node.calls, block.mixins.has called = true

namespace IsInlinable

theorem declareAll (h : block.IsInlinable) : Mixins.declareAll [] block.nodes = block.mixins :=
  Mixins.declareAll_of_distinct h.mixins.distinct

/-- The calls at the top end. -/
theorem unfolds (h : block.IsInlinable) {called : Value}
    (hcalled : called ∈ Node.allCalls block.others) :
    block.mixins.Unfolds block.declarations called := by
  obtain ⟨node, hnode, hcall⟩ := Node.mem_allCalls.1 hcalled
  have hwithin : block.mixins.Within block.names := by
    rw [← h.declareAll]
    refine Mixins.within_nil.declareAll ?_
    cases block
    rw [Block.names]
    exact List.Subset.refl _
  refine h.mixins.unfolds hwithin [] ?_ (List.pairwise_singleton _ _) ?_
  · intro other hother
    rw [List.mem_singleton.1 hother]
    exact h.declared node hnode called hcall
  · rw [List.length_nil, Nat.zero_add]
    exact block.length_dedup_names_le

/-- No mixin is left. -/
@[simp] theorem isPlain_inlined (h : block.IsInlinable) : block.inlined.isPlain false = true := by
  refine Block.isPlain_inline ?_ ?_
  · rw [Block.isPlain_mk]
    exact Node.allPlain_eq_true.2 h.plain
  · rw [Block.calls_mk]
    exact fun called hcalled => (h.unfolds hcalled).replaces h.mixins.plain

theorem others_inlined (h : block.IsInlinable) : block.inlined.others =
    Node.inlineAll (block.mixins.inlinedBody block.declarations) block.others := by
  have hnodes : block.inlined.nodes =
      block.others.map (Node.inline (block.mixins.inlinedBody block.declarations)) := by
    rw [← Node.inlineAll_eq_map, inlined, Block.inline_mk, nodes]
  rw [others, hnodes, Node.inlineAll_eq_map]
  refine List.filter_eq_self.2 fun node hnode => ?_
  obtain ⟨original, horiginal, rfl⟩ := List.mem_map.1 hnode
  rw [Node.isDeclaration_inline, Node.isDeclaration_of_isPlain (h.plain original horiginal)]
  rfl

end IsInlinable

/-- It does not matter where in a template the declarations stand. -/
theorem IsInlinable.perm {other : Block} (h : block.IsInlinable)
    (hnodes : other.nodes.Perm block.nodes) (hothers : other.others = block.others) :
    other.IsInlinable := by
  have hmixins : other.mixins.Perm block.mixins := hnodes.filterMap _
  refine ⟨h.mixins.perm hmixins, by rw [hothers]; exact h.plain, ?_⟩
  rw [hothers]
  intro node hnode called hcalled
  rw [Mixins.has, Mixins.get?_perm hmixins h.mixins.distinct]
  exact h.declared node hnode called hcalled

theorem inlined_perm {other : Block} (h : block.IsInlinable)
    (hnodes : other.nodes.Perm block.nodes) (hothers : other.others = block.others)
    (hline : other.line = block.line) : other.inlined = block.inlined := by
  have hmixins : other.mixins.Perm block.mixins := hnodes.filterMap _
  have hbodies := Mixins.inlinedBody_congr (Mixins.get?_perm hmixins h.mixins.distinct)
  rw [inlined, inlined, hothers, hline, hbodies, declarations_perm hnodes]

end Block

end SceneTemplates
