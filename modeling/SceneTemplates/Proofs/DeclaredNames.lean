import Mathlib.Data.List.Dedup
import Mathlib.Data.List.Perm.Subperm
import SceneTemplates.Proofs.Expansion

/-!
# Declared names

The names of the mixins that are declared anywhere in a template, be it in the body of a mixin. A
table of mixins that grows while a template is compiled holds no other names, so that different
names that are found in it are never more than the different names of the template.
-/
namespace SceneTemplates

mutual

/-- The names that are declared in a node, be it in the body of a mixin. -/
def Node.names : Node → List MixinName
  | .block b => b.names
  | .tag _ _ b _ => b.names
  | .mixin name false none _ _ => (MixinName.ofValue? name).toList
  | .mixin name false (some b) _ _ => (MixinName.ofValue? name).toList ++ b.names
  | .conditional _ b none _ => b.names
  | .conditional _ b (some alternate) _ => b.names ++ alternate.names
  | _ => []

def Block.names : Block → List MixinName
  | ⟨nodes, _⟩ => Node.allNames nodes

def Node.allNames : List Node → List MixinName
  | [] => []
  | node :: rest => node.names ++ Node.allNames rest

end

def Node.optionalNames : Option Node → List MixinName
  | none => []
  | some node => node.names

@[simp]
theorem Node.names_conditional (test : Value) (b : Block) (alternate : Option Node) (line : Int) :
    (Node.conditional test b alternate line).names = b.names ++ Node.optionalNames alternate := by
  cases alternate with
  | none => rw [Node.names, Node.optionalNames, List.append_nil]
  | some alternate => rw [Node.names, Node.optionalNames]

@[simp]
theorem Node.names_declaration (name : Value) (body : Option Block) (args : Value) (line : Int) :
    (Node.mixin name false body args line).names =
      (MixinName.ofValue? name).toList ++ (body.getD ⟨[], line⟩).names := by
  cases body with
  | none => rw [Node.names, Option.getD_none, Block.names, Node.allNames, List.append_nil]
  | some body => rw [Node.names, Option.getD_some]

@[simp] theorem Node.allNames_append (nodes others : List Node) :
    Node.allNames (nodes ++ others) = Node.allNames nodes ++ Node.allNames others := by
  induction nodes with
  | nil => rfl
  | cons node rest ih => rw [List.cons_append, Node.allNames, ih, Node.allNames, List.append_assoc]

@[simp] theorem Block.names_mk (nodes : List Node) (line : Int) :
    (Block.mk nodes line).names = Node.allNames nodes := by rw [Block.names]

mutual

/-- There are no more names than declarations. -/
theorem Node.length_names_le (node : Node) : node.names.length ≤ node.declarations := by
  match node with
  | .block b =>
    rw [Node.names, Node.declarations]
    exact b.length_names_le
  | .tag _ _ b _ =>
    rw [Node.names, Node.declarations]
    exact b.length_names_le
  | .mixin name false none _ _ =>
    rw [Node.names, Node.declarations]
    cases MixinName.ofValue? name <;> simp
  | .mixin name false (some b) _ _ =>
    have hbody := b.length_names_le
    rw [Node.names, Node.declarations, List.length_append]
    cases MixinName.ofValue? name <;> simp <;> omega
  | .mixin _ true _ _ _ => simp [Node.names]
  | .conditional _ b none _ =>
    rw [Node.names, Node.declarations]
    exact b.length_names_le
  | .conditional _ b (some alternate) _ =>
    have hconsequent := b.length_names_le
    have halternate := alternate.length_names_le
    rw [Node.names, Node.declarations, List.length_append]
    omega
  | .text _ _ | .comment _ _ | .unknown _ _ => simp [Node.names]

theorem Block.length_names_le (block : Block) : block.names.length ≤ block.declarations := by
  match block with
  | ⟨nodes, _⟩ =>
    rw [Block.names, Block.declarations]
    exact Node.length_allNames_le nodes

theorem Node.length_allNames_le (nodes : List Node) :
    (Node.allNames nodes).length ≤ Node.allDeclarations nodes := by
  match nodes with
  | [] => simp [Node.allNames]
  | node :: rest =>
    have hnode := node.length_names_le
    have hrest := Node.length_allNames_le rest
    rw [Node.allNames, Node.allDeclarations, List.length_append]
    omega

end

/-- No more names are different than mixins are declared. -/
theorem Block.length_dedup_names_le (block : Block) :
    block.names.dedup.length ≤ block.declarations :=
  Nat.le_trans (List.dedup_sublist block.names).length_le block.length_names_le

theorem Value.sameName_iff {a b : Value} :
    a.sameName b = true ↔ ∃ x, MixinName.ofValue? a = some x ∧ MixinName.ofValue? b = some x := by
  unfold Value.sameName
  cases MixinName.ofValue? a <;> cases MixinName.ofValue? b <;> simp [eq_comm]

theorem Value.sameName_comm (a b : Value) : a.sameName b = b.sameName a := by
  rw [Bool.eq_iff_iff, Value.sameName_iff, Value.sameName_iff]
  simp only [and_comm]

theorem Value.sameName_trans {a b c : Value} (h : a.sameName b = true) (h' : b.sameName c = true) :
    a.sameName c = true := by
  obtain ⟨x, ha, hb⟩ := Value.sameName_iff.1 h
  obtain ⟨y, hb', hc⟩ := Value.sameName_iff.1 h'
  rw [hb] at hb'
  cases hb'
  exact Value.sameName_iff.2 ⟨x, ha, hc⟩

namespace Mixins

variable {mixins : Mixins} {names : List MixinName} {name : Value} {body : Block}

theorem exists_of_get? (h : mixins.get? name = some body) :
    ∃ mixin ∈ mixins, mixin.1.sameName name = true ∧ mixin.2 = body := by
  induction mixins with
  | nil => cases h
  | cons mixin rest ih =>
    rw [get?] at h
    split at h
    · next hsame =>
      cases h
      exact ⟨mixin, List.mem_cons_self, hsame, rfl⟩
    · obtain ⟨found, hfound, hsame⟩ := ih h
      exact ⟨found, List.mem_cons_of_mem _ hfound, hsame⟩

theorem has_iff : mixins.has name = true ↔ ∃ mixin ∈ mixins, mixin.1.sameName name = true := by
  induction mixins with
  | nil => simp [has, get?]
  | cons mixin rest ih =>
    rw [has] at ih ⊢
    rw [get?]
    by_cases hsame : mixin.1.sameName name = true
    · simp [hsame]
    · simpa [hsame] using ih

/-- A name stays declared. -/
@[simp] theorem has_put (h : mixins.has name = true) (other : Value) (body : Block) :
    (mixins.put other body).has name = true := by
  rw [has_iff] at h ⊢
  obtain ⟨mixin, hmixin, hsame⟩ := h
  induction mixins with
  | nil => cases hmixin
  | cons first rest ih =>
    rw [put]
    obtain rfl | hrest := List.mem_cons.1 hmixin
    · split
      · exact ⟨_, List.mem_cons_self, hsame⟩
      · exact ⟨_, List.mem_cons_self, hsame⟩
    · split
      · exact ⟨mixin, List.mem_cons_of_mem _ hrest, hsame⟩
      · obtain ⟨found, hfound, hfoundSame⟩ := ih hrest
        exact ⟨found, List.mem_cons_of_mem _ hfound, hfoundSame⟩

/-- All names that are declared, or would be in the bodies, are among some names. -/
def Within (names : List MixinName) (mixins : Mixins) : Prop :=
  ∀ mixin ∈ mixins, (MixinName.ofValue? mixin.1).toList ⊆ names ∧ mixin.2.names ⊆ names

theorem within_nil : Within names [] := nofun

theorem Within.put (h : mixins.Within names) (hname : (MixinName.ofValue? name).toList ⊆ names)
    (hbody : body.names ⊆ names) : (mixins.put name body).Within names := by
  induction mixins with
  | nil =>
    intro mixin hmixin
    rw [Mixins.put, List.mem_singleton] at hmixin
    subst hmixin
    exact ⟨hname, hbody⟩
  | cons first rest ih =>
    have hfirst := h first List.mem_cons_self
    have hrest : Within names rest := fun mixin hmixin => h mixin (List.mem_cons_of_mem _ hmixin)
    intro mixin hmixin
    rw [Mixins.put] at hmixin
    split at hmixin
    · obtain rfl | hmixin := List.mem_cons.1 hmixin
      · exact ⟨hfirst.1, hbody⟩
      · exact hrest mixin hmixin
    · obtain rfl | hmixin := List.mem_cons.1 hmixin
      · exact hfirst
      · exact ih hrest mixin hmixin

theorem Within.declareAll {nodes : List Node} (h : mixins.Within names)
    (hnodes : Node.allNames nodes ⊆ names) : (mixins.declareAll nodes).Within names := by
  induction nodes generalizing mixins with
  | nil => exact h
  | cons node rest ih =>
    rw [Node.allNames, List.append_subset] at hnodes
    cases node with
    | mixin name isCall body args line =>
      cases isCall with
      | true => exact ih h hnodes.2
      | false =>
        rw [Node.names_declaration, List.append_subset] at hnodes
        exact ih (h.put hnodes.1.1 hnodes.1.2) hnodes.2
    | _ => exact ih h hnodes.2

theorem Within.get? (h : mixins.Within names) (hget : mixins.get? name = some body) :
    body.names ⊆ names := by
  obtain ⟨mixin, hmixin, -, rfl⟩ := exists_of_get? hget
  exact (h mixin hmixin).2

theorem Within.exists_name (h : mixins.Within names) (hname : mixins.has name = true) :
    ∃ x ∈ names, MixinName.ofValue? name = some x := by
  obtain ⟨mixin, hmixin, hsame⟩ := has_iff.1 hname
  obtain ⟨x, hdeclared, hx⟩ := Value.sameName_iff.1 hsame
  exact ⟨x, (h mixin hmixin).1 (by simp [hdeclared]), hx⟩

/-- There are no more different declared names than names. -/
theorem Within.length_le (h : mixins.Within names) {stack : List Value}
    (hdistinct : stack.Pairwise fun a b => a.sameName b = false)
    (hdeclared : ∀ name ∈ stack, mixins.has name = true) :
    stack.length ≤ names.dedup.length := by
  have hnames : ∀ name ∈ stack, ∃ x ∈ names, MixinName.ofValue? name = some x :=
    fun name hname => h.exists_name (hdeclared name hname)
  have hnodup : (stack.filterMap MixinName.ofValue?).Nodup := by
    rw [List.Nodup, List.pairwise_filterMap]
    refine hdistinct.imp fun {a b} hab x hx y hy hxy => ?_
    rw [Value.sameName_iff.2 ⟨x, hx, by rw [hxy]; exact hy⟩] at hab
    cases hab
  have hlength : (stack.filterMap MixinName.ofValue?).length = stack.length := by
    rw [List.length_filterMap_eq_countP, List.countP_eq_length]
    intro name hname
    obtain ⟨x, -, hx⟩ := hnames name hname
    rw [hx]
    rfl
  have hsubset : stack.filterMap MixinName.ofValue? ⊆ names.dedup := by
    intro x hx
    obtain ⟨name, hname, hx⟩ := List.mem_filterMap.1 hx
    obtain ⟨y, hy, hname⟩ := hnames name hname
    rw [hname] at hx
    cases hx
    exact List.mem_dedup.2 hy
  rw [← hlength]
  exact (List.subperm_of_subset hnodup hsubset).length_le

end Mixins

end SceneTemplates
