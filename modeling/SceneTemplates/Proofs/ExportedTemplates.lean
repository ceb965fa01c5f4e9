import Mathlib.Data.Option.Basic
import SceneTemplates.Proofs.PlainResults

/-!
# Exported templates

The exported form of a compiled template leaves out the lines and nothing else. A component is
exported as one mapping, in which its kind, its test, its identifier, its attributes and its
children keep apart, and an expression is told from a literal, because the literals of a document
have no parts. So equal exported forms come from templates that are equal up to lines.
-/
namespace SceneTemplates

namespace Value

/-- A value of JSON without parts. -/
inductive IsScalar : Value → Prop
  | null : IsScalar .null
  | bool (b : Bool) : IsScalar (.bool b)
  | number (n : Number) : IsScalar (.number n)
  | text (t : Text) : IsScalar (.text t)

theorem isScalar_ofScalars : OfScalars IsScalar := ⟨.bool, .number, .text⟩

@[simp] theorem IsScalar.exported_eq {v : Value} (h : v.IsScalar) : v.exported = v := by
  cases h with
  | null | bool | number | text => rw [exported] <;> exact nofun

/-- Equality of JSON values, given one of doubles. Truth values, integers and doubles are kept
apart; the order of the keys of a mapping makes no difference. -/
inductive SameJson (same : Double → Double → Prop) : Value → Value → Prop
  | null : SameJson same .null .null
  | bool (b : Bool) : SameJson same (.bool b) (.bool b)
  | int (n : Int) : SameJson same (.int n) (.int n)
  | double {x y : Double} (h : same x y) : SameJson same (.double x) (.double y)
  | text (t : Text) : SameJson same (.text t) (.text t)
  | list {id id' : Identity} {items others : List Value}
      (h : List.Forall₂ (SameJson same) items others) :
      SameJson same (.list id items) (.list id' others)
  | mapping {id id' : Identity} {entries others : Entries Value}
      (h : ∀ key, Option.Rel (SameJson same) (entries.get? key) (others.get? key)) :
      SameJson same (.mapping id entries) (.mapping id' others)

theorem SameJson.text_eq {same : Double → Double → Prop} {s t : Text}
    (h : SameJson same (.text s) (.text t)) : s = t := by
  cases h
  rfl

theorem SameJson.get? {same : Double → Double → Prop} {entries others : Entries Value}
    (h : SameJson same (newMapping entries) (newMapping others)) (key : Text) :
    Option.Rel (SameJson same) (entries.get? key) (others.get? key) := by
  cases h with
  | mapping h => exact h key

end Value

open SceneTemplates.Value (IsScalar SameJson)

/-- What is related after being mapped is related before. -/
theorem rel_of_map {α α' β β' : Type} {R : β → β' → Prop} {S : α → α' → Prop} {f : α → β}
    {g : α' → β'} {a : Option α} {b : Option α'} (h : Option.Rel R (a.map f) (b.map g))
    (hS : ∀ x y, a = some x → b = some y → R (f x) (g y) → S x y) : Option.Rel S a b := by
  cases a with
  | none =>
    cases b with
    | none => exact .none
    | some y => cases h
  | some x =>
    cases b with
    | none => cases h
    | some y =>
      cases h with
      | some h => exact .some (hS x y rfl rfl h)

/-- Lists are exported member by member. -/
theorem forall₂_of_lists {same : Double → Double → Prop} {α : Type} {S : α → α → Prop}
    {f : α → Value} {items others : List α}
    (h : SameJson same (.newList (items.map f)) (.newList (others.map f)))
    (hS : ∀ x ∈ items, ∀ y ∈ others, SameJson same (f x) (f y) → S x y) :
    List.Forall₂ S items others := by
  cases h with
  | list h =>
    rw [List.forall₂_map_left_iff, List.forall₂_map_right_iff] at h
    induction h with
    | nil => exact .nil
    | cons hhead _ ih =>
      refine .cons (hS _ List.mem_cons_self _ List.mem_cons_self hhead) (ih ?_)
      exact fun x hx y hy => hS x (List.mem_cons_of_mem _ hx) y (List.mem_cons_of_mem _ hy)

/-! ## Equality up to lines -/

variable {same : Double → Double → Prop}

/-- Attributes are equal if both are literals or both are expressions. -/
inductive Attribute.Same (same : Double → Double → Prop) : Attribute → Attribute → Prop
  | literal {v w : Value} (h : SameJson same v w) : Same same (.literal v) (.literal w)
  | dynamic (source : Text) : Same same (.dynamic source) (.dynamic source)

def Attribute.AllSame (same : Double → Double → Prop) (fields others : Entries Attribute) : Prop :=
  ∀ key, Option.Rel (Attribute.Same same) (fields.get? key) (others.get? key)

/-- Components are equal up to their lines. -/
inductive Component.Same (same : Double → Double → Prop) : Component → Component → Prop
  | intro {c d : Component} (kind : c.kind = d.kind) (cond : c.cond = d.cond)
      (id : Option.Rel (Attribute.Same same) c.id d.id)
      (fields : Attribute.AllSame same c.fields d.fields)
      (children : List.Forall₂ (Component.Same same) c.children d.children) : Same same c d

/-- Effects are equal if they are of one type on one component. -/
inductive Effect.Same (same : Double → Double → Prop) : Effect → Effect → Prop
  | transition (component : Text) {duration duration' easing easing' start start' finish finish' :
      Option Attribute} (hduration : Option.Rel (Attribute.Same same) duration duration')
      (heasing : Option.Rel (Attribute.Same same) easing easing')
      (hstart : Option.Rel (Attribute.Same same) start start')
      (hfinish : Option.Rel (Attribute.Same same) finish finish') :
      Same same (.transition component duration easing start finish)
        (.transition component duration' easing' start' finish')
  | override (component : Text) {values others : Entries Attribute}
      (h : Attribute.AllSame same values others) :
      Same same (.override component values) (.override component others)
  | typing (component : Text) {duration duration' : Number}
      (h : SameJson same (.number duration) (.number duration')) :
      Same same (.typing component duration) (.typing component duration')

structure Phase.Same (same : Double → Double → Prop) (p q : Phase) : Prop where
  name : p.name = q.name
  effects : List.Forall₂ (Effect.Same same) p.effects q.effects

structure CompiledTemplate.Same (same : Double → Double → Prop) (t u : CompiledTemplate) :
    Prop where
  root : Component.Same same t.root u.root
  phases : List.Forall₂ (Phase.Same same) t.phases u.phases

/-! ## Exported forms of parts -/

namespace Tree

@[simp]
theorem exportedItems_eq_map (items : List Tree) : exportedItems items = items.map exported := by
  induction items with
  | nil => rfl
  | cons t rest ih => rw [exportedItems, ih, List.map_cons]

@[simp] theorem exported_sequence {α : Type} (g : α → Tree) (items : List α) :
    (sequence (items.map g)).exported = Value.newList (items.map fun a => (g a).exported) := by
  rw [exported, exportedItems_eq_map, List.map_map]
  rfl

@[simp] theorem exportedEntries_eq_map (entries : Entries Tree) :
    exportedEntries entries = entries.map fun entry => (entry.1, exported entry.2) := by
  induction entries with
  | nil => rfl
  | cons entry rest ih => rw [exportedEntries, ih, List.map_cons]

@[simp] theorem exportedSlots_eq_map (children : Value) (slots : Entries Slot) :
    exportedSlots children slots =
      slots.map fun entry => (entry.1, exportedSlot children entry.2) := by
  induction slots with
  | nil => rfl
  | cons entry rest ih => rw [exportedSlots, ih, List.map_cons]

theorem get?_exportedEntries (key : Text) (entries : Entries Tree) :
    Entries.get? key (exportedEntries entries) = (Entries.get? key entries).map exported := by
  simp

theorem get?_exportedSlots (key : Text) (children : Value) (slots : Entries Slot) :
    Entries.get? key (exportedSlots children slots) =
      (Entries.get? key slots).map (exportedSlot children) := by
  simp

end Tree

@[simp] theorem Attribute.exported_dynamic (source : Text) :
    (Attribute.dynamic source).toTree.exported = Value.newMapping [("$", .text source)] := rfl

@[simp] theorem Attribute.exported_literal {v : Value} (h : v.IsScalar) :
    (Attribute.literal v).toTree.exported = v := h.exported_eq

/-- A literal without parts is told from an expression. -/
theorem Attribute.same_of_exported {a b : Attribute} (ha : a.Holds IsScalar) (hb : b.Holds IsScalar)
    (h : SameJson same a.toTree.exported b.toTree.exported) : Attribute.Same same a b := by
  cases a with
  | literal v =>
    rw [exported_literal ha] at h
    cases b with
    | literal w =>
      rw [exported_literal hb] at h
      exact .literal h
    | dynamic source =>
      rw [exported_dynamic] at h
      cases ha <;> cases h
  | dynamic source =>
    rw [exported_dynamic] at h
    cases b with
    | literal w =>
      rw [exported_literal hb] at h
      cases hb <;> cases h
    | dynamic source' =>
      have hsource := h.get? "$"
      simp only [Entries.get?, if_true] at hsource
      cases hsource with
      | some h =>
        cases h
        exact .dynamic source

theorem Attribute.rel_of_exported {a b : Option Attribute}
    (ha : ∀ x, a = some x → x.Holds IsScalar) (hb : ∀ y, b = some y → y.Holds IsScalar)
    (h : Option.Rel (SameJson same) (a.map fun x => x.toTree.exported)
      (b.map fun y => y.toTree.exported)) :
    Option.Rel (Attribute.Same same) a b :=
  rel_of_map h fun x y hx hy hsame => same_of_exported (ha x hx) (hb y hy) hsame

/-! ## Components -/

namespace Component

variable {c d : Component}

/-- A component as it is compiled from what documents hold. -/
structure IsWritten (c : Component) : Prop where
  wellFormed : c.IsWellFormed
  literals : c.Holds IsScalar
  cond : ∀ test, c.cond = some test → ∃ source, test = .text source

/-- A slot that is not reserved is that of an attribute. -/
theorem IsProper.get?_slots (h : c.IsProper) {key : Text} (hkey : key ∉ Slot.reservedKeys) :
    Entries.get? key c.slots = (Entries.get? key c.fields).map fun a => .tree a.toTree := by
  simp only [Slot.reservedKeys, List.mem_cons, List.not_mem_nil, or_false, not_or] at hkey
  obtain ⟨hkind, hcond, hid, hchildren⟩ := hkey
  have hnamed : Entries.get? key c.namedSlots = none := by
    refine Entries.get?_eq_none fun hmem => ?_
    obtain h | h | h := keys_namedSlots hmem
    · exact hkind h
    · exact hcond h
    · exact hid h
  have hbelow : Entries.get? key (childSlots c.kind) = none := by
    unfold childSlots
    split
    · exact Entries.get?_eq_none fun hmem => hchildren (List.mem_singleton.1 hmem)
    · rfl
  rw [slots_eq h, Entries.get?_append, Entries.get?_append, hnamed, hbelow,
    Slot.get?_ofAttributes]
  simp

theorem exported_toTree (c : Component) :
    c.toTree.exported = Value.newMapping (Tree.exportedSlots
      (Value.newList (c.children.map fun child => child.toTree.exported)) c.slots) := by
  rw [toTree_eq, Tree.exported, Tree.exportedItems_eq_map, toTrees_eq_map, List.map_map]
  rfl

theorem get?_reserved (h : c.IsProper) {key : Text} (hkey : key ∈ Slot.reservedKeys) :
    Entries.get? key c.fields = none :=
  Entries.get?_eq_none fun hmem => h.not_reserved key hmem hkey

theorem kind_eq_of_tag {kind kind' : ComponentKind}
    (h : Text.ofString kind.tag = Text.ofString kind'.tag) : kind = kind' := by
  have hkind := kind.ofTag?_tag
  rw [h, kind'.ofTag?_tag] at hkind
  exact (Option.some.inj hkind).symm

/-- Tests that are texts are exported as they are. -/
theorem cond_eq_of_exported (hc : c.IsWritten) (hd : d.IsWritten)
    (h : Option.Rel (SameJson same) (c.cond.map Value.exported) (d.cond.map Value.exported)) :
    c.cond = d.cond := by
  have hrel : Option.Rel (· = ·) c.cond d.cond := by
    refine rel_of_map h fun v w hv hw hsame => ?_
    obtain ⟨source, rfl⟩ := hc.cond v hv
    obtain ⟨source', rfl⟩ := hd.cond w hw
    rw [(IsScalar.text source).exported_eq, (IsScalar.text source').exported_eq] at hsame
    rw [hsame.text_eq]
  generalize c.cond = a at hrel
  generalize d.cond = b at hrel
  cases hrel with
  | none => rfl
  | some heq => rw [heq]

/-- The exported form determines a component up to lines. -/
theorem same_of_exported (hc : c.Everywhere IsWritten) (hd : d.Everywhere IsWritten)
    (h : SameJson same c.toTree.exported d.toTree.exported) : Component.Same same c d := by
  induction hc generalizing d with
  | @intro c here _ ih =>
    obtain ⟨here', below'⟩ := hd
    have hproper := here.wellFormed.proper
    have hproper' := here'.wellFormed.proper
    have hkeeps := hproper.keepsSlots
    have hkeeps' := hproper'.keepsSlots
    rw [exported_toTree, exported_toTree] at h
    have hslot := h.get?
    simp only [Tree.get?_exportedSlots] at hslot
    have hkind : c.kind = d.kind := by
      have h := hslot "kind"
      rw [hkeeps.kind, hkeeps'.kind] at h
      cases h with
      | some h => exact kind_eq_of_tag h.text_eq
    refine .intro hkind ?cond ?id ?fields ?children
    case cond =>
      have h := hslot "cond"
      rw [hkeeps.cond, hkeeps'.cond, Option.map_map, Option.map_map] at h
      exact cond_eq_of_exported here here' h
    case id =>
      have h := hslot "id"
      rw [hkeeps.id, hkeeps'.id, Option.map_map, Option.map_map] at h
      exact Attribute.rel_of_exported here.literals.id here'.literals.id h
    case fields =>
      intro key
      by_cases hkey : key ∈ Slot.reservedKeys
      · rw [get?_reserved hproper hkey, get?_reserved hproper' hkey]
        exact .none
      · have h := hslot key
        rw [hproper.get?_slots hkey, hproper'.get?_slots hkey, Option.map_map, Option.map_map] at h
        refine Attribute.rel_of_exported ?_ ?_ h
        · exact fun a ha => here.literals.fields _ (Entries.mem_of_get? ha)
        · exact fun a ha => here'.literals.fields _ (Entries.mem_of_get? ha)
    case children =>
      by_cases hleaf : c.kind.isContainer = true
      · have h := hslot "children"
        rw [hkeeps.children, hkeeps'.children, ← hkind, if_pos hleaf] at h
        cases h with
        | some h =>
          exact forall₂_of_lists h fun child hchild other hother hsame =>
            ih child hchild (below' other hother) hsame
      · have hfalse : c.kind.isContainer = false := by simpa using hleaf
        rw [here.wellFormed.leaf hfalse, here'.wellFormed.leaf (hkind ▸ hfalse)]
        exact .nil

end Component

/-! ## Effects and phases -/

namespace Effect

variable {e f : Effect}

/-- The properties of an override are set once. -/
def SetsOnce : Effect → Prop
  | .override _ values => (Entries.keys values).Nodup
  | _ => True

structure IsWritten (e : Effect) : Prop where
  checked : e.IsChecked
  literals : e.Holds IsScalar
  once : e.SetsOnce

/-- The keys of an effect that are no properties. -/
def ownKeys : List Text := ["type", "component"]

theorem get?_override {component : Text} {values : Entries Attribute}
    (h : (override component values).IsWritten) (key : Text) :
    Entries.get? key (override component values).entries =
      ((Entries.get? key values).map Attribute.toTree).or
        (Entries.get? key [("type", .text "override"), ("component", .text component)]) := by
  have honce : (Entries.keys (Attribute.toTrees values)).Nodup := by
    rw [Component.keys_toTrees]
    exact h.once
  rw [entries, Entries.get?_putAll honce, Attribute.toTrees, Entries.get?_map]

theorem get?_values_own {component : Text} {values : Entries Attribute}
    (h : (override component values).IsWritten) {key : Text} (hkey : key ∈ ownKeys) :
    Entries.get? key values = none := by
  have hdisjoint : ∀ key ∈ ownKeys, key ∉ transitionableProperties := by decide
  refine Entries.get?_eq_none fun hmem => hdisjoint key hkey ?_
  cases h.checked with
  | override hkeys => exact hkeys key hmem

theorem get?_value {component : Text} {values : Entries Attribute}
    (h : (override component values).IsWritten) {key : Text} (hkey : key ∉ ownKeys) :
    Entries.get? key (override component values).entries =
      (Entries.get? key values).map Attribute.toTree := by
  have hown : Entries.get? key
      [(Text.ofString "type", Tree.text "override"), ("component", .text component)] = none :=
    Entries.get?_eq_none hkey
  rw [get?_override h, hown, Option.or_none]

/-- The type that an effect is exported with. -/
def typeName : Effect → Text
  | .transition .. => "transition"
  | .override .. => "override"
  | .typing .. => "effect"

def target : Effect → Text
  | .transition component .. | .override component _ | .typing component _ => component

@[simp]
theorem get?_type (h : e.IsWritten) : Entries.get? "type" e.entries = some (.text e.typeName) := by
  cases e with
  | transition => rfl
  | typing => rfl
  | override component values =>
    rw [get?_override h, get?_values_own h (by decide)]
    rfl

@[simp] theorem get?_component (h : e.IsWritten) :
    Entries.get? "component" e.entries = some (.text e.target) := by
  cases e with
  | transition => rfl
  | typing => rfl
  | override component values =>
    rw [get?_override h, get?_values_own h (by decide)]
    rfl

/-- Each attribute of a transition stands under its own key. -/
theorem get?_transition (component : Text) (duration easing start finish : Option Attribute) :
    let entries := (transition component duration easing start finish).entries
    Entries.get? "duration" entries = duration.map Attribute.toTree ∧
      Entries.get? "easing" entries = easing.map Attribute.toTree ∧
      Entries.get? "from" entries = start.map Attribute.toTree ∧
      Entries.get? "to" entries = finish.map Attribute.toTree := by
  cases duration <;> cases easing <;> cases start <;> cases finish <;> exact ⟨rfl, rfl, rfl, rfl⟩

theorem rel_of_entries {a b : Option Attribute} {entries others : Entries Tree} {key : Text}
    (ha : ∀ x, a = some x → x.Holds IsScalar) (hb : ∀ y, b = some y → y.Holds IsScalar)
    (hentries : Entries.get? key entries = a.map Attribute.toTree)
    (hothers : Entries.get? key others = b.map Attribute.toTree)
    (h : Option.Rel (SameJson same) ((Entries.get? key entries).map Tree.exported)
      ((Entries.get? key others).map Tree.exported)) :
    Option.Rel (Attribute.Same same) a b := by
  rw [hentries, hothers, Option.map_map, Option.map_map] at h
  exact Attribute.rel_of_exported ha hb h

/-- The exported form determines an effect. -/
theorem same_of_exported (he : e.IsWritten) (hf : f.IsWritten)
    (h : SameJson same e.toTree.exported f.toTree.exported) : Effect.Same same e f := by
  have hentry := h.get?
  simp only [Tree.get?_exportedEntries] at hentry
  have htype : e.typeName = f.typeName := by
    have h := hentry "type"
    rw [get?_type he, get?_type hf] at h
    cases h with
    | some h => exact h.text_eq
  have htarget : e.target = f.target := by
    have h := hentry "component"
    rw [get?_component he, get?_component hf] at h
    cases h with
    | some h => exact h.text_eq
  have hto : Text.ofString "transition" ≠ Text.ofString "override" := by decide
  have htt : Text.ofString "transition" ≠ Text.ofString "effect" := by decide
  have hot : Text.ofString "override" ≠ Text.ofString "effect" := by decide
  have hliterals := he.literals
  have hliterals' := hf.literals
  cases e with
  | transition component duration easing start finish =>
    cases f with
    | override => exact absurd htype hto
    | typing => exact absurd htype htt
    | transition component' duration' easing' start' finish' =>
      obtain rfl : component = component' := htarget
      simp only [Holds, List.forall_mem_cons] at hliterals hliterals'
      obtain ⟨hduration, heasing, hstart, hfinish, -⟩ := hliterals
      obtain ⟨hduration', heasing', hstart', hfinish', -⟩ := hliterals'
      obtain ⟨h₁, h₂, h₃, h₄⟩ := get?_transition component duration easing start finish
      obtain ⟨h₁', h₂', h₃', h₄'⟩ := get?_transition component duration' easing' start' finish'
      exact .transition component (rel_of_entries hduration hduration' h₁ h₁' (hentry _))
        (rel_of_entries heasing heasing' h₂ h₂' (hentry _))
        (rel_of_entries hstart hstart' h₃ h₃' (hentry _))
        (rel_of_entries hfinish hfinish' h₄ h₄' (hentry _))
  | override component values =>
    cases f with
    | transition => exact absurd htype.symm hto
    | typing => exact absurd htype hot
    | override component' values' =>
      obtain rfl : component = component' := htarget
      refine .override component fun key => ?_
      by_cases hkey : key ∈ ownKeys
      · rw [get?_values_own he hkey, get?_values_own hf hkey]
        exact .none
      · refine rel_of_entries ?_ ?_ (get?_value he hkey) (get?_value hf hkey) (hentry key)
        · exact fun a ha => hliterals _ (Entries.mem_of_get? ha)
        · exact fun a ha => hliterals' _ (Entries.mem_of_get? ha)
  | typing component duration =>
    cases f with
    | transition => exact absurd htype.symm htt
    | override => exact absurd htype.symm hot
    | typing component' duration' =>
      obtain rfl : component = component' := htarget
      cases hentry "duration" with
      | some h => exact .typing component h

end Effect

def Phase.IsWritten (p : Phase) : Prop := ∀ e ∈ p.effects, e.IsWritten

/-- The exported form determines a phase up to its line. -/
theorem Phase.same_of_exported {p q : Phase} (hp : p.IsWritten) (hq : q.IsWritten)
    (h : SameJson same p.toTree.exported q.toTree.exported) : Phase.Same same p q := by
  have hentry := h.get?
  simp only [Tree.get?_exportedEntries] at hentry
  constructor
  case name =>
    cases hentry "name" with
    | some h => exact h.text_eq
  case effects =>
    cases hentry "effects" with
    | some h =>
      rw [Tree.exported_sequence, Tree.exported_sequence] at h
      exact forall₂_of_lists h fun e he f hf hsame =>
        Effect.same_of_exported (hp e he) (hq f hf) hsame

structure CompiledTemplate.IsWritten (t : CompiledTemplate) : Prop where
  root : t.root.Everywhere Component.IsWritten
  phases : ∀ p ∈ t.phases, p.IsWritten

/-- The exported form determines a compiled template up to lines. -/
theorem CompiledTemplate.same_of_exported {t u : CompiledTemplate} (ht : t.IsWritten)
    (hu : u.IsWritten) (h : SameJson same t.exported u.exported) :
    CompiledTemplate.Same same t u := by
  have hentry := h.get?
  simp only [Tree.get?_exportedEntries] at hentry
  constructor
  case root =>
    cases hentry "root" with
    | some h => exact Component.same_of_exported ht.root hu.root h
  case phases =>
    cases hentry "phases" with
    | some h =>
      rw [Tree.exported_sequence, Tree.exported_sequence] at h
      exact forall₂_of_lists h fun p hp q hq hsame =>
        Phase.same_of_exported (ht.phases p hp) (hu.phases q hq) hsame

end SceneTemplates
