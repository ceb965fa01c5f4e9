import SceneTemplates.Proofs.WellFormedTemplates

/-!
# The values that are written in a template

A literal of a compiled template is a value that was written as an attribute, or a text, a number or
a truth value that such a text stands for. So a property of these is one of all literals in the
components and in the effects.
-/
namespace SceneTemplates

variable {P : Value → Prop}

/-- A property of every truth value, number and text. -/
structure Value.OfScalars (P : Value → Prop) : Prop where
  bool : ∀ b, P (.bool b)
  number : ∀ n, P (.number n)
  text : ∀ t, P (.text t)

/-- A property of what an attribute is known to be. -/
def Attribute.Holds (P : Value → Prop) : Attribute → Prop
  | .literal v => P v
  | .dynamic _ => True

structure Component.Holds (P : Value → Prop) (c : Component) : Prop where
  id : ∀ a, c.id = some a → a.Holds P
  fields : ∀ field ∈ c.fields, field.2.Holds P

def Effect.Holds (P : Value → Prop) : Effect → Prop
  | .transition _ duration easing start finish =>
    ∀ found ∈ [duration, easing, start, finish], ∀ a, found = some a → a.Holds P
  | .override _ values => ∀ entry ∈ values, entry.2.Holds P
  | .typing _ _ => True

/-- A property of the values that are written as attributes in a template. -/
def Block.AttributesHold (P : Value → Prop) (block : Block) : Prop :=
  ∀ attrs, NodePart.attributes attrs ∈ block.parts → ∀ attr ∈ attrs, P attr.value

structure CompiledTemplate.Holds (P : Value → Prop) (t : CompiledTemplate) : Prop where
  components : t.root.Everywhere (Component.Holds P)
  effects : ∀ p ∈ t.phases, ∀ e ∈ p.effects, e.Holds P

/-! ## Extraction -/

theorem Attribute.ofText_holds (hP : Value.OfScalars P) {t : Text} {a : Attribute}
    (h : ofText t = .ok a) : a.Holds P := by
  unfold ofText at h
  by_cases htrue : t = "true"
  · rw [if_pos htrue] at h
    cases h
    exact hP.bool true
  rw [if_neg htrue] at h
  by_cases hfalse : t = "false"
  · rw [if_pos hfalse] at h
    cases h
    exact hP.bool false
  rw [if_neg hfalse] at h
  split at h
  case h_1 n _ =>
    cases h
    exact hP.number n
  split at h
  case h_1 body _ =>
    cases h
    exact hP.text _
  split at h
  case h_1 body _ =>
    obtain ⟨decoded, -, rfl⟩ := Except.map_eq_ok.1 h
    exact hP.text decoded
  case h_2 =>
    cases h
    trivial

theorem classify_holds (hP : Value.OfScalars P) {v : Value} {line : Option Int} {a : Attribute}
    (hv : P v) (h : classify v line = .ok a) : a.Holds P := by
  unfold classify at h
  split at h
  · split at h
    · next hread =>
      cases h
      exact Attribute.ofText_holds hP hread
    · cases h
  · cases h
    exact hv

theorem classifyAll_holds (hP : Value.OfScalars P) {line : Option Int} {attrs : List TagAttribute}
    {stored all : Entries Attribute} (hattrs : ∀ attr ∈ attrs, P attr.value)
    (hstored : ∀ entry ∈ stored, entry.2.Holds P) (h : classifyAll line stored attrs = .ok all) :
    ∀ entry ∈ all, entry.2.Holds P := by
  induction attrs generalizing stored with
  | nil =>
    cases h
    exact hstored
  | cons attr rest ih =>
    obtain ⟨hattr, hrest⟩ := List.forall_mem_cons.1 hattrs
    rw [classifyAll] at h
    obtain ⟨a, ha, h⟩ := Except.bind_eq_ok.1 h
    cases hname : attr.name.text? with
    | none =>
      rw [hname] at h
      exact ih hrest hstored h
    | some name =>
      rw [hname] at h
      exact ih hrest (Entries.forall_mem_put hstored (classify_holds hP hattr ha)) h

/-- The attributes of a tag are what is written there. -/
theorem extractAttributes_holds (hP : Value.OfScalars P) {attrs : List TagAttribute}
    {allowed : List Text} {line : Option Int} {extracted : Entries Attribute}
    (hattrs : ∀ attr ∈ attrs, P attr.value)
    (h : extractAttributes attrs allowed line = .ok extracted) :
    ∀ entry ∈ extracted, entry.2.Holds P := by
  unfold extractAttributes at h
  obtain ⟨stored, hstored, rfl⟩ := Except.map_eq_ok.1 h
  intro entry hentry
  exact classifyAll_holds hP hattrs (List.forall_mem_nil _) hstored entry
    (List.mem_filter.1 hentry).1

theorem Component.isMade_holds (hP : Value.OfScalars P) :
    IsMade (fun part => ∀ attrs, part = .attributes attrs → ∀ attr ∈ attrs, P attr.value)
      (Holds P) where
  guard c test _ h := by
    unfold Component.guard
    cases c.cond <;> exact ⟨⟨h.id, h.fields⟩, ⟨h.id, h.fields⟩⟩
  tag hattrs hextracted _ := by
    have hall := extractAttributes_holds hP (hattrs _ rfl) hextracted
    refine ⟨fun a ha => hall _ (Entries.mem_of_get? ha), fun field hfield => hall field ?_⟩
    exact (List.mem_filter.1 (List.mem_filter.1 hfield).1).1

/-! ## Effects -/

namespace PhaseTag

variable {attrs : Entries Attribute} {tag : Text} {line : Int}

theorem checked_holds {test : Value → Bool} {key : Text} {found : Option Attribute}
    (hattrs : ∀ entry ∈ attrs, entry.2.Holds P) (h : checked test attrs key tag line = .ok found) :
    ∀ a, found = some a → a.Holds P := by
  have hfound : found = attrs.get? key := by
    unfold checked at h
    split at h
    case h_1 v hv =>
      split at h
      case isTrue =>
        cases h
        exact hv.symm
      case isFalse => cases h
    case h_2 => exact (Except.ok.inj h).symm
  subst hfound
  exact fun a ha => hattrs _ (Entries.mem_of_get? ha)

theorem effect_holds (hP : Value.OfScalars P) {fields : List Text} {attrs : List TagAttribute}
    {e : Effect} (hattrs : ∀ attr ∈ attrs, P attr.value)
    (h : effect tag fields attrs line = .ok e) : e.Holds P := by
  obtain ⟨extracted, hextracted, h⟩ := effect_cases h
  have hall := extractAttributes_holds hP hattrs hextracted
  obtain h | h | h := h
  · obtain ⟨component, duration, easing, start, finish, rfl, hduration, heasing, hstart, hfinish⟩ :=
      exists_of_transition h
    simp only [Effect.Holds, List.forall_mem_cons]
    exact ⟨checked_holds hall hduration, checked_holds hall heasing, checked_holds hall hstart,
      checked_holds hall hfinish, List.forall_mem_nil _⟩
  · obtain ⟨component, values, rfl, hvalues⟩ := exists_of_override h
    exact fun entry hentry =>
      checked_holds hall ((overrideValues_of_ok hvalues).2 entry hentry) entry.2 rfl
  · obtain ⟨component, duration, rfl, -⟩ := exists_of_custom h
    trivial

/-- The attributes of the effects of a phase stand in its block. -/
theorem mem_parts_of_effectTags {phase : Text} {nodes : List Node} {tags : List EffectTag}
    (h : effectTags phase nodes = .ok tags) :
    ∀ tag ∈ tags, NodePart.attributes tag.attrs ∈ Node.allParts nodes := by
  induction nodes generalizing tags with
  | nil =>
    cases h
    exact List.forall_mem_nil _
  | cons node rest ih =>
    have hrest : ∀ {others}, effectTags phase rest = .ok others →
        ∀ tag ∈ others, NodePart.attributes tag.attrs ∈ Node.allParts (node :: rest) := by
      intro others hothers tag htag
      rw [Node.allParts]
      exact List.mem_append_right _ (ih hothers tag htag)
    cases node with
    | text _ _ | comment _ _ => exact hrest h
    | tag name attrs block line =>
      rw [effectTags] at h
      split at h
      · obtain ⟨others, hothers, hpure⟩ := Except.bind_eq_ok.1 h
        cases hpure
        refine List.forall_mem_cons.2 ⟨?_, hrest hothers⟩
        rw [Node.allParts, Node.parts]
        exact List.mem_append_left _ List.mem_cons_self
      · cases h
    | _ => cases h

theorem phase_holds (hP : Value.OfScalars P) {attrs : List TagAttribute} {block : Block}
    {p : Phase} (hparts : block.AttributesHold P) (h : phase attrs block line = .ok p) :
    ∀ e ∈ p.effects, e.Holds P := by
  obtain ⟨nodes, blockLine⟩ := block
  rw [Block.AttributesHold, Block.parts_mk] at hparts
  obtain ⟨name, tags, effects, rfl, -, -, htags, hmade⟩ := exists_of_phase h
  refine forall_mem_right hmade fun tag htag e he => ?_
  exact effect_holds hP (hparts _ (mem_parts_of_effectTags htags tag htag)) he

end PhaseTag

/-! ## Templates -/

namespace Node

mutual

/-- What stands in a phase tag of a node stands in the node. -/
theorem parts_of_phaseTags (node : Node) : ∀ tag ∈ node.phaseTags, ∀ part ∈ tag.block.parts,
    part ∈ node.parts := by
  match node with
  | .block ⟨nodes, _⟩ =>
    rw [phaseTags, parts, Block.parts_mk]
    exact parts_of_allPhaseTags nodes
  | .tag name attrs ⟨nodes, blockLine⟩ line =>
    rw [phaseTags, parts, Block.parts_mk]
    split
    · rw [List.forall_mem_singleton, Block.parts_mk]
      exact fun part hpart => List.mem_cons_of_mem _ hpart
    · split
      · exact fun tag htag part hpart =>
          List.mem_cons_of_mem _ (parts_of_allPhaseTags nodes tag htag part hpart)
      · exact List.forall_mem_nil _
  | .conditional test ⟨nodes, _⟩ alternate _ =>
    rw [phaseTags, parts_conditional, Block.parts_mk, List.forall_mem_append]
    constructor
    · exact fun tag htag part hpart => List.mem_cons_of_mem _
        (List.mem_append_left _ (parts_of_allPhaseTags nodes tag htag part hpart))
    · exact fun tag htag part hpart => List.mem_cons_of_mem _
        (List.mem_append_right _ (parts_of_optionalPhaseTags alternate tag htag part hpart))
  | .mixin _ _ _ _ _ | .text _ _ | .comment _ _ | .unknown _ _ => exact List.forall_mem_nil _

theorem parts_of_optionalPhaseTags (node : Option Node) :
    ∀ tag ∈ optionalPhaseTags node, ∀ part ∈ tag.block.parts, part ∈ optionalParts node := by
  match node with
  | none => exact List.forall_mem_nil _
  | some node => exact parts_of_phaseTags node

theorem parts_of_allPhaseTags (nodes : List Node) :
    ∀ tag ∈ allPhaseTags nodes, ∀ part ∈ tag.block.parts, part ∈ allParts nodes := by
  match nodes with
  | [] => exact List.forall_mem_nil _
  | node :: rest =>
    rw [allPhaseTags, allParts, List.forall_mem_append]
    constructor
    · exact fun tag htag part hpart =>
        List.mem_append_left _ (parts_of_phaseTags node tag htag part hpart)
    · exact fun tag htag part hpart =>
        List.mem_append_right _ (parts_of_allPhaseTags rest tag htag part hpart)

end

end Node

/-- A property of all values that are written as attributes in a template, and of texts, numbers and
truth values, is one of all literals of the compiled template. -/
theorem holds_of_compile (hP : Value.OfScalars P) {c : Compiler} {block : Block}
    {t : CompiledTemplate} (hparts : block.AttributesHold P) (h : (c.compile block).1 = .ok t) :
    t.Holds P := by
  have hpart : ∀ part ∈ block.parts, ∀ attrs, part = .attributes attrs →
      ∀ attr ∈ attrs, P attr.value := by
    rintro _ hpart attrs rfl
    exact hparts attrs hpart
  constructor
  case components =>
    exact root_everywhere (Component.isMade_holds hP) hpart
      (fun _ _ => ⟨nofun, List.forall_mem_nil _⟩) h
  case effects =>
    obtain ⟨⟨nodes, line⟩, hexpanded, -, phases, htags, hphases⟩ := stands_of_compile h
    have hall := Block.expanded?_parts hpart hexpanded
    rw [Block.parts_mk] at hall
    have hmade : ∀ p ∈ phases, ∀ e ∈ p.effects, e.Holds P := by
      refine forall_mem_right htags fun tag htag p hp => PhaseTag.phase_holds hP ?_ hp
      exact fun attrs hattrs =>
        hall _ (Node.parts_of_allPhaseTags nodes tag htag _ hattrs) attrs rfl
    rw [hphases]
    split
    · rw [List.forall_mem_singleton]
      exact List.forall_mem_nil _
    · exact hmade

end SceneTemplates
