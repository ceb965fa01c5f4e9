import SceneTemplates.Proofs.ExpandedParts
import SceneTemplates.Proofs.ResolvedComponents

/-!
# Well-formed templates

What holds of every compiled template. Each of its components, at any depth, has attributes of its
kind only, so that none of them takes over a slot, and a leaf has no children. Its phases are those
of its phase tags, each with a name and with effects that passed their checks, or the one phase of
a template that declares none.
-/
namespace SceneTemplates

/-! ## Components -/

@[simp] theorem Slot.get?_ofAttributes (key : Text) (attributes : Entries Attribute) :
    Entries.get? key (ofAttributes attributes) =
      (Entries.get? key attributes).map fun a => .tree a.toTree :=
  Entries.get?_map (fun a : Attribute => Slot.tree a.toTree) key attributes

namespace Component

variable {c : Component} {components : List Component}

/-- Every component of a tree has a property. -/
inductive Everywhere (P : Component → Prop) : Component → Prop
  | intro {c : Component} (here : P c) (below : ∀ child ∈ c.children, Everywhere P child) :
      Everywhere P c

theorem Everywhere.here {P : Component → Prop} : c.Everywhere P → P c
  | .intro here _ => here

theorem Everywhere.mono {P Q : Component → Prop} (h : c.Everywhere P) (hPQ : ∀ c, P c → Q c) :
    c.Everywhere Q := by
  induction h with
  | intro here _ ih => exact .intro (hPQ _ here) ih

/-- A component has attributes of its kind only, and a leaf has no children. -/
structure IsWellFormed (c : Component) : Prop where
  proper : c.IsProper
  leaf : c.kind.isContainer = false → c.children = []

/-- Each part of a component is found in its slots under the name of the part: no attribute takes
over another slot. -/
structure KeepsSlots (c : Component) : Prop where
  kind : Entries.get? "kind" c.slots = some (.tree (.text c.kind.tag))
  cond : Entries.get? "cond" c.slots = c.cond.map fun test => .tree (.scalar test)
  id : Entries.get? "id" c.slots = c.id.map fun a => .tree a.toTree
  children : Entries.get? "children" c.slots = if c.kind.isContainer then some .children else none
  fields : ∀ key a, Entries.get? key c.fields = some a →
    Entries.get? key c.slots = some (.tree a.toTree)

theorem IsWellFormed.guard (h : c.IsWellFormed) (test : Value) : (c.guard test).IsWellFormed := by
  refine ⟨h.proper.guard test, ?_⟩
  have hleaf := h.leaf
  unfold Component.guard
  cases c.cond <;> exact hleaf

theorem IsProper.keepsSlots (h : c.IsProper) : c.KeepsSlots := by
  have hslots := slots_eq h
  have hnot : ∀ key, key ∉ Entries.keys c.fields →
      Entries.get? key (Slot.ofAttributes c.fields) = none := by
    intro key hkey
    refine Entries.get?_eq_none ?_
    rwa [Slot.keys_ofAttributes]
  have hkind := hnot "kind" fun hmem => c.kind.not_mem_fields.1 (h.own _ hmem)
  have hcond := hnot "cond" fun hmem => c.kind.not_mem_fields.2 (h.own _ hmem)
  have hid := hnot "id" h.ne_id
  have hchildren := hnot "children" h.ne_children
  constructor
  case kind =>
    rw [hslots, namedSlots, Slot.named, List.cons_append, List.cons_append, Entries.get?,
      if_pos rfl]
  case cond =>
    rw [hslots, Entries.get?_append, Entries.get?_append, hcond, namedSlots, Slot.named, childSlots]
    cases c.cond <;> cases c.id <;> cases c.kind <;> rfl
  case id =>
    rw [hslots, Entries.get?_append, Entries.get?_append, hid, namedSlots, Slot.named, childSlots]
    cases c.cond <;> cases c.id <;> cases c.kind <;> rfl
  case children =>
    rw [hslots, Entries.get?_append, Entries.get?_append, hchildren, namedSlots, Slot.named,
      childSlots]
    cases c.cond <;> cases c.id <;> cases c.kind <;> rfl
  case fields =>
    intro key a ha
    have hnamed : Entries.get? key c.namedSlots = none := by
      refine Entries.get?_eq_none ?_
      intro hmem
      have hkey : key ∈ Entries.keys c.fields := List.mem_map_of_mem (Entries.mem_of_get? ha)
      obtain rfl | rfl | rfl := keys_namedSlots hmem
      · exact c.kind.not_mem_fields.1 (h.own _ hkey)
      · exact c.kind.not_mem_fields.2 (h.own _ hkey)
      · exact h.ne_id hkey
    rw [hslots, Entries.get?_append, Entries.get?_append, hnamed, Slot.get?_ofAttributes, ha]
    rfl

/-- A guard says nothing about the components below. -/
theorem Everywhere.guard {P : Component → Prop} {test : Value} (h : c.Everywhere P)
    (hP : P c → P (c.guard test)) : (c.guard test).Everywhere P := by
  obtain ⟨here, below⟩ := h
  refine .intro (hP here) ?_
  unfold Component.guard
  cases c.cond <;> exact below

/-- A property of all components that are made of parts with a property: the attributes of a tag
give it to the component, and the guards of a conditional keep it. -/
structure IsMade (A : NodePart → Prop) (P : Component → Prop) : Prop where
  guard : ∀ c test, A (.test test) → P c → P (c.guard test) ∧ P (c.guard (negation test))
  tag : ∀ {attrs kind extracted children} {line : Int}, A (.attributes attrs) →
    extractAttributes attrs kind.fields (some line) = .ok extracted →
    (kind.isContainer = false → children = []) →
      P ⟨kind, extracted.get? "id", (extracted.erase "id").erase "children", children, none,
        some line⟩

theorem isMade_wellFormed : IsMade (fun _ => True) IsWellFormed where
  guard _ test _ h := ⟨h.guard test, h.guard _⟩
  tag _ hextracted hleaf := ⟨isProper_of_extracted hextracted, hleaf⟩

end Component

namespace Node

open Component (Everywhere IsMade)

variable {A : NodePart → Prop} {P : Component → Prop}

mutual

/-- The components of a node have what all components have that are made of its parts. -/
theorem components_everywhere (hP : IsMade A P) (node : Node) {components : List Component}
    (hparts : ∀ part ∈ node.parts, A part)
    (h : node.components = .ok components) : ∀ c ∈ components, c.Everywhere P := by
  match node with
  | .block ⟨nodes, _⟩ =>
    rw [parts, Block.parts_mk] at hparts
    exact allComponents_everywhere hP nodes hparts h
  | .tag name attrs ⟨nodes, blockLine⟩ line =>
    rw [parts, Block.parts_mk] at hparts
    by_cases hphase : name.text? = some PhaseTag.tag
    · rw [Node.components, if_pos hphase] at h
      cases h
      exact List.forall_mem_nil _
    · obtain ⟨kind, extracted, children, -, hextracted, hchildren, rfl⟩ :=
        (components_tag_eq_ok hphase).1 h
      have hbelow : ∀ child ∈ children, child.Everywhere P := by
        by_cases hc : kind.isContainer = true
        · rw [if_pos hc] at hchildren
          exact allComponents_everywhere hP nodes
            (fun a ha => hparts a (List.mem_cons_of_mem _ ha)) hchildren
        · rw [if_neg hc] at hchildren
          cases hchildren
          exact List.forall_mem_nil _
      rw [List.forall_mem_singleton]
      refine .intro (hP.tag (hparts _ List.mem_cons_self) hextracted ?_) hbelow
      intro hleaf
      rw [hleaf, if_neg Bool.false_ne_true] at hchildren
      cases hchildren
      rfl
  | .conditional test ⟨nodes, _⟩ alternate _ =>
    rw [parts_conditional, Block.parts_mk] at hparts
    rw [Node.components] at h
    obtain ⟨consequent, hconsequent, h⟩ := Except.bind_eq_ok.1 h
    obtain ⟨others, hothers, hpure⟩ := Except.bind_eq_ok.1 h
    cases hpure
    have hthen := allComponents_everywhere hP nodes (fun a ha =>
      hparts a (List.mem_cons_of_mem _ (List.mem_append_left _ ha))) hconsequent
    have helse := optionalComponents_everywhere hP alternate (fun a ha =>
      hparts a (List.mem_cons_of_mem _ (List.mem_append_right _ ha))) hothers
    have htest := hparts _ List.mem_cons_self
    simp only [List.forall_mem_append, List.forall_mem_map]
    exact ⟨fun c hc => (hthen c hc).guard fun h => (hP.guard c test htest h).1,
      fun c hc => (helse c hc).guard fun h => (hP.guard c test htest h).2⟩
  | .mixin _ _ _ _ _ | .text _ _ | .comment _ _ | .unknown _ _ =>
    cases h
    exact List.forall_mem_nil _

theorem optionalComponents_everywhere (hP : IsMade A P) (node : Option Node)
    {components : List Component}
    (hparts : ∀ part ∈ optionalParts node, A part)
    (h : optionalComponents node = .ok components) : ∀ c ∈ components, c.Everywhere P := by
  match node with
  | none =>
    cases h
    exact List.forall_mem_nil _
  | some node => exact components_everywhere hP node hparts h

theorem allComponents_everywhere (hP : IsMade A P) (nodes : List Node)
    {components : List Component}
    (hparts : ∀ part ∈ allParts nodes, A part)
    (h : allComponents nodes = .ok components) : ∀ c ∈ components, c.Everywhere P := by
  match nodes with
  | [] =>
    cases h
    exact List.forall_mem_nil _
  | node :: rest =>
    rw [allParts] at hparts
    rw [allComponents] at h
    obtain ⟨first, hfirst, h⟩ := Except.bind_eq_ok.1 h
    obtain ⟨others, hothers, hpure⟩ := Except.bind_eq_ok.1 h
    cases hpure
    rw [List.forall_mem_append]
    exact ⟨components_everywhere hP node (fun a ha => hparts a (List.mem_append_left _ ha)) hfirst,
      allComponents_everywhere hP rest (fun a ha => hparts a (List.mem_append_right _ ha)) hothers⟩

end

end Node

/-! ## Effects and phases -/

/-- What matching gives every element of the second list. -/
theorem forall_mem_right {α β : Type} {R : α → β → Prop} {P : β → Prop} {xs : List α}
    {ys : List β} (h : List.Forall₂ R xs ys) (hR : ∀ x ∈ xs, ∀ y, R x y → P y) :
    ∀ y ∈ ys, P y := by
  induction h with
  | nil => exact List.forall_mem_nil _
  | cons hhead _ ih =>
    obtain ⟨hfirst, hrest⟩ := List.forall_mem_cons.1 hR
    exact List.forall_mem_cons.2 ⟨hfirst _ hhead, ih hrest⟩

/-- What is known of an effect when it is compiled has the right kind; an expression is not known
yet. -/
inductive Effect.IsChecked : Effect → Prop
  | transition {component : Text} {duration easing start finish : Option Attribute}
      (hduration : ∀ v, duration = some (.literal v) →
        ∃ n, v = .number n ∧ (Number.int 0).less n = true)
      (heasing : ∀ v, easing = some (.literal v) → ∃ t ∈ PhaseTag.easings, v = .text t)
      (hstart : ∀ v, start = some (.literal v) → ∃ identity entries, v = .mapping identity entries)
      (hfinish : ∀ v, finish = some (.literal v) →
        ∃ identity entries, v = .mapping identity entries) :
      IsChecked (.transition component duration easing start finish)
  | override {component : Text} {values : Entries Attribute}
      (hkeys : ∀ key ∈ Entries.keys values, key ∈ transitionableProperties)
      (hvalues : ∀ key v, (key, Attribute.literal v) ∈ values → ∃ n, v = .number n) :
      IsChecked (.override component values)
  | typing {component : Text} {duration : Number}
      (hduration : (Number.int 0).less duration = true) :
      IsChecked (.typing component duration)

/-- A phase has a name and effects, and each of them is checked. -/
structure Phase.IsDeclared (p : Phase) : Prop where
  name : p.name ≠ []
  effects : p.effects ≠ []
  checked : ∀ e ∈ p.effects, e.IsChecked

namespace PhaseTag

variable {v : Value}

theorem number?_eq_some {n : Number} (h : number? v = some n) : v = .number n := by
  cases v with
  | number m =>
    cases h
    rfl
  | _ => cases h

theorem exists_of_isPositiveNumber (h : isPositiveNumber v = true) :
    ∃ n, v = .number n ∧ (Number.int 0).less n = true := by
  unfold isPositiveNumber at h
  cases hn : number? v with
  | none =>
    rw [hn] at h
    cases h
  | some n =>
    rw [hn] at h
    exact ⟨n, number?_eq_some hn, h⟩

theorem exists_of_isNumber (h : isNumber v = true) : ∃ n, v = .number n := by
  obtain ⟨n, hn⟩ := Option.isSome_iff_exists.1 h
  exact ⟨n, number?_eq_some hn⟩

theorem exists_of_isEasing (h : isEasing v = true) : ∃ t ∈ easings, v = .text t := by
  cases v with
  | text t => exact ⟨t, List.contains_iff_mem.1 h, rfl⟩
  | _ => cases h

theorem exists_of_isMapping (h : isMapping v = true) :
    ∃ identity entries, v = .mapping identity entries := by
  cases v with
  | mapping identity entries => exact ⟨identity, entries, rfl⟩
  | _ => cases h

variable {attrs : Entries Attribute} {tag : Text} {line : Int}

/-- A literal that is checked satisfies the test. -/
theorem passes_of_checked {test : Value → Bool} {key : Text} {found : Option Attribute}
    (h : checked test attrs key tag line = .ok found) :
    ∀ v, found = some (.literal v) → test v = true := by
  unfold checked at h
  split at h
  case h_1 v _ =>
    split at h
    case isTrue hv =>
      cases h
      rintro _ ⟨⟩
      exact hv
    case isFalse => cases h
  case h_2 other hother =>
    cases h
    exact fun v hv => absurd hv (hother v)

theorem exists_of_transition {e : Effect} (h : transition tag attrs line = .ok e) :
    ∃ component duration easing start finish,
      e = .transition component duration easing start finish ∧
      checked isPositiveNumber attrs "duration" tag line = .ok duration ∧
      checked isEasing attrs "easing" tag line = .ok easing ∧
      checked isMapping attrs "from" tag line = .ok start ∧
      checked isMapping attrs "to" tag line = .ok finish := by
  unfold transition at h
  obtain ⟨component, -, h⟩ := Except.bind_eq_ok.1 h
  obtain ⟨duration, hduration, h⟩ := Except.bind_eq_ok.1 h
  obtain ⟨easing, heasing, h⟩ := Except.bind_eq_ok.1 h
  obtain ⟨start, hstart, h⟩ := Except.bind_eq_ok.1 h
  obtain ⟨finish, hfinish, hpure⟩ := Except.bind_eq_ok.1 h
  cases hpure
  exact ⟨component, duration, easing, start, finish, rfl, hduration, heasing, hstart, hfinish⟩

theorem transition_isChecked {e : Effect} (h : transition tag attrs line = .ok e) :
    e.IsChecked := by
  obtain ⟨component, duration, easing, start, finish, rfl, hduration, heasing, hstart, hfinish⟩ :=
    exists_of_transition h
  exact .transition
    (fun v hv => exists_of_isPositiveNumber (passes_of_checked hduration v hv))
    (fun v hv => exists_of_isEasing (passes_of_checked heasing v hv))
    (fun v hv => exists_of_isMapping (passes_of_checked hstart v hv))
    (fun v hv => exists_of_isMapping (passes_of_checked hfinish v hv))

/-- The properties of an override are looked for in their order, and each value is checked. -/
theorem overrideValues_of_ok {keys : List Text} {values : Entries Attribute}
    (h : overrideValues tag attrs line keys = .ok values) :
    (Entries.keys values).Sublist keys ∧
      ∀ entry ∈ values, checked isNumber attrs entry.1 tag line = .ok (some entry.2) := by
  induction keys generalizing values with
  | nil =>
    cases h
    exact ⟨.slnil, List.forall_mem_nil _⟩
  | cons key rest ih =>
    rw [overrideValues] at h
    obtain ⟨found, hfound, h⟩ := Except.bind_eq_ok.1 h
    obtain ⟨others, hothers, hpure⟩ := Except.bind_eq_ok.1 h
    obtain ⟨hkeys, hvalues⟩ := ih hothers
    cases found with
    | none =>
      cases hpure
      exact ⟨hkeys.cons key, hvalues⟩
    | some a =>
      cases hpure
      exact ⟨hkeys.cons_cons key, List.forall_mem_cons.2 ⟨hfound, hvalues⟩⟩

theorem exists_of_override {e : Effect} (h : override tag attrs line = .ok e) :
    ∃ component values, e = .override component values ∧
      overrideValues tag attrs line transitionableProperties = .ok values := by
  unfold override at h
  obtain ⟨component, -, h⟩ := Except.bind_eq_ok.1 h
  obtain ⟨values, hvalues, hpure⟩ := Except.bind_eq_ok.1 h
  cases hpure
  exact ⟨component, values, rfl, hvalues⟩

theorem override_isChecked {e : Effect} (h : override tag attrs line = .ok e) : e.IsChecked := by
  obtain ⟨component, values, rfl, hvalues⟩ := exists_of_override h
  obtain ⟨hkeys, hchecked⟩ := overrideValues_of_ok hvalues
  exact .override (fun _ hkey => hkeys.subset hkey) fun _ v hmem =>
    exists_of_isNumber (passes_of_checked (hchecked _ hmem) v rfl)

/-- A custom effect has nothing but a duration, which is positive. -/
theorem exists_of_custom {e : Effect} (h : custom tag attrs line = .ok e) :
    ∃ component duration, e = .typing component duration ∧
      (Number.int 0).less duration = true := by
  unfold custom at h
  obtain ⟨name, -, h⟩ := Except.bind_eq_ok.1 h
  obtain ⟨component, -, h⟩ := Except.bind_eq_ok.1 h
  by_cases hname : name ≠ Effect.typingName
  · rw [if_pos hname] at h
    cases h
  rw [if_neg hname] at h
  dsimp only at h
  split at h
  case h_1 =>
    cases h
    exact ⟨component, _, rfl, by decide⟩
  case h_2 n _ =>
    split at h
    case isTrue hn =>
      cases h
      exact ⟨component, n, rfl, hn⟩
    case isFalse => cases h
  case h_3 => cases h

/-- An effect is of one of three types. -/
theorem effect_cases {fields : List Text} {attrs : List TagAttribute} {e : Effect}
    (h : effect tag fields attrs line = .ok e) :
    ∃ extracted, extractAttributes attrs fields (some line) = .ok extracted ∧
      (transition tag extracted line = .ok e ∨ override tag extracted line = .ok e ∨
        custom tag extracted line = .ok e) := by
  unfold effect at h
  obtain ⟨extracted, hextracted, h⟩ := Except.bind_eq_ok.1 h
  refine ⟨extracted, hextracted, ?_⟩
  split at h
  · exact .inl h
  · split at h
    · exact .inr (.inl h)
    · exact .inr (.inr h)

theorem effect_isChecked {fields : List Text} {attrs : List TagAttribute} {e : Effect}
    (h : effect tag fields attrs line = .ok e) : e.IsChecked := by
  obtain ⟨extracted, -, h | h | h⟩ := effect_cases h
  · exact transition_isChecked h
  · exact override_isChecked h
  · obtain ⟨component, duration, rfl, hduration⟩ := exists_of_custom h
    exact .typing hduration

/-- A phase is made of the effect tags in its block. -/
theorem exists_of_phase {attrs : List TagAttribute} {block : Block} {p : Phase}
    (h : phase attrs block line = .ok p) :
    ∃ name tags effects, p = ⟨name, effects, some line⟩ ∧ name ≠ [] ∧ tags ≠ [] ∧
      effectTags name block.nodes = .ok tags ∧
      List.Forall₂ (fun t e => effect t.name t.fields t.attrs t.line = .ok e) tags effects := by
  unfold phase at h
  obtain ⟨extracted, -, h⟩ := Except.bind_eq_ok.1 h
  obtain ⟨name, -, h⟩ := Except.bind_eq_ok.1 h
  by_cases hname : name.isEmpty = true
  · rw [if_pos hname] at h
    cases h
  rw [if_neg hname] at h
  obtain ⟨tags, htags, h⟩ := Except.bind_eq_ok.1 h
  by_cases hempty : tags.isEmpty = true
  · rw [if_pos hempty] at h
    cases h
  rw [if_neg hempty] at h
  obtain ⟨effects, heffects, hpure⟩ := Except.bind_eq_ok.1 h
  cases hpure
  exact ⟨name, tags, effects, rfl, fun hnil => hname (List.isEmpty_iff.2 hnil),
    fun hnil => hempty (List.isEmpty_iff.2 hnil), htags, Except.mapM_eq_ok.1 heffects⟩

theorem phase_isDeclared {attrs : List TagAttribute} {block : Block} {p : Phase}
    (h : phase attrs block line = .ok p) : p.IsDeclared := by
  obtain ⟨name, tags, effects, rfl, hname, htags, -, hmade⟩ := exists_of_phase h
  refine ⟨hname, ?_, ?_⟩
  · rintro rfl
    exact htags (List.forall₂_nil_right_iff.1 hmade)
  · exact forall_mem_right hmade fun _ _ _ => effect_isChecked

end PhaseTag

/-! ## Templates -/

/-- What all components have that are made of parts of a template, those of the compiled template
have, if its root does. -/
theorem root_everywhere {A : NodePart → Prop} {P : Component → Prop} (hP : Component.IsMade A P)
    {c : Compiler} {block : Block} {t : CompiledTemplate} (hparts : ∀ part ∈ block.parts, A part)
    (hroot : ∀ children line, P ⟨.zstack, none, [], children, none, some line⟩)
    (h : (c.compile block).1 = .ok t) : t.root.Everywhere P := by
  obtain ⟨⟨nodes, line⟩, hexpanded, ⟨children, hchildren, heq⟩, -⟩ := stands_of_compile h
  have hall := Block.expanded?_parts hparts hexpanded
  rw [Block.parts_mk] at hall
  rw [heq]
  exact .intro (hroot children line) (Node.allComponents_everywhere hP nodes hall hchildren)

theorem components_of_compile {c : Compiler} {block : Block} {t : CompiledTemplate}
    (h : (c.compile block).1 = .ok t) : t.root.Everywhere Component.IsWellFormed := by
  refine root_everywhere Component.isMade_wellFormed (fun _ _ => trivial) (fun _ _ => ?_) h
  exact ⟨⟨List.nodup_nil, List.forall_mem_nil _, List.not_mem_nil, List.not_mem_nil⟩, nofun⟩

/-- A phase of a compiled template is that of a tag, or the one phase of a template that declares
none. -/
theorem exists_tag_of_compile {c : Compiler} {block : Block} {t : CompiledTemplate}
    (h : (c.compile block).1 = .ok t) :
    ∀ p ∈ t.phases, p = PhaseTag.defaultPhase ∨ ∃ tag : PhaseNode, tag.phase = .ok p := by
  obtain ⟨expanded, -, -, phases, htags, hphases⟩ := stands_of_compile h
  rw [hphases]
  split
  · exact List.forall_mem_singleton.2 (.inl rfl)
  · exact forall_mem_right htags fun tag _ p hp => .inr ⟨tag, hp⟩

/-- What holds of a template that is compiled from a block with this expansion. -/
structure CompiledTemplate.IsWellFormed (t : CompiledTemplate) (expanded : Block) : Prop where
  kind : t.root.kind = .zstack
  cond : t.root.cond = none
  components : t.root.Everywhere fun c => c.IsWellFormed ∧ c.KeepsSlots
  phases : t.phases ≠ []
  default : t.phases = [⟨"main", [], none⟩] ↔ expanded.phaseTags = []
  declared : expanded.phaseTags ≠ [] →
    List.Forall₂ (fun tag p => tag.phase = .ok p ∧ p.IsDeclared) expanded.phaseTags t.phases

/-- Every template that compiles is well formed, whatever was compiled before. -/
theorem wellFormed_of_compile {c : Compiler} {block : Block} {t : CompiledTemplate}
    (h : (c.compile block).1 = .ok t) :
    ∃ expanded, block.expanded? = some expanded ∧ t.IsWellFormed expanded := by
  obtain ⟨expanded, hexpanded, ⟨children, hchildren, hroot⟩, phases, htags, hphases⟩ :=
    stands_of_compile h
  have hdeclared : List.Forall₂ (fun tag p => tag.phase = .ok p ∧ p.IsDeclared)
      expanded.phaseTags phases :=
    htags.imp fun _ _ htag => ⟨htag, PhaseTag.phase_isDeclared htag⟩
  have hnil : phases = [] ↔ expanded.phaseTags = [] := by
    rw [← List.length_eq_zero_iff, ← htags.length_eq, List.length_eq_zero_iff]
  refine ⟨expanded, hexpanded, ?_⟩
  constructor
  case kind => rw [hroot]
  case cond => rw [hroot]
  case components =>
    have hwell : t.root.Everywhere Component.IsWellFormed := by
      rw [hroot]
      refine .intro ⟨⟨List.nodup_nil, List.forall_mem_nil _, List.not_mem_nil, List.not_mem_nil⟩,
        fun hleaf => nomatch hleaf⟩ ?_
      exact Node.allComponents_everywhere Component.isMade_wellFormed expanded.nodes
        (fun _ _ => trivial) hchildren
    exact hwell.mono fun c hc => ⟨hc, hc.proper.keepsSlots⟩
  case phases =>
    rw [hphases]
    split
    case isTrue => exact List.cons_ne_nil _ _
    case isFalse hne => exact fun hempty => hne (List.isEmpty_iff.2 hempty)
  case default =>
    rw [hphases, ← hnil, ← List.isEmpty_iff]
    constructor
    · intro hmain
      by_contra hne
      rw [if_neg hne] at hmain
      rw [hmain] at hdeclared
      obtain ⟨tag, _, ⟨-, hp⟩, -⟩ := List.forall₂_cons_right_iff.1 hdeclared
      exact hp.effects rfl
    · intro hempty
      rw [if_pos hempty]
      rfl
  case declared =>
    intro hsome
    have hne : ¬ phases.isEmpty = true := fun hempty => hsome (hnil.1 (List.isEmpty_iff.1 hempty))
    rw [hphases, if_neg hne]
    exact hdeclared

/-- A guarded stack with a title in it, the attributes of the title partly unknown, and a phase
with an effect of each kind. -/
def titleCard : Block :=
  ⟨[.mixin (.text "title") false (some ⟨[.tag (.text "text")
        [⟨.text "id", .text "'title'", 3⟩, ⟨.text "kind", .text "'none'", 3⟩,
          ⟨.text "text", .text "title", 3⟩, ⟨.text "opacity", .number (.int 1), 3⟩] .empty 3], 2⟩)
      .null 2,
    .conditional (.text "title") ⟨[.tag (.text "vstack") [⟨.text "children", .text "none", 5⟩]
      ⟨[.mixin (.text "title") true none .null 6], 5⟩ 5], 4⟩ none 4,
    .tag (.text "phase") [⟨.text "name", .text "'intro'", 7⟩]
      ⟨[.tag (.text "transition") [⟨.text "component", .text "'title'", 8⟩,
          ⟨.text "duration", .text "0.5", 8⟩, ⟨.text "easing", .text "'linear'", 8⟩,
          ⟨.text "to", .text "last", 8⟩] .empty 8,
        .tag (.text "override") [⟨.text "component", .text "'title'", 9⟩,
          ⟨.text "opacity", .text "0", 9⟩] .empty 9,
        .tag (.text "effect") [⟨.text "name", .text "'typing'", 10⟩,
          ⟨.text "component", .text "'title'", 10⟩] .empty 10], 7⟩ 7], 1⟩

theorem wellFormed_of_compile_titleCard :
    ∃ t, (Compiler.initial.compile titleCard).1 = .ok t ∧
      ∃ expanded, titleCard.expanded? = some expanded ∧ t.IsWellFormed expanded := by
  have hsome : (Compiler.initial.compile titleCard).1.toOption.isSome = true := by decide +kernel
  cases hcompile : (Compiler.initial.compile titleCard).1 with
  | error e =>
    rw [hcompile] at hsome
    cases hsome
  | ok t => exact ⟨t, rfl, wellFormed_of_compile hcompile⟩

end SceneTemplates
