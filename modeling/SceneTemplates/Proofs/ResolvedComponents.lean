import SceneTemplates.Proofs.Expansion
import SceneTemplates.Proofs.ResolvedTrees

/-!
# Resolved components

A compiled component has attributes of its kind only, each once, apart from its identifier and its
children. So no attribute takes over a slot, and the data of a component is its kind, its
identifier, its attributes and its children, in this order.
-/
namespace SceneTemplates

/-! ## Keys -/

namespace Entries

variable {α : Type} {key : Text} {entries : Entries α}

@[simp] theorem put_of_not_mem (value : α) (h : key ∉ keys entries) :
    put key value entries = entries ++ [(key, value)] := by
  induction entries with
  | nil => rfl
  | cons entry rest ih =>
    obtain ⟨hne, hrest⟩ := List.ne_and_not_mem_of_not_mem_cons h
    rw [put, if_neg (Ne.symm hne), ih hrest]
    rfl

@[simp] theorem get?_eq_none (h : key ∉ keys entries) : get? key entries = none := by
  induction entries with
  | nil => rfl
  | cons entry rest ih =>
    obtain ⟨hne, hrest⟩ := List.ne_and_not_mem_of_not_mem_cons h
    rw [get?, if_neg (Ne.symm hne), ih hrest]

@[simp] theorem get?_append (key : Text) (first second : Entries α) :
    get? key (first ++ second) = (get? key first).or (get? key second) := by
  induction first with
  | nil => simp [get?]
  | cons entry rest ih =>
    by_cases h : entry.1 = key
    · simp [get?, h]
    · simp [get?, h, ih]

theorem mem_keys_put {other : Text} {value : α} (h : other ∈ keys (put key value entries)) :
    other = key ∨ other ∈ keys entries := by
  induction entries with
  | nil => exact .inl (List.mem_singleton.1 h)
  | cons entry rest ih =>
    obtain ⟨k, former⟩ := entry
    by_cases hk : k = key
    · rw [put, if_pos hk] at h
      exact .inr h
    · rw [put, if_neg hk] at h
      obtain hhead | hrest := List.mem_cons.1 h
      · exact .inr (hhead ▸ List.mem_cons_self)
      · exact (ih hrest).imp id (List.mem_cons_of_mem _)

theorem mem_keys_putAll {other : Text} {added : Entries α}
    (h : other ∈ keys (putAll added entries)) : other ∈ keys added ∨ other ∈ keys entries := by
  induction added generalizing entries with
  | nil => exact .inr h
  | cons entry rest ih =>
    obtain hrest | hmem := ih h
    · exact .inl (List.mem_cons_of_mem _ hrest)
    · obtain rfl | hmem := mem_keys_put hmem
      · exact .inl List.mem_cons_self
      · exact .inr hmem

/-- Entries with different keys are found in what they are stored in. -/
theorem get?_putAll {added : Entries α} (h : (keys added).Nodup) (key : Text)
    (entries : Entries α) :
    get? key (putAll added entries) = (get? key added).or (get? key entries) := by
  induction added generalizing entries with
  | nil => rfl
  | cons entry rest ih =>
    obtain ⟨hfirst, hrest⟩ := List.nodup_cons.1 h
    have hput : get? key (putAll (entry :: rest) entries) =
        (get? key rest).or (get? key (put entry.1 entry.2 entries)) := ih hrest _
    rw [hput, get?]
    by_cases hkey : entry.1 = key
    · subst hkey
      simp [get?_eq_none hfirst]
    · simp [hkey, Ne.symm hkey]

theorem nodup_keys_put (value : α) (h : (keys entries).Nodup) :
    (keys (put key value entries)).Nodup := by
  induction entries with
  | nil => exact List.nodup_cons.2 ⟨List.not_mem_nil, List.nodup_nil⟩
  | cons entry rest ih =>
    obtain ⟨k, former⟩ := entry
    obtain ⟨hk, hrest⟩ := List.nodup_cons.1 h
    by_cases heq : k = key
    · rw [put, if_pos heq]
      exact h
    · rw [put, if_neg heq]
      refine List.nodup_cons.2 ⟨?_, ih hrest⟩
      intro hmem
      obtain hsame | hmem := mem_keys_put hmem
      · exact heq hsame
      · exact hk hmem

theorem keys_erase_sublist (key : Text) (entries : Entries α) :
    (keys (erase key entries)).Sublist (keys entries) :=
  List.filter_sublist.map _

theorem not_mem_keys_erase (key : Text) (entries : Entries α) : key ∉ keys (erase key entries) := by
  intro h
  obtain ⟨entry, hentry, rfl⟩ := List.mem_map.1 h
  have hne := (List.mem_filter.1 hentry).2
  simp at hne

end Entries

theorem classifyAll_nodup {line : Option Int} {attrs : List TagAttribute}
    {stored all : Entries Attribute} (h : classifyAll line stored attrs = .ok all)
    (hs : (Entries.keys stored).Nodup) : (Entries.keys all).Nodup := by
  induction attrs generalizing stored with
  | nil =>
    cases h
    exact hs
  | cons attr rest ih =>
    rw [classifyAll] at h
    obtain ⟨a, -, h⟩ := Except.bind_eq_ok.1 h
    cases hname : attr.name.text? with
    | none =>
      rw [hname] at h
      exact ih h hs
    | some name =>
      rw [hname] at h
      exact ih h (Entries.nodup_keys_put a hs)

/-- The attributes of a tag have allowed names, each once. -/
theorem extractAttributes_keys {attrs : List TagAttribute} {allowed : List Text}
    {line : Option Int} {extracted : Entries Attribute}
    (h : extractAttributes attrs allowed line = .ok extracted) :
    (Entries.keys extracted).Nodup ∧ ∀ key ∈ Entries.keys extracted, key ∈ allowed := by
  unfold extractAttributes at h
  obtain ⟨stored, hstored, rfl⟩ := Except.map_eq_ok.1 h
  constructor
  · have hsublist : (Entries.keys (stored.filter fun entry => entry.1 ∈ allowed)).Sublist
        (Entries.keys stored) := List.filter_sublist.map _
    exact hsublist.nodup (classifyAll_nodup hstored List.nodup_nil)
  · intro key hkey
    obtain ⟨entry, hentry, rfl⟩ := List.mem_map.1 hkey
    exact of_decide_eq_true (List.mem_filter.1 hentry).2

/-! ## Slots -/

/-- The attributes of a component are those of its kind, each once, without the identifier and the
children. -/
structure Component.IsProper (c : Component) : Prop where
  nodup : (Entries.keys c.fields).Nodup
  own : ∀ key ∈ Entries.keys c.fields, key ∈ c.kind.fields
  ne_id : Text.ofString "id" ∉ Entries.keys c.fields
  ne_children : Text.ofString "children" ∉ Entries.keys c.fields

/-- The component that is made of the attributes of a tag. -/
theorem Component.isProper_of_extracted {attrs : List TagAttribute} {kind : ComponentKind}
    {line : Option Int} {extracted : Entries Attribute} {children : List Component}
    (h : extractAttributes attrs kind.fields line = .ok extracted) :
    (⟨kind, extracted.get? "id", (extracted.erase "id").erase "children", children, none, line⟩ :
      Component).IsProper := by
  obtain ⟨hnodup, hown⟩ := extractAttributes_keys h
  have hid := Entries.keys_erase_sublist "id" extracted
  have hchildren := Entries.keys_erase_sublist "children" (extracted.erase "id")
  refine ⟨(hchildren.trans hid).nodup hnodup, ?_, ?_, ?_⟩
  · intro key hkey
    exact hown key ((hchildren.trans hid).subset hkey)
  · intro hkey
    exact Entries.not_mem_keys_erase "id" extracted (hchildren.subset hkey)
  · exact Entries.not_mem_keys_erase "children" (extracted.erase "id")

/-- No kind has an attribute that is called as its kind or its test. -/
theorem ComponentKind.not_mem_fields (kind : ComponentKind) :
    Text.ofString "kind" ∉ kind.fields ∧ Text.ofString "cond" ∉ kind.fields := by
  cases kind <;> decide +kernel

namespace Slot

/-- The slots of attributes. -/
def ofAttributes (attributes : Entries Attribute) : Entries Slot :=
  attributes.map fun a => (a.1, .tree a.2.toTree)

@[simp] theorem keys_ofAttributes (attributes : Entries Attribute) :
    Entries.keys (ofAttributes attributes) = Entries.keys attributes := by
  simp [Entries.keys, ofAttributes]

/-- An entry that is there only if the tree is. -/
def optional (key : Text) : Option Tree → Entries Slot
  | some t => [(key, .tree t)]
  | none => []

@[simp] theorem putOptional_of_not_mem {key : Text} {slots : Entries Slot} (t : Option Tree)
    (h : key ∉ Entries.keys slots) : putOptional key t slots = slots ++ optional key t := by
  cases t with
  | none => exact (List.append_nil slots).symm
  | some t => exact Entries.put_of_not_mem _ h

theorem keys_optional {key k : Text} {t : Option Tree} (h : key ∈ Entries.keys (optional k t)) :
    key = k := by
  cases t with
  | none => cases h
  | some t => exact List.mem_singleton.1 h

theorem putAll_of_disjoint {fields : Entries Tree} {slots : Entries Slot}
    (hn : (Entries.keys fields).Nodup)
    (hd : ∀ key ∈ Entries.keys fields, key ∉ Entries.keys slots) :
    putAll fields slots = slots ++ fields.map fun field => (field.1, .tree field.2) := by
  induction fields generalizing slots with
  | nil => exact (List.append_nil slots).symm
  | cons field rest ih =>
    obtain ⟨hfirst, hrest⟩ := List.nodup_cons.1 hn
    have hput : Entries.put field.1 (.tree field.2) slots = slots ++ [(field.1, .tree field.2)] :=
      Entries.put_of_not_mem _ (hd _ List.mem_cons_self)
    have hdisjoint : ∀ key ∈ Entries.keys rest,
        key ∉ Entries.keys (slots ++ [(field.1, Slot.tree field.2)]) := by
      intro key hkey hmem
      rw [Entries.keys, List.map_append, List.mem_append] at hmem
      obtain hmem | hmem := hmem
      · exact hd key (List.mem_cons_of_mem _ hkey) hmem
      · rw [List.map_singleton, List.mem_singleton] at hmem
        subst hmem
        exact hfirst hkey
    show putAll rest (Entries.put field.1 (.tree field.2) slots) = _
    rw [hput, ih hrest hdisjoint, List.append_assoc]
    rfl

end Slot

/-- The slots that the children take: none in a leaf. -/
def Component.childSlots (kind : ComponentKind) : Entries Slot :=
  if kind.isContainer then [(Text.ofString "children", .children)] else []

namespace Slot

variable {kind : ComponentKind} {cond id : Option Tree} {fields : Entries Tree}

/-- The slots of a component that are no attributes of its kind: its kind, its test and its
identifier. -/
def named (kind : ComponentKind) (cond id : Option Tree) : Entries Slot :=
  ("kind", .tree (.text kind.tag)) :: (optional "cond" cond ++ optional "id" id)

theorem keys_named {key : Text} (h : key ∈ Entries.keys (named kind cond id)) :
    key = "kind" ∨ key = "cond" ∨ key = "id" := by
  rw [named, Entries.keys, List.map_cons, List.map_append, List.mem_cons, List.mem_append] at h
  obtain h | h | h := h
  · exact .inl h
  · exact .inr (.inl (keys_optional h))
  · exact .inr (.inr (keys_optional h))

theorem putOptional_named (kind : ComponentKind) (cond id : Option Tree) :
    putOptional "id" id (putOptional "cond" cond [("kind", .tree (.text kind.tag))]) =
      named kind cond id := by
  have hcond : Text.ofString "cond" ≠ Text.ofString "kind" := by decide
  have hid : Text.ofString "id" ≠ Text.ofString "kind" := by decide
  have hid' : Text.ofString "id" ≠ Text.ofString "cond" := by decide
  rw [@putOptional_of_not_mem "cond", putOptional_of_not_mem]
  · rfl
  · intro hmem
    obtain hmem | hmem := List.mem_cons.1 hmem
    · exact hid hmem
    · exact hid' (keys_optional hmem)
  · intro hmem
    exact hcond (List.mem_singleton.1 hmem)

/-- What a component has beside its attributes. -/
def reservedKeys : List Text := ["kind", "cond", "id", "children"]

/-- Attributes that are there once and take over no slot stand behind the named slots, and the
children behind them. -/
theorem ofComponent_eq (hn : (Entries.keys fields).Nodup)
    (hkeys : ∀ key ∈ Entries.keys fields, key ∉ reservedKeys) :
    ofComponent kind cond id fields =
      named kind cond id ++ fields.map (fun field => (field.1, .tree field.2)) ++
        Component.childSlots kind := by
  have hfields : putAll fields (named kind cond id) =
      named kind cond id ++ fields.map fun field => (field.1, .tree field.2) := by
    refine putAll_of_disjoint hn fun key hkey hmem => hkeys key hkey ?_
    obtain rfl | rfl | rfl := keys_named hmem <;> decide
  show (if kind.isContainer then Entries.put "children" .children (putAll fields _)
    else putAll fields _) = _
  rw [putOptional_named, hfields, Component.childSlots]
  split
  · refine Entries.put_of_not_mem _ ?_
    intro hmem
    rw [Entries.keys, List.map_append, List.map_map, List.mem_append] at hmem
    obtain hmem | hmem := hmem
    · have hne : ¬ (Text.ofString "children" = "kind" ∨ Text.ofString "children" = "cond" ∨
          Text.ofString "children" = "id") := by decide
      exact hne (keys_named hmem)
    · exact hkeys "children" hmem (by decide)
  · exact (List.append_nil _).symm

end Slot

namespace Component

variable {c : Component}

def namedSlots (c : Component) : Entries Slot :=
  Slot.named c.kind (c.cond.map .scalar) (c.id.map Attribute.toTree)

theorem keys_namedSlots {key : Text} (h : key ∈ Entries.keys c.namedSlots) :
    key = "kind" ∨ key = "cond" ∨ key = "id" :=
  Slot.keys_named h

@[simp] theorem keys_toTrees (fields : Entries Attribute) :
    Entries.keys (Attribute.toTrees fields) = Entries.keys fields := by
  simp [Entries.keys, Attribute.toTrees]

theorem IsProper.not_reserved (h : c.IsProper) :
    ∀ key ∈ Entries.keys c.fields, key ∉ Slot.reservedKeys := by
  intro key hkey hmem
  simp only [Slot.reservedKeys, List.mem_cons, List.not_mem_nil, or_false] at hmem
  obtain rfl | rfl | rfl | rfl := hmem
  · exact c.kind.not_mem_fields.1 (h.own _ hkey)
  · exact c.kind.not_mem_fields.2 (h.own _ hkey)
  · exact h.ne_id hkey
  · exact h.ne_children hkey

/-- The slots of a component with proper attributes, in order. -/
theorem slots_eq (h : c.IsProper) :
    c.slots = c.namedSlots ++ Slot.ofAttributes c.fields ++ childSlots c.kind := by
  have hkeys := keys_toTrees c.fields
  have hmap : (Attribute.toTrees c.fields).map (fun field => (field.1, Slot.tree field.2)) =
      Slot.ofAttributes c.fields := by
    simp [Attribute.toTrees, Slot.ofAttributes]
  rw [slots, Slot.ofComponent_eq (hkeys ▸ h.nodup) (hkeys ▸ h.not_reserved), hmap]
  rfl

end Component

/-! ## Data -/

namespace Attribute

/-- The value of an attribute: a literal as it stands, an expression without undefined parts. -/
def value (outcome : Outcomes) : Attribute → Except ExpressionError Value
  | .literal v => .ok v
  | .dynamic source => do return (← outcome source).plain

def values (outcome : Outcomes) : Entries Attribute → Except ExpressionError (Entries Value)
  | [] => .ok []
  | (key, a) :: rest => do
    let v ← a.value outcome
    let others ← values outcome rest
    return (key, v) :: others

@[simp] theorem toTree_resolved (outcome : Outcomes) (a : Attribute) :
    a.toTree.resolved outcome = a.value outcome := by
  cases a with
  | literal v =>
    rw [toTree, Tree.resolved]
    rfl
  | dynamic source =>
    rw [toTree, Tree.resolved]
    rfl

end Attribute

namespace Tree

variable {outcome : Outcomes} {children : Except ExpressionError Value}

theorem resolvedSlots_append_eq_ok {first second : Entries Slot} {all : Entries Value} :
    resolvedSlots outcome children (first ++ second) = .ok all ↔
      ∃ a b, resolvedSlots outcome children first = .ok a ∧
        resolvedSlots outcome children second = .ok b ∧ all = a ++ b := by
  induction first generalizing all with
  | nil =>
    constructor
    · exact fun h => ⟨[], all, rfl, h, rfl⟩
    · rintro ⟨a, b, ha, hb, rfl⟩
      cases ha
      exact hb
  | cons entry rest ih =>
    obtain ⟨key, slot⟩ := entry
    rw [List.cons_append, resolvedSlots_cons, resolvedSlots_cons]
    by_cases hkey : key = Resolution.testKey
    · rw [if_pos hkey, if_pos hkey]
      exact ih
    · rw [if_neg hkey, if_neg hkey]
      constructor
      · intro h
        obtain ⟨v, hv, h⟩ := Except.bind_eq_ok.1 h
        obtain ⟨others, hothers, h⟩ := Except.bind_eq_ok.1 h
        cases h
        obtain ⟨a, b, ha, hb, rfl⟩ := ih.1 hothers
        exact ⟨(key, v) :: a, b, Except.bind_eq_ok.2 ⟨v, hv, Except.bind_eq_ok.2 ⟨a, ha, rfl⟩⟩,
          hb, rfl⟩
      · rintro ⟨a, b, ha, hb, rfl⟩
        obtain ⟨v, hv, ha⟩ := Except.bind_eq_ok.1 ha
        obtain ⟨others, hothers, ha⟩ := Except.bind_eq_ok.1 ha
        cases ha
        have hrest := ih.2 ⟨others, b, hothers, hb, rfl⟩
        exact Except.bind_eq_ok.2 ⟨v, hv, Except.bind_eq_ok.2 ⟨_, hrest, rfl⟩⟩

/-- The test of a component is not part of its data. -/
theorem resolvedSlots_optional_test (t : Option Tree) (slots : Entries Slot) :
    resolvedSlots outcome children (Slot.optional Resolution.testKey t ++ slots) =
      resolvedSlots outcome children slots := by
  cases t with
  | none => rfl
  | some t => rw [Slot.optional, List.singleton_append, resolvedSlots_cons, if_pos rfl]

theorem resolvedSlots_attributes {attributes : Entries Attribute}
    (htest : Resolution.testKey ∉ Entries.keys attributes)
    (hchildren : Resolution.childrenKey ∉ Entries.keys attributes) :
    resolvedSlots outcome children (Slot.ofAttributes attributes) =
      Attribute.values outcome attributes := by
  induction attributes with
  | nil => rfl
  | cons entry rest ih =>
    obtain ⟨key, a⟩ := entry
    obtain ⟨hne, htest⟩ := List.ne_and_not_mem_of_not_mem_cons htest
    obtain ⟨hne', hchildren⟩ := List.ne_and_not_mem_of_not_mem_cons hchildren
    rw [Slot.ofAttributes, List.map_cons, resolvedSlots_cons, if_neg (Ne.symm hne),
      if_neg (Ne.symm hne'), resolvedSlot, Attribute.toTree_resolved]
    rw [← Slot.ofAttributes, ih htest hchildren]
    rfl

end Tree

namespace Component

variable {outcome : Outcomes} {c : Component}

/-- The attributes of a component in the order of its data. -/
def attributes (c : Component) : Entries Attribute :=
  (match c.id with
    | some a => [(Text.ofString "id", a)]
    | none => []) ++ c.fields

def condHolds (outcome : Outcomes) : Option Value → Except ExpressionError Bool
  | some test => Tree.valueHolds outcome test
  | none => .ok true

/-- The data of a component that is present. -/
def body (outcome : Outcomes) (c : Component) : Except ExpressionError Value := do
  let children : Except ExpressionError Value := do
    return Value.newList (← Tree.resolvedItems outcome (toTrees c.children))
  let values ← Tree.resolvedSlots outcome children c.slots
  return Value.newMapping values

theorem toTree_eq (c : Component) : c.toTree = .component c.slots (toTrees c.children) c.line := by
  cases c
  rw [toTree]
  rfl

theorem slots_attributes (h : c.IsProper) :
    c.slots = (Text.ofString "kind", .tree (.text c.kind.tag)) ::
      (Slot.optional Resolution.testKey (c.cond.map .scalar) ++
        (Slot.ofAttributes c.attributes ++ childSlots c.kind)) := by
  rw [slots_eq h, namedSlots, Slot.named, attributes, Resolution.testKey]
  cases c.id <;> simp [Slot.optional, Slot.ofAttributes]

theorem not_mem_attributes {key : Text} (hid : key ≠ "id") (hfields : key ∉ Entries.keys c.fields) :
    key ∉ Entries.keys c.attributes := by
  intro h
  rw [attributes, Entries.keys, List.map_append, List.mem_append] at h
  obtain h | h := h
  · cases hc : c.id with
    | none =>
      rw [hc] at h
      cases h
    | some a =>
      rw [hc] at h
      exact hid (List.mem_singleton.1 h)
  · exact hfields h

theorem IsProper.test_not_mem (h : c.IsProper) :
    Resolution.testKey ∉ Entries.keys c.attributes := by
  have hid : Resolution.testKey ≠ Text.ofString "id" := by decide
  exact not_mem_attributes hid fun hmem => c.kind.not_mem_fields.2 (h.own _ hmem)

theorem IsProper.children_not_mem (h : c.IsProper) :
    Resolution.childrenKey ∉ Entries.keys c.attributes := by
  have hid : Resolution.childrenKey ≠ Text.ofString "id" := by decide
  exact not_mem_attributes hid h.ne_children

theorem slotsHold_slots (h : c.IsProper) :
    Tree.slotsHold outcome c.slots = condHolds outcome c.cond := by
  have hkind : ¬ Text.ofString "kind" = Resolution.testKey := by decide
  have hchildren : ¬ Resolution.testKey = Text.ofString "children" := by decide
  unfold Tree.slotsHold
  rw [slots_attributes h, Entries.get?, if_neg hkind]
  cases c.cond with
  | some test =>
    rw [Option.map_some, Slot.optional, List.singleton_append, Entries.get?, if_pos rfl]
    rfl
  | none =>
    have hnone : Entries.get? Resolution.testKey
        (Slot.ofAttributes c.attributes ++ childSlots c.kind) = none := by
      refine Entries.get?_eq_none ?_
      intro hmem
      rw [Entries.keys, List.map_append, List.mem_append] at hmem
      obtain hmem | hmem := hmem
      · have hattributes := Slot.keys_ofAttributes c.attributes
        exact h.test_not_mem (hattributes ▸ hmem)
      · rw [childSlots] at hmem
        split at hmem
        · exact hchildren (List.mem_singleton.1 hmem)
        · cases hmem
    rw [Option.map_none, Slot.optional, List.nil_append, hnone]
    rfl

/-- A component is its data or null, as its test decides. -/
theorem toTree_resolved (h : c.IsProper) :
    c.toTree.resolved outcome =
      (do if ← condHolds outcome c.cond then c.body outcome else return .null :
        Except ExpressionError Value).mapError fun e => e.withLine c.line := by
  rw [toTree_eq, Tree.resolved, slotsHold_slots h]
  rfl

theorem resolvedSlots_slots (h : c.IsProper) (children : Except ExpressionError Value) :
    Tree.resolvedSlots outcome children c.slots =
      Tree.resolvedSlots outcome children ((Text.ofString "kind", .tree (.text c.kind.tag)) ::
        (Slot.ofAttributes c.attributes ++ childSlots c.kind)) := by
  rw [slots_attributes h, Tree.resolvedSlots_cons, Tree.resolvedSlots_optional_test,
    ← Tree.resolvedSlots_cons]

/-- What the children add to the data of a component: nothing in a leaf. -/
def childData (kind : ComponentKind) (children : List Value) : Entries Value :=
  if kind.isContainer then [("children", Value.newList children)] else []

theorem resolvedSlots_childSlots_eq_ok {kind : ComponentKind}
    {children : Except ExpressionError (List Value)} {below : Entries Value}
    (hleaf : kind.isContainer = false → children = .ok []) :
    Tree.resolvedSlots outcome (do return Value.newList (← children)) (childSlots kind) =
        .ok below ↔
      ∃ items, children = .ok items ∧ below = childData kind items := by
  have htest : ¬ Text.ofString "children" = Resolution.testKey := by decide
  cases hc : kind.isContainer with
  | false =>
    have hchildren := hleaf hc
    rw [childSlots, hc, if_neg Bool.false_ne_true, hchildren]
    constructor
    · intro h
      cases h
      exact ⟨[], rfl, by rw [childData, hc, if_neg Bool.false_ne_true]⟩
    · rintro ⟨items, hitems, rfl⟩
      cases hitems
      rw [childData, hc, if_neg Bool.false_ne_true]
      rfl
  | true =>
    have hkey : Text.ofString "children" = Resolution.childrenKey := rfl
    have hdata : ∀ items,
        childData kind items = [(Text.ofString "children", Value.newList items)] := by
      intro items
      rw [childData, hc, if_pos rfl]
    rw [childSlots, hc, if_pos rfl, Tree.resolvedSlots_cons, if_neg htest, if_pos hkey]
    cases children with
    | error e =>
      constructor
      · intro h
        cases h
      · rintro ⟨items, hitems, -⟩
        cases hitems
    | ok items =>
      constructor
      · intro h
        cases h
        exact ⟨items, rfl, (hdata items).symm⟩
      · rintro ⟨items', hitems, rfl⟩
        cases hitems
        rw [hdata]
        rfl

/-- The data of a component are its kind, its attributes and its children. -/
theorem body_eq_ok (h : c.IsProper) (hleaf : c.kind.isContainer = false → c.children = [])
    {v : Value} :
    c.body outcome = .ok v ↔
      ∃ values items, Attribute.values outcome c.attributes = .ok values ∧
        Tree.resolvedItems outcome (toTrees c.children) = .ok items ∧
        v = Value.newMapping (("kind", .text c.kind.tag) ::
          (values ++ childData c.kind items)) := by
  have htest : ¬ Text.ofString "kind" = Resolution.testKey := by decide
  have hchildren : ¬ Text.ofString "kind" = Resolution.childrenKey := by decide
  have hleaf' : c.kind.isContainer = false →
      Tree.resolvedItems outcome (toTrees c.children) = .ok [] := by
    intro hc
    rw [hleaf hc]
    rfl
  unfold body
  dsimp only
  rw [resolvedSlots_slots h, Tree.resolvedSlots_cons, if_neg htest, if_neg hchildren,
    Tree.resolvedSlot]
  constructor
  · intro hbody
    obtain ⟨all, hall, hpure⟩ := Except.bind_eq_ok.1 hbody
    cases hpure
    obtain ⟨tag, htag, hall⟩ := Except.bind_eq_ok.1 hall
    obtain ⟨others, hothers, hpure⟩ := Except.bind_eq_ok.1 hall
    cases hpure
    obtain ⟨values, below, hvalues, hbelow, rfl⟩ := Tree.resolvedSlots_append_eq_ok.1 hothers
    rw [Tree.resolvedSlots_attributes h.test_not_mem h.children_not_mem] at hvalues
    obtain ⟨items, hitems, rfl⟩ := (resolvedSlots_childSlots_eq_ok hleaf').1 hbelow
    rw [Tree.text, Tree.resolved] at htag
    cases htag
    exact ⟨values, items, hvalues, hitems, rfl⟩
  · rintro ⟨values, items, hvalues, hitems, rfl⟩
    have hbelow :=
      (@resolvedSlots_childSlots_eq_ok outcome c.kind _ _ hleaf').2 ⟨items, hitems, rfl⟩
    have hall := Tree.resolvedSlots_append_eq_ok.2 ⟨values, childData c.kind items,
      (Tree.resolvedSlots_attributes h.test_not_mem h.children_not_mem).trans hvalues, hbelow, rfl⟩
    rw [Tree.text, Tree.resolved, hall]
    rfl

theorem IsProper.guard (h : c.IsProper) (test : Value) : (c.guard test).IsProper := by
  unfold Component.guard
  cases c.cond with
  | none => exact ⟨h.nodup, h.own, h.ne_id, h.ne_children⟩
  | some cond => exact ⟨h.nodup, h.own, h.ne_id, h.ne_children⟩

/-- A guard decides about a component and does not touch its data. -/
@[simp] theorem body_guard (h : c.IsProper) (test : Value) :
    (c.guard test).body outcome = c.body outcome := by
  unfold body
  dsimp only
  rw [resolvedSlots_slots h, resolvedSlots_slots (h.guard test), Component.guard]
  cases c.cond with
  | none => rfl
  | some cond => rfl

end Component

end SceneTemplates
