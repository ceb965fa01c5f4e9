import SceneTemplates.Proofs.ResolvedComponents

/-!
# The nodes that stand in a tree

Below a mapping, a sequence or a component stand its members: what becomes part of its data if it
is present. The test of a mapping or a component is none of them, and a literal has none. Resolving
a component as compilers make them is resolving the entries beside its children.
-/
namespace SceneTemplates

open Resolution (testKey childrenKey)

/-- The tree in a slot that is not the one of the children. -/
def Slot.tree? : Slot → Option Tree
  | .tree t => some t
  | .children => none

namespace Tree

/-- The trees of entries, without that of the test. -/
def ofEntries (entries : Entries Tree) : List Tree := (Entries.erase testKey entries).map (·.2)

theorem ofEntries_cons (key : Text) (t : Tree) (rest : Entries Tree) :
    ofEntries ((key, t) :: rest) =
      if key = testKey then ofEntries rest else t :: ofEntries rest := by
  unfold ofEntries Entries.erase
  by_cases h : key = testKey <;> simp [h]

/-- What stands directly below a node, in the order in which it is resolved. -/
def members : Tree → List Tree
  | .mapping entries => ofEntries entries
  | .sequence items => items
  | .component slots children _ =>
    (Entries.erase testKey slots).filterMap (·.2.tree?) ++ children
  | .scalar _ | .dynamic _ | .literal _ => []

/-- The test of a mapping or a component. -/
def test? : Tree → Option Tree
  | .mapping entries => Entries.get? testKey entries
  | .component slots _ _ => (Entries.get? testKey slots).bind Slot.tree?
  | _ => none

/-- The source of a test: a text, or an expression. -/
def source? : Tree → Option Text
  | .scalar (.text source) | .scalar (.dynamic _ source) | .dynamic source => some source
  | _ => none

/-- A node stands in a tree. -/
inductive StandsIn (node : Tree) : Tree → Prop
  | self : StandsIn node node
  | under {t member : Tree} (hmember : member ∈ t.members) (h : StandsIn node member) :
      StandsIn node t

/-- Every node that stands in a tree has a property. -/
inductive Everywhere (P : Tree → Prop) : Tree → Prop
  | intro {t : Tree} (here : P t) (below : ∀ member ∈ t.members, Everywhere P member) :
      Everywhere P t

variable {P Q : Tree → Prop} {t node : Tree}

theorem Everywhere.mono (h : t.Everywhere P) (hPQ : ∀ t, P t → Q t) : t.Everywhere Q := by
  induction h with
  | intro here _ ih => exact .intro (hPQ _ here) ih

theorem Everywhere.of_standsIn (h : t.Everywhere P) (hnode : node.StandsIn t) :
    node.Everywhere P := by
  induction hnode with
  | self => exact h
  | under hmember _ ih =>
    obtain ⟨-, hbelow⟩ := h
    exact ih (hbelow _ hmember)

/-- Slots and children as a component has them: no attribute takes over a slot, and a leaf has no
children. -/
inductive OfComponent : Entries Slot → List Tree → Prop
  | intro {kind : ComponentKind} {cond id : Option Tree} {fields : Entries Tree}
      {children : List Tree} (hn : (Entries.keys fields).Nodup)
      (hkeys : ∀ key ∈ Entries.keys fields, key ∉ Slot.reservedKeys)
      (hleaf : kind.isContainer = false → children = []) :
      OfComponent (Slot.ofComponent kind cond id fields) children

/-- A component has slots and children as compilers make them. -/
def IsProper : Tree → Prop
  | .component slots children _ => OfComponent slots children
  | _ => True

end Tree

/-! ## Slots beside the children -/

namespace Slot

/-- Entries as slots. -/
def ofEntries (entries : Entries Tree) : Entries Slot :=
  entries.map fun entry => (entry.1, .tree entry.2)

@[simp] theorem get?_ofEntries (key : Text) (entries : Entries Tree) :
    Entries.get? key (ofEntries entries) = (Entries.get? key entries).map Slot.tree :=
  Entries.get?_map Slot.tree key entries

/-- The slot of the children, or none in a leaf, which has no children. -/
inductive OfChildren : Entries Slot → List Tree → Prop
  | container (children : List Tree) : OfChildren [(childrenKey, .children)] children
  | leaf : OfChildren [] []

@[simp] theorem OfChildren.get?_test {below : Entries Slot} {children : List Tree}
    (h : OfChildren below children) (entries : Entries Tree) :
    Entries.get? testKey (ofEntries entries ++ below) =
      (Entries.get? testKey entries).map Slot.tree := by
  have hbelow : Entries.get? testKey below = none := by
    cases h with
    | container => decide
    | leaf => rfl
  simp [hbelow]

end Slot

namespace Tree

/-- The slots of a component are entries that are no children, and behind them the children. -/
theorem OfComponent.split {slots : Entries Slot} {children : List Tree}
    (h : OfComponent slots children) :
    ∃ entries below, slots = Slot.ofEntries entries ++ below ∧
      childrenKey ∉ Entries.keys entries ∧ Slot.OfChildren below children := by
  obtain ⟨hn, hkeys, hleaf⟩ := h
  rename_i kind cond id fields
  let entry : Text → Option Tree → Entries Tree := fun key t => t.toList.map fun t => (key, t)
  have hoptional : ∀ key t, Slot.optional key t = Slot.ofEntries (entry key t) := by
    rintro key (_ | t) <;> rfl
  let named : Entries Tree := ("kind", .text kind.tag) :: (entry "cond" cond ++ entry "id" id)
  refine ⟨named ++ fields, Component.childSlots kind, ?_, ?_, ?_⟩
  · rw [Slot.ofComponent_eq hn hkeys, Slot.named, hoptional, hoptional]
    simp [Slot.ofEntries, named]
  · have hkind : childrenKey ≠ Text.ofString "kind" := by decide
    have hcond : childrenKey ≠ Text.ofString "cond" := by decide
    have hid : childrenKey ≠ Text.ofString "id" := by decide
    have hfields : childrenKey ∉ Entries.keys fields := fun hmem =>
      hkeys childrenKey hmem (by decide)
    cases cond <;> cases id <;> simpa [Entries.keys, named, entry, hkind, hcond, hid] using hfields
  · unfold Component.childSlots
    by_cases hc : kind.isContainer = true
    · rw [if_pos hc]
      exact .container _
    · have hfalse : kind.isContainer = false := by simpa using hc
      rw [if_neg hc, hleaf hfalse]
      exact .leaf

variable {entries : Entries Tree} {below : Entries Slot} {children : List Tree} {line : Option Int}

@[simp] theorem members_component (h : Slot.OfChildren below children) :
    members (.component (Slot.ofEntries entries ++ below) children line) =
      ofEntries entries ++ children := by
  have hentries : (Entries.erase testKey (Slot.ofEntries entries)).filterMap (·.2.tree?) =
      ofEntries entries := by
    unfold ofEntries Entries.erase Slot.ofEntries
    rw [List.filter_map, List.filterMap_map, ← List.filterMap_eq_map]
    rfl
  have hbelow : (Entries.erase testKey below).filterMap (·.2.tree?) = [] := by
    cases h with
    | container => rfl
    | leaf => rfl
  have herase : Entries.erase testKey (Slot.ofEntries entries ++ below) =
      Entries.erase testKey (Slot.ofEntries entries) ++ Entries.erase testKey below :=
    List.filter_append ..
  rw [members, herase, List.filterMap_append, hentries, hbelow, List.append_nil]

@[simp] theorem test?_component (h : Slot.OfChildren below children) :
    test? (.component (Slot.ofEntries entries ++ below) children line) =
      Entries.get? testKey entries := by
  rw [test?, h.get?_test]
  cases Entries.get? testKey entries <;> rfl

end Tree

/-! ## Resolving slots -/

namespace Resolution

variable {σ : Type} {host : Host σ} {children : Resolution σ Value} {entries : Entries Tree}

theorem slotsHold_append {below : Entries Slot} {trees : List Tree}
    (h : Slot.OfChildren below trees) :
    slotsHold host (Slot.ofEntries entries ++ below) = entriesHold host entries := by
  rw [slotsHold, h.get?_test, entriesHold]
  cases Entries.get? testKey entries <;> rfl

theorem slotValues_children (children : Resolution σ Value) :
    slotValues host children [(childrenKey, .children)] =
      (do return [(childrenKey, ← children)]) := by
  have htest : childrenKey ≠ testKey := by decide
  rw [slotValues_cons, if_neg htest, if_pos rfl, slotValues]
  simp only [pure_bind]

/-- Slots that are not those of the children are resolved as the entries of a mapping are. -/
theorem slotValues_append (hkeys : childrenKey ∉ Entries.keys entries) (below : Entries Slot) :
    slotValues host children (Slot.ofEntries entries ++ below) = (do
      let values ← treeEntries host entries
      let others ← slotValues host children below
      return values ++ others) := by
  induction entries with
  | nil =>
    rw [treeEntries, pure_bind]
    exact (bind_pure _).symm
  | cons entry rest ih =>
    obtain ⟨key, t⟩ := entry
    obtain ⟨hne, hrest⟩ := List.ne_and_not_mem_of_not_mem_cons hkeys
    have hcons : Slot.ofEntries ((key, t) :: rest) ++ below =
        (key, .tree t) :: (Slot.ofEntries rest ++ below) := rfl
    rw [hcons, slotValues_cons, treeEntries, ih hrest, if_neg (Ne.symm hne), slotValue]
    by_cases htest : key = testKey
    · rw [if_pos htest, if_pos htest]
    · rw [if_neg htest, if_neg htest]
      simp only [bind_assoc, pure_bind, List.cons_append]

end Resolution

end SceneTemplates
