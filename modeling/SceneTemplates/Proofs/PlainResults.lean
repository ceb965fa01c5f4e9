import SceneTemplates.Proofs.AskedSources
import SceneTemplates.Proofs.EvaluatedData
import SceneTemplates.Proofs.WrittenValues

/-!
# Plain results

Resolving a compiled template leaves nothing of the template in the result: no expression, no
wrapped literal, no component, and no undefined value, be it an evaluated one or part of one. What
literals hold is passed on as it is, so they have to be free of these themselves.
-/
namespace SceneTemplates

namespace Value

/-- A value that holds no expression, no wrapped literal and no undefined value. What a host object
holds is its own matter, as long as it is data. -/
inductive IsPlain : Value → Prop
  | null : IsPlain .null
  | bool (b : Bool) : IsPlain (.bool b)
  | number (n : Number) : IsPlain (.number n)
  | text (t : Text) : IsPlain (.text t)
  | list {identity : Identity} {items : List Value} (h : ∀ v ∈ items, IsPlain v) :
      IsPlain (.list identity items)
  | tuple {identity : Identity} {items : List Value} (h : ∀ v ∈ items, ∃ n, v = .number n) :
      IsPlain (.tuple (i := identity) items)
  | mapping {identity : Identity} {entries : Entries Value}
      (h : ∀ entry ∈ entries, IsPlain entry.2) : IsPlain (.mapping identity entries)
  | function (f : Function) : IsPlain (.function f)
  | object {handle : HostObject} {attributes : Entries Value}
      (h : ∀ entry ∈ attributes, IsData entry.2) : IsPlain (.object handle attributes)
  | bytes (identity : Identity) (content : List UInt8) : IsPlain (.bytes identity content)

theorem isPlain_ofScalars : OfScalars IsPlain := ⟨.bool, .number, .text⟩

@[simp] theorem plainItems_eq_map (items : List Value) : plainItems items = items.map plain := by
  induction items with
  | nil => rfl
  | cons v rest ih => rw [plainItems, ih, List.map_cons]

@[simp] theorem plainEntries_eq_map (entries : Entries Value) :
    plainEntries entries = entries.map fun entry => (entry.1, entry.2.plain) := by
  induction entries with
  | nil => rfl
  | cons entry rest ih =>
    obtain ⟨key, v⟩ := entry
    rw [plainEntries, ih, List.map_cons]

/-- Data without its undefined parts is plain. -/
theorem IsData.plain {v : Value} (h : v.IsData) : v.plain.IsPlain := by
  induction h with
  | undefined => exact .null
  | null => exact .null
  | bool b => exact .bool b
  | number n => exact .number n
  | text t => exact .text t
  | list _ ih =>
    rw [Value.plain, plainItems_eq_map]
    refine .list ?_
    rw [List.forall_mem_map]
    exact ih
  | tuple h => exact .tuple h
  | mapping _ ih =>
    rw [Value.plain, plainEntries_eq_map]
    refine .mapping ?_
    rw [List.forall_mem_map]
    exact ih
  | function f => exact .function f
  | object h _ => exact .object h
  | bytes identity content => exact .bytes identity content

end Value

/-! ## Trees of compiled templates -/

variable {P : Value → Prop}

namespace Tree

/-- A property of the values that stand in a node and are not resolved. -/
def Holds (P : Value → Prop) : Tree → Prop
  | .scalar v => P v
  | .literal content => P content.toValue
  | _ => True

/-- A node as compilers make it, whose values have a property. -/
def IsBuilt (P : Value → Prop) (t : Tree) : Prop := t.IsProper ∧ t.Holds P

theorem everywhere_scalar {v : Value} (h : P v) : (scalar v).Everywhere (IsBuilt P) :=
  .intro ⟨trivial, h⟩ (List.forall_mem_nil _)

theorem everywhere_sequence {items : List Tree}
    (h : ∀ t ∈ items, t.Everywhere (IsBuilt P)) :
    (sequence items).Everywhere (IsBuilt P) :=
  .intro ⟨trivial, trivial⟩ h

theorem everywhere_mapping {entries : Entries Tree}
    (h : ∀ entry ∈ entries, entry.2.Everywhere (IsBuilt P)) :
    (mapping entries).Everywhere (IsBuilt P) := by
  refine .intro ⟨trivial, trivial⟩ ?_
  intro t ht
  obtain ⟨entry, hentry, rfl⟩ := List.mem_map.1 ht
  exact h entry (List.mem_filter.1 hentry).1

theorem mem_members_component {slots : Entries Slot} {children : List Tree} {line : Option Int}
    {t : Tree} (h : t ∈ members (.component slots children line)) :
    (∃ key, key ≠ Resolution.testKey ∧ (key, Slot.tree t) ∈ slots) ∨ t ∈ children := by
  rw [members, List.mem_append] at h
  refine h.imp_left fun h => ?_
  obtain ⟨⟨key, slot⟩, hslot, htree⟩ := List.mem_filterMap.1 h
  obtain ⟨hmem, hkey⟩ := List.mem_filter.1 hslot
  cases slot with
  | children => cases htree
  | tree t' =>
    cases htree
    exact ⟨key, of_decide_eq_true hkey, hmem⟩

end Tree

open SceneTemplates.Tree (IsBuilt)

theorem Attribute.everywhere_toTree {a : Attribute} (h : a.Holds P) :
    a.toTree.Everywhere (IsBuilt P) := by
  cases a with
  | literal v => exact .intro ⟨trivial, h⟩ (List.forall_mem_nil _)
  | dynamic source => exact .intro ⟨trivial, trivial⟩ (List.forall_mem_nil _)

namespace Component

theorem Everywhere.and {P Q : Component → Prop} {c : Component} (h : c.Everywhere P)
    (h' : c.Everywhere Q) : c.Everywhere fun c => P c ∧ Q c := by
  induction h with
  | intro here _ ih =>
    obtain ⟨here', below'⟩ := h'
    exact .intro ⟨here, here'⟩ fun child hchild => ih child hchild (below' child hchild)

@[simp] theorem toTrees_eq_map (components : List Component) :
    toTrees components = components.map toTree := by
  induction components with
  | nil => rfl
  | cons c rest ih => rw [toTrees, ih, List.map_cons]

theorem Holds.attributes {c : Component} (h : c.Holds P) :
    ∀ entry ∈ c.attributes, entry.2.Holds P := by
  unfold Component.attributes
  rw [List.forall_mem_append]
  refine ⟨?_, h.fields⟩
  cases hid : c.id with
  | none => exact List.forall_mem_nil _
  | some a => exact List.forall_mem_singleton.2 (h.id a hid)

theorem isProper_toTree {c : Component} (h : c.IsWellFormed) : c.toTree.IsProper := by
  have hkeys := keys_toTrees c.fields
  rw [toTree_eq]
  refine .intro (hkeys ▸ h.proper.nodup) (hkeys ▸ h.proper.not_reserved) fun hleaf => ?_
  rw [h.leaf hleaf, toTrees]

/-- The nodes of a component are as compilers make them. -/
theorem everywhere_toTree (hP : Value.OfScalars P) {c : Component} (h : c.Everywhere IsWellFormed)
    (hc : c.Everywhere (Holds P)) : c.toTree.Everywhere (IsBuilt P) := by
  have hall := h.and hc
  clear h hc
  induction hall with
  | @intro c here _ ih =>
    obtain ⟨hwell, hholds⟩ := here
    have hnode : c.toTree.IsProper := isProper_toTree hwell
    rw [toTree_eq] at hnode ⊢
    refine .intro ⟨hnode, trivial⟩ fun t ht => ?_
    obtain ⟨key, hkey, hslot⟩ | hchild := Tree.mem_members_component ht
    · rw [slots_attributes hwell.proper, List.mem_cons, List.mem_append, List.mem_append] at hslot
      obtain hkind | htest | hattribute | hchildren := hslot
      · cases hkind
        exact Tree.everywhere_scalar (hP.text _)
      · exact absurd (Slot.keys_optional (List.mem_map_of_mem htest)) hkey
      · obtain ⟨entry, hentry, heq⟩ := List.mem_map.1 hattribute
        cases heq
        exact Attribute.everywhere_toTree (hholds.attributes entry hentry)
      · unfold childSlots at hchildren
        split at hchildren
        · cases List.mem_singleton.1 hchildren
        · cases hchildren
    · rw [toTrees_eq_map] at hchild
      obtain ⟨child, hmem, rfl⟩ := List.mem_map.1 hchild
      exact ih child hmem

end Component

namespace Effect

/-- What an effect consists of: texts, a number, and attributes. -/
theorem forall_mem_entries {Q : Tree → Prop} {e : Effect} (htext : ∀ t, Q (.text t))
    (hnumber : ∀ n, Q (.scalar (.number n))) (hattribute : ∀ a : Attribute, a.Holds P → Q a.toTree)
    (h : e.Holds P) : ∀ entry ∈ e.entries, Q entry.2 := by
  have hoptional : ∀ key found, (∀ a, found = some a → a.Holds P) →
      ∀ entry ∈ optionalEntry key found, Q entry.2 := by
    rintro key (_ | a) ha
    · exact List.forall_mem_nil _
    · exact List.forall_mem_singleton.2 (hattribute a (ha a rfl))
  cases e with
  | transition component duration easing start finish =>
    simp only [Holds, List.forall_mem_cons] at h
    obtain ⟨hduration, heasing, hstart, hfinish, -⟩ := h
    simp only [entries, List.forall_mem_append, List.forall_mem_cons]
    exact ⟨⟨⟨⟨⟨htext _, htext _, List.forall_mem_nil _⟩, hoptional _ _ hduration⟩,
      hoptional _ _ heasing⟩, hoptional _ _ hstart⟩, hoptional _ _ hfinish⟩
  | override component values =>
    refine Entries.forall_mem_putAll ?_ ?_
    · exact List.forall_mem_cons.2 ⟨htext _, List.forall_mem_singleton.2 (htext _)⟩
    · unfold Attribute.toTrees
      rw [List.forall_mem_map]
      exact fun entry hentry => hattribute entry.2 (h entry hentry)
  | typing component duration =>
    simp only [entries, List.forall_mem_cons]
    exact ⟨htext _, htext _, htext _, hnumber _, List.forall_mem_nil _⟩

theorem everywhere_toTree (hP : Value.OfScalars P) {e : Effect} (h : e.Holds P) :
    e.toTree.Everywhere (IsBuilt P) :=
  Tree.everywhere_mapping (forall_mem_entries (fun t => Tree.everywhere_scalar (hP.text t))
    (fun n => Tree.everywhere_scalar (hP.number n)) (fun _ => Attribute.everywhere_toTree) h)

@[simp] theorem get?_optionalEntry (key own : Text) (found : Option Attribute) :
    Entries.get? key (optionalEntry own found) =
      if own = key then found.map Attribute.toTree else none := by
  cases found <;> simp [optionalEntry, Entries.get?]

/-- The keys that effects can have. -/
def keys : List Text :=
  (["type", "name", "component", "duration", "easing", "from", "to"] : List Text) ++
    transitionableProperties

theorem get?_of_not_mem {e : Effect} (h : e.IsChecked) {key : Text} (hkey : key ∉ keys) :
    Entries.get? key e.entries = none := by
  have hne : ∀ own ∈ keys, own ≠ key := fun own hown heq => hkey (heq ▸ hown)
  cases h with
  | transition =>
    simp only [entries, Entries.get?_append, get?_optionalEntry, Entries.get?]
    simp only [hne "type" (by decide), hne "component" (by decide), hne "duration" (by decide),
      hne "easing" (by decide), hne "from" (by decide), hne "to" (by decide), if_false,
      Option.or_none]
  | override hkeys =>
    refine Entries.get?_eq_none fun hmem => hkey ?_
    obtain hmem | hmem := Entries.mem_keys_putAll hmem
    · rw [Component.keys_toTrees] at hmem
      exact List.mem_append_right _ (hkeys _ hmem)
    · have hown : ∀ own ∈ [Text.ofString "type", Text.ofString "component"], own ∈ keys := by
        decide
      exact hown key hmem
  | typing =>
    simp only [entries, Entries.get?]
    simp only [hne "type" (by decide), hne "component" (by decide), hne "duration" (by decide),
      hne "name" (by decide), if_false]

end Effect

theorem Phase.everywhere_toTree (hP : Value.OfScalars P) {p : Phase}
    (h : ∀ e ∈ p.effects, e.Holds P) : p.toTree.Everywhere (IsBuilt P) := by
  refine Tree.everywhere_mapping (List.forall_mem_cons.2 ⟨Tree.everywhere_scalar (hP.text _), ?_⟩)
  refine List.forall_mem_singleton.2 (Tree.everywhere_sequence ?_)
  rw [List.forall_mem_map]
  exact fun e he => Effect.everywhere_toTree hP (h e he)

/-- The nodes of a compiled template are as compilers make them, and what stands in them is what is
written in the template. -/
theorem everywhere_of_compile (hP : Value.OfScalars P) {c : Compiler} {block : Block}
    {t : CompiledTemplate} (hparts : block.AttributesHold P) (h : (c.compile block).1 = .ok t) :
    t.toTree.Everywhere (IsBuilt P) := by
  have hholds := holds_of_compile hP hparts h
  refine Tree.everywhere_mapping (List.forall_mem_cons.2 ⟨?_, List.forall_mem_singleton.2 ?_⟩)
  · exact Component.everywhere_toTree hP (components_of_compile h) hholds.components
  · refine Tree.everywhere_sequence ?_
    rw [List.forall_mem_map]
    exact fun p hp => Phase.everywhere_toTree hP (hholds.effects p hp)

/-! ## Results -/

namespace Resolution

variable {σ α β : Type} {host : Host σ} {env : Environment}

/-- Every result of a step over an environment has a property. -/
def Yields (env : Environment) (P : α → Prop) (m : Resolution σ α) : Prop :=
  ∀ r : Resolver σ, r.sandbox.environment = env → ∀ a, (m.run.run r).1 = .ok a → P a

namespace Yields

variable {P : α → Prop} {Q : β → Prop} {m : Resolution σ α} {f : α → Resolution σ β}

theorem ofPure {a : α} (h : P a) : Yields env P (pure a : Resolution σ α) := by
  rintro r - _ ⟨⟩
  exact h

theorem andThen (hm : Yields env P m) (hs : Stays m) (hf : ∀ a, P a → Yields env Q (f a)) :
    Yields env Q (m >>= f) := by
  intro r hr b hb
  obtain ⟨a, after, hrun, hrest⟩ := Step.run_bind_eq_ok.1 (Prod.ext hb rfl)
  have hafter : after.sandbox.environment = env := by
    rw [← hr, ← (hs r).environment, hrun]
  exact hf a (hm r hr a (by rw [hrun])) after hafter b (by rw [hrest])

theorem ite {c : Prop} [Decidable c] {m n : Resolution σ α} (hm : Yields env P m)
    (hn : Yields env P n) : Yields env P (if c then m else n) := by
  split
  · exact hm
  · exact hn

theorem withLine {line : Option Int} (hm : Yields env P m) :
    Yields env P (Resolution.withLine line m) := by
  intro r hr a ha
  rw [run_withLine] at ha
  exact hm r hr a (Except.mapError_eq_ok.1 ha)

theorem ofAny : Yields env (fun _ => True) m := fun _ _ _ _ => trivial

end Yields

theorem dynamic_plain (hhost : host.ReturnsData) (henv : env.IsData) (source : Text) :
    Yields env Value.IsPlain (dynamic host source) := by
  rintro r rfl v hv
  rw [run_dynamic] at hv
  obtain ⟨answer, hanswer, rfl⟩ := Except.map_eq_ok.1 hv
  exact (Sandbox.evaluate_isData hhost henv hanswer).plain

theorem treeItems_plain {items : List Tree}
    (h : ∀ t ∈ items, Yields env Value.IsPlain (tree host t)) :
    Yields env (fun values => ∀ v ∈ values, v.IsPlain) (treeItems host items) := by
  induction items with
  | nil =>
    rw [treeItems]
    exact .ofPure (List.forall_mem_nil _)
  | cons t rest ih =>
    obtain ⟨ht, hrest⟩ := List.forall_mem_cons.1 h
    rw [treeItems]
    refine ht.andThen (tree_stays host t) fun v hv => ?_
    refine (ih hrest).andThen (treeItems_stays host rest) fun others hothers => ?_
    have hall := List.forall_mem_cons.2 ⟨hv, hothers⟩
    split
    · split
      · exact .ofPure hothers
      · exact .ofPure hall
    · exact .ofPure hall

theorem treeEntries_plain {entries : Entries Tree}
    (h : ∀ t ∈ Tree.ofEntries entries, Yields env Value.IsPlain (tree host t)) :
    Yields env (fun values => ∀ entry ∈ values, entry.2.IsPlain) (treeEntries host entries) := by
  induction entries with
  | nil =>
    rw [treeEntries]
    exact .ofPure (List.forall_mem_nil _)
  | cons entry rest ih =>
    obtain ⟨key, t⟩ := entry
    rw [Tree.ofEntries_cons] at h
    rw [treeEntries]
    by_cases htest : key = testKey
    · rw [if_pos htest] at h ⊢
      exact ih h
    · rw [if_neg htest] at h ⊢
      obtain ⟨ht, hrest⟩ := List.forall_mem_cons.1 h
      refine ht.andThen (tree_stays host t) fun v hv => ?_
      exact (ih hrest).andThen (treeEntries_stays host rest) fun others hothers =>
        .ofPure (List.forall_mem_cons.2 ⟨hv, hothers⟩)

theorem children_stays (host : Host σ) (children : List Tree) :
    Stays (do return Value.newList (← treeItems host children)) :=
  (treeItems_stays host children).andThen fun _ => Stays.ofPure _

theorem children_plain {children : List Tree}
    (h : ∀ t ∈ children, Yields env Value.IsPlain (tree host t)) :
    Yields env Value.IsPlain (do return Value.newList (← treeItems host children)) :=
  (treeItems_plain h).andThen (treeItems_stays host children) fun _ hvalues =>
    .ofPure (.list hvalues)

theorem childValues_plain {below : Entries Slot} {children : List Tree}
    (hbelow : Slot.OfChildren below children)
    (h : ∀ t ∈ children, Yields env Value.IsPlain (tree host t)) :
    Yields env (fun values => ∀ entry ∈ values, entry.2.IsPlain)
      (slotValues host (do return Value.newList (← treeItems host children)) below) := by
  cases hbelow with
  | leaf =>
    rw [slotValues]
    exact .ofPure (List.forall_mem_nil _)
  | container =>
    rw [slotValues_children]
    exact (children_plain h).andThen (children_stays host children) fun v hv =>
      .ofPure (List.forall_mem_singleton.2 hv)

theorem slotValues_plain {entries : Entries Tree} {below : Entries Slot} {children : List Tree}
    (hkeys : childrenKey ∉ Entries.keys entries) (hbelow : Slot.OfChildren below children)
    (hentries : ∀ t ∈ Tree.ofEntries entries, Yields env Value.IsPlain (tree host t))
    (hchildren : ∀ t ∈ children, Yields env Value.IsPlain (tree host t)) :
    Yields env (fun values => ∀ entry ∈ values, entry.2.IsPlain)
      (slotValues host (do return Value.newList (← treeItems host children))
        (Slot.ofEntries entries ++ below)) := by
  rw [slotValues_append hkeys]
  refine (treeEntries_plain hentries).andThen (treeEntries_stays host entries) fun values hv => ?_
  refine (childValues_plain hbelow hchildren).andThen ?_ fun others ho => ?_
  · exact slotValues_stays host (children_stays host children) below
  · exact .ofPure (List.forall_mem_append.2 ⟨hv, ho⟩)

/-- Over data, a tree whose own values are plain becomes a plain value. -/
theorem tree_plain (hhost : host.ReturnsData) (henv : env.IsData) {t : Tree}
    (ht : t.Everywhere (IsBuilt Value.IsPlain)) :
    Yields env Value.IsPlain (tree host t) := by
  induction ht with
  | @intro t here _ hmember =>
    match t, here, hmember with
    | .scalar v, here, _ =>
      rw [tree]
      exact .ofPure here.2
    | .literal content, here, _ =>
      rw [tree]
      exact .ofPure here.2
    | .dynamic source, _, _ =>
      rw [tree]
      exact dynamic_plain hhost henv source
    | .sequence items, _, hmember =>
      rw [tree]
      exact children_plain hmember
    | .mapping entries, _, hmember =>
      rw [tree_mapping]
      refine Yields.ofAny.andThen (Stays.entriesHold host entries) fun present _ => ?_
      refine .ite ?_ (.ofPure .null)
      exact (treeEntries_plain hmember).andThen (treeEntries_stays host entries) fun _ hvalues =>
        .ofPure (.mapping hvalues)
    | .component slots children line, here, hmember =>
      obtain ⟨entries, below, rfl, hkeys, hbelow⟩ := Tree.OfComponent.split here.1
      rw [Tree.members_component hbelow] at hmember
      obtain ⟨hentries, hchildren⟩ := List.forall_mem_append.1 hmember
      rw [tree_component, slotsHold_append hbelow]
      refine Yields.withLine ?_
      refine Yields.ofAny.andThen (Stays.entriesHold host entries) fun present _ => ?_
      refine .ite ?_ (.ofPure .null)
      exact (slotValues_plain hkeys hbelow hentries hchildren).andThen
        (slotValues_stays host (children_stays host children) _) fun _ hvalues =>
          .ofPure (.mapping hvalues)

end Resolution

/-- Whatever is resolved, every source that is handed to the sandbox stands in the tree, as an
expression or as the source of a test. If the tree is resolved, the questions are those of its walk,
and observed are the expressions of the walk, each with its value. A tree that stands in a compiled
template becomes a plain value, if the data hold no expressions and the attributes that are written
in the template are plain. -/
theorem Resolver.resolve_standing {σ : Type} {host : Host σ} {r : Resolver σ} {t : Tree}
    (ht : t.Everywhere Tree.IsProper) :
    (∃ qs, Resolver.Asked host r qs (r.resolve host t).2 ∧ (∀ q ∈ qs, t.Poses q) ∧
      (r.resolve host t).2.trace = r.trace ++ qs.filterMap Question.observed? ∧
      ∀ v, (r.resolve host t).1 = .ok v → t.Walked qs) ∧
    ∀ (c : Compiler) (block : Block) (compiled : CompiledTemplate) (data : Entries Value)
      (v : Value), (c.compile block).1 = .ok compiled → t.StandsIn compiled.toTree →
      block.AttributesHold Value.IsPlain → (∀ entry ∈ data, entry.2.IsData) → host.ReturnsData →
      r.sandbox.environment = ⟨data, globalEnvironment⟩ → (r.resolve host t).1 = .ok v →
        v.IsPlain := by
  constructor
  · obtain ⟨qs, hasked, hposed, hwalked⟩ := Resolution.tree_asks ht r
    exact ⟨qs, hasked, hposed, hasked.trace_eq, hwalked⟩
  · intro c block compiled data v hcompile hstands hparts hdata hhost henv hv
    have hall := everywhere_of_compile Value.isPlain_ofScalars hparts hcompile
    exact Resolution.tree_plain hhost ⟨hdata, globalEnvironment_isData⟩ (hall.of_standsIn hstands)
      r henv v hv

/-- A title that is shown or not, and a text instead of it. -/
def guardedTitle : Block :=
  ⟨[.conditional (.text "shown")
    ⟨[.tag (.text "text") [⟨.text "text", .text "title", 3⟩, ⟨.text "opacity", .text "1", 3⟩]
      .empty 3], 2⟩
    (some (.tag (.text "text") [⟨.text "text", .text "other()", 5⟩] .empty 5)) 2], 1⟩

theorem guardedTitle_isPlain : guardedTitle.AttributesHold Value.IsPlain := by
  intro attrs h attr hattr
  simp only [guardedTitle, Block.parts_mk, Node.allParts, Node.parts, Block.empty, List.append_nil,
    List.mem_cons, List.mem_append, List.not_mem_nil, or_false, NodePart.attributes.injEq,
    reduceCtorEq, false_or] at h
  obtain rfl | rfl := h
  · simp only [List.mem_cons, List.not_mem_nil, or_false] at hattr
    obtain rfl | rfl := hattr <;> exact .text _
  · rw [List.mem_singleton] at hattr
    subst hattr
    exact .text _

/-- What is observed while the compiled template of a block is resolved, as far as it is text. -/
def observedTexts? (block : Block) (data : Entries Value) : Option (List (Text × Option Text)) := do
  let t ← (Compiler.initial.compile block).1.toOption
  let (outcome, last) :=
    (Resolver.ofData data SandboxOptions.standard ()).resolve Host.none t.toTree
  let _ ← outcome.toOption
  return last.trace.map fun observed => (observed.1, observed.2.text?)

theorem exists_of_observedTexts {block : Block} {data : Entries Value}
    {texts : List (Text × Option Text)} (h : observedTexts? block data = some texts) :
    let r := Resolver.ofData data SandboxOptions.standard ()
    ∃ t v, (Compiler.initial.compile block).1 = .ok t ∧
      (r.resolve Host.none t.toTree).1 = .ok v ∧
      (r.resolve Host.none t.toTree).2.trace.map (fun o => (o.1, o.2.text?)) = texts := by
  intro r
  obtain ⟨t, ht, h⟩ := Option.bind_eq_some_iff.1 h
  obtain ⟨v, hv, h⟩ := Option.bind_eq_some_iff.1 h
  refine ⟨t, v, ?_, ?_, Option.some.inj h⟩
  · exact Except.toOption_eq_some.1 ht
  · exact Except.toOption_eq_some.1 hv

/-- The value of the title looks like an expression and is not evaluated; the call in the branch
that is not shown is not asked about. -/
theorem Resolver.resolve_standing_guardedTitle :
    let data : Entries Value := [("shown", .bool true), ("title", .text "1 + 1")]
    let r := Resolver.ofData data SandboxOptions.standard ()
    ∃ compiled v qs, (Compiler.initial.compile guardedTitle).1 = .ok compiled ∧
      (r.resolve Host.none compiled.toTree).1 = .ok v ∧ v.IsPlain ∧
      Resolver.Asked Host.none r qs (r.resolve Host.none compiled.toTree).2 ∧
      compiled.toTree.Walked qs ∧
      (qs.filterMap Question.observed?).map (fun o => (o.1, o.2.text?)) =
        [(Text.ofString "title", some (Text.ofString "1 + 1"))] := by
  intro data r
  have hdata : ∀ entry ∈ data, entry.2.IsData :=
    List.forall_mem_cons.2 ⟨.bool true, List.forall_mem_singleton.2 (.text _)⟩
  have hhost : Host.none.ReturnsData := by
    rintro name args state v - ⟨⟩
  have hrun : observedTexts? guardedTitle data =
      some [(Text.ofString "title", some (Text.ofString "1 + 1"))] := by decide +kernel
  obtain ⟨compiled, v, hcompile, hv, htrace⟩ := exists_of_observedTexts hrun
  have hproper : compiled.toTree.Everywhere Tree.IsProper :=
    (everywhere_of_compile Value.isPlain_ofScalars guardedTitle_isPlain hcompile).mono
      fun _ h => h.1
  obtain ⟨⟨qs, hasked, -, hobserved, hwalked⟩, hplain⟩ :=
    @Resolver.resolve_standing Unit Host.none r compiled.toTree hproper
  have hv' := hplain Compiler.initial guardedTitle compiled data v hcompile .self
    guardedTitle_isPlain hdata hhost rfl hv
  refine ⟨compiled, v, qs, hcompile, hv, hv', hasked, hwalked v hv, ?_⟩
  rw [← htrace, hobserved]
  rfl

/-- A title whose text is written as a value. -/
def writtenTitle (v : Value) : Block :=
  ⟨[.tag (.text "text") [⟨.text "text", v, 2⟩] .empty 2], 1⟩

def titleData (text : Value) : Value :=
  .newMapping [("kind", .text "zstack"),
    ("children", .newList [.newMapping [("kind", .text "text"), ("text", text)]])]

/-- A host whose functions return an expression. -/
def Host.quoting : Host Unit := ⟨fun _ _ state => (.ok (.dynamic .fresh "x"), state)⟩

/-- An undefined value that is written as an attribute stands in the result, and so does an
expression that a function of the host returns, although neither the data nor the attributes hold
expressions, literals or tuples. -/
theorem resolve_writtenTitle :
    ((writtenTitle .undefined).AttributesHold Value.IsData ∧
      ∃ t, (Compiler.initial.compile (writtenTitle .undefined)).1 = .ok t ∧
        ((Resolver.ofData [] SandboxOptions.standard ()).resolve Host.none t.root.toTree).1 =
          .ok (titleData .undefined)) ∧
    (writtenTitle (.text "f()")).AttributesHold Value.IsData ∧
      ∃ t, (Compiler.initial.compile (writtenTitle (.text "f()"))).1 = .ok t ∧
        ((Resolver.ofData [("f", .function (.host 0 "f"))] SandboxOptions.standard ()).resolve
          Host.quoting t.root.toTree).1 = .ok (titleData (.dynamic .fresh "x")) := by
  have hwritten : ∀ v : Value, v.IsData → (writtenTitle v).AttributesHold Value.IsData := by
    intro v hv attrs h attr hattr
    simp only [writtenTitle, Block.parts_mk, Node.allParts, Node.parts, Block.empty,
      List.append_nil, List.mem_singleton, NodePart.attributes.injEq] at h
    subst h
    rw [List.mem_singleton] at hattr
    subst hattr
    exact hv
  exact ⟨⟨hwritten _ .undefined, _, rfl, rfl⟩, hwritten _ (.text _), _, rfl, rfl⟩

end SceneTemplates
