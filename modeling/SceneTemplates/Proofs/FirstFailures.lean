import SceneTemplates.Proofs.PlainResults

/-!
# First failures

Resolving a component or a phase fails at a source: the first one in the order of the walk that has
no value, where nothing below a test that does not hold is walked through. The error that escapes is
that of the sandbox. It gets the line of the component or the phase that the source belongs to, and
those around it leave the line as it is.
-/
namespace SceneTemplates

/-! ## Answers -/

/-- A question that has a value for an answer. -/
def Question.IsAnswered (q : Question) : Prop := ∃ v, q.answer = .ok v

namespace Tree

theorem Tested.answered {test : Option Tree} {qs : List Question} {present : Bool}
    (h : Tested test qs present) : ∀ q ∈ qs, q.IsAnswered := by
  cases h with
  | missing | known => exact List.forall_mem_nil _
  | asked v => exact List.forall_mem_singleton.2 ⟨v, rfl⟩

mutual

/-- All questions of a walk are answered. -/
theorem Walked.answered {t : Tree} {qs : List Question} (h : Walked t qs) :
    ∀ q ∈ qs, q.IsAnswered := by
  match h with
  | .dynamic source v => exact List.forall_mem_singleton.2 ⟨v, rfl⟩
  | .pruned htest => exact htest.answered
  | .present _ htest hbelow => exact List.forall_mem_append.2 ⟨htest.answered, hbelow.answered⟩

theorem WalkedAll.answered {trees : List Tree} {qs : List Question} (h : WalkedAll trees qs) :
    ∀ q ∈ qs, q.IsAnswered := by
  match h with
  | .nil => exact List.forall_mem_nil _
  | .cons hfirst hrest => exact List.forall_mem_append.2 ⟨hfirst.answered, hrest.answered⟩

end

end Tree

/-! ## Where a walk stops -/

open SceneTemplates.Tree (Tested Walked WalkedAll)

/-- The walk through a component stops at a question that has an error for an answer. It belongs to
the component whose test or attribute is asked about: to this one, or to its owner below one of the
children. All that the walk passes before is answered. -/
inductive Component.StopsAt : Component → List Question → Question → Component → Prop
  | cond {c : Component} {test : Value} {source : Text} {e : ExpressionError}
      (htest : c.cond = some test) (hsource : (Tree.scalar test).source? = some source) :
      StopsAt c [] ⟨.test, source, .error e⟩ c
  | value {c : Component} {tests values : List Question} {before after : Entries Attribute}
      {key source : Text} {e : ExpressionError}
      (htest : Tested (c.cond.map .scalar) tests true)
      (hattributes : c.attributes = before ++ (key, .dynamic source) :: after)
      (hbefore : WalkedAll (before.map (·.2.toTree)) values) :
      StopsAt c (tests ++ values) ⟨.value, source, .error e⟩ c
  | child {c child owner : Component} {tests values earlier own : List Question} {q : Question}
      {before after : List Component} (htest : Tested (c.cond.map .scalar) tests true)
      (hattributes : WalkedAll (c.attributes.map (·.2.toTree)) values)
      (hchildren : c.children = before ++ child :: after)
      (hbefore : WalkedAll (before.map toTree) earlier) (h : StopsAt child own q owner) :
      StopsAt c (tests ++ (values ++ (earlier ++ own))) q owner

/-- The walk through a phase stops at an expression of an effect. -/
inductive Phase.StopsAt : Phase → List Question → Question → Prop
  | intro {p : Phase} {effect : Effect} {before after : List Effect} {first rest : List Tree}
      {earlier values : List Question} {source : Text} {e : ExpressionError}
      (heffects : p.effects = before ++ effect :: after)
      (hbefore : WalkedAll (before.map Effect.toTree) earlier)
      (hmembers : effect.toTree.members = first ++ .dynamic source :: rest)
      (hfirst : WalkedAll first values) :
      StopsAt p (earlier ++ values) ⟨.value, source, .error e⟩

theorem Component.StopsAt.answered {c owner : Component} {qs : List Question} {q : Question}
    (h : c.StopsAt qs q owner) : ∀ q ∈ qs, q.IsAnswered := by
  induction h with
  | cond => exact List.forall_mem_nil _
  | value htest _ hbefore =>
    exact List.forall_mem_append.2 ⟨htest.answered, hbefore.answered⟩
  | child htest hattributes _ hbefore _ ih =>
    simp only [List.forall_mem_append]
    exact ⟨htest.answered, hattributes.answered, hbefore.answered, ih⟩

theorem Phase.StopsAt.answered {p : Phase} {qs : List Question} {q : Question}
    (h : p.StopsAt qs q) : ∀ q ∈ qs, q.IsAnswered := by
  obtain ⟨_, hbefore, _, hfirst⟩ := h
  exact List.forall_mem_append.2 ⟨hbefore.answered, hfirst.answered⟩

namespace Tree

/-- A node with nothing below it and no test. -/
inductive IsLeaf : Tree → Prop
  | scalar (v : Value) : IsLeaf (.scalar v)
  | literal (content : Tree) : IsLeaf (.literal content)
  | dynamic (source : Text) : IsLeaf (.dynamic source)

theorem IsLeaf.everywhere {t : Tree} (h : t.IsLeaf) : t.Everywhere IsProper := by
  cases h with
  | scalar | literal | dynamic => exact .intro trivial (List.forall_mem_nil _)

@[simp] theorem ofEntries_eq_map {entries : Entries Tree}
    (h : Resolution.testKey ∉ Entries.keys entries) : ofEntries entries = entries.map (·.2) := by
  unfold ofEntries Entries.erase
  rw [List.filter_eq_self.2]
  intro entry hentry
  have hkey : entry.1 ≠ Resolution.testKey := fun heq => h (heq ▸ List.mem_map_of_mem hentry)
  simpa using hkey

end Tree

theorem Attribute.isLeaf_toTree (a : Attribute) : a.toTree.IsLeaf := by
  cases a with
  | literal v => exact .literal _
  | dynamic source => exact .dynamic source

theorem Attribute.holds_any (a : Attribute) : a.Holds fun _ => True := by
  cases a <;> trivial

/-- The walk through the trees of a list stops in one of them, in a given way. -/
def Tree.StopsIn {α : Type} (g : α → Tree)
    (F : α → List Question → Question → ExpressionError → Prop) (items : List α)
    (qs : List Question) (q : Question) (e : ExpressionError) : Prop :=
  ∃ before a after earlier own, items = before ++ a :: after ∧
    WalkedAll (before.map g) earlier ∧ qs = earlier ++ own ∧ F a own q e

namespace Tree.StopsIn

variable {α : Type} {g : α → Tree} {F : α → List Question → Question → ExpressionError → Prop}
  {a : α} {rest : List α} {qs others : List Question} {q : Question} {e : ExpressionError}

theorem here (h : F a qs q e) : StopsIn g F (a :: rest) qs q e :=
  ⟨[], a, rest, [], qs, rfl, .nil, rfl, h⟩

theorem later (hwalked : Walked (g a) qs) (h : StopsIn g F rest others q e) :
    StopsIn g F (a :: rest) (qs ++ others) q e := by
  obtain ⟨before, b, after, earlier, own, rfl, hbefore, rfl, hown⟩ := h
  exact ⟨a :: before, b, after, qs ++ earlier, own, rfl, .cons hwalked hbefore,
    (List.append_assoc ..).symm, hown⟩

end Tree.StopsIn

/-! ## Steps that fail -/

namespace Resolution

open Resolver (Asked)

variable {σ α β : Type} {host : Host σ}

/-- A step that fails does so at its last question, and the questions and the error are in a
relation. -/
def Stops (host : Host σ) (F : List Question → Question → ExpressionError → Prop)
    (m : Resolution σ α) : Prop :=
  ∀ (r : Resolver σ) (e : ExpressionError), (m.run.run r).1 = .error e →
    ∃ qs q, Asked host r (qs ++ [q]) (m.run.run r).2 ∧ F qs q e

namespace Stops

variable {F G : List Question → Question → ExpressionError → Prop} {P : Question → Prop}
  {W : α → List Question → Prop} {m : Resolution σ α} {f : α → Resolution σ β}

theorem weaken (h : Stops host F m) (hFG : ∀ qs q e, F qs q e → G qs q e) : Stops host G m := by
  intro r e he
  obtain ⟨qs, q, hasked, hstop⟩ := h r e he
  exact ⟨qs, q, hasked, hFG qs q e hstop⟩

theorem ofPure (a : α) : Stops host F (pure a : Resolution σ α) := fun _ _ h => nomatch h

/-- The second step of two is asked after all questions of the first one. -/
theorem andThen (hm : Stops host F m) (hasks : Asks host P W m)
    (hf : ∀ a qs, W a qs → Stops host (fun others q e => F (qs ++ others) q e) (f a)) :
    Stops host F (m >>= f) := by
  intro r e he
  have hstop := hm r
  obtain ⟨qs, hasked, -, hresult⟩ := hasks r
  rw [Step.run_bind] at he ⊢
  cases hrun : m.run.run r with
  | mk outcome after =>
    rw [hrun] at he hstop hasked hresult
    cases outcome with
    | error e' =>
      cases he
      exact hstop e rfl
    | ok a =>
      obtain ⟨others, q, hasked', hstop'⟩ := hf a qs (hresult a rfl) after e he
      refine ⟨qs ++ others, q, ?_, hstop'⟩
      rw [List.append_assoc]
      exact hasked.append hasked'

theorem map {g : α → β} (hm : Stops host F m) : Stops host F (do return g (← m)) := by
  intro r e he
  rw [Step.run_bind] at he ⊢
  have hstop := hm r
  cases hrun : m.run.run r with
  | mk outcome after =>
    rw [hrun] at he hstop
    cases outcome with
    | error e' =>
      cases he
      exact hstop e rfl
    | ok a => cases he

theorem withLine {line : Option Int} (hm : Stops host F m)
    (hF : ∀ qs q e, F qs q e → G qs q (e.withLine line)) :
    Stops host G (Resolution.withLine line m) := by
  intro r e he
  rw [run_withLine] at he ⊢
  obtain ⟨e', he', rfl⟩ := Except.mapError_eq_error.1 he
  obtain ⟨qs, q, hasked, hstop⟩ := hm r e' he'
  exact ⟨qs, q, hasked, hF qs q e' hstop⟩

/-- A step that is one question fails with its error. -/
theorem ofQuestion {purpose : Purpose} {source : Text} {g : Value → α}
    (hrun : ∀ r, m.run.run r =
      ((r.ask host purpose source).1.answer.map g, (r.ask host purpose source).2)) :
    Stops host (fun qs q e => qs = [] ∧ q = ⟨purpose, source, .error e⟩) m := by
  intro r e he
  rw [hrun r] at he ⊢
  refine ⟨[], _, .single purpose source, rfl, ?_⟩
  have hanswer : (r.ask host purpose source).1.answer = .error e := by
    cases h : (r.ask host purpose source).1.answer with
    | ok v =>
      rw [h] at he
      cases he
    | error e' =>
      rw [h] at he
      cases he
      rfl
  rw [← hanswer]
  rfl

end Stops

/-! ## Tests and members -/

/-- A test fails at its source. -/
theorem holds_stops (test : Tree) :
    Stops host (fun qs q e => qs = [] ∧ ∃ source, test.source? = some source ∧
      q = ⟨.test, source, .error e⟩) (holds host test) := by
  have hsource : ∀ source, test.source? = some source →
      Stops host (fun qs q e => qs = [] ∧ ∃ source, test.source? = some source ∧
        q = ⟨.test, source, .error e⟩) (sourceHolds host source) := by
    intro source h
    refine (Stops.ofQuestion (run_sourceHolds host source)).weaken ?_
    rintro qs q e ⟨hqs, hq⟩
    exact ⟨hqs, source, h, hq⟩
  cases test with
  | scalar v =>
    cases v with
    | text source => exact hsource source rfl
    | dynamic id source => exact hsource source rfl
    | _ => exact .ofPure _
  | dynamic source => exact hsource source rfl
  | _ => exact .ofPure _

theorem entriesHold_stops (entries : Entries Tree) :
    Stops host (fun qs q e => qs = [] ∧ ∃ test source, Entries.get? testKey entries = some test ∧
      test.source? = some source ∧ q = ⟨.test, source, .error e⟩) (entriesHold host entries) := by
  unfold entriesHold
  cases h : Entries.get? testKey entries with
  | none => exact .ofPure _
  | some test =>
    refine (holds_stops test).weaken ?_
    rintro qs q e ⟨hqs, source, hsource, hq⟩
    exact ⟨hqs, test, source, rfl, hsource, hq⟩

theorem treeItems_stops {γ : Type} {g : γ → Tree} {items : List γ}
    {F : γ → List Question → Question → ExpressionError → Prop}
    (hproper : ∀ a ∈ items, (g a).Everywhere Tree.IsProper)
    (h : ∀ a ∈ items, Stops host (F a) (tree host (g a))) :
    Stops host (Tree.StopsIn g F items) (treeItems host (items.map g)) := by
  induction items with
  | nil =>
    rw [List.map_nil, treeItems]
    exact .ofPure _
  | cons a rest ih =>
    obtain ⟨ha, hrest⟩ := List.forall_mem_cons.1 h
    obtain ⟨hhead, htail⟩ := List.forall_mem_cons.1 hproper
    rw [List.map_cons, treeItems]
    refine (ha.weaken fun _ _ _ => .here).andThen (tree_asks hhead) fun v qs hqs => ?_
    exact (ih htail hrest).map.weaken fun _ _ _ => .later hqs

theorem treeEntries_stops {entries : Entries Tree}
    {F : Tree → List Question → Question → ExpressionError → Prop}
    (hproper : ∀ t ∈ Tree.ofEntries entries, t.Everywhere Tree.IsProper)
    (h : ∀ t ∈ Tree.ofEntries entries, Stops host (F t) (tree host t)) :
    Stops host (Tree.StopsIn id F (Tree.ofEntries entries)) (treeEntries host entries) := by
  induction entries with
  | nil =>
    rw [treeEntries]
    exact .ofPure _
  | cons entry rest ih =>
    obtain ⟨key, t⟩ := entry
    rw [Tree.ofEntries_cons] at h hproper ⊢
    rw [treeEntries]
    by_cases htest : key = testKey
    · rw [if_pos htest] at h hproper ⊢
      rw [if_pos htest]
      exact ih hproper h
    · rw [if_neg htest] at h hproper ⊢
      rw [if_neg htest]
      obtain ⟨ht, hrest⟩ := List.forall_mem_cons.1 h
      obtain ⟨hhead, htail⟩ := List.forall_mem_cons.1 hproper
      refine (ht.weaken fun _ _ _ => .here).andThen (tree_asks hhead) fun v qs hqs => ?_
      exact (ih htail hrest).map.weaken fun _ _ _ => .later hqs

/-- Leaves fail where the first expression stands that has no value. -/
theorem leafEntries_stops {entries : Entries Tree}
    (h : ∀ t ∈ Tree.ofEntries entries, t.IsLeaf) :
    Stops host (fun qs q e => ∃ before source after,
        Tree.ofEntries entries = before ++ .dynamic source :: after ∧ WalkedAll before qs ∧
        q = ⟨.value, source, .error e⟩)
      (treeEntries host entries) := by
  let F : Tree → List Question → Question → ExpressionError → Prop := fun t qs q e =>
    qs = [] ∧ ∃ source, t = .dynamic source ∧ q = ⟨.value, source, .error e⟩
  have hleaf : ∀ t ∈ Tree.ofEntries entries, Stops host (F t) (tree host t) := by
    intro t ht
    cases h t ht with
    | scalar v | literal content =>
      rw [tree]
      exact .ofPure _
    | dynamic source =>
      rw [tree]
      refine (Stops.ofQuestion (run_dynamic host source)).weaken ?_
      rintro qs q e ⟨hqs, hq⟩
      exact ⟨hqs, source, rfl, hq⟩
  refine (treeEntries_stops (fun t ht => (h t ht).everywhere) hleaf).weaken ?_
  rintro qs q e ⟨before, _, after, earlier, _, hentries, hbefore, rfl, rfl, source, rfl, hq⟩
  rw [List.map_id] at hbefore
  rw [List.append_nil]
  exact ⟨before, source, after, hentries, hbefore, hq⟩

theorem leafEntries_asks {entries : Entries Tree}
    (h : ∀ t ∈ Tree.ofEntries entries, t.IsLeaf) :
    Asks host (fun _ => True) (fun _ => WalkedAll (Tree.ofEntries entries))
      (treeEntries host entries) :=
  treeEntries_asks fun t ht => (tree_asks (h t ht).everywhere).mono fun _ _ => trivial

end Resolution

/-! ## Components -/

namespace Component

variable {c : Component}

/-- The entries of a component beside its children. -/
def entries (c : Component) : Entries Tree :=
  ("kind", .text c.kind.tag) ::
    ((c.cond.toList.map fun test => (Resolution.testKey, .scalar test)) ++
      Attribute.toTrees c.attributes)

theorem slots_entries (h : c.IsProper) :
    c.slots = Slot.ofEntries c.entries ++ childSlots c.kind := by
  have hattributes : Slot.ofAttributes c.attributes =
      Slot.ofEntries (Attribute.toTrees c.attributes) := by
    simp [Slot.ofAttributes, Slot.ofEntries, Attribute.toTrees]
  rw [slots_attributes h, hattributes, entries]
  cases c.cond <;> simp [Slot.optional, Slot.ofEntries]

theorem ofChildren (h : c.IsWellFormed) :
    Slot.OfChildren (childSlots c.kind) (toTrees c.children) := by
  unfold childSlots
  split
  case isTrue => exact .container _
  case isFalse hleaf =>
    rw [h.leaf (Bool.not_eq_true _ ▸ hleaf), toTrees]
    exact .leaf

@[simp] theorem get?_entries (h : c.IsProper) :
    Entries.get? Resolution.testKey c.entries = c.cond.map .scalar := by
  have hkind : Text.ofString "kind" ≠ Resolution.testKey := by decide
  have hattributes := Entries.get?_eq_none ((keys_toTrees c.attributes).symm ▸ h.test_not_mem)
  unfold entries
  rw [Entries.get?, if_neg hkind, Entries.get?_append, hattributes]
  cases c.cond <;> rfl

theorem children_not_mem_entries (h : c.IsProper) :
    Resolution.childrenKey ∉ Entries.keys c.entries := by
  have hkind : Resolution.childrenKey ≠ Text.ofString "kind" := by decide
  have htest : Resolution.childrenKey ≠ Resolution.testKey := by decide
  have hattributes := h.children_not_mem
  rw [← keys_toTrees] at hattributes
  unfold entries
  cases c.cond <;> simpa [Entries.keys, hkind, htest] using hattributes

theorem everywhere_isProper (h : c.Everywhere IsWellFormed) :
    c.toTree.Everywhere Tree.IsProper := by
  have hholds : c.Everywhere (Holds fun _ => True) :=
    h.mono fun c _ => ⟨fun a _ => a.holds_any, fun field _ => field.2.holds_any⟩
  have hall := everywhere_toTree ⟨fun _ => trivial, fun _ => trivial, fun _ => trivial⟩ h hholds
  exact hall.mono fun t ht => ht.1

end Component

/-- A question has an error for an answer, which escapes with a line: its own if it has one. -/
def Question.Raises (q : Question) (line : Option Int) (e : ExpressionError) : Prop :=
  ∃ own, q.answer = .error own ∧ e = own.withLine line

/-- A second line changes nothing. -/
theorem Question.Raises.withLine {q : Question} {line other : Option Int} {e : ExpressionError}
    (h : q.Raises line e) (hline : line ≠ none) : q.Raises line (e.withLine other) := by
  obtain ⟨own, hanswer, rfl⟩ := h
  refine ⟨own, hanswer, ?_⟩
  obtain ⟨n, rfl⟩ := Option.ne_none_iff_exists'.1 hline
  obtain ⟨cause, source, _ | own⟩ := own <;> rfl

namespace Resolution

variable {σ : Type} {host : Host σ} {c : Component}

theorem treeEntries_entries (host : Host σ) (c : Component) :
    treeEntries host c.entries =
      (do return ("kind", .text c.kind.tag) ::
        (← treeEntries host (Attribute.toTrees c.attributes))) := by
  have hkind : Text.ofString "kind" ≠ testKey := by decide
  have htest : treeEntries host
      ((c.cond.toList.map fun test => (testKey, .scalar test)) ++ Attribute.toTrees c.attributes) =
      treeEntries host (Attribute.toTrees c.attributes) := by
    cases c.cond with
    | none => rfl
    | some test =>
      show treeEntries host ((testKey, .scalar test) :: Attribute.toTrees c.attributes) = _
      rw [treeEntries, if_pos rfl]
  rw [Component.entries, treeEntries, if_neg hkind, Tree.text, tree, pure_bind, htest]

theorem ofEntries_attributes (h : c.IsProper) :
    Tree.ofEntries (Attribute.toTrees c.attributes) = c.attributes.map (·.2.toTree) := by
  rw [Tree.ofEntries_eq_map ((Component.keys_toTrees c.attributes).symm ▸ h.test_not_mem),
    Attribute.toTrees, List.map_map]
  rfl

theorem isLeaf_attributes (h : c.IsProper) :
    ∀ t ∈ Tree.ofEntries (Attribute.toTrees c.attributes), t.IsLeaf := by
  rw [ofEntries_attributes h, List.forall_mem_map]
  exact fun entry _ => entry.2.isLeaf_toTree

/-- The attributes of a component fail where the first expression stands that has no value. -/
theorem attributes_stops (h : c.IsProper) :
    Stops host (fun qs q e => ∃ before key source after,
        c.attributes = before ++ (key, .dynamic source) :: after ∧
        WalkedAll (before.map (·.2.toTree)) qs ∧ q = ⟨.value, source, .error e⟩)
      (treeEntries host (Attribute.toTrees c.attributes)) := by
  refine (leafEntries_stops (isLeaf_attributes h)).weaken ?_
  rintro qs q e ⟨trees, source, others, heq, hbefore, hq⟩
  rw [ofEntries_attributes h] at heq
  obtain ⟨before, rest, hattributes, rfl, hrest⟩ := List.map_eq_append_iff.1 heq
  obtain ⟨⟨key, a⟩, after, rfl, ha, -⟩ := List.map_eq_cons_iff.1 hrest
  cases a with
  | literal v => cases ha
  | dynamic own =>
    cases ha
    exact ⟨before, key, source, after, hattributes, hbefore, hq⟩

theorem childValues_stops {below : Entries Slot} {children : List Component}
    {F : Component → List Question → Question → ExpressionError → Prop}
    (hbelow : Slot.OfChildren below (Component.toTrees children))
    (hproper : ∀ child ∈ children, child.toTree.Everywhere Tree.IsProper)
    (h : ∀ child ∈ children, Stops host (F child) (tree host child.toTree)) :
    Stops host (Tree.StopsIn Component.toTree F children)
      (slotValues host (do return Value.newList (← treeItems host (Component.toTrees children)))
        below) := by
  have hchildren := treeItems_stops hproper h
  rw [← Component.toTrees_eq_map] at hchildren
  generalize Component.toTrees children = trees at hbelow hchildren
  cases hbelow with
  | leaf =>
    rw [slotValues]
    exact .ofPure _
  | container =>
    rw [slotValues_children]
    exact hchildren.map.map

/-- The values that the slots of a component become: its attributes, then its children. -/
def slotsOf (host : Host σ) (c : Component) : Resolution σ (Entries Value) := do
  let values ← treeEntries host c.entries
  let others ← slotValues host
    (do return Value.newList (← treeItems host (Component.toTrees c.children)))
    (Component.childSlots c.kind)
  return values ++ others

theorem tree_component_eq (host : Host σ) (h : c.IsWellFormed) :
    tree host c.toTree = withLine c.line (do
      if ← entriesHold host c.entries then return Value.newMapping (← slotsOf host c)
      else return .null) := by
  rw [Component.toTree_eq, tree_component, Component.slots_entries h.proper,
    slotsHold_append (Component.ofChildren h),
    slotValues_append (Component.children_not_mem_entries h.proper)]
  rfl

theorem slotsOf_stops (h : c.IsWellFormed)
    (hproper : ∀ child ∈ c.children, child.toTree.Everywhere Tree.IsProper)
    {F : Component → List Question → Question → ExpressionError → Prop}
    (hchildren : ∀ child ∈ c.children, Stops host (F child) (tree host child.toTree)) :
    Stops host (fun qs q e =>
        (∃ before key source after, c.attributes = before ++ (key, .dynamic source) :: after ∧
          WalkedAll (before.map (·.2.toTree)) qs ∧ q = ⟨.value, source, .error e⟩) ∨
        ∃ values others, WalkedAll (c.attributes.map (·.2.toTree)) values ∧
          qs = values ++ others ∧ Tree.StopsIn Component.toTree F c.children others q e)
      (slotsOf host c) := by
  have hasks : Asks host (fun _ => True) (fun _ => WalkedAll (c.attributes.map (·.2.toTree)))
      (treeEntries host c.entries) := by
    rw [treeEntries_entries, ← ofEntries_attributes h.proper]
    exact (leafEntries_asks (isLeaf_attributes h.proper)).map fun _ _ hqs => hqs
  have hattributes : Stops host _ (treeEntries host (Attribute.toTrees c.attributes)) :=
    attributes_stops h.proper
  have hstops := hattributes.map
    (g := fun values => ((Text.ofString "kind", Value.text c.kind.tag) :: values))
  rw [← treeEntries_entries] at hstops
  unfold slotsOf
  refine (hstops.weaken fun _ _ _ => .inl).andThen hasks fun values qs hqs => ?_
  refine (childValues_stops (Component.ofChildren h) hproper hchildren).map.weaken ?_
  exact fun others q e hstop => .inr ⟨qs, others, hqs, rfl, hstop⟩

/-- The test of a component is asked about first. -/
theorem test_asks (h : c.IsProper) :
    Asks host (fun _ => True) (fun present qs => Tested (c.cond.map .scalar) qs present)
      (entriesHold host c.entries) := by
  have hasks : Asks host _ (fun present qs => Tested (Tree.mapping c.entries).test? qs present)
      (entriesHold host c.entries) := entriesHold_asks rfl
  rw [Tree.test?, Component.get?_entries h] at hasks
  exact hasks.mono fun _ _ => trivial

/-- A component fails where its walk stops, and the error has the line of the owner. -/
theorem component_stops
    (h : c.Everywhere fun c => c.IsWellFormed ∧ c.line ≠ none) :
    Stops host (fun qs q e => ∃ owner, c.StopsAt qs q owner ∧ owner.line ≠ none ∧
      q.Raises owner.line e) (tree host c.toTree) := by
  induction h with
  | @intro c here hbelow ih =>
    obtain ⟨hwell, hline⟩ := here
    have hproper : ∀ child ∈ c.children, child.toTree.Everywhere Tree.IsProper :=
      fun child hchild => Component.everywhere_isProper ((hbelow child hchild).mono fun _ h => h.1)
    -- Inside the component an error has no line yet, or that of an owner below it.
    let F : List Question → Question → ExpressionError → Prop := fun qs q e =>
      (c.StopsAt qs q c ∧ q.answer = .error e) ∨
        ∃ owner, c.StopsAt qs q owner ∧ owner.line ≠ none ∧ q.Raises owner.line e
    have hinside : Stops host F (do
        if ← entriesHold host c.entries then return Value.newMapping (← slotsOf host c)
        else return .null) := by
      refine Stops.andThen ?test (test_asks hwell.proper) fun present tests htests => ?body
      case test =>
        refine (entriesHold_stops c.entries).weaken ?_
        rintro qs q e ⟨rfl, test, source, htest, hsource, rfl⟩
        rw [Component.get?_entries hwell.proper] at htest
        obtain ⟨value, hcond, rfl⟩ := Option.map_eq_some_iff.1 htest
        exact .inl ⟨.cond hcond hsource, rfl⟩
      case body =>
        cases present with
        | false => exact .ofPure _
        | true =>
          refine (slotsOf_stops hwell hproper ih).map.weaken ?_
          rintro qs q e (⟨before, key, source, after, hattributes, hbefore, rfl⟩ |
            ⟨values, others, hvalues, rfl, before, child, after, earlier, own, hchildren, hbefore,
              rfl, owner, hstop, howner, hraises⟩)
          · exact .inl ⟨.value htests hattributes hbefore, rfl⟩
          · exact .inr ⟨owner, .child htests hvalues hchildren hbefore hstop, howner, hraises⟩
    rw [tree_component_eq host hwell]
    refine hinside.withLine ?_
    rintro qs q e (⟨hstop, hanswer⟩ | ⟨owner, hstop, howner, hraises⟩)
    · exact ⟨c, hstop, hline, e, hanswer, rfl⟩
    · exact ⟨owner, hstop, howner, hraises.withLine howner⟩

end Resolution

/-! ## Phases -/

namespace Effect

theorem isLeaf_members (e : Effect) : ∀ t ∈ e.toTree.members, t.IsLeaf := by
  have hany : e.Holds fun _ => True := by
    cases e with
    | transition => exact fun _ _ a _ => a.holds_any
    | override => exact fun entry _ => entry.2.holds_any
    | typing => trivial
  have hentries := forall_mem_entries (fun _ => .scalar _) (fun _ => .scalar _)
    (fun a _ => a.isLeaf_toTree) hany
  intro t ht
  obtain ⟨entry, hentry, rfl⟩ := List.mem_map.1 ht
  exact hentries entry (List.mem_filter.1 hentry).1

/-- No effect has an attribute that is called as a test. -/
@[simp] theorem IsChecked.test?_toTree {e : Effect} (h : e.IsChecked) : e.toTree.test? = none :=
  get?_of_not_mem h (by decide)

end Effect

namespace Resolution

variable {σ : Type} {host : Host σ}

theorem effect_stops {e : Effect} (h : e.IsChecked) :
    Stops host (fun qs q error => ∃ before source after,
        e.toTree.members = before ++ .dynamic source :: after ∧ WalkedAll before qs ∧
        q = ⟨.value, source, .error error⟩)
      (tree host e.toTree) := by
  have htest : Entries.get? testKey e.entries = none := h.test?_toTree
  rw [Effect.toTree, tree_mapping, entriesHold, htest, pure_bind, if_pos rfl]
  exact (leafEntries_stops e.isLeaf_members).map

/-- A phase fails where its walk stops, and the error has the line of the phase. -/
theorem phase_stops {p : Phase} (h : ∀ e ∈ p.effects, e.IsChecked) :
    Stops host (fun qs q e => p.StopsAt qs q ∧ q.Raises p.line e) (phase host p) := by
  have hproper : ∀ e ∈ p.effects, e.toTree.Everywhere Tree.IsProper := fun e _ =>
    .intro trivial fun t ht => (e.isLeaf_members t ht).everywhere
  refine (treeItems_stops hproper fun e he => effect_stops (h e he)).withLine ?_
  rintro qs q e ⟨before, effect, after, earlier, values, heffects, hbefore, rfl, first, source,
    rest, hmembers, hfirst, rfl⟩
  exact ⟨.intro heffects hbefore hmembers hfirst, e, rfl, rfl⟩

end Resolution

/-! ## Templates -/

namespace Component

theorem Everywhere.everywhere {P : Component → Prop} {c : Component} (h : c.Everywhere P) :
    c.Everywhere (Everywhere P) := by
  induction h with
  | intro here below ih => exact .intro (.intro here below) ih

theorem isMade_hasLine : IsMade (fun _ => True) fun c => c.line ≠ none where
  guard c test _ h := by
    unfold guard
    cases c.cond <;> exact ⟨h, h⟩
  tag _ _ _ := Option.some_ne_none _

end Component

/-- Every component of a compiled template has a line. -/
theorem lines_of_compile {compiler : Compiler} {block : Block} {t : CompiledTemplate}
    (h : (compiler.compile block).1 = .ok t) : t.root.Everywhere fun c => c.line ≠ none :=
  root_everywhere Component.isMade_hasLine (fun _ _ => trivial) (fun _ _ => Option.some_ne_none _) h

/-- A phase of a compiled template that has an effect has a line, and each effect is checked. -/
theorem phases_of_compile {compiler : Compiler} {block : Block} {t : CompiledTemplate}
    (h : (compiler.compile block).1 = .ok t) :
    ∀ p ∈ t.phases, (p.effects ≠ [] → p.line ≠ none) ∧ ∀ e ∈ p.effects, e.IsChecked := by
  intro p hp
  obtain rfl | ⟨tag, htag⟩ := exists_tag_of_compile h p hp
  · exact ⟨fun hnil => absurd rfl hnil, List.forall_mem_nil _⟩
  · have hchecked := (PhaseTag.phase_isDeclared htag).checked
    obtain ⟨name, tags, effects, rfl, -⟩ := PhaseTag.exists_of_phase htag
    exact ⟨fun _ => Option.some_ne_none _, hchecked⟩

namespace Resolution

variable {σ : Type} {host : Host σ}

/-- A step that fails stops at a question after others that are answered, in a given way. What
escapes is the error of that question, with this line unless it has one. -/
def FailsAt (host : Host σ) {α : Type} (W : List Question → Question → Option Int → Prop)
    (m : Resolution σ α) : Prop :=
  ∀ (r : Resolver σ) (e : ExpressionError), (m.run.run r).1 = .error e →
    ∃ qs q line own, Resolver.Asked host r (qs ++ [q]) (m.run.run r).2 ∧
      (∀ p ∈ qs, p.IsAnswered) ∧ W qs q line ∧ q.answer = .error own ∧
      e.cause = own.cause ∧ e.source = own.source ∧
      (own.line = none → line ≠ none ∧ e.line = line)

theorem Stops.failsAt {α : Type} {m : Resolution σ α}
    {W : List Question → Question → Option Int → Prop}
    (h : Stops host (fun qs q e => ∃ line, W qs q line ∧ line ≠ none ∧ (∀ p ∈ qs, p.IsAnswered) ∧
      q.Raises line e) m) : FailsAt host W m := by
  intro r e he
  obtain ⟨qs, q, hasked, line, hwalk, hline, hanswered, own, hanswer, rfl⟩ := h r e he
  refine ⟨qs, q, line, own, hasked, hanswered, hwalk, hanswer, ?_⟩
  obtain ⟨cause, source, _ | line'⟩ := own
  · exact ⟨rfl, rfl, fun _ => ⟨hline, rfl⟩⟩
  · exact ⟨rfl, rfl, fun h => nomatch h⟩

end Resolution

/-- Whatever is resolved of a compiled template, an error is that of the first source in the order
of the walk that has no value. If it has no line of its own, it gets that of the innermost component
around the attribute, or of the one whose test it is; an error in an effect gets that of the
phase. -/
theorem CompiledTemplate.failsAt_innermost {σ : Type} (host : Host σ) {compiler : Compiler}
    {block : Block} {t : CompiledTemplate} (h : (compiler.compile block).1 = .ok t) :
    (t.root.Everywhere fun c => Resolution.FailsAt host
      (fun qs q line => ∃ owner, c.StopsAt qs q owner ∧ line = owner.line)
      (Resolution.component host c)) ∧
    ∀ p ∈ t.phases, Resolution.FailsAt host (fun qs q line => p.StopsAt qs q ∧ line = p.line)
      (Resolution.phase host p) := by
  constructor
  · have hroot := (components_of_compile h).and (lines_of_compile h)
    refine hroot.everywhere.mono fun c hc => ?_
    refine ((Resolution.component_stops hc).weaken ?_).failsAt
    rintro qs q e ⟨owner, hstop, hline, hraises⟩
    exact ⟨owner.line, ⟨owner, hstop, rfl⟩, hline, hstop.answered, hraises⟩
  · intro p hp
    obtain ⟨hline, hchecked⟩ := phases_of_compile h p hp
    refine ((Resolution.phase_stops hchecked).weaken ?_).failsAt
    rintro qs q e ⟨hstop, hraises⟩
    have heffects : p.effects ≠ [] := by
      obtain ⟨heffects, -⟩ := hstop
      rw [heffects]
      exact List.append_ne_nil_of_right_ne_nil _ (List.cons_ne_nil _ _)
    exact ⟨p.line, ⟨hstop, rfl⟩, hline heffects, hstop.answered, hraises⟩

/-- A text that cannot be indexed by a number, in a stack of its own. -/
def nestedIndex : Block :=
  ⟨[.tag (.text "vstack") []
    ⟨[.tag (.text "text") [⟨.text "opacity", .text "1", 6⟩, ⟨.text "text", .text "a[0]", 6⟩]
      .empty 6], 4⟩ 4], 2⟩

/-- The error that resolving the root of a compiled template ends with. -/
def failure? (block : Block) (data : Entries Value) : Option ExpressionError := do
  let t ← (Compiler.initial.compile block).1.toOption
  match ((Resolution.component Host.none t.root).run.run
    (Resolver.ofData data SandboxOptions.standard ())).1 with
  | .error e => some e
  | .ok _ => none

theorem exists_of_failure {block : Block} {data : Entries Value} {e : ExpressionError}
    (h : failure? block data = some e) :
    ∃ t, (Compiler.initial.compile block).1 = .ok t ∧
      ((Resolution.component Host.none t.root).run.run
        (Resolver.ofData data SandboxOptions.standard ())).1 = .error e := by
  obtain ⟨t, ht, h⟩ := Option.bind_eq_some_iff.1 h
  refine ⟨t, Except.toOption_eq_some.1 ht, ?_⟩
  split at h
  · next hrun =>
    cases h
    exact hrun
  · cases h

/-- The error in the text has the line of the text, and not that of the stack around it. -/
theorem CompiledTemplate.failsAt_nestedIndex :
    ∃ t e, (Compiler.initial.compile nestedIndex).1 = .ok t ∧
      ((Resolution.component Host.none t.root).run.run
        (Resolver.ofData [("a", Value.newList [.int 1])] SandboxOptions.standard ())).1 =
          .error e ∧
      e.line = some 6 ∧ ∃ qs q owner own, t.root.StopsAt qs q owner ∧ q.answer = .error own ∧
        e.source = own.source ∧ (own.line = none → owner.line = some 6) := by
  obtain ⟨t, ht, hrun⟩ := exists_of_failure
    (show failure? nestedIndex [("a", Value.newList [.int 1])] =
      some ⟨.computedMember, some "a[0]", some 6⟩ by decide +kernel)
  obtain ⟨qs, q, line, own, -, -, ⟨owner, hstop, rfl⟩, hanswer, -, hsource, hline⟩ :=
    (CompiledTemplate.failsAt_innermost Host.none ht).1.here _ _ hrun
  exact ⟨t, _, ht, hrun, rfl, qs, q, owner, own, hstop, hanswer, hsource,
    fun hnone => (hline hnone).2.symm⟩

end SceneTemplates
