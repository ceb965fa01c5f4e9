import SceneTemplates.Proofs.ExportedTemplates
import SceneTemplates.Proofs.ReadDocuments

/-!
# Exported templates of documents

What a document can give keeps the parts of an exported template apart: its tests are texts, and the
values of its attributes have no parts. So the exported form of a template that is compiled from a
document determines the template up to lines, and a mapping that looks like an expression stands in
it exactly where an expression stands in the template.
-/
namespace SceneTemplates

open SceneTemplates.Value (IsScalar SameJson)

/-! ## Templates of documents -/

/-- What a document can give as a part of a node: a test is a text, and the values of attributes
have no parts. -/
def NodePart.IsWritten : NodePart → Prop
  | .test v => ∃ source, v = .text source
  | .attributes attrs => ∀ attr ∈ attrs, attr.value.IsScalar
  | .unknown _ => True

namespace DocumentFormat

theorem GivesValue.isScalar {v : Option Value} {w : Value} (h : GivesValue v w) : w.IsScalar := by
  cases h with
  | missing => exact .null
  | text t => exact .text t
  | number n => exact .number n
  | bool b => exact .bool b

theorem GivesAttributes.isWritten {v : Option Value} {attrs : List TagAttribute}
    (h : GivesAttributes v attrs) : (NodePart.attributes attrs).IsWritten := by
  cases h with
  | missing => exact List.forall_mem_nil _
  | given h =>
    refine forall_mem_right h fun item _ attr hattr => ?_
    obtain ⟨-, -, hvalue, -⟩ := hattr
    exact hvalue.isScalar

theorem isWritten_empty : ∀ part ∈ Block.empty.parts, part.IsWritten := by
  rw [Block.empty, Block.parts_mk, Node.allParts]
  exact List.forall_mem_nil _

mutual

theorem GivesNode.isWritten {v : Value} {node : Node} (h : GivesNode v node) :
    ∀ part ∈ node.parts, part.IsWritten := by
  match node with
  | .block b =>
    cases h with
    | block _ _ hblock =>
      rw [Node.parts]
      exact hblock.isWritten
  | .tag _ _ b _ =>
    cases h with
    | @tag id entries _ _ _ _ _ _ _ hattrs hmissing hblock =>
      rw [Node.parts, List.forall_mem_cons]
      refine ⟨hattrs.isWritten, ?_⟩
      cases hb : entries.get? "block" with
      | none =>
        rw [hmissing hb]
        exact isWritten_empty
      | some v => exact (hblock v hb).isWritten
  | .mixin _ _ none _ _ =>
    rw [Node.parts]
    exact List.forall_mem_nil _
  | .mixin _ _ (some b) _ _ =>
    cases h with
    | mixin _ _ _ _ _ _ _ hbody =>
      rw [Node.parts]
      exact (hbody b rfl).isWritten
  | .conditional _ b none _ =>
    cases h with
    | conditional _ _ _ _ hconsequent =>
      rw [Node.parts, List.forall_mem_cons]
      exact ⟨⟨_, rfl⟩, hconsequent.isWritten⟩
  | .conditional _ b (some alternate) _ =>
    cases h with
    | conditional _ _ _ _ hconsequent _ halternate =>
      rw [Node.parts, List.forall_mem_cons, List.forall_mem_append]
      exact ⟨⟨_, rfl⟩, hconsequent.isWritten, (halternate alternate rfl).isWritten⟩
  | .text _ _ | .comment _ _ =>
    rw [Node.parts]
    exact List.forall_mem_nil _
  | .unknown type line =>
    rw [Node.parts, List.forall_mem_singleton]
    trivial

theorem GivesBlock.isWritten {v : Value} {block : Block} (h : GivesBlock v block) :
    ∀ part ∈ block.parts, part.IsWritten := by
  match block with
  | ⟨nodes, _⟩ =>
    cases h with
    | intro _ hnodes =>
      rw [Block.parts]
      exact allParts_isWritten hnodes

theorem allParts_isWritten {items : List Value} {nodes : List Node}
    (h : List.Forall₂ GivesNode items nodes) : ∀ part ∈ Node.allParts nodes, part.IsWritten := by
  match nodes with
  | [] => exact List.forall_mem_nil _
  | node :: rest =>
    cases h with
    | cons hnode hrest =>
      rw [Node.allParts]
      exact List.forall_mem_append.2 ⟨hnode.isWritten, allParts_isWritten hrest⟩

end

end DocumentFormat

theorem PhaseTag.effect_setsOnce {tag : Text} {fields : List Text} {attrs : List TagAttribute}
    {line : Int} {e : Effect} (h : effect tag fields attrs line = .ok e) : e.SetsOnce := by
  obtain ⟨extracted, -, h | h | h⟩ := effect_cases h
  · obtain ⟨component, duration, easing, start, finish, rfl, -⟩ := exists_of_transition h
    trivial
  · obtain ⟨component, values, rfl, hvalues⟩ := exists_of_override h
    have honce : transitionableProperties.Nodup := by decide
    exact (overrideValues_of_ok hvalues).1.nodup honce
  · obtain ⟨component, duration, rfl, -⟩ := exists_of_custom h
    trivial

/-- The guard of a component is a text if the tests are. -/
theorem Component.isMade_textTest : IsMade NodePart.IsWritten
    fun c => ∀ test, c.cond = some test → ∃ source, test = .text source where
  guard c test htest h := by
    obtain ⟨source, rfl⟩ := htest
    unfold guard
    cases c.cond <;> constructor <;> exact fun _ h => ⟨_, (Option.some.inj h).symm⟩
  tag _ _ _ := nofun

/-- What a document without issues compiles to. -/
theorem isWritten_of_compile {doc : Value} {block : Block} {c : Compiler} {t : CompiledTemplate}
    (hvalid : DocumentFormat.issues doc = []) (hblock : Document.block doc = .ok block)
    (h : (c.compile block).1 = .ok t) : t.IsWritten := by
  obtain ⟨given, hgives⟩ := DocumentFormat.exists_gives_of_valid hvalid
  have hread : Document.block doc = .ok given :=
    DocumentFormat.read_block hgives fun _ _ _ => DocumentFormat.read_node
  obtain rfl : given = block := Except.ok.inj (hread.symm.trans hblock)
  have hparts : given.AttributesHold IsScalar := fun attrs hattrs => hgives.isWritten _ hattrs
  have hholds := holds_of_compile Value.isScalar_ofScalars hparts h
  constructor
  case root =>
    have htests := root_everywhere Component.isMade_textTest hgives.isWritten
      (fun _ _ _ h => nomatch h) h
    have hproper := (components_of_compile h).and hholds.components
    exact (hproper.and htests).mono fun c hc => ⟨hc.1.1, hc.1.2, hc.2⟩
  case phases =>
    intro p hp e he
    obtain rfl | ⟨tag, htag⟩ := exists_tag_of_compile h p hp
    · cases he
    · have hchecked := (PhaseTag.phase_isDeclared htag).checked e he
      refine ⟨hchecked, hholds.effects p hp e he, ?_⟩
      obtain ⟨name, tags, effects, rfl, -, -, -, hmade⟩ := PhaseTag.exists_of_phase htag
      exact forall_mem_right hmade (fun _ _ _ => PhaseTag.effect_setsOnce) e he

/-! ## Places -/

/-- The part of a JSON value that a step leads to. -/
def Value.part? : Value → PathStep → Option Value
  | .mapping _ entries, .key key => Entries.get? key entries
  | .list _ items, .index n => items[n]?
  | _, _ => none

def Value.at? (v : Value) : List PathStep → Option Value
  | [] => some v
  | step :: rest => (v.part? step).bind fun part => part.at? rest

namespace Tree

/-- The part of a tree that a step leads to. A component is the mapping of its slots. -/
def part? : Tree → PathStep → Option Tree
  | .mapping entries, .key key => Entries.get? key entries
  | .sequence items, .index n => items[n]?
  | .component slots children _, .key key =>
    (Entries.get? key slots).map fun slot => slot.tree?.getD (.sequence children)
  | _, _ => none

def at? (t : Tree) : List PathStep → Option Tree
  | [] => some t
  | step :: rest => (t.part? step).bind fun part => part.at? rest

/-- The key of an exported expression. -/
def markerKey : Text := "$"

/-- A tree that holds nothing but an expression is exported as one: its values have no parts, and
none of its keys is that of an expression. -/
inductive IsClear : Tree → Prop
  | scalar {v : Value} (h : v.IsScalar) : IsClear (.scalar v)
  | literal {v : Value} (h : v.IsScalar) : IsClear (.literal (.scalar v))
  | dynamic (source : Text) : IsClear (.dynamic source)
  | mapping {entries : Entries Tree} (hkey : Entries.get? markerKey entries = none)
      (h : ∀ entry ∈ entries, IsClear entry.2) : IsClear (.mapping entries)
  | sequence {items : List Tree} (h : ∀ t ∈ items, IsClear t) : IsClear (.sequence items)
  | component {slots : Entries Slot} {children : List Tree} {line : Option Int}
      (hkey : Entries.get? markerKey slots = none)
      (hslots : ∀ key t, (key, Slot.tree t) ∈ slots → IsClear t)
      (hchildren : ∀ t ∈ children, IsClear t) : IsClear (.component slots children line)

theorem IsClear.of_part? {t part : Tree} {step : PathStep} (h : t.IsClear)
    (hpart : t.part? step = some part) : part.IsClear := by
  cases h with
  | scalar | literal | dynamic => cases step <;> cases hpart
  | mapping _ h =>
    cases step with
    | index => cases hpart
    | key key => exact h _ (Entries.mem_of_get? hpart)
  | sequence h =>
    cases step with
    | key => cases hpart
    | index n => exact h _ (List.mem_of_getElem? hpart)
  | @component slots children line _ hslots hchildren =>
    cases step with
    | index => cases hpart
    | key key =>
      obtain ⟨slot, hslot, rfl⟩ := Option.map_eq_some_iff.1 hpart
      cases slot with
      | tree t => exact hslots key t (Entries.mem_of_get? hslot)
      | children => exact .sequence hchildren

theorem exportedSlot_eq (children : List Tree) (slot : Slot) :
    exportedSlot (Value.newList (exportedItems children)) slot =
      (slot.tree?.getD (.sequence children)).exported := by
  cases slot with
  | tree t => rfl
  | children => rfl

/-- Exporting goes part by part, apart from expressions. -/
theorem IsClear.part?_exported {t : Tree} (h : t.IsClear) (hnode : ∀ source, t ≠ .dynamic source)
    (step : PathStep) : t.exported.part? step = (t.part? step).map exported := by
  cases h with
  | scalar h | literal h =>
    have hscalar : ∀ {v : Value}, v.IsScalar → v.exported.part? step = none := by
      intro v h
      rw [h.exported_eq]
      cases h <;> cases step <;> rfl
    exact hscalar h
  | dynamic source => exact absurd rfl (hnode source)
  | mapping =>
    cases step with
    | index => rfl
    | key key => exact get?_exportedEntries key _
  | @sequence items =>
    cases step with
    | key => rfl
    | index n =>
      show (exportedItems items)[n]? = items[n]?.map exported
      simp
  | @component slots children line =>
    cases step with
    | index => rfl
    | key key =>
      show Entries.get? key (exportedSlots _ slots) = ((Entries.get? key slots).map _).map exported
      rw [get?_exportedSlots, Option.map_map]
      congr 1
      funext slot
      exact exportedSlot_eq children slot

theorem at?_of_isScalar {v w : Value} {path : List PathStep} (hv : v.IsScalar)
    (h : v.at? path = some w) : w = v := by
  cases path with
  | nil => exact (Option.some.inj h).symm
  | cons step rest => cases hv <;> cases step <;> cases h

/-- Only an expression is exported as one. -/
theorem IsClear.eq_dynamic {t : Tree} (h : t.IsClear) {id : Identity} {source : Text}
    (hexported : t.exported = .mapping id [(markerKey, .text source)]) : t = .dynamic source := by
  have hfound : Entries.get? markerKey [(markerKey, Value.text source)] = some (.text source) := rfl
  cases h with
  | scalar h | literal h =>
    have hscalar : ∀ {v : Value}, v.IsScalar →
        v.exported ≠ .mapping id [(markerKey, .text source)] := by
      intro v h
      rw [h.exported_eq]
      cases h <;> exact nofun
    exact absurd hexported (hscalar h)
  | dynamic own =>
    cases hexported
    rfl
  | mapping hkey =>
    have hentries := (Value.mapping.inj hexported).2
    rw [← hentries, get?_exportedEntries, hkey] at hfound
    cases hfound
  | sequence => cases hexported
  | component hkey =>
    have hslots := (Value.mapping.inj hexported).2
    rw [← hslots, get?_exportedSlots, hkey] at hfound
    cases hfound

/-- What looks like an expression in the exported form stands for one. -/
theorem IsClear.at?_of_marker {t : Tree} (h : t.IsClear) {path : List PathStep} {id : Identity}
    {source : Text}
    (hmarker : t.exported.at? path = some (.mapping id [(markerKey, .text source)])) :
    t.at? path = some (.dynamic source) := by
  induction path generalizing t with
  | nil => rw [h.eq_dynamic (Option.some.inj hmarker), at?]
  | cons step rest ih =>
    obtain ⟨part, hpart, hrest⟩ := Option.bind_eq_some_iff.1 hmarker
    by_cases hnode : ∃ own, t = .dynamic own
    · -- Nothing but the source stands in an exported expression.
      obtain ⟨own, rfl⟩ := hnode
      cases step with
      | index => cases hpart
      | key key =>
        have hfound : Entries.get? key [(markerKey, Value.text own)] = some part := hpart
        cases List.mem_singleton.1 (Entries.mem_of_get? hfound)
        cases at?_of_isScalar (.text own) hrest
    · rw [h.part?_exported (fun own heq => hnode ⟨own, heq⟩)] at hpart
      obtain ⟨below, hbelow, rfl⟩ := Option.map_eq_some_iff.1 hpart
      exact Option.bind_eq_some_iff.2 ⟨below, hbelow, ih (h.of_part? hbelow) hrest⟩

section

variable {same : Double → Double → Prop}

theorem same_self_of_isScalar (hsame : ∀ x, same x x) {v : Value} (h : v.IsScalar) :
    SameJson same v.exported v.exported := by
  rw [h.exported_eq]
  cases h with
  | null => exact .null
  | bool b => exact .bool b
  | text t => exact .text t
  | number n =>
    cases n with
    | int n => exact .int n
    | double x => exact .double (hsame x)

theorem same_self_of_items {items : List Tree}
    (h : ∀ t ∈ items, SameJson same t.exported t.exported) :
    SameJson same (.newList (exportedItems items)) (.newList (exportedItems items)) := by
  rw [exportedItems_eq_map]
  refine .list ?_
  rw [List.forall₂_same, List.forall_mem_map]
  exact h

theorem same_self_of_entries {entries : Entries Value}
    (h : ∀ key v, Entries.get? key entries = some v → SameJson same v v) :
    SameJson same (.newMapping entries) (.newMapping entries) := by
  refine .mapping fun key => ?_
  cases hfound : Entries.get? key entries with
  | none => exact .none
  | some v => exact .some (h key v hfound)

/-- The exported form of a clear tree is one of JSON, which equals itself. -/
theorem IsClear.same_self (hsame : ∀ x, same x x) {t : Tree} (h : t.IsClear) :
    SameJson same t.exported t.exported := by
  induction h with
  | scalar h | literal h => exact same_self_of_isScalar hsame h
  | dynamic source =>
    refine same_self_of_entries fun key v hv => ?_
    cases List.mem_singleton.1 (Entries.mem_of_get? hv)
    exact .text source
  | mapping _ _ ih =>
    refine same_self_of_entries fun key v hv => ?_
    rw [get?_exportedEntries] at hv
    obtain ⟨t, ht, rfl⟩ := Option.map_eq_some_iff.1 hv
    exact ih _ (Entries.mem_of_get? ht)
  | sequence _ ih => exact same_self_of_items ih
  | component _ _ _ ihslots ihchildren =>
    refine same_self_of_entries fun key v hv => ?_
    rw [get?_exportedSlots] at hv
    obtain ⟨slot, hslot, rfl⟩ := Option.map_eq_some_iff.1 hv
    cases slot with
    | tree t => exact ihslots key t (Entries.mem_of_get? hslot)
    | children => exact same_self_of_items ihchildren

end

end Tree

/-! ## Clear trees -/

open SceneTemplates.Tree (IsClear markerKey)

theorem Attribute.isClear_toTree {a : Attribute} (h : a.Holds IsScalar) : a.toTree.IsClear := by
  cases a with
  | literal v => exact .literal h
  | dynamic source => exact .dynamic source

theorem ComponentKind.marker_not_mem_fields (kind : ComponentKind) : markerKey ∉ kind.fields := by
  cases kind <;> decide +kernel

theorem Component.get?_marker {c : Component} (h : c.IsProper) :
    Entries.get? markerKey c.slots = none := by
  rw [h.get?_slots (by decide)]
  have hfields : Entries.get? markerKey c.fields = none :=
    Entries.get?_eq_none fun hmem => c.kind.marker_not_mem_fields (h.own _ hmem)
  rw [hfields]
  rfl

theorem Component.IsWritten.exists_source {c : Component} (h : c.IsWritten) :
    (∃ source, c.cond = some (.text source)) ∨ c.cond = none := by
  cases hc : c.cond with
  | none => exact .inr rfl
  | some test =>
    obtain ⟨source, rfl⟩ := h.cond test hc
    exact .inl ⟨source, rfl⟩

theorem Component.isClear_toTree {c : Component} (h : c.Everywhere IsWritten) :
    c.toTree.IsClear := by
  induction h with
  | @intro c here _ ih =>
    have hproper := here.wellFormed.proper
    rw [toTree_eq]
    refine .component (get?_marker hproper) ?slots ?children
    case slots =>
      intro key t ht
      rw [slots_attributes hproper, List.mem_cons, List.mem_append, List.mem_append] at ht
      obtain hkind | htest | hattribute | hchildren := ht
      · cases hkind
        exact .scalar (.text _)
      · obtain ⟨source, hsource⟩ | hnone := here.exists_source
        · rw [hsource] at htest
          cases List.mem_singleton.1 htest
          exact .scalar (.text source)
        · rw [hnone] at htest
          cases htest
      · obtain ⟨entry, hentry, heq⟩ := List.mem_map.1 hattribute
        cases heq
        exact Attribute.isClear_toTree (here.literals.attributes entry hentry)
      · unfold childSlots at hchildren
        split at hchildren
        · cases List.mem_singleton.1 hchildren
        · cases hchildren
    case children =>
      rw [toTrees_eq_map, List.forall_mem_map]
      exact ih

theorem Effect.isClear_toTree {e : Effect} (h : e.IsWritten) : e.toTree.IsClear := by
  refine .mapping (get?_of_not_mem h.checked (by decide)) ?_
  exact forall_mem_entries (fun t => .scalar (.text t)) (fun n => .scalar (.number n))
    (fun _ => Attribute.isClear_toTree) h.literals

theorem Phase.isClear_toTree {p : Phase} (h : p.IsWritten) : p.toTree.IsClear := by
  refine .mapping rfl ?_
  rw [List.forall_mem_cons, List.forall_mem_singleton]
  refine ⟨.scalar (.text _), .sequence ?_⟩
  rw [List.forall_mem_map]
  exact fun e he => Effect.isClear_toTree (h e he)

theorem CompiledTemplate.isClear_toTree {t : CompiledTemplate} (h : t.IsWritten) :
    t.toTree.IsClear := by
  refine .mapping rfl ?_
  rw [List.forall_mem_cons, List.forall_mem_singleton]
  refine ⟨Component.isClear_toTree h.root, .sequence ?_⟩
  rw [List.forall_mem_map]
  exact fun p hp => Phase.isClear_toTree (h.phases p hp)

/-- If the exported forms of templates that are compiled from documents are equal, the templates are
equal up to lines. Wherever a mapping stands in the exported form that looks like an expression,
that expression stands in the template. -/
theorem CompiledTemplate.exported_faithful {doc doc' : Value} {block block' : Block}
    {c c' : Compiler} {t t' : CompiledTemplate} (hvalid : DocumentFormat.issues doc = [])
    (hblock : Document.block doc = .ok block) (h : (c.compile block).1 = .ok t)
    (hvalid' : DocumentFormat.issues doc' = []) (hblock' : Document.block doc' = .ok block')
    (h' : (c'.compile block').1 = .ok t') :
    (∀ same : Double → Double → Prop, SameJson same t.exported t'.exported →
      CompiledTemplate.Same same t t') ∧
    ∀ path id source, t.exported.at? path = some (.mapping id [("$", .text source)]) →
      t.toTree.at? path = some (.dynamic source) := by
  have ht := isWritten_of_compile hvalid hblock h
  have ht' := isWritten_of_compile hvalid' hblock' h'
  exact ⟨fun _ hsame => same_of_exported ht ht' hsame,
    fun _ _ _ hmarker => (isClear_toTree ht).at?_of_marker hmarker⟩

/-- A document with a title at a line. -/
def titleDocument (line : Int) : Value :=
  .newMapping [("type", .text "Block"), ("nodes", .newList [.newMapping [("type", .text "Tag"),
    ("name", .text "text"), ("attrs", .newList [
      .newMapping [("name", .text "text"), ("val", .text "title")],
      .newMapping [("name", .text "opacity"), ("val", .int 1), ("line", .int line)]]),
    ("line", .int line)]])]

def titleBlock (line : Int) : Block :=
  ⟨[.tag (.text "text") [⟨.text "text", .text "title", 0⟩, ⟨.text "opacity", .int 1, line⟩]
    .empty line], 0⟩

/-- What the document is compiled to. -/
def titleTemplate (line : Int) : CompiledTemplate :=
  ⟨⟨.zstack, none, [], [⟨.text, none, [("text", .dynamic "title"), ("opacity", .literal (.int 1))],
    [], none, some line⟩], none, some 0⟩, [⟨"main", [], none⟩]⟩

/-- The title at another line is exported as the same, and its text as an expression. -/
theorem CompiledTemplate.exported_faithful_titles :
    DocumentFormat.issues (titleDocument 3) = [] ∧ DocumentFormat.issues (titleDocument 7) = [] ∧
      CompiledTemplate.Same Eq (titleTemplate 3) (titleTemplate 7) ∧
      (titleTemplate 3).toTree.at? [.key "root", .key "children", .index 0, .key "text"] =
        some (.dynamic "title") := by
  have hvalid : DocumentFormat.issues (titleDocument 3) = [] :=
    List.isEmpty_iff.1 (by decide +kernel)
  have hvalid' : DocumentFormat.issues (titleDocument 7) = [] :=
    List.isEmpty_iff.1 (by decide +kernel)
  have hblock : Document.block (titleDocument 3) = .ok (titleBlock 3) := rfl
  have hblock' : Document.block (titleDocument 7) = .ok (titleBlock 7) := rfl
  have hcompile : (Compiler.initial.compile (titleBlock 3)).1 = .ok (titleTemplate 3) := rfl
  have hcompile' : (Compiler.initial.compile (titleBlock 7)).1 = .ok (titleTemplate 7) := rfl
  obtain ⟨hsame, hmarker⟩ :=
    CompiledTemplate.exported_faithful hvalid hblock hcompile hvalid' hblock' hcompile'
  have hclear := isClear_toTree (isWritten_of_compile hvalid hblock hcompile)
  exact ⟨hvalid, hvalid', hsame Eq (hclear.same_self fun _ => rfl), hmarker _ .fresh _ rfl⟩

end SceneTemplates
