import Mathlib.Data.List.Forall2
import Mathlib.Data.Rat.Defs
import SceneTemplates.Document.Loading
import SceneTemplates.Proofs.AcceptedDocuments

/-!
# What documents describe

The nodes and blocks that a document describes, as a relation between its values and them, and that
every document without issues describes a block: no key that is needed is missing and no value has a
wrong kind, at any depth. A node is unknown only if its type is none of those that are known.
-/
namespace SceneTemplates

namespace Double

variable {x : Double} {q : Rat}

theorem exists_of_isIntegral (h : x.isIntegral = true) : ∃ q, x.toRat? = some q ∧ q.den = 1 := by
  unfold isIntegral at h
  cases hq : x.toRat? with
  | none =>
    rw [hq] at h
    cases h
  | some q =>
    rw [hq] at h
    exact ⟨q, rfl, beq_iff_eq.1 h⟩

end Double

namespace DocumentFormat

/-! ## What documents describe -/

def nodeTypes : List Text :=
  ["Block", "NamedBlock", "Tag", "Mixin", "Conditional", "Text", "Comment", "BlockComment"]

/-- A line is a whole number, written as an integer or not; a missing one is zero. -/
inductive GivesLine : Option Value → Int → Prop
  | missing : GivesLine none 0
  | given {x : Number} {n : Nat} (h : x.toExtended? = some (.rational n)) :
      GivesLine (some (.number x)) n

/-- The value of an attribute is a text, a number or a truth value; a missing one is null. -/
inductive GivesValue : Option Value → Value → Prop
  | missing : GivesValue none .null
  | text (t : Text) : GivesValue (some (.text t)) (.text t)
  | number (n : Number) : GivesValue (some (.number n)) (.number n)
  | bool (b : Bool) : GivesValue (some (.bool b)) (.bool b)

/-- The attribute of a tag has a name. -/
inductive GivesAttribute : Value → TagAttribute → Prop
  | intro {id : Identity} {entries : Entries Value} {name : Text} {value : Value} {line : Int}
      (hname : entries.get? "name" = some (.text name)) (hne : name ≠ [])
      (hvalue : GivesValue (entries.get? "val") value)
      (hline : GivesLine (entries.get? "line") line) :
      GivesAttribute (.mapping id entries) ⟨.text name, value, line⟩

/-- The attributes of a tag; a missing list has none. -/
inductive GivesAttributes : Option Value → List TagAttribute → Prop
  | missing : GivesAttributes none []
  | given {id : Identity} {items : List Value} {attrs : List TagAttribute}
      (h : List.Forall₂ GivesAttribute items attrs) : GivesAttributes (some (.list id items)) attrs

mutual

/-- A mapping describes a node of its type. -/
inductive GivesNode : Value → Node → Prop
  | block {id : Identity} {entries : Entries Value} {type : Text} {block : Block}
      (htype : entries.get? "type" = some (.text type)) (hknown : type ∈ blockTypes)
      (hblock : GivesBlock (.mapping id entries) block) :
      GivesNode (.mapping id entries) (.block block)
  | tag {id : Identity} {entries : Entries Value} {name : Text} {attrs : List TagAttribute}
      {block : Block} {line : Int}
      (htype : entries.get? "type" = some (.text "Tag"))
      (hname : entries.get? "name" = some (.text name)) (hne : name ≠ [])
      (hattrs : GivesAttributes (entries.get? "attrs") attrs)
      (hmissing : entries.get? "block" = none → block = .empty)
      (hblock : ∀ v, entries.get? "block" = some v → GivesBlock v block)
      (hline : GivesLine (entries.get? "line") line) :
      GivesNode (.mapping id entries) (.tag (.text name) attrs block line)
  | mixin {id : Identity} {entries : Entries Value} {name : Text} {isCall : Bool}
      {body : Option Block} {args : Value} {line : Int}
      (htype : entries.get? "type" = some (.text "Mixin"))
      (hname : entries.get? "name" = some (.text name)) (hne : name ≠ [])
      (hcall : (entries.get? "call").getD (.bool false) = .bool isCall)
      (hargs : (entries.get? "args").getD .null = args)
      (htext : args = .null ∨ ∃ t, args = .text t)
      (hmissing : body = none ↔ (entries.get? "block").getD .null = .null)
      (hbody : ∀ block, body = some block →
        GivesBlock ((entries.get? "block").getD .null) block)
      (hline : GivesLine (entries.get? "line") line) :
      GivesNode (.mapping id entries) (.mixin (.text name) isCall body args line)
  | conditional {id : Identity} {entries : Entries Value} {test : Text} {v : Value}
      {consequent : Block} {alternate : Option Node} {line : Int}
      (htype : entries.get? "type" = some (.text "Conditional"))
      (htest : entries.get? "test" = some (.text test)) (hne : test ≠ [])
      (hthen : entries.get? "consequent" = some v) (hconsequent : GivesBlock v consequent)
      (hmissing : alternate = none ↔ (entries.get? "alternate").getD .null = .null)
      (halternate : ∀ node, alternate = some node →
        GivesNode ((entries.get? "alternate").getD .null) node)
      (hline : GivesLine (entries.get? "line") line) :
      GivesNode (.mapping id entries) (.conditional (.text test) consequent alternate line)
  | text {id : Identity} {entries : Entries Value} {content : Text} {line : Int}
      (htype : entries.get? "type" = some (.text "Text"))
      (hcontent : (entries.get? "val").getD (.text []) = .text content)
      (hline : GivesLine (entries.get? "line") line) :
      GivesNode (.mapping id entries) (.text (.text content) line)
  | comment {id : Identity} {entries : Entries Value} {type content : Text} {line : Int}
      (htype : entries.get? "type" = some (.text type))
      (hknown : type = "Comment" ∨ type = "BlockComment")
      (hcontent : (entries.get? "val").getD (.text []) = .text content)
      (hline : GivesLine (entries.get? "line") line) :
      GivesNode (.mapping id entries) (.comment (.text content) line)
  /-- A node is unknown only if its type is. -/
  | unknown {id : Identity} {entries : Entries Value} {type : Text} {line : Int}
      (htype : entries.get? "type" = some (.text type)) (hunknown : type ∉ nodeTypes)
      (hline : GivesLine (entries.get? "line") line) :
      GivesNode (.mapping id entries) (.unknown type line)

/-- A mapping describes the block of its nodes. -/
inductive GivesBlock : Value → Block → Prop
  | intro {id id' : Identity} {entries : Entries Value} {items : List Value} {nodes : List Node}
      {line : Int}
      (hitems : entries.get? "nodes" = some (.list id' items))
      (hnodes : List.Forall₂ GivesNode items nodes)
      (hline : GivesLine (entries.get? "line") line) :
      GivesBlock (.mapping id entries) ⟨nodes, line⟩

end

/-! ## Documents without issues describe blocks -/

section

open Schema (Accepts)

variable {v : Value} {id : Identity} {entries : Entries Value}

theorem exists_forall₂ {α β : Type} {R : α → β → Prop} {xs : List α}
    (h : ∀ x ∈ xs, ∃ y, R x y) : ∃ ys, List.Forall₂ R xs ys := by
  induction xs with
  | nil => exact ⟨[], .nil⟩
  | cons x rest ih =>
    obtain ⟨y, hy⟩ := h x List.mem_cons_self
    obtain ⟨ys, hys⟩ := ih fun x hx => h x (List.mem_cons_of_mem _ hx)
    exact ⟨y :: ys, .cons hy hys⟩

theorem of_definition {d : Definition} (h : Accepts schemaOf (.definition d) v) :
    Accepts schemaOf (schemaOf d) v := by
  cases h with
  | definition h => exact h

theorem of_all {parts : List (Schema Definition)} (h : Accepts schemaOf (.all parts) v) :
    ∀ part ∈ parts, Accepts schemaOf part v := by
  cases h with
  | all h => exact h

theorem of_kind {kind : JsonKind} (h : Accepts schemaOf (.kinds [kind]) v) :
    kind.holds v = true := by
  cases h with
  | kinds h =>
    obtain ⟨k, hk, hv⟩ := h
    rwa [List.mem_singleton.1 hk] at hv

theorem exists_mapping (h : Accepts schemaOf (.kinds [.object]) v) :
    ∃ (id : Identity) (entries : Entries Value), v = .mapping id entries := by
  have hkind := of_kind h
  cases v with
  | mapping id entries => exact ⟨id, entries, rfl⟩
  | _ => cases hkind

theorem exists_list (h : Accepts schemaOf (.kinds [.array]) v) :
    ∃ id items, v = .list id items := by
  have hkind := of_kind h
  cases v with
  | list id items => exact ⟨id, items, rfl⟩
  | _ => cases hkind

theorem exists_text (h : Accepts schemaOf (.kinds [.string]) v) : ∃ t, v = .text t := by
  have hkind := of_kind h
  cases v with
  | text t => exact ⟨t, rfl⟩
  | _ => cases hkind

theorem exists_name (h : Accepts schemaOf name v) : ∃ t, v = .text t ∧ t ≠ [] := by
  have hparts := of_all h
  simp only [List.forall_mem_cons] at hparts
  obtain ⟨hstring, hnonEmpty, -⟩ := hparts
  obtain ⟨t, rfl⟩ := exists_text hstring
  cases hnonEmpty with
  | nonEmpty h => exact ⟨t, rfl, fun ht => h (congrArg Value.text ht)⟩

theorem exists_of_required {keys : List Text} (key : Text)
    (h : Accepts schemaOf (.required keys) (.mapping id entries)) (hkey : key ∈ keys) :
    ∃ w, entries.get? key = some w := by
  cases h with
  | required h => exact Option.isSome_iff_exists.1 (h id entries rfl key hkey)

theorem of_property {known : Entries (Schema Definition)} {key : Text} {s : Schema Definition}
    {w : Value} (h : Accepts schemaOf (.properties known) (.mapping id entries))
    (hs : known.get? key = some s) (hw : entries.get? key = some w) : Accepts schemaOf s w := by
  cases h with
  | properties h => exact h id entries rfl key s (Entries.mem_of_get? hs) w hw

theorem of_items {each : Schema Definition} {items : List Value}
    (h : Accepts schemaOf (.items each) (.list id items)) :
    ∀ w ∈ items, Accepts schemaOf each w := by
  cases h with
  | items h => exact h id items rfl

theorem of_types {types : List Text} {d : Definition} {t : Text}
    (h : Accepts schemaOf (ofTypes types d) (.mapping id entries))
    (htype : entries.get? "type" = some (.text t)) (ht : t ∈ types) :
    Accepts schemaOf (schemaOf d) (.mapping id entries) := by
  cases h with
  | choose hmatching =>
    refine of_definition (hmatching ?_)
    rw [SchemaTest.holds, htype]
    exact List.contains_iff_mem.2 ht

/-- A value that is null or accepted otherwise. -/
theorem of_nullable {s : Schema Definition}
    (h : Accepts schemaOf (.alternatives [.kinds [.null], s]) v) :
    v = .null ∨ Accepts schemaOf s v := by
  cases h with
  | alternatives hmem h =>
    obtain rfl | hmem := List.mem_cons.1 hmem
    · have hkind := of_kind h
      cases v with
      | null => exact .inl rfl
      | _ => cases hkind
    · rw [List.mem_singleton.1 hmem] at h
      exact .inr h

/-- What is an integer and not below zero is a natural number. -/
theorem exists_natural {x : Number} (hkind : JsonKind.integer.holds (.number x) = true)
    (hless : x.less (.int 0) = false) : ∃ n : Nat, x.toExtended? = some (.rational n) := by
  obtain ⟨i, hi⟩ : ∃ i : Int, x.toExtended? = some (.rational i) := by
    cases x with
    | int i => exact ⟨i, rfl⟩
    | double y =>
      obtain ⟨q, hq, hden⟩ := Double.exists_of_isIntegral hkind
      refine ⟨q.num, ?_⟩
      rw [Rat.coe_int_num_of_den_eq_one hden]
      exact Double.toExtended?_eq_rational.2 hq
  rw [Number.less, hi] at hless
  have hnot : ¬ ((i : Rat) < ((0 : Int) : Rat)) := of_decide_eq_false hless
  have hnonneg : 0 ≤ i := Rat.intCast_le_intCast.1 (Rat.not_lt.1 hnot)
  refine ⟨i.toNat, hi.trans ?_⟩
  rw [← Rat.intCast_natCast, Int.toNat_of_nonneg hnonneg]

theorem exists_line {known : Entries (Schema Definition)}
    (h : Accepts schemaOf (.properties known) (.mapping id entries))
    (hknown : known.get? "line" = some (.definition .line)) :
    ∃ line, GivesLine (entries.get? "line") line := by
  cases hline : entries.get? "line" with
  | none => exact ⟨0, .missing⟩
  | some w =>
    have hparts := of_all (of_definition (of_property h hknown hline))
    simp only [List.forall_mem_cons] at hparts
    obtain ⟨hinteger, hleast, -⟩ := hparts
    have hkind := of_kind hinteger
    cases hleast with
    | atLeast hless =>
      cases w with
      | number x =>
        obtain ⟨n, hn⟩ := exists_natural hkind (hless x rfl)
        exact ⟨n, .given hn⟩
      | _ => cases hkind

theorem exists_value {known : Entries (Schema Definition)}
    (h : Accepts schemaOf (.properties known) (.mapping id entries))
    (hknown : known.get? "val" = some (.kinds [.string, .number, .boolean])) :
    ∃ value, GivesValue (entries.get? "val") value := by
  cases hval : entries.get? "val" with
  | none => exact ⟨.null, .missing⟩
  | some w =>
    cases of_property h hknown hval with
    | kinds h =>
      obtain ⟨kind, hkind, hw⟩ := h
      simp only [List.mem_cons, List.not_mem_nil, or_false] at hkind
      obtain rfl | rfl | rfl := hkind <;> cases w <;> try cases hw
      · exact ⟨_, .text _⟩
      · exact ⟨_, .number _⟩
      · exact ⟨_, .bool _⟩

theorem exists_attribute (h : Accepts schemaOf (.definition .tagAttribute) v) :
    ∃ attr, GivesAttribute v attr := by
  have hparts := of_all (of_definition h)
  simp only [List.forall_mem_cons] at hparts
  obtain ⟨hobject, hrequired, hproperties, -⟩ := hparts
  obtain ⟨id, entries, rfl⟩ := exists_mapping hobject
  obtain ⟨w, hw⟩ := exists_of_required "name" hrequired (by simp)
  obtain ⟨name, rfl, hne⟩ := exists_name (of_property hproperties rfl hw)
  obtain ⟨value, hvalue⟩ := exists_value hproperties rfl
  obtain ⟨line, hline⟩ := exists_line hproperties rfl
  exact ⟨_, .intro hw hne hvalue hline⟩

theorem exists_attributes (h : ∀ w, entries.get? "attrs" = some w →
      Accepts schemaOf (.all [.kinds [.array], .items (.definition .tagAttribute)]) w) :
    ∃ attrs, GivesAttributes (entries.get? "attrs") attrs := by
  cases hattrs : entries.get? "attrs" with
  | none => exact ⟨[], .missing⟩
  | some w =>
    have hparts := of_all (h w hattrs)
    simp only [List.forall_mem_cons] at hparts
    obtain ⟨harray, hitems, -⟩ := hparts
    obtain ⟨id', items, rfl⟩ := exists_list harray
    obtain ⟨attrs, hgives⟩ := exists_forall₂ fun w hw => exists_attribute (of_items hitems w hw)
    exact ⟨attrs, .given hgives⟩

/-- A block describes something if the nodes in it do. -/
theorem exists_block (h : Accepts schemaOf (.definition .block) v)
    (hnodes : ∀ w, w.depth < v.depth → Accepts schemaOf (.definition .node) w →
      ∃ node, GivesNode w node) : ∃ block, GivesBlock v block := by
  have hparts := of_all (of_definition h)
  simp only [List.forall_mem_cons] at hparts
  obtain ⟨hobject, hrequired, hproperties, -⟩ := hparts
  obtain ⟨id, entries, rfl⟩ := exists_mapping hobject
  obtain ⟨w, hw⟩ := exists_of_required "nodes" hrequired (by simp)
  have hlist := of_all (of_property hproperties rfl hw)
  simp only [List.forall_mem_cons] at hlist
  obtain ⟨harray, hitems, -⟩ := hlist
  obtain ⟨id', items, rfl⟩ := exists_list harray
  obtain ⟨line, hline⟩ := exists_line hproperties rfl
  have hbelow : ∀ item ∈ items, ∃ node, GivesNode item node := fun item hitem =>
    hnodes item (Nat.lt_trans (Value.depth_lt_of_mem hitem) (Value.depth_lt_of_get? hw))
      (of_items hitems item hitem)
  obtain ⟨nodes, hgives⟩ := exists_forall₂ hbelow
  exact ⟨⟨nodes, line⟩, .intro hw hgives hline⟩

section

variable {line : Int}
  (hline : GivesLine (entries.get? "line") line)
  (hblocks : ∀ key w, entries.get? key = some w → Accepts schemaOf (.definition .block) w →
    ∃ block, GivesBlock w block)
  (hnodes : ∀ key w, entries.get? key = some w → Accepts schemaOf (.definition .node) w →
    ∃ node, GivesNode w node)

include hline hblocks

theorem exists_tag (h : Accepts schemaOf (schemaOf .tag) (.mapping id entries))
    (htype : entries.get? "type" = some (.text "Tag")) :
    ∃ node, GivesNode (.mapping id entries) node := by
  have hparts := of_all h
  simp only [List.forall_mem_cons] at hparts
  obtain ⟨hrequired, hproperties, -⟩ := hparts
  obtain ⟨w, hw⟩ := exists_of_required "name" hrequired (by simp)
  obtain ⟨name, rfl, hne⟩ := exists_name (of_property hproperties rfl hw)
  obtain ⟨attrs, hattrs⟩ := exists_attributes fun w => of_property hproperties rfl
  obtain ⟨block, hmissing, hblock⟩ : ∃ block, (entries.get? "block" = none → block = .empty) ∧
      ∀ v, entries.get? "block" = some v → GivesBlock v block := by
    cases hb : entries.get? "block" with
    | none => exact ⟨.empty, fun _ => rfl, fun _ hv => nomatch hv⟩
    | some v =>
      obtain ⟨block, hblock⟩ := hblocks _ v hb (of_property hproperties rfl hb)
      exact ⟨block, fun hv => (nomatch hv), by rintro _ ⟨⟩; exact hblock⟩
  exact ⟨_, .tag htype hw hne hattrs hmissing hblock hline⟩

theorem exists_mixin (h : Accepts schemaOf (schemaOf .mixin) (.mapping id entries))
    (htype : entries.get? "type" = some (.text "Mixin")) :
    ∃ node, GivesNode (.mapping id entries) node := by
  have hparts := of_all h
  simp only [List.forall_mem_cons] at hparts
  obtain ⟨hrequired, hproperties, -⟩ := hparts
  obtain ⟨w, hw⟩ := exists_of_required "name" hrequired (by simp)
  obtain ⟨name, rfl, hne⟩ := exists_name (of_property hproperties rfl hw)
  obtain ⟨isCall, hcall⟩ : ∃ isCall, (entries.get? "call").getD (.bool false) = .bool isCall := by
    cases hc : entries.get? "call" with
    | none => exact ⟨false, rfl⟩
    | some v =>
      have hkind := of_kind (of_property hproperties rfl hc)
      cases v with
      | bool isCall => exact ⟨isCall, rfl⟩
      | _ => cases hkind
  have hargs : (entries.get? "args").getD .null = .null ∨
      ∃ t, (entries.get? "args").getD .null = .text t := by
    cases ha : entries.get? "args" with
    | none => exact .inl rfl
    | some v =>
      cases of_property hproperties rfl ha with
      | kinds hkind =>
        obtain ⟨kind, hkind, hv⟩ := hkind
        simp only [List.mem_cons, List.not_mem_nil, or_false] at hkind
        obtain rfl | rfl := hkind <;> cases v <;> try cases hv
        · exact .inr ⟨_, rfl⟩
        · exact .inl rfl
  obtain ⟨body, hmissing, hbody⟩ : ∃ body : Option Block,
      (body = none ↔ (entries.get? "block").getD .null = .null) ∧
        ∀ block, body = some block → GivesBlock ((entries.get? "block").getD .null) block := by
    cases hb : entries.get? "block" with
    | none => exact ⟨none, iff_of_true rfl rfl, fun _ hv => by cases hv⟩
    | some v =>
      obtain rfl | haccepts := of_nullable (of_property hproperties rfl hb)
      · exact ⟨none, iff_of_true rfl rfl, fun _ hv => by cases hv⟩
      · obtain ⟨block, hblock⟩ := hblocks _ v hb haccepts
        refine ⟨some block, iff_of_false (Option.some_ne_none _) ?_, by rintro _ ⟨⟩; exact hblock⟩
        rintro rfl
        cases hblock
  exact ⟨_, .mixin htype hw hne hcall rfl hargs hmissing hbody hline⟩

include hnodes

theorem exists_conditional (h : Accepts schemaOf (schemaOf .conditional) (.mapping id entries))
    (htype : entries.get? "type" = some (.text "Conditional")) :
    ∃ node, GivesNode (.mapping id entries) node := by
  have hparts := of_all h
  simp only [List.forall_mem_cons] at hparts
  obtain ⟨hrequired, hproperties, -⟩ := hparts
  obtain ⟨w, hw⟩ := exists_of_required "test" hrequired (by simp)
  obtain ⟨test, rfl, hne⟩ := exists_name (of_property hproperties rfl hw)
  obtain ⟨v, hv⟩ := exists_of_required "consequent" hrequired (by simp)
  obtain ⟨consequent, hconsequent⟩ := hblocks _ v hv (of_property hproperties rfl hv)
  obtain ⟨alternate, hmissing, halternate⟩ : ∃ alternate : Option Node,
      (alternate = none ↔ (entries.get? "alternate").getD .null = .null) ∧
        ∀ node, alternate = some node → GivesNode ((entries.get? "alternate").getD .null) node := by
    cases ha : entries.get? "alternate" with
    | none => exact ⟨none, iff_of_true rfl rfl, fun _ hv => nomatch hv⟩
    | some v =>
      obtain rfl | haccepts := of_nullable (of_property hproperties rfl ha)
      · exact ⟨none, iff_of_true rfl rfl, fun _ hv => nomatch hv⟩
      · obtain ⟨node, hnode⟩ := hnodes _ v ha haccepts
        refine ⟨some node, iff_of_false (nofun) ?_, by rintro _ ⟨⟩; exact hnode⟩
        rintro rfl
        cases hnode
  exact ⟨_, .conditional htype hw hne hv hconsequent hmissing halternate hline⟩

end

theorem exists_content {known : Entries (Schema Definition)}
    (h : Accepts schemaOf (.properties known) (.mapping id entries))
    (hknown : known.get? "val" = some (.kinds [.string])) :
    ∃ content, (entries.get? "val").getD (.text []) = .text content := by
  cases hval : entries.get? "val" with
  | none => exact ⟨[], rfl⟩
  | some w => exact exists_text (of_property h hknown hval)

/-- Every node that is accepted describes something. -/
theorem exists_node (h : Accepts schemaOf (.definition .node) v) : ∃ node, GivesNode v node := by
  -- The schema of nodes refers to itself, so the induction is on the value: a block is accepted at
  -- the same value as its node, and the nodes in it lie deeper.
  induction hdepth : v.depth using Nat.strong_induction_on generalizing v with
  | _ depth ih =>
    have hnodes : ∀ w, w.depth < v.depth → Accepts schemaOf (.definition .node) w →
        ∃ node, GivesNode w node := fun w hw hnode => ih _ (hdepth ▸ hw) hnode rfl
    have hparts := of_all (of_definition h)
    simp only [List.forall_mem_cons] at hparts
    obtain ⟨hobject, hrequired, hproperties, hblock, htag, hmixin, hconditional, htext, -⟩ := hparts
    obtain ⟨id, entries, rfl⟩ := exists_mapping hobject
    obtain ⟨w, hw⟩ := exists_of_required "type" hrequired (by simp)
    obtain ⟨type, rfl, -⟩ := exists_name (of_property hproperties rfl hw)
    obtain ⟨line, hline⟩ := exists_line hproperties rfl
    have hblocks : ∀ key w, entries.get? key = some w →
        Accepts schemaOf (.definition .block) w → ∃ block, GivesBlock w block :=
      fun key w hkey haccepts => exists_block haccepts fun u hu =>
        hnodes u (Nat.lt_trans hu (Value.depth_lt_of_get? hkey))
    have hnodes' : ∀ key w, entries.get? key = some w →
        Accepts schemaOf (.definition .node) w → ∃ node, GivesNode w node :=
      fun key w hkey => hnodes w (Value.depth_lt_of_get? hkey)
    by_cases hunknown : type ∉ nodeTypes
    · exact ⟨_, .unknown hw hunknown hline⟩
    by_cases hknown : type ∈ blockTypes
    · obtain ⟨block, hgives⟩ := exists_block (.definition (of_types hblock hw hknown)) hnodes
      exact ⟨_, .block hw hknown hgives⟩
    by_cases ht : type = "Tag"
    · subst ht
      exact exists_tag hline hblocks (of_types htag hw List.mem_cons_self) hw
    by_cases hm : type = "Mixin"
    · subst hm
      exact exists_mixin hline hblocks (of_types hmixin hw List.mem_cons_self) hw
    by_cases hc : type = "Conditional"
    · subst hc
      exact exists_conditional hline hblocks hnodes'
        (of_types hconditional hw List.mem_cons_self) hw
    have hrest : type = "Text" ∨ type = "Comment" ∨ type = "BlockComment" := by
      simp only [nodeTypes, blockTypes, List.mem_cons, List.not_mem_nil] at hunknown hknown
      tauto
    obtain ⟨content, hcontent⟩ := exists_content (of_types htext hw (by simpa using hrest)) rfl
    obtain rfl | hcomment := hrest
    · exact ⟨_, .text hw hcontent hline⟩
    · exact ⟨_, .comment hw hcomment hcontent hline⟩

end

/-- The block of a document without issues is described by its structure, or else by the document
itself. -/
theorem exists_gives_of_valid {doc : Value} (h : issues doc = []) :
    ∃ block, GivesBlock ((Document.field? "structure" doc).getD doc) block := by
  have hparts := of_all ((issues_eq_nil_iff doc).1 h)
  simp only [List.forall_mem_cons] at hparts
  obtain ⟨hobject, hchoose, -⟩ := hparts
  obtain ⟨id, entries, rfl⟩ := exists_mapping hobject
  have hblocks : ∀ v, Schema.Accepts schemaOf (.definition .block) v →
      ∃ block, GivesBlock v block := fun v hv => exists_block hv fun w _ => exists_node
  rw [Document.field?]
  cases hchoose with
  | choose hscene hblock =>
    cases hkey : entries.get? "structure" with
    | none => exact hblocks _ (hblock (by rw [SchemaTest.holds, Entries.has, hkey]; rfl))
    | some v =>
      have hparts := of_all (of_definition
        (hscene (by rw [SchemaTest.holds, Entries.has, hkey]; rfl)))
      simp only [List.forall_mem_cons] at hparts
      obtain ⟨-, -, hproperties, -⟩ := hparts
      exact hblocks v (of_property hproperties rfl hkey)

end DocumentFormat

end SceneTemplates
