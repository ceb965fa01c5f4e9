import SceneTemplates.Proofs.DescribedDocuments
import SceneTemplates.Proofs.LocatedErrors

/-!
# Documents that are read

Every document without issues is read as the block that it describes, and the nodes of unknown type
that are read are those whose type is not known.
-/
namespace SceneTemplates

namespace Double

variable {x : Double} {q : Rat}

theorem eq_zero_of_isZero (h : x.isZero = true) (hq : x.toRat? = some q) : q = 0 := by
  cases x with
  | finite negative significand exponent canonical =>
    rw [isZero, beq_iff_eq] at h
    subst h
    simp [toRat?] at hq
    exact hq.symm
  | _ => cases h

@[simp] theorem truncateRat_natCast (n : Nat) : truncateRat n = n := by
  have hnot : ¬ ((n : Rat) < 0) := Rat.not_lt.2 Rat.natCast_nonneg
  rw [truncateRat, if_neg hnot, ← Rat.intCast_natCast]
  exact Rat.floor_intCast n

end Double

namespace DocumentFormat

/-! ## What is described is what is read -/

theorem lineOf_of_gives {v : Option Value} {line : Int} (h : GivesLine v line) :
    Reading.lineOf v = .ok line := by
  cases h with
  | missing => rfl
  | @given x n h =>
    cases x with
    | int i =>
      simp only [Number.toExtended?, Option.some.injEq, ExtendedRat.rational.injEq] at h
      have hi : i = n := by exact_mod_cast h
      subst hi
      cases n <;> rfl
    | double y =>
      have hrat := Double.toExtended?_eq_rational.1 h
      by_cases hzero : y.isZero = true
      · have hn : (n : Rat) = 0 := Double.eq_zero_of_isZero hzero hrat
        have hn : n = 0 := by exact_mod_cast hn
        subst hn
        simp [Reading.lineOf, Value.isGiven, Number.isZero, hzero]
      · simp [Reading.lineOf, Value.isGiven, Number.isZero, hzero, hrat]

theorem getD_of_gives {val : Option Value} {value : Value} (h : GivesValue val value) :
    val.getD .null = value := by
  cases h <;> rfl

theorem attributeOf_of_gives {v : Value} {attr : TagAttribute} (h : GivesAttribute v attr) :
    Reading.attributeOf v = .ok attr := by
  cases h with
  | @intro id entries name value line hname hne hvalue hline =>
    rw [Reading.attributeOf, hname, lineOf_of_gives hline, getD_of_gives hvalue]
    rfl

theorem attributes_of_gives {v : Option Value} {attrs : List TagAttribute}
    (h : GivesAttributes v attrs) :
    (Reading.listOf v >>= fun items => items.mapM Reading.attributeOf) = .ok attrs := by
  cases h with
  | missing => rfl
  | given h =>
    exact Except.bind_eq_ok.2
      ⟨_, rfl, Except.mapM_eq_ok.2 (h.imp fun _ _ => attributeOf_of_gives)⟩

end DocumentFormat

namespace Reading

open DocumentFormat

@[simp] theorem value_ofValue (v : Value) : (ofValue v).value = v := by
  cases v <;> rw [ofValue]
  all_goals exact nofun

@[simp] theorem ofEntries_eq_map (entries : Entries Value) :
    ofEntries entries = entries.map fun entry => (entry.1, ofValue entry.2) := by
  induction entries with
  | nil => rfl
  | cons entry rest ih => rw [ofEntries, ih, List.map_cons]

theorem get?_ofEntries (key : Text) (entries : Entries Value) :
    Entries.get? key (ofEntries entries) = (entries.get? key).map ofValue := by
  simp

@[simp] theorem mapM_ofItems (items : List Value) :
    (ofItems items).mapM Reading.node = items.mapM Node.ofValue := by
  induction items with
  | nil => rfl
  | cons v rest ih => rw [ofItems, List.mapM_cons, List.mapM_cons, ih]; rfl

@[simp] theorem value?_ofEntries (key : Text) (entries : Entries Value) :
    Fields.value? (ofEntries entries) key = entries.get? key := by
  cases hkey : entries.get? key <;> simp [Fields.value?, hkey]

@[simp] theorem present?_ofEntries (key : Text) (entries : Entries Value) :
    Fields.present? (ofEntries entries) key =
      ((entries.get? key).getD .null).nonNull?.map ofValue := by
  rw [Fields.present?, get?_ofEntries]
  cases entries.get? key with
  | none => rfl
  | some v => cases v <;> rfl

theorem line_ofEntries {entries : Entries Value} {line : Int}
    (h : GivesLine (entries.get? "line") line) : Fields.line (ofEntries entries) = .ok line := by
  rw [Fields.line, value?_ofEntries]
  exact lineOf_of_gives h

theorem block_ofEntries {key : Text} {entries : Entries Value} {block : Block}
    (hmissing : entries.get? key = none → block = .empty)
    (hblock : ∀ v, entries.get? key = some v → Block.ofValue v = .ok block) :
    Fields.block (ofEntries entries) key = .ok block := by
  rw [Fields.block, get?_ofEntries]
  cases hkey : entries.get? key with
  | none => exact congrArg Except.ok (hmissing hkey).symm
  | some v => exact hblock v hkey

end Reading

namespace DocumentFormat

/-- A block is read if the nodes in it are. -/
theorem read_block {v : Value} {block : Block} (h : GivesBlock v block)
    (hnodes : ∀ w node, w.depth < v.depth → GivesNode w node → Node.ofValue w = .ok node) :
    Block.ofValue v = .ok block := by
  cases h with
  | @intro id id' entries items nodes line hitems hgives hline =>
    have hread : items.mapM Node.ofValue = .ok nodes := by
      refine Except.mapM_eq_ok.2 (List.forall₂_iff_zip.2 ⟨hgives.length_eq, ?_⟩)
      intro w node hmem
      have hdepth := Nat.lt_trans
        (@Value.depth_lt_of_mem w id' items (List.of_mem_zip hmem).1)
        (@Value.depth_lt_of_get? _ id _ _ hitems)
      exact hnodes w node hdepth ((List.forall₂_iff_zip.1 hgives).2 hmem)
    show Reading.Fields.asBlock (Reading.ofEntries entries) = _
    rw [Reading.Fields.asBlock, Reading.get?_ofEntries, hitems, Option.map_some,
      Reading.line_ofEntries hline]
    show ((Reading.ofItems items).mapM Reading.node >>= _) = _
    rw [Reading.mapM_ofItems, hread]
    rfl

section

variable {id : Identity} {entries : Entries Value} {type : Text}
  (htype : entries.get? "type" = some (.text type))

include htype

/-- A mapping with a type is read by its type. -/
theorem ofValue_typed :
    Node.ofValue (.mapping id entries) =
      let fields : Reading.Fields := Reading.ofEntries entries
      if type = "Block" || type = "NamedBlock" then return .block (← fields.asBlock)
      else if type = "Tag" then fields.asTag
      else if type = "Mixin" then fields.asMixin
      else if type = "Conditional" then fields.asConditional
      else if type = "Text" then return .text fields.content (← fields.line)
      else if type = "Comment" || type = "BlockComment" then
        return .comment fields.content (← fields.line)
      else return .unknown type (← fields.line) := by
  show Reading.Fields.asNode (Reading.ofEntries entries) = _
  unfold Reading.Fields.asNode
  rw [Reading.value?_ofEntries, htype]
  rfl

theorem ofValue_block (h : type ∈ blockTypes) :
    Node.ofValue (.mapping id entries) = (Block.ofValue (.mapping id entries)).map .block := by
  have hblock : (decide (type = "Block") || decide (type = "NamedBlock")) = true := by
    simpa [blockTypes] using h
  rw [ofValue_typed htype]
  dsimp only
  rw [if_pos hblock]
  rfl

theorem ofValue_unknown (h : type ∉ nodeTypes) :
    Node.ofValue (.mapping id entries) =
      (Reading.Fields.line (Reading.ofEntries entries)).map (.unknown type) := by
  simp only [nodeTypes, List.mem_cons, List.not_mem_nil, or_false, not_or] at h
  rw [ofValue_typed htype]
  simp [h]
  rfl

end

theorem GivesBlock.isGiven {v : Value} {block : Block} (h : GivesBlock v block) :
    v.isGiven = true := by
  cases h with
  | @intro id _ entries _ _ _ hitems _ _ =>
    cases entries with
    | nil => cases hitems
    | cons entry rest => rfl

/-- A value that describes something is not null. -/
theorem GivesNode.nonNull? {v : Value} {node : Node} (h : GivesNode v node) :
    v.nonNull? = some v := by
  cases h <;> rfl

section

variable {id : Identity} {entries : Entries Value} {line : Int}
  (hline : GivesLine (entries.get? "line") line)
  (hblocks : ∀ key v block, entries.get? key = some v → GivesBlock v block →
    Block.ofValue v = .ok block)
  (hnodes : ∀ key v node, entries.get? key = some v → GivesNode v node →
    Node.ofValue v = .ok node)

include hline hblocks

theorem read_tag {name : Text} {attrs : List TagAttribute} {block : Block}
    (htype : entries.get? "type" = some (.text "Tag"))
    (hname : entries.get? "name" = some (.text name))
    (hattrs : GivesAttributes (entries.get? "attrs") attrs)
    (hmissing : entries.get? "block" = none → block = .empty)
    (hblock : ∀ v, entries.get? "block" = some v → GivesBlock v block) :
    Node.ofValue (.mapping id entries) = .ok (.tag (.text name) attrs block line) := by
  obtain ⟨items, hitems, hread⟩ := Except.bind_eq_ok.1 (attributes_of_gives hattrs)
  rw [ofValue_typed htype]
  show Reading.Fields.asTag (Reading.ofEntries entries) = _
  rw [Reading.Fields.asTag, Reading.value?_ofEntries, Reading.value?_ofEntries, hname, hitems,
    Reading.block_ofEntries hmissing fun v hv => hblocks _ v block hv (hblock v hv),
    Reading.line_ofEntries hline]
  show (items.mapM Reading.attributeOf >>= _) = _
  rw [hread]
  rfl

theorem read_mixin {name : Text} {isCall : Bool} {body : Option Block}
    (htype : entries.get? "type" = some (.text "Mixin"))
    (hname : entries.get? "name" = some (.text name))
    (hcall : (entries.get? "call").getD (.bool false) = .bool isCall)
    (hmissing : body = none ↔ (entries.get? "block").getD .null = .null)
    (hbody : ∀ block, body = some block →
      GivesBlock ((entries.get? "block").getD .null) block) :
    Node.ofValue (.mapping id entries) =
      .ok (.mixin (.text name) isCall body ((entries.get? "args").getD .null) line) := by
  have hgiven : (entries.get? "call").any Value.isGiven = isCall := by
    cases hc : entries.get? "call" with
    | none =>
      rw [hc] at hcall
      cases hcall
      rfl
    | some v =>
      rw [hc] at hcall
      cases hcall
      rfl
  rw [ofValue_typed htype]
  show Reading.Fields.asMixin (Reading.ofEntries entries) = _
  rw [Reading.Fields.asMixin, Reading.value?_ofEntries, Reading.value?_ofEntries,
    Reading.value?_ofEntries, hname, hgiven, Reading.get?_ofEntries, Reading.line_ofEntries hline]
  cases body with
  | none =>
    have hnull := hmissing.1 rfl
    cases hb : entries.get? "block" with
    | none => rfl
    | some v =>
      rw [hb] at hnull
      cases hnull
      rfl
  | some block =>
    have hgives := hbody block rfl
    cases hb : entries.get? "block" with
    | none =>
      rw [hb] at hgives
      cases hgives
    | some v =>
      rw [hb, Option.getD_some] at hgives
      have hread : (Reading.ofValue v).block = .ok block := hblocks _ v block hb hgives
      rw [Option.map_some]
      dsimp only
      rw [Reading.value_ofValue, GivesBlock.isGiven hgives, hread]
      rfl

include hnodes

theorem read_conditional {test : Text} {v : Value} {consequent : Block} {alternate : Option Node}
    (htype : entries.get? "type" = some (.text "Conditional"))
    (htest : entries.get? "test" = some (.text test))
    (hthen : entries.get? "consequent" = some v) (hconsequent : GivesBlock v consequent)
    (hmissing : alternate = none ↔ (entries.get? "alternate").getD .null = .null)
    (halternate : ∀ node, alternate = some node →
      GivesNode ((entries.get? "alternate").getD .null) node) :
    Node.ofValue (.mapping id entries) =
      .ok (.conditional (.text test) consequent alternate line) := by
  have hblock : Reading.Fields.block (Reading.ofEntries entries) "consequent" = .ok consequent := by
    refine Reading.block_ofEntries (fun hnone => ?_) fun w hw => ?_
    · rw [hthen] at hnone
      cases hnone
    · rw [hthen] at hw
      cases hw
      exact hblocks _ v consequent hthen hconsequent
  rw [ofValue_typed htype]
  show Reading.Fields.asConditional (Reading.ofEntries entries) = _
  rw [Reading.Fields.asConditional, Reading.value?_ofEntries, htest, hblock,
    Reading.line_ofEntries hline]
  cases alternate with
  | none =>
    rw [Reading.present?_ofEntries, hmissing.1 rfl]
    rfl
  | some node =>
    have hgives := halternate node rfl
    rw [Reading.present?_ofEntries, hgives.nonNull?]
    cases ha : entries.get? "alternate" with
    | none =>
      rw [ha] at hgives
      cases hgives
    | some w =>
      rw [ha] at hgives
      have hread : (Reading.ofValue w).node = .ok node := hnodes _ w node ha hgives
      show ((Reading.ofValue w).node.map some >>= _) = _
      rw [hread]
      rfl

end

theorem content_ofEntries {entries : Entries Value} {content : Text}
    (h : (entries.get? "val").getD (.text []) = .text content) :
    Reading.Fields.content (Reading.ofEntries entries) = .text content := by
  rw [Reading.Fields.content, Reading.value?_ofEntries, h]

/-- What a node describes is what it is read as. -/
theorem read_node {v : Value} {node : Node} (h : GivesNode v node) : Node.ofValue v = .ok node := by
  induction hdepth : v.depth using Nat.strong_induction_on generalizing v node with
  | _ depth ih =>
    have hbelow : ∀ w node, w.depth < v.depth → GivesNode w node → Node.ofValue w = .ok node :=
      fun w node hw hgives => ih _ (hdepth ▸ hw) hgives rfl
    have hnodes : ∀ id (entries : Entries Value), v = .mapping id entries → ∀ key w node,
        entries.get? key = some w → GivesNode w node → Node.ofValue w = .ok node := by
      rintro id entries rfl key w node hw
      exact hbelow w node (Value.depth_lt_of_get? hw)
    have hblocks : ∀ id (entries : Entries Value), v = .mapping id entries → ∀ key w block,
        entries.get? key = some w → GivesBlock w block → Block.ofValue w = .ok block := by
      rintro id entries rfl key w block hw hgives
      exact read_block hgives fun u node hu =>
        hbelow u node (Nat.lt_trans hu (Value.depth_lt_of_get? hw))
    cases h with
    | block htype hknown hblock =>
      rw [ofValue_block htype hknown, read_block hblock hbelow]
      rfl
    | tag htype hname _ hattrs hmissing hblock hline =>
      exact read_tag hline (hblocks _ _ rfl) htype hname hattrs hmissing hblock
    | mixin htype hname _ hcall hargs _ hmissing hbody hline =>
      rw [← hargs]
      exact read_mixin hline (hblocks _ _ rfl) htype hname hcall hmissing hbody
    | conditional htype htest _ hthen hconsequent hmissing halternate hline =>
      exact read_conditional hline (hblocks _ _ rfl) (hnodes _ _ rfl) htype htest hthen hconsequent
        hmissing halternate
    | text htype hcontent hline =>
      rw [ofValue_typed htype]
      show (do return Node.text _ (← _) : Except NodeFault Node) = _
      rw [content_ofEntries hcontent, Reading.line_ofEntries hline]
      rfl
    | comment htype hknown hcontent hline =>
      rw [ofValue_typed htype]
      obtain rfl | rfl := hknown <;>
      · show (do return Node.comment _ (← _) : Except NodeFault Node) = _
        rw [content_ofEntries hcontent, Reading.line_ofEntries hline]
        rfl
    | unknown htype hunknown hline =>
      rw [ofValue_unknown htype hunknown, Reading.line_ofEntries hline]
      rfl

end DocumentFormat

/-! ## Unknown nodes -/

mutual

/-- The types of the unknown nodes in a node. -/
def Node.unknownTypes : Node → List Text
  | .block b => b.unknownTypes
  | .tag _ _ b _ => b.unknownTypes
  | .mixin _ _ none _ _ => []
  | .mixin _ _ (some b) _ _ => b.unknownTypes
  | .conditional _ b none _ => b.unknownTypes
  | .conditional _ b (some alternate) _ => b.unknownTypes ++ alternate.unknownTypes
  | .unknown type _ => [type]
  | _ => []

def Block.unknownTypes : Block → List Text
  | ⟨nodes, _⟩ => Node.allUnknownTypes nodes

def Node.allUnknownTypes : List Node → List Text
  | [] => []
  | node :: rest => node.unknownTypes ++ Node.allUnknownTypes rest

end

namespace DocumentFormat

mutual

/-- The unknown nodes that a document describes have types that are not known. -/
theorem GivesNode.unknownTypes {v : Value} {node : Node} (h : GivesNode v node) :
    ∀ type ∈ node.unknownTypes, type ∉ nodeTypes := by
  match node with
  | .block b =>
    cases h with
    | block _ _ hblock =>
      rw [Node.unknownTypes]
      exact hblock.unknownTypes
  | .tag _ _ b _ =>
    cases h with
    | @tag id entries _ _ _ _ _ _ _ _ hmissing hblock =>
      rw [Node.unknownTypes]
      cases hb : entries.get? "block" with
      | none =>
        rw [hmissing hb]
        exact List.forall_mem_nil _
      | some v => exact (hblock v hb).unknownTypes
  | .mixin _ _ none _ _ =>
    rw [Node.unknownTypes]
    exact List.forall_mem_nil _
  | .mixin _ _ (some b) _ _ =>
    cases h with
    | mixin _ _ _ _ _ _ _ hbody =>
      rw [Node.unknownTypes]
      exact (hbody b rfl).unknownTypes
  | .conditional _ b none _ =>
    cases h with
    | conditional _ _ _ _ hconsequent =>
      rw [Node.unknownTypes]
      exact hconsequent.unknownTypes
  | .conditional _ b (some alternate) _ =>
    cases h with
    | conditional _ _ _ _ hconsequent _ halternate =>
      rw [Node.unknownTypes]
      exact List.forall_mem_append.2
        ⟨hconsequent.unknownTypes, (halternate alternate rfl).unknownTypes⟩
  | .text _ _ | .comment _ _ =>
    rw [Node.unknownTypes]
    · exact List.forall_mem_nil _
    all_goals exact nofun
  | .unknown type line =>
    cases h with
    | unknown _ hunknown =>
      rw [Node.unknownTypes, List.forall_mem_singleton]
      exact hunknown

theorem GivesBlock.unknownTypes {v : Value} {block : Block} (h : GivesBlock v block) :
    ∀ type ∈ block.unknownTypes, type ∉ nodeTypes := by
  match block with
  | ⟨nodes, _⟩ =>
    cases h with
    | intro _ hnodes =>
      rw [Block.unknownTypes]
      exact allUnknownTypes_of_gives hnodes

theorem allUnknownTypes_of_gives {items : List Value} {nodes : List Node}
    (h : List.Forall₂ GivesNode items nodes) :
    ∀ type ∈ Node.allUnknownTypes nodes, type ∉ nodeTypes := by
  match nodes with
  | [] => exact List.forall_mem_nil _
  | node :: rest =>
    cases h with
    | cons hnode hrest =>
      rw [Node.allUnknownTypes]
      exact List.forall_mem_append.2 ⟨hnode.unknownTypes, allUnknownTypes_of_gives hrest⟩

end

end DocumentFormat

namespace Document

open DocumentFormat (issues GivesBlock nodeTypes)

/-- A block in a document. -/
def blockValue (nodes : List Value) : Value :=
  .newMapping [("type", .text "Block"), ("nodes", .newList nodes)]

/-- A document with a mixin that is called without arguments, a branch without an alternate inside
another one, and an include, which is no node that is known. -/
def cardDocument : Value :=
  let title := .newMapping [("type", .text "Mixin"), ("name", .text "title"),
    ("block", blockValue [.newMapping [("type", .text "Tag"), ("name", .text "text"),
      ("attrs", .newList [.newMapping [("name", .text "text"), ("val", .text "title")],
        .newMapping [("name", .text "hidden"), ("line", .int 3)]]), ("line", .int 3)]])]
  let call := .newMapping [("type", .text "Mixin"), ("name", .text "title"), ("call", .bool true),
    ("args", .null), ("block", .null)]
  let inner := .newMapping [("type", .text "Conditional"), ("test", .text "title"),
    ("consequent", blockValue [call]), ("alternate", .null)]
  let outer := .newMapping [("type", .text "Conditional"), ("test", .text "shown"),
    ("consequent", blockValue [inner]),
    ("alternate", .newMapping [("type", .text "Comment"), ("val", .text "hidden")])]
  let other := .newMapping [("type", .text "Include"), ("nodes", .null), ("line", .int 9)]
  .newMapping [("name", .text "Card"), ("structure", blockValue [title, outer, other])]

end Document

end SceneTemplates
