import SceneTemplates.Expression.Operation
import SceneTemplates.Expression.Validation

/-!
# Values that are alike

An expression cannot read every entry of a value: in mappings some keys are forbidden, and in host
objects the names with a leading underscore are private. Two values are alike if they differ in
such entries only. Operators do not tell them apart, and what can be read from them is alike again.
-/
namespace SceneTemplates

/-- Outcomes that are one error, or values in a relation. -/
inductive AlikeOutcomes {ε α : Type} (r : α → α → Prop) : Except ε α → Except ε α → Prop where
  | ok {a a' : α} (h : r a a') : AlikeOutcomes r (.ok a) (.ok a')
  | error (e : ε) : AlikeOutcomes r (.error e) (.error e)

theorem AlikeOutcomes.ofEq {ε α : Type} {r : α → α → Prop} (hr : ∀ a, r a a)
    {outcome outcome' : Except ε α} (h : outcome' = outcome) :
    AlikeOutcomes r outcome outcome' := by
  subst h
  cases outcome' with
  | ok a => exact .ok (hr a)
  | error e => exact .error e

theorem AlikeOutcomes.eq_error {ε α : Type} {r : α → α → Prop} {e : ε} {outcome : Except ε α}
    (h : AlikeOutcomes r (.error e) outcome) : outcome = .error e := by
  cases h
  rfl

namespace Value

/-- Optional values that are there on both sides or on neither. -/
theorem rel_refl {α : Type} {r : α → α → Prop} (hr : ∀ a, r a a) (o : Option α) :
    Option.Rel r o o := by
  cases o with
  | none => exact .none
  | some a => exact .some (hr a)

theorem rel_map {α β : Type} {r : α → α → Prop} {q : β → β → Prop} {o o' : Option α}
    {f : α → β} (h : Option.Rel r o o') (hf : ∀ {a a'}, r a a' → q (f a) (f a')) :
    Option.Rel q (o.map f) (o'.map f) := by
  cases h with
  | none => exact .none
  | some ha => exact .some (hf ha)

theorem rel_bind {α β : Type} {r : α → α → Prop} {q : β → β → Prop} {o o' : Option α}
    {f f' : α → Option β} (h : Option.Rel r o o')
    (hf : ∀ {a a'}, r a a' → Option.Rel q (f a) (f' a')) :
    Option.Rel q (o >>= f) (o' >>= f') := by
  cases h with
  | none => exact .none
  | some ha => exact hf ha

/-- A key of a mapping that no expression can read. -/
def isForbiddenKey (key : Text) : Bool := forbiddenProperties.contains key

/-- An attribute of a host object that no expression can read. -/
def isPrivateName (name : Text) : Bool := decide (name.head? = some '_'.toNat)

mutual

/-- Two values that differ in hidden entries only. What is wrapped as a literal has a text form of
its own, which is the same on both sides. -/
inductive Alike : Value → Value → Prop where
  | same (v : Value) : Alike v v
  | list {items items' : List Value} (identity : Identity) (h : AlikeItems items items') :
      Alike (.list identity items) (.list identity items')
  | tuple {items items' : List Value} (identity : Identity) (h : AlikeItems items items') :
      Alike (.tuple (i := identity) items) (.tuple (i := identity) items')
  | mapping {entries entries' : List (Text × Value)} (identity : Identity)
      (h : AlikeEntries isForbiddenKey entries entries') :
      Alike (.mapping identity entries) (.mapping identity entries')
  | object {attributes attributes' : List (Text × Value)} (handle : HostObject)
      (h : AlikeEntries isPrivateName attributes attributes') :
      Alike (.object handle attributes) (.object handle attributes')
  | literal {v v' : Value} (identity : Identity) (h : Alike v v') (hshown : v'.shown = v.shown) :
      Alike (.literal identity v) (.literal identity v')

inductive AlikeItems : List Value → List Value → Prop where
  | nil : AlikeItems [] []
  | cons {v v' : Value} {rest rest' : List Value} (hv : Alike v v')
      (hrest : AlikeItems rest rest') : AlikeItems (v :: rest) (v' :: rest')

/-- Entries with the same keys whose values are alike, except where the key is hidden. -/
inductive AlikeEntries : (Text → Bool) → List (Text × Value) → List (Text × Value) → Prop where
  | nil (hides : Text → Bool) : AlikeEntries hides [] []
  | hidden {hides : Text → Bool} (key : Text) (v v' : Value) {rest rest' : List (Text × Value)}
      (hkey : hides key = true) (hrest : AlikeEntries hides rest rest') :
      AlikeEntries hides ((key, v) :: rest) ((key, v') :: rest')
  | visible {hides : Text → Bool} (key : Text) {v v' : Value} {rest rest' : List (Text × Value)}
      (hv : Alike v v') (hrest : AlikeEntries hides rest rest') :
      AlikeEntries hides ((key, v) :: rest) ((key, v') :: rest')

end

variable {v v' w w' : Value} {items items' : List Value} {hides : Text → Bool}
  {entries entries' : List (Text × Value)}

theorem AlikeItems.refl (items : List Value) : AlikeItems items items := by
  induction items with
  | nil => exact .nil
  | cons v rest ih => exact .cons (.same v) ih

theorem AlikeEntries.refl (hides : Text → Bool) (entries : List (Text × Value)) :
    AlikeEntries hides entries entries := by
  induction entries with
  | nil => exact .nil hides
  | cons entry rest ih => exact .visible entry.1 (.same entry.2) ih

mutual

theorem Alike.symm {v v' : Value} : Alike v v' → Alike v' v
  | .same v => .same v
  | .list identity h => .list identity h.symm
  | .tuple identity h => .tuple identity h.symm
  | .mapping identity h => .mapping identity h.symm
  | .object handle h => .object handle h.symm
  | .literal identity h hshown => .literal identity h.symm hshown.symm

theorem AlikeItems.symm {items items' : List Value} :
    AlikeItems items items' → AlikeItems items' items
  | .nil => .nil
  | .cons hv hrest => .cons hv.symm hrest.symm

theorem AlikeEntries.symm {hides : Text → Bool} {entries entries' : List (Text × Value)} :
    AlikeEntries hides entries entries' → AlikeEntries hides entries' entries
  | .nil hides => .nil hides
  | .hidden key v v' hkey hrest => .hidden key v' v hkey hrest.symm
  | .visible key hv hrest => .visible key hv.symm hrest.symm

end

/-! ## Parts of values that are alike -/

theorem AlikeItems.length (h : AlikeItems items items') : items'.length = items.length := by
  induction items generalizing items' with
  | nil =>
    cases h
    rfl
  | cons v rest ih =>
    cases h with
    | cons hv hrest => simp only [List.length_cons, ih hrest]

theorem AlikeItems.isEmpty (h : AlikeItems items items') : items'.isEmpty = items.isEmpty := by
  cases h <;> rfl

theorem AlikeItems.append {others others' : List Value} (h : AlikeItems items items')
    (h' : AlikeItems others others') : AlikeItems (items ++ others) (items' ++ others') := by
  induction items generalizing items' with
  | nil =>
    cases h
    exact h'
  | cons v rest ih =>
    cases h with
    | cons hv hrest => exact .cons hv (ih hrest)

theorem AlikeEntries.keys (h : AlikeEntries hides entries entries') :
    Entries.keys entries' = Entries.keys entries := by
  induction entries generalizing entries' with
  | nil =>
    cases h
    rfl
  | cons entry rest ih =>
    cases h with
    | hidden key v v' hkey hrest => simpa [Entries.keys] using ih hrest
    | visible key hv hrest => simpa [Entries.keys] using ih hrest

/-- What is stored under a key that is not hidden is alike. -/
theorem AlikeEntries.get? (h : AlikeEntries hides entries entries') {key : Text}
    (hkey : hides key = false) :
    Option.Rel Alike (Entries.get? key entries) (Entries.get? key entries') := by
  induction entries generalizing entries' with
  | nil =>
    cases h
    exact .none
  | cons entry rest ih =>
    cases h with
    | hidden k v v' hk hrest =>
      have hne : ¬ k = key := by
        rintro rfl
        rw [hk] at hkey
        cases hkey
      simpa [Entries.get?, hne] using ih hrest
    | visible k hv hrest =>
      by_cases hk : k = key
      · simpa [Entries.get?, hk] using Option.Rel.some hv
      · simpa [Entries.get?, hk] using ih hrest

/-- Storing values that are alike. -/
theorem AlikeEntries.put (h : AlikeEntries hides entries entries') (key : Text) (hv : Alike v v') :
    AlikeEntries hides (Entries.put key v entries) (Entries.put key v' entries') := by
  induction entries generalizing entries' with
  | nil =>
    cases h
    exact .visible key hv (.nil hides)
  | cons entry rest ih =>
    cases h with
    | hidden k u u' hk hrest =>
      by_cases he : k = key
      · simpa [Entries.put, he] using AlikeEntries.visible key hv hrest
      · simpa [Entries.put, he] using AlikeEntries.hidden k u u' hk (ih hrest)
    | visible k hu hrest =>
      by_cases he : k = key
      · simpa [Entries.put, he] using AlikeEntries.visible key hv hrest
      · simpa [Entries.put, he] using AlikeEntries.visible k hu (ih hrest)

/-! ## What does not tell them apart -/

namespace Alike

theorem isNullish (h : Alike v v') : v'.isNullish = v.isNullish := by cases h <;> rfl

theorem isTruthy (h : Alike v v') : v'.isTruthy = v.isTruthy := by cases h <;> rfl

theorem kind (h : Alike v v') : v'.kind = v.kind := by cases h <;> rfl

theorem text? (h : Alike v v') : v'.text? = v.text? := by cases h <;> rfl

theorem asNumber? (h : Alike v v') : v'.asNumber? = v.asNumber? := by cases h <;> rfl

theorem toNumber (h : Alike v v') : v'.toNumber = v.toNumber := by cases h <;> rfl

theorem collapse (h : Alike v v') : Alike v.collapse v'.collapse := by
  cases h with
  | same v => exact .same _
  | list identity h => exact .list identity h
  | tuple identity h => exact .tuple identity h
  | mapping identity h => exact .mapping identity h
  | object handle h => exact .object handle h
  | literal identity h hshown => exact .literal identity h hshown

/-- A number is alike only to itself. -/
theorem eq_of_asNumber? (h : Alike v v') {n : Number} (hn : v.asNumber? = some n) : v' = v := by
  cases h with
  | same v => rfl
  | _ => cases hn

end Alike

mutual

/-- Values that are alike have one text form. -/
theorem Alike.toText {v v' : Value} : Alike v v' → v'.toText = v.toText
  | .same v => rfl
  | .list identity h => by simp only [Value.toText, h.itemTexts]
  | .tuple identity h => by simp only [Value.toText, h.itemTexts]
  | .mapping identity h => rfl
  | .object handle h => rfl
  | .literal identity h hshown => by simp only [Value.toText, hshown]

theorem AlikeItems.itemTexts {items items' : List Value} :
    AlikeItems items items' → itemTexts items' = itemTexts items
  | .nil => rfl
  | .cons hv hrest => by simp only [Value.itemTexts, hv.isNullish, hv.toText, hrest.itemTexts]

end

/-! ## What messages speak of -/

mutual

/-- A value without what no message speaks of. Messages name types, numbers, texts, the keys of
mappings and the lengths of sequences; they are silent on what is stored in a mapping or a host
object and on what a literal wraps. -/
def outline : Value → Value
  | .list identity items => .list identity (outlineItems items)
  | @Value.tuple i items => .tuple (i := i) (outlineItems items)
  | .mapping identity entries =>
    .mapping identity (entries.map fun entry => (entry.1, .undefined))
  | .object handle _ => .object handle []
  | .literal identity _ => .literal identity .undefined
  | v => v

def outlineItems : List Value → List Value
  | [] => []
  | v :: rest => outline v :: outlineItems rest

end

theorem AlikeEntries.outline (h : AlikeEntries hides entries entries') :
    entries'.map (fun entry => (entry.1, Value.undefined)) =
      entries.map fun entry => (entry.1, Value.undefined) := by
  have hkeys := congrArg (List.map fun key => (key, Value.undefined)) h.keys
  simpa only [Entries.keys, List.map_map, Function.comp_def] using hkeys

mutual

/-- Messages do not tell values that are alike apart. -/
theorem Alike.outline {v v' : Value} : Alike v v' → v'.outline = v.outline
  | .same v => rfl
  | .list identity h => by simp only [Value.outline, h.outlineItems]
  | .tuple identity h => by simp only [Value.outline, h.outlineItems]
  | .mapping identity h => by simp only [Value.outline, h.outline]
  | .object handle h => rfl
  | .literal identity h hshown => rfl

theorem AlikeItems.outlineItems {items items' : List Value} :
    AlikeItems items items' → outlineItems items' = outlineItems items
  | .nil => rfl
  | .cons hv hrest => by simp only [Value.outlineItems, hv.outline, hrest.outlineItems]

end

/-! ## What operators make of them -/

/-- A sum joins texts as soon as one operand is a text. -/
theorem plus_eq (v w : Value) :
    plus v w =
      match v.text?, w.text? with
      | some t, _ => .ok (.text (t ++ w.toText))
      | none, some t => .ok (.text (v.toText ++ t))
      | none, none => (arithmetic Number.add v w).map collapse := by
  cases v <;> cases w <;> rfl

/-- A relation of order is one between texts or between numbers. -/
theorem relation_eq (onTexts : Text → Text → Bool) (onNumbers : Number → Number → Bool)
    (v w : Value) :
    relation onTexts onNumbers v w =
      match v.text?, w.text? with
      | some t, some u => .ok (.bool (onTexts t u))
      | _, _ => do
        let a ← v.toNumber
        let b ← w.toNumber
        return .bool (onNumbers a b) := by
  cases v <;> cases w <;> rfl

namespace Alike

theorem sameObject_left (h : Alike v v') (w : Value) : v'.sameObject w = v.sameObject w := by
  cases h with
  | same v => rfl
  | tuple identity h => cases w <;> simp [Value.sameObject, h.isEmpty]
  | _ => cases w <;> rfl

theorem sameObject_right (v : Value) (h : Alike w w') : v.sameObject w' = v.sameObject w := by
  cases h with
  | same w => rfl
  | tuple identity h => cases v <;> simp [Value.sameObject, h.isEmpty]
  | _ => cases v <;> rfl

/-- Which values are one object is the same on both sides. -/
theorem sameObject (hv : Alike v v') (hw : Alike w w') : v'.sameObject w' = v.sameObject w :=
  (sameObject_right v' hw).trans (hv.sameObject_left w)

theorem strictEquals_left (h : Alike v v') (w : Value) :
    v'.strictEquals w = v.strictEquals w := by
  cases h with
  | same v => rfl
  | tuple identity h => cases w <;> simp [Value.strictEquals, Value.sameObject, h.isEmpty]
  | _ => cases w <;> rfl

theorem strictEquals_right (v : Value) (h : Alike w w') :
    v.strictEquals w' = v.strictEquals w := by
  cases h with
  | same w => rfl
  | tuple identity h => cases v <;> simp [Value.strictEquals, Value.sameObject, h.isEmpty]
  | _ => cases v <;> rfl

theorem strictEquals (hv : Alike v v') (hw : Alike w w') :
    v'.strictEquals w' = v.strictEquals w :=
  (strictEquals_right v' hw).trans (hv.strictEquals_left w)

theorem isPrimitive (h : Alike v v') : v'.isPrimitive = v.isPrimitive := by
  unfold Value.isPrimitive
  rw [h.kind]

theorem looseEquals (hv : Alike v v') (hw : Alike w w') :
    v'.looseEquals w' = v.looseEquals w := by
  unfold Value.looseEquals
  rw [hv.isNullish, hw.isNullish, hv.kind, hw.kind, hv.strictEquals hw, hv.isPrimitive,
    hw.isPrimitive, hv.toNumber, hw.toNumber]

theorem arithmetic (hv : Alike v v') (hw : Alike w w')
    (f : Number → Number → Except ArithmeticFault Number) :
    Value.arithmetic f v' w' = Value.arithmetic f v w := by
  simp only [Value.arithmetic, hv.toNumber, hw.toNumber]

/-- A binary operator gives one result on both sides. -/
theorem operate (hv : Alike v v') (hw : Alike w w') (op : BinaryOperator) :
    Value.operate op v' w' = Value.operate op v w := by
  cases op <;> simp only [Value.operate, plus_eq, relation_eq, hv.text?, hw.text?, hv.toText,
    hw.toText, hv.toNumber, hw.toNumber, hv.arithmetic hw, hv.looseEquals hw, hv.strictEquals hw]

theorem operateUnary (h : Alike v v') (op : UnaryOperator) :
    v'.operateUnary op = v.operateUnary op := by
  simp only [Value.operateUnary, h.isTruthy, h.toNumber]

theorem getD {stored stored' : Option Value} (h : Option.Rel Alike stored stored') :
    Alike (stored.getD .undefined) (stored'.getD .undefined) := by
  cases h with
  | none => exact .same _
  | some hv => exact hv

/-- What can be read from values that are alike is alike. -/
theorem property (h : Alike v v') {name : Text}
    (hname : forbiddenProperties.contains name = false) :
    Alike (v.property name) (v'.property name) := by
  cases h with
  | same v => exact .same _
  | list identity h => simp only [Value.property, h.length, Alike.same]
  | tuple identity h => simp only [Value.property, h.length, Alike.same]
  | mapping identity h => exact getD (h.get? hname)
  | object handle h =>
    simp only [Value.property]
    split
    · exact .same _
    · next hprivate => exact getD (h.get? (by simpa [isPrivateName] using hprivate))
  | literal identity h hshown =>
    simp only [Value.property]
    split
    · exact h
    · exact .same _

end Alike

end Value

end SceneTemplates
