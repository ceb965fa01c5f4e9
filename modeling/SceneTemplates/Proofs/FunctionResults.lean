import SceneTemplates.Functions.Apply
import Mathlib.Tactic.Common

/-!
# What global functions make of data

Data hold no expressions and no wrapped literals, at whatever depth. A global function gives a
number, a truth value or a tuple of numbers, except for three of them: the extremes are among the
values they are taken of, and a product may be a sequence that is repeated. So data come out
wherever data go in.
-/
namespace SceneTemplates

namespace Value

/-- A value without expressions and wrapped literals, also in host objects, and without tuples of
anything but numbers. -/
inductive IsData : Value → Prop
  | undefined : IsData .undefined
  | null : IsData .null
  | bool (b : Bool) : IsData (.bool b)
  | number (n : Number) : IsData (.number n)
  | text (t : Text) : IsData (.text t)
  | list {identity : Identity} {items : List Value} (h : ∀ v ∈ items, IsData v) :
      IsData (.list identity items)
  | tuple {identity : Identity} {items : List Value} (h : ∀ v ∈ items, ∃ n, v = .number n) :
      IsData (.tuple (i := identity) items)
  | mapping {identity : Identity} {entries : Entries Value}
      (h : ∀ entry ∈ entries, IsData entry.2) : IsData (.mapping identity entries)
  | function (f : Function) : IsData (.function f)
  | object {handle : HostObject} {attributes : Entries Value}
      (h : ∀ entry ∈ attributes, IsData entry.2) : IsData (.object handle attributes)
  | bytes (identity : Identity) (content : List UInt8) : IsData (.bytes identity content)

/-- A number, a truth value, or a tuple of numbers. -/
inductive IsNumeric : Value → Prop
  | bool (b : Bool) : IsNumeric (.bool b)
  | number (n : Number) : IsNumeric (.number n)
  | tuple {identity : Identity} {items : List Value} (h : ∀ v ∈ items, ∃ n, v = .number n) :
      IsNumeric (.tuple (i := identity) items)

variable {v w : Value} {entries : Entries Value} {key : Text}

theorem IsNumeric.isData (h : v.IsNumeric) : v.IsData := by
  cases h with
  | bool b => exact .bool b
  | number n => exact .number n
  | tuple h => exact .tuple h

theorem IsNumeric.of_asNumber? {n : Number} (h : v.asNumber? = some n) : v.IsNumeric := by
  cases v with
  | bool b => exact .bool b
  | number n => exact .number n
  | _ => cases h

end Value

open Value (IsData IsNumeric)

/-- Every result of a computation that may have none has a property. -/
def Only (P : Value → Prop) (result : Option Value) : Prop := ∀ v, result = some v → P v

namespace Only

variable {α : Type} {P : Value → Prop} {v : Value}

theorem none : Only P none := by
  intro v h
  cases h

theorem some (h : P v) : Only P (some v) := by
  rintro _ ⟨⟩
  exact h

theorem bind {o : Option α} {f : α → Option Value} (h : ∀ a, o = .some a → Only P (f a)) :
    Only P (o >>= f) := by
  intro v hv
  obtain ⟨a, ha, hf⟩ := Option.bind_eq_some_iff.1 hv
  exact h a ha v hf

theorem ite {c : Prop} [Decidable c] {first second : Option Value} (h : Only P first)
    (h' : Only P second) : Only P (if c then first else second) := by
  split
  · exact h
  · exact h'

end Only

namespace Real

open Arguments

variable {args : List Value}

theorem unary_isNumeric (f : Double → Double) : Only IsNumeric (unary f args) := by
  unfold unary
  split
  · exact .bind fun _ _ => .bind fun _ _ => .some (.number _)
  · exact .none

theorem binary_isNumeric (f : Double → Double → Double) : Only IsNumeric (binary f args) := by
  unfold binary
  split
  · exact .bind fun _ _ => .bind fun _ _ => .bind fun _ _ => .some (.number _)
  · exact .none

theorem total_isNumeric (f : Double → Double) : Only IsNumeric (total f args) := by
  unfold total
  split
  · exact .bind fun _ _ => .some (.number _)
  · exact .none

theorem totalPair_isNumeric (f : Double → Double → Double) :
    Only IsNumeric (totalPair f args) := by
  unfold totalPair
  split
  · exact .bind fun _ _ => .bind fun _ _ => .some (.number _)
  · exact .none

theorem test_isNumeric (f : Double → Bool) : Only IsNumeric (test f args) := by
  unfold test
  split
  · exact .bind fun _ _ => .some (.bool _)
  · exact .none

theorem power_isNumeric : Only IsNumeric (power args) := by
  unfold power
  split
  · exact .bind fun _ _ => .bind fun _ _ => .bind fun _ _ => .some (.number _)
  · exact .none

theorem logarithm_isNumeric (f : Double → Double) : Only IsNumeric (logarithm f args) := by
  unfold logarithm
  split
  · exact .bind fun _ _ => .some (.number _)
  · exact .none

theorem logarithmOfBase_isNumeric : Only IsNumeric (logarithmOfBase args) := by
  unfold logarithmOfBase
  split
  · exact .bind fun _ _ => .some (.number _)
  · exact .bind fun _ _ => .bind fun _ _ => .ite .none (.some (.number _))
  · exact .none

theorem pair_isNumeric (a b : Number) : (Value.newTuple [.number a, .number b]).IsNumeric := by
  refine .tuple ?_
  rw [List.forall_mem_cons, List.forall_mem_singleton]
  exact ⟨⟨a, rfl⟩, b, rfl⟩

theorem fractionAndExponent_isNumeric : Only IsNumeric (fractionAndExponent args) := by
  unfold fractionAndExponent
  split
  · exact .bind fun _ _ => .some (pair_isNumeric _ _)
  · exact .none

theorem fractionAndInteger_isNumeric : Only IsNumeric (fractionAndInteger args) := by
  unfold fractionAndInteger
  split
  · exact .bind fun _ _ => .some (pair_isNumeric _ _)
  · exact .none

theorem scaled_isNumeric : Only IsNumeric (scaled args) := by
  unfold scaled
  split
  · exact .bind fun _ _ => .bind fun _ _ => .ite .none (.some (.number _))
  · exact .none

theorem isClose_isNumeric : Only IsNumeric (isClose args) := by
  unfold isClose
  split
  · exact .bind fun _ _ => .bind fun _ _ => .some (.bool _)
  · exact .none

theorem toInteger_isNumeric (f : Rat → Int) : Only IsNumeric (toInteger f args) := by
  unfold toInteger
  split
  · refine .bind fun n _ => ?_
    cases n with
    | int n => exact .some (.number _)
    | double x => exact .bind fun _ _ => .some (.number _)
  · exact .none

theorem magnitude_isNumeric : Only IsNumeric (magnitude args) := by
  unfold magnitude
  split
  · refine .bind fun n _ => ?_
    cases n <;> exact .some (.number _)
  · exact .none

theorem hypotenuse_isNumeric : Only IsNumeric (hypotenuse args) :=
  .bind fun _ _ => .some (.number _)

theorem distance_isNumeric : Only IsNumeric (distance args) := by
  unfold distance
  split
  · exact .bind fun _ _ => .bind fun _ _ => .bind fun _ _ => .bind fun _ _ =>
      .ite .none (.some (.number _))
  · exact .none

end Real

namespace Integer

variable {args : List Value} {v : Value}

theorem gcd_isNumeric : Only IsNumeric (gcd args) := .bind fun _ _ => .some (.number _)

theorem lcm_isNumeric : Only IsNumeric (lcm args) := .bind fun _ _ => .some (.number _)

theorem squareRoot_isNumeric : Only IsNumeric (squareRoot args) := by
  unfold squareRoot
  split
  · exact .bind fun _ _ => .ite .none (.some (.number _))
  · exact .none

theorem bounded_isNumeric {logGamma : Double → Double} {f : GlobalFunction} {n : Int}
    {k : Option Int} (h : bounded logGamma f n k = .ok v) : v.IsNumeric := by
  unfold bounded at h
  dsimp only at h
  split at h
  · cases h
  · split at h
    · cases h
      exact .number _
    · split at h
      · cases h
      · cases h
        exact .number _

theorem factorialOf_isNumeric (h : factorialOf args = .ok v) : v.IsNumeric := by
  unfold factorialOf at h
  split at h
  · split at h
    · exact bounded_isNumeric h
    · cases h
  · cases h

theorem combinationsOf_isNumeric (h : combinationsOf args = .ok v) : v.IsNumeric := by
  unfold combinationsOf at h
  split at h
  · split at h
    · exact bounded_isNumeric h
    · cases h
  · cases h

theorem permutationsOf_isNumeric (h : permutationsOf args = .ok v) : v.IsNumeric := by
  unfold permutationsOf at h
  split at h
  · split at h
    · exact bounded_isNumeric h
    · cases h
  · split at h
    · exact bounded_isNumeric h
    · cases h
  · split at h
    · exact bounded_isNumeric h
    · cases h
  · cases h

end Integer

namespace Rounding

theorem round_isNumeric (v decimals : Value) : Only IsNumeric (round v decimals) := by
  refine .bind fun n hn => ?_
  have hself := IsNumeric.of_asNumber? hn
  cases n with
  | int n =>
    refine .bind fun places _ => .ite (.some hself) ?_
    cases places with
    | int d => exact .bind fun _ _ => .bind fun _ _ => .some (.number _)
    | double x => exact .none
  | double x =>
    dsimp only
    split
    · exact .bind fun _ _ => .bind fun _ _ => .some (.number _)
    · exact .some hself

theorem roundOf_isNumeric {args : List Value} : Only IsNumeric (roundOf args) := by
  unfold roundOf
  split
  · exact round_isNumeric _ _
  · exact round_isNumeric _ _
  · exact .none

end Rounding

namespace Sequence

open Arguments

variable {v w : Value} {args items : List Value}

theorem exactSum_isNumeric : Only IsNumeric (exactSum args) := by
  unfold exactSum
  split
  · exact .bind fun _ _ => .bind fun _ _ => .bind fun _ _ => .some (.number _)
  · exact .none

/-- What can be gone through in data is data. -/
theorem members?_isData (hv : v.IsData) (h : members? v = some items) : ∀ w ∈ items, w.IsData := by
  cases hv with
  | list hitems =>
    cases h
    exact hitems
  | tuple hitems =>
    cases h
    intro w hw
    obtain ⟨n, rfl⟩ := hitems w hw
    exact .number n
  | text t =>
    cases h
    rw [List.forall_mem_map]
    exact fun _ _ => .text _
  | mapping _ =>
    cases h
    rw [List.forall_mem_map]
    exact fun _ _ => .text _
  | bytes _ content =>
    cases h
    rw [List.forall_mem_map]
    exact fun _ _ => .number _
  | _ => cases h

/-- The extreme of values is one of them. -/
theorem extreme_isData {beats : Value → Value → Option Bool} (hv : v.IsData)
    (h : ∀ w ∈ items, w.IsData) : Only IsData (extreme beats v items) := by
  induction items generalizing v with
  | nil =>
    rw [extreme]
    exact .some hv
  | cons first rest ih =>
    obtain ⟨hfirst, hrest⟩ := List.forall_mem_cons.1 h
    rw [extreme]
    exact .bind fun _ _ => .ite (ih hfirst hrest) (ih hv hrest)

theorem extremeOf_isData (beats : Value → Value → Option Bool) (h : ∀ w ∈ args, w.IsData) :
    Only IsData (extremeOf beats args) := by
  have hpick {first : Value} {rest : List Value} (hall : ∀ w ∈ first :: rest, w.IsData) :
      Only IsData (extreme beats first rest) := by
    obtain ⟨hfirst, hrest⟩ := List.forall_mem_cons.1 hall
    exact extreme_isData hfirst hrest
  unfold extremeOf
  split
  · next v =>
    refine .bind fun members hmembers => ?_
    have hall := members?_isData (h v List.mem_cons_self) hmembers
    dsimp only
    split
    · exact .none
    · exact hpick hall
  · refine .bind fun candidates hcandidates => ?_
    cases hcandidates
    dsimp only
    split
    · exact .none
    · exact hpick h

theorem mem_of_repeated {α : Type} {items result : List α} {count : Int} {a : α}
    (h : repeated items count = some result) (ha : a ∈ result) : a ∈ items := by
  unfold repeated at h
  split at h
  · cases h
  split at h
  · cases h
    cases ha
  split at h
  · cases h
  cases h
  obtain ⟨copy, hcopy, ha⟩ := List.mem_flatten.1 ha
  rwa [List.eq_of_mem_replicate hcopy] at ha

theorem repetition_isData (hv : v.IsData) (count : Int) : Only IsData (repetition v count) := by
  intro w hw
  cases hv with
  | text t =>
    obtain ⟨t', -, rfl⟩ := Option.map_eq_some_iff.1 hw
    exact .text _
  | list hitems =>
    obtain ⟨items', hrepeated, rfl⟩ := Option.map_eq_some_iff.1 hw
    exact .list fun u hu => hitems u (mem_of_repeated hrepeated hu)
  | tuple hitems =>
    obtain ⟨items', hrepeated, rfl⟩ := Option.map_eq_some_iff.1 hw
    exact .tuple fun u hu => hitems u (mem_of_repeated hrepeated hu)
  | bytes identity content =>
    obtain ⟨content', -, rfl⟩ := Option.map_eq_some_iff.1 hw
    exact .bytes _ _
  | _ => cases hw

theorem times_isData (hv : v.IsData) (hw : w.IsData) : Only IsData (times v w) := by
  unfold times
  split
  · intro u hu
    obtain ⟨n, -, rfl⟩ := Option.map_eq_some_iff.1 hu
    exact .number n
  · exact repetition_isData hw _
  · exact repetition_isData hv _
  · exact .none

theorem product_isData (h : ∀ w ∈ args, w.IsData) : Only IsData (product args) := by
  have hfold : ∀ (items : List Value) (v : Value), v.IsData → (∀ w ∈ items, w.IsData) →
      Only IsData (items.foldlM times v) := by
    intro items
    induction items with
    | nil => exact fun v hv _ => .some hv
    | cons first rest ih =>
      intro v hv hitems
      obtain ⟨hfirst, hrest⟩ := List.forall_mem_cons.1 hitems
      rw [List.foldlM_cons]
      exact .bind fun u hu => ih u (times_isData hv hfirst u hu) hrest
  unfold product
  split
  · next v =>
    refine .bind fun members hmembers => ?_
    exact hfold members _ (.number _) (members?_isData (h v List.mem_cons_self) hmembers)
  · exact .none

end Sequence

namespace GlobalFunction

open Arguments

variable {args : List Value} {v : Value}

theorem of_ofOption {P : Value → Prop} {result : Option Value} (h : Only P result)
    (hv : ofOption result = .ok v) : P v := by
  cases result with
  | none => cases hv
  | some w =>
    cases hv
    exact h v rfl

open SceneTemplates.Real Integer Sequence Rounding in
/-- A global function makes data of data. -/
theorem apply_isData {g : GlobalFunction} (h : ∀ w ∈ args, w.IsData) (hv : g.apply args = .ok v) :
    v.IsData := by
  cases g with
  | max | min => exact of_ofOption (extremeOf_isData _ h) hv
  | prod => exact of_ofOption (product_isData h) hv
  | comb => exact (combinationsOf_isNumeric hv).isData
  | factorial => exact (factorialOf_isNumeric hv).isData
  | perm => exact (permutationsOf_isNumeric hv).isData
  | abs => exact (of_ofOption magnitude_isNumeric hv).isData
  | ceil | floor | trunc => exact (of_ofOption (toInteger_isNumeric _) hv).isData
  | degrees | radians | ulp => exact (of_ofOption (total_isNumeric _) hv).isData
  | nextafter => exact (of_ofOption (totalPair_isNumeric _) hv).isData
  | atan2 | copysign | fmod | remainder => exact (of_ofOption (binary_isNumeric _) hv).isData
  | dist => exact (of_ofOption distance_isNumeric hv).isData
  | hypot => exact (of_ofOption hypotenuse_isNumeric hv).isData
  | frexp => exact (of_ofOption fractionAndExponent_isNumeric hv).isData
  | modf => exact (of_ofOption fractionAndInteger_isNumeric hv).isData
  | fsum => exact (of_ofOption exactSum_isNumeric hv).isData
  | gcd => exact (of_ofOption gcd_isNumeric hv).isData
  | lcm => exact (of_ofOption lcm_isNumeric hv).isData
  | isqrt => exact (of_ofOption squareRoot_isNumeric hv).isData
  | isclose => exact (of_ofOption isClose_isNumeric hv).isData
  | isfinite | isinf | isnan => exact (of_ofOption (test_isNumeric _) hv).isData
  | ldexp => exact (of_ofOption scaled_isNumeric hv).isData
  | log => exact (of_ofOption logarithmOfBase_isNumeric hv).isData
  | log10 | log2 => exact (of_ofOption (logarithm_isNumeric _) hv).isData
  | pow => exact (of_ofOption power_isNumeric hv).isData
  | round => exact (of_ofOption roundOf_isNumeric hv).isData
  | _ => exact (of_ofOption (unary_isNumeric _) hv).isData

end GlobalFunction

end SceneTemplates
