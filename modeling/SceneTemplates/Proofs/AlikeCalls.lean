import SceneTemplates.Functions.Apply
import SceneTemplates.Proofs.AlikeValues

/-!
# Global functions on values that are alike

The global functions take numbers, or go through the members of a sequence, and so give results
that are alike. Only `max` and `min` look further: they order sequences by the first members that
are not equal, and equality of members goes through all entries of a mapping. There they may find
two mappings to be equal on one side and not on the other; but mappings have no order, so that the
call with the unequal ones is refused.
-/
namespace SceneTemplates

open Value

variable {v v' w w' : Value} {items items' args args' : List Value}

/-! ## Order of sequences -/

namespace Value

theorem sameMember_eq (hw : w.asNumber? = none) : v.sameMember w = v.sameObject w := by
  unfold sameMember
  split
  · cases hw
  · rfl

theorem Alike.sameMember_left (h : Alike v v') (w : Value) : v'.sameMember w = v.sameMember w := by
  have hobject := h.sameObject_left w
  cases h with
  | same v => rfl
  | _ => exact hobject

theorem Alike.sameMember (hv : Alike v v') (hw : Alike w w') :
    v'.sameMember w' = v.sameMember w := by
  cases hn : w.asNumber? with
  | some n => rw [hw.eq_of_asNumber? hn, hv.sameMember_left]
  | none => rw [sameMember_eq (hw.asNumber?.trans hn), sameMember_eq hn, hv.sameObject hw]

theorem Alike.of_list {identity : Identity} (h : Alike (.list identity items) v) :
    ∃ items', v = .list identity items' ∧ AlikeItems items items' := by
  cases h with
  | same v => exact ⟨items, rfl, .refl items⟩
  | list identity h => exact ⟨_, rfl, h⟩

theorem Alike.of_tuple {identity : Identity} (h : Alike (.tuple (i := identity) items) v) :
    ∃ items', v = .tuple (i := identity) items' ∧ AlikeItems items items' := by
  cases h with
  | same v => exact ⟨items, rfl, .refl items⟩
  | tuple identity h => exact ⟨_, rfl, h⟩

/-- Other pairs than those of texts, sequences, bytes and numbers have no order. -/
theorem less?_eq_none (htexts : ∀ t u, v = .text t → w = .text u → False)
    (hlists : ∀ a items b others, v = .list a items → w = .list b others → False)
    (htuples : ∀ a items b others, v = .tuple (i := a) items → w = .tuple (i := b) others → False)
    (hbytes : ∀ a content b others, v = .bytes a content → w = .bytes b others → False)
    (hnumbers : ∀ x y, v.asNumber? = some x → w.asNumber? = some y → False) :
    v.less? w = none := by
  rw [less?.eq_def]
  split
  · exact (htexts _ _ rfl rfl).elim
  · exact (hlists _ _ _ _ rfl rfl).elim
  · exact (htuples _ _ _ _ rfl rfl).elim
  · exact (hbytes _ _ _ _ rfl rfl).elim
  · split
    · next hx hy => exact (hnumbers _ _ hx hy).elim
    · rfl

/-- Two values that are equal on the other side but not here have no order here. -/
theorem less?_of_unequal (hv : Alike v v') (hw : Alike w w') (hequal : v'.equalContents w' = true)
    (hunequal : v.equalContents w = false) : v.less? w = none := by
  induction v, w using less?.induct _ (fun items others =>
    ∀ {items' others'}, AlikeItems items items' → AlikeItems others others' →
      equalItems items' others' = true → equalItems items others = false →
        lessItems? items others = none) generalizing v' w' with
  | case1 t u =>
    cases hv
    cases hw
    rw [hequal] at hunequal
    cases hunequal
  | case2 identity items identity' others ih =>
    obtain ⟨items', rfl, hitems⟩ := hv.of_list
    obtain ⟨others', rfl, hothers⟩ := hw.of_list
    rw [equalContents] at hequal hunequal
    rw [less?]
    exact ih hitems hothers hequal hunequal
  | case3 identity items identity' others ih =>
    obtain ⟨items', rfl, hitems⟩ := hv.of_tuple
    obtain ⟨others', rfl, hothers⟩ := hw.of_tuple
    rw [equalContents] at hequal hunequal
    rw [less?]
    exact ih hitems hothers hequal hunequal
  | case4 identity content identity' content' =>
    cases hv
    cases hw
    rw [hequal] at hunequal
    cases hunequal
  | case5 v w _ _ _ _ x y hy hx =>
    rw [hv.eq_of_asNumber? hx, hw.eq_of_asNumber? hy, hunequal] at hequal
    cases hequal
  | case6 v w htexts hlists htuples hbytes hnumbers =>
    exact less?_eq_none htexts hlists htuples hbytes hnumbers
  | case7 hitems hothers hequal hunequal => cases hunequal
  | case8 w others hitems hothers hequal hunequal =>
    cases hitems
    cases hothers
    cases hequal
  | case9 v rest hitems hothers hequal hunequal =>
    cases hitems
    cases hothers
    cases hequal
  | case10 v rest w others hmatch ih hitems hothers hequal hunequal =>
    cases hitems with | cons hv hrest =>
    cases hothers with | cons hw hothers =>
    rw [equalItems, Bool.and_eq_true] at hequal
    rw [equalItems, hmatch, Bool.true_and] at hunequal
    rw [lessItems?, if_pos hmatch]
    exact ih hrest hothers hequal.2 hunequal
  | case11 v rest w others hmatch ih hitems hothers hequal hunequal =>
    cases hitems with | cons hv hrest =>
    cases hothers with | cons hw hothers =>
    obtain ⟨hsame, hcontents⟩ : v.sameMember w = false ∧ v.equalContents w = false := by
      simpa using hmatch
    rw [equalItems, hv.sameMember hw, hsame, Bool.false_or, Bool.and_eq_true] at hequal
    rw [lessItems?, if_neg hmatch]
    exact ih hv hw hequal.1 hcontents

/-- Where both sides have an order, it is the same. -/
theorem less?_alike (hv : Alike v v') (hw : Alike w w') {x y : Bool} (hx : v.less? w = some x)
    (hy : v'.less? w' = some y) : x = y := by
  induction v, w using less?.induct _ (fun items others =>
    ∀ {items' others'}, AlikeItems items items' → AlikeItems others others' →
      lessItems? items others = some x → lessItems? items' others' = some y → x = y)
    generalizing v' w' with
  | case1 t u =>
    cases hv
    cases hw
    exact Option.some.inj (hx.symm.trans hy)
  | case2 identity items identity' others ih =>
    obtain ⟨items', rfl, hitems⟩ := hv.of_list
    obtain ⟨others', rfl, hothers⟩ := hw.of_list
    rw [less?] at hx hy
    exact ih hitems hothers hx hy
  | case3 identity items identity' others ih =>
    obtain ⟨items', rfl, hitems⟩ := hv.of_tuple
    obtain ⟨others', rfl, hothers⟩ := hw.of_tuple
    rw [less?] at hx hy
    exact ih hitems hothers hx hy
  | case4 identity content identity' content' =>
    cases hv
    cases hw
    exact Option.some.inj (hx.symm.trans hy)
  | case5 v w _ _ _ _ a b hb ha =>
    rw [hv.eq_of_asNumber? ha, hw.eq_of_asNumber? hb] at hy
    exact Option.some.inj (hx.symm.trans hy)
  | case6 v w htexts hlists htuples hbytes hnumbers =>
    rw [less?_eq_none htexts hlists htuples hbytes hnumbers] at hx
    cases hx
  | case7 hitems hothers hx hy =>
    cases hitems
    cases hothers
    exact Option.some.inj (hx.symm.trans hy)
  | case8 w others hitems hothers hx hy =>
    cases hitems
    cases hothers
    exact Option.some.inj (hx.symm.trans hy)
  | case9 v rest hitems hothers hx hy =>
    cases hitems
    cases hothers
    exact Option.some.inj (hx.symm.trans hy)
  | case10 v rest w others hmatch ih hitems hothers hx hy =>
    cases hitems with | cons hv hrest =>
    cases hothers with | cons hw hothers =>
    rw [lessItems?, if_pos hmatch] at hx
    rw [lessItems?] at hy
    split at hy
    · exact ih hrest hothers hx hy
    · next hmatch' =>
      -- Equal here and not there: there is no order there.
      obtain ⟨hsame, hcontents⟩ : _ ∧ _ := by simpa using hmatch'
      rw [← hv.sameMember hw, hsame, Bool.false_or] at hmatch
      rw [less?_of_unequal hv.symm hw.symm hmatch hcontents] at hy
      cases hy
  | case11 v rest w others hmatch ih hitems hothers hx hy =>
    cases hitems with | cons hv hrest =>
    cases hothers with | cons hw hothers =>
    rw [lessItems?, if_neg hmatch] at hx
    rw [lessItems?] at hy
    split at hy
    · next hmatch' =>
      obtain ⟨hsame, hcontents⟩ : v.sameMember w = false ∧ v.equalContents w = false := by
        simpa using hmatch
      rw [hv.sameMember hw, hsame, Bool.false_or] at hmatch'
      rw [less?_of_unequal hv hw hmatch' hcontents] at hx
      cases hx
    · exact ih hv hw hx hy

/-! ## Arguments -/

namespace Alike

theorem double? (h : Alike v v') : Arguments.double? v' = Arguments.double? v := by
  simp only [Arguments.double?, h.asNumber?]

theorem integer? (h : Alike v v') : Arguments.integer? v' = Arguments.integer? v := by
  simp only [Arguments.integer?, h.asNumber?]

/-- The same can be gone through on both sides. -/
theorem members? (h : Alike v v') :
    Option.Rel AlikeItems (Arguments.members? v) (Arguments.members? v') := by
  cases h with
  | same v => exact rel_refl AlikeItems.refl _
  | list identity h => exact .some h
  | tuple identity h => exact .some h
  | mapping identity h =>
    have hkeys := congrArg (List.map Value.text) h.keys
    simp only [Entries.keys, List.map_map, Function.comp_def] at hkeys
    simp only [Arguments.members?, hkeys]
    exact rel_refl AlikeItems.refl _
  | object handle h => exact .none
  | literal identity h hshown => exact .none

end Alike

/-- A function of the members one by one. -/
theorem AlikeItems.mapM {β : Type} {f : Value → Option β} (h : AlikeItems items items')
    (hf : ∀ {v v'}, Alike v v' → f v' = f v) : items'.mapM f = items.mapM f := by
  induction items generalizing items' with
  | nil =>
    cases h
    rfl
  | cons v rest ih =>
    cases h with | cons hv hrest =>
    rw [List.mapM_cons, List.mapM_cons, hf hv, ih hrest]

/-- A function of one argument that does not tell it from one that is alike. -/
theorem AlikeItems.eq_of_one {β : Type} {f : List Value → β} (h : AlikeItems args args')
    (hone : ∀ {v v'}, Alike v v' → f [v'] = f [v])
    (hmore : ∀ v w rest v' w' rest', f (v' :: w' :: rest') = f (v :: w :: rest)) :
    f args' = f args := by
  cases h with
  | nil => rfl
  | cons hv hrest =>
    cases hrest with
    | nil => exact hone hv
    | cons hw hrest => exact hmore _ _ _ _ _ _

/-- A function of at most two arguments that does not tell them from ones that are alike. -/
theorem AlikeItems.eq_of_two {β : Type} {f : List Value → β} (h : AlikeItems args args')
    (hone : ∀ {v v'}, Alike v v' → f [v'] = f [v])
    (htwo : ∀ {v v' w w'}, Alike v v' → Alike w w' → f [v', w'] = f [v, w])
    (hmore : ∀ u v w rest u' v' w' rest',
      f (u' :: v' :: w' :: rest') = f (u :: v :: w :: rest)) :
    f args' = f args := by
  cases h with
  | nil => rfl
  | cons hv hrest =>
    cases hrest with
    | nil => exact hone hv
    | cons hw hrest =>
      cases hrest with
      | nil => exact htwo hv hw
      | cons hu hrest => exact hmore _ _ _ _ _ _ _ _

/-- A function of the members of a value, taken one by one. -/
theorem Alike.mapM_members {β γ : Type} {f : Value → Option β} (h : Alike v v')
    (hf : ∀ {v v'}, Alike v v' → f v' = f v) (next : List β → Option γ) :
    (Arguments.members? v' >>= fun members => members.mapM f >>= next) =
      Arguments.members? v >>= fun members => members.mapM f >>= next := by
  have hmembers := h.members?
  generalize Arguments.members? v = members, Arguments.members? v' = members' at hmembers ⊢
  cases hmembers with
  | none => rfl
  | some hitems => simp only [Option.bind_eq_bind, Option.bind_some, hitems.mapM hf]

end Value

theorem Real.logarithmOf_alike (h : Alike v v') (f : Double → Double) :
    logarithmOf f v' = logarithmOf f v := by
  simp only [logarithmOf, h.asNumber?]

theorem Rounding.round_alike (hv : Alike v v') (hw : Alike w w') : round v' w' = round v w := by
  cases hn : v.asNumber? with
  | none =>
    simp only [round, hv.asNumber?, hn]
    rfl
  | some n =>
    rw [hv.eq_of_asNumber? hn]
    simp only [round, hw.asNumber?, hw.integer?]

theorem Integer.permutationsOf_alike (hv : Alike v v') (hw : Alike w w') :
    permutationsOf [v', w'] = permutationsOf [v, w] := by
  cases hw with
  | same w => cases w <;> simp only [permutationsOf, hv.integer?]
  | _ =>
    simp only [permutationsOf, hv.integer?]
    rfl

/-! ## Extremes and products -/

namespace Sequence

/-- Of members that are alike, those that no other one beats are alike. -/
theorem extreme_alike {beats : Value → Value → Option Bool}
    (hbeats : ∀ {v v' w w'}, Alike v v' → Alike w w' → ∀ {x y}, beats v w = some x →
      beats v' w' = some y → x = y) (hv : Alike v v') (h : AlikeItems items items')
    (hw : extreme beats v items = some w) (hw' : extreme beats v' items' = some w') :
    Alike w w' := by
  induction items generalizing v v' items' with
  | nil =>
    cases h
    cases hw
    cases hw'
    exact hv
  | cons u rest ih =>
    cases h with | cons hu hrest =>
    obtain ⟨x, hx, hw⟩ := Option.bind_eq_some_iff.1 hw
    obtain ⟨y, hy, hw'⟩ := Option.bind_eq_some_iff.1 hw'
    obtain rfl := hbeats hu hv hx hy
    cases x
    · exact ih hv hrest hw hw'
    · exact ih hu hrest hw hw'

theorem extremeOf_alike {beats : Value → Value → Option Bool}
    (hbeats : ∀ {v v' w w'}, Alike v v' → Alike w w' → ∀ {x y}, beats v w = some x →
      beats v' w' = some y → x = y) (h : AlikeItems args args')
    (hw : extremeOf beats args = some w) (hw' : extremeOf beats args' = some w') :
    Alike w w' := by
  cases h with
  | nil => cases hw
  | cons hv hrest =>
    cases hrest with
    | nil =>
      obtain ⟨members, hsome, hw⟩ := Option.bind_eq_some_iff.1 hw
      obtain ⟨members', hsome', hw'⟩ := Option.bind_eq_some_iff.1 hw'
      have hmembers := hv.members?
      rw [hsome, hsome'] at hmembers
      cases hmembers with | some hitems =>
      cases hitems with
      | nil => cases hw
      | cons hfirst hrest => exact extreme_alike hbeats hfirst hrest hw hw'
    | cons hu hrest => exact extreme_alike hbeats hv (.cons hu hrest) hw hw'

theorem repeated_alike (h : AlikeItems items items') (count : Int) :
    Option.Rel AlikeItems (repeated items count) (repeated items' count) := by
  have hflatten : ∀ n, AlikeItems (List.replicate n items).flatten
      (List.replicate n items').flatten := by
    intro n
    induction n with
    | zero => exact .nil
    | succ n ih => simpa [List.replicate_succ] using h.append ih
  simp only [repeated, h.isEmpty, h.length]
  split
  · exact .none
  · split
    · exact .some .nil
    · split
      · exact .none
      · exact .some (hflatten _)

theorem repetition_alike (h : Alike v v') (count : Int) :
    Option.Rel Alike (repetition v count) (repetition v' count) := by
  cases h with
  | same v => exact rel_refl Alike.same _
  | list identity h => exact rel_map (repeated_alike h count) fun h => .list .fresh h
  | tuple identity h =>
    simp only [repetition, h.length]
    refine rel_map (repeated_alike h count) fun hresult => ?_
    rw [hresult.length]
    exact .tuple _ hresult
  | mapping identity h => exact .none
  | object handle h => exact .none
  | literal identity h hshown => exact .none

theorem times_alike (hv : Alike v v') (hw : Alike w w') :
    Option.Rel Alike (times v w) (times v' w') := by
  simp only [times, hv.asNumber?, hw.asNumber?]
  split
  · exact rel_refl Alike.same _
  · exact repetition_alike hw _
  · exact repetition_alike hv _
  · exact .none

theorem product_alike (h : AlikeItems args args') :
    Option.Rel Alike (product args) (product args') := by
  have hfold : ∀ {items items' v v'}, AlikeItems items items' → Alike v v' →
      Option.Rel Alike (items.foldlM times v) (items'.foldlM times v') := by
    intro items items' v v' hitems hv
    induction items generalizing items' v v' with
    | nil =>
      cases hitems
      exact .some hv
    | cons u rest ih =>
      cases hitems with | cons hu hrest =>
      rw [List.foldlM_cons, List.foldlM_cons]
      exact rel_bind (times_alike hv hu) fun hproduct => ih hrest hproduct
  cases h with
  | nil => exact .none
  | cons hv hrest =>
    cases hrest with
    | nil => exact rel_bind hv.members? fun hitems => hfold hitems (.same _)
    | cons hw hrest => exact .none

end Sequence

/-! ## All global functions -/

theorem AlikeOutcomes.ofOption {result result' : Option Value}
    (h : Option.Rel Alike result result') :
    AlikeOutcomes Alike (Arguments.ofOption result) (Arguments.ofOption result') := by
  cases h with
  | none => exact .error _
  | some hv => exact .ok hv

/-- Results of which the first one is a refusal and the second one is none. -/
def RefusedAlone (result result' : CallResult) : Prop :=
  result = .error .refused ∧ ∃ v', result' = .ok v'

/-- Results that are alike where there are two. -/
theorem ofOption_alike {result result' : Option Value}
    (h : ∀ {w w'}, result = some w → result' = some w' → Alike w w') :
    AlikeOutcomes Alike (Arguments.ofOption result) (Arguments.ofOption result') ∨
      RefusedAlone (Arguments.ofOption result) (Arguments.ofOption result') ∨
      RefusedAlone (Arguments.ofOption result') (Arguments.ofOption result) := by
  cases result with
  | none =>
    cases result' with
    | none => exact .inl (.error _)
    | some v' => exact .inr (.inl ⟨rfl, v', rfl⟩)
  | some v =>
    cases result' with
    | none => exact .inr (.inr ⟨rfl, v, rfl⟩)
    | some v' => exact .inl (.ok (h rfl rfl))

namespace GlobalFunction

/-- The functions that order their arguments. -/
def isExtreme : GlobalFunction → Bool
  | .max | .min => true
  | _ => false

open SceneTemplates.Real Integer Sequence Rounding Arguments in
/-- The functions that do not order their arguments give results that are alike. -/
theorem apply_alike {g : GlobalFunction} (hg : g.isExtreme = false) (h : AlikeItems args args') :
    AlikeOutcomes Alike (g.apply args) (g.apply args') := by
  cases g with
  | max | min => cases hg
  | prod => exact .ofOption (product_alike h)
  | gcd | lcm | hypot =>
    refine .ofEq .same ?_
    simp only [apply, Function.comp_apply, Integer.gcd, Integer.lcm, hypotenuse, h.mapM Alike.integer?,
      h.mapM Alike.double?]
  | dist =>
    refine .ofEq .same (h.eq_of_two (fun _ => rfl) (fun hv hw => ?_) fun _ _ _ _ _ _ _ _ => rfl)
    simp only [apply, Function.comp_apply, distance, hv.mapM_members Alike.double?,
      hw.mapM_members Alike.double?]
  | fsum =>
    refine .ofEq .same (h.eq_of_one (fun hv => ?_) fun _ _ _ _ _ _ => rfl)
    simp only [apply, Function.comp_apply, exactSum, hv.mapM_members Alike.double?]
  | perm =>
    refine .ofEq .same (h.eq_of_two (fun hv => ?_) permutationsOf_alike
      fun _ _ _ _ _ _ _ _ => ?_)
    · simp only [apply, permutationsOf, hv.integer?]
    · simp only [apply, permutationsOf]
  | round =>
    refine .ofEq .same (h.eq_of_two (fun hv => ?_) (fun hv hw => ?_) fun _ _ _ _ _ _ _ _ => rfl)
    · simp only [apply, Function.comp_apply, roundOf, round_alike hv (.same _)]
    · simp only [apply, Function.comp_apply, roundOf, round_alike hv hw]
  | log =>
    refine .ofEq .same (h.eq_of_two (fun hv => ?_) (fun hv hw => ?_) fun _ _ _ _ _ _ _ _ => rfl)
    · simp only [apply, Function.comp_apply, logarithmOfBase, logarithmOf_alike hv]
    · simp only [apply, Function.comp_apply, logarithmOfBase, logarithmOf_alike hv,
        logarithmOf_alike hw]
  | atan2 | comb | copysign | fmod | isclose | ldexp | nextafter | pow | remainder =>
    refine .ofEq .same (h.eq_of_two (fun _ => rfl) (fun hv hw => ?_) fun _ _ _ _ _ _ _ _ => rfl)
    simp only [apply, Function.comp_apply, binary, totalPair, combinationsOf, isClose, scaled,
      power, hv.double?, hw.double?, hv.integer?, hw.integer?]
  | _ =>
    refine .ofEq .same (h.eq_of_one (fun hv => ?_) fun _ _ _ _ _ _ => rfl)
    simp only [apply, Function.comp_apply, unary, total, test, toInteger, magnitude, logarithm,
      fractionAndExponent, fractionAndInteger, squareRoot, factorialOf, logarithmOf_alike hv,
      hv.double?, hv.integer?, hv.asNumber?]

/-- A function that orders its arguments gives results that are alike too, unless it is refused on
one side only. -/
theorem apply_extreme {g : GlobalFunction} (hg : g.isExtreme = true) (h : AlikeItems args args') :
    AlikeOutcomes Alike (g.apply args) (g.apply args') ∨
      RefusedAlone (g.apply args) (g.apply args') ∨
      RefusedAlone (g.apply args') (g.apply args) := by
  cases g with
  | max => exact ofOption_alike (Sequence.extremeOf_alike (fun hv hw => less?_alike hw hv) h)
  | min => exact ofOption_alike (Sequence.extremeOf_alike less?_alike h)
  | _ => cases hg

end GlobalFunction

end SceneTemplates
