import RuleExpr.Proofs.Value.Order

/-!
# Order against equality

The order of sequences goes by loose equality, but `=` is strict in lists. The two part where a boolean of one list
stands against a number of the other (`strictlyEqual_eq`). Date-times of different zones may be one instant and yet not
equal, if for one of them its zone has two offsets. Two lists that match but for such booleans, and two values that
first differ in such date-times, are neither smaller, equal nor greater; any other two values that can be compared are
exactly one of the three.
-/
namespace RuleExpr

namespace Value

mutual

/-- Whether, of two lists laid side by side, one has a boolean where the other has none, at any depth of lists. -/
def opposesBoolean : Value → Value → Bool
  | .bool _, .bool _ => false
  | .bool _, _ | _, .bool _ => true
  | .list xs, .list ys => anyOpposesBoolean xs ys
  | _, _ => false

def anyOpposesBoolean : List Value → List Value → Bool
  | x :: xs, y :: ys => opposesBoolean x y || anyOpposesBoolean xs ys
  | _, _ => false

end

mutual

theorem strictlyEqual_eq : (v w : Value) → v.isFreeOfNaN = true →
    strictlyEqual v w = (looselyEqual v w && !opposesBoolean v w)
  | .bool a, w, _ => by
      cases w with
      | bool b => cases a <;> cases b <;> decide +kernel
      | _ => simp [strictlyEqual, opposesBoolean]
  | .list xs, w, hv => by
      cases w with
      | list ys => exact allStrictlyEqual_eq xs ys hv
      | _ => simp [strictlyEqual, opposesBoolean]
  | .nil, w, _ | .int _, w, _ | .float _, w, _ | .text _, w, _ | .date _, w, _ | .tuple _, w, _
  | .token _ _, w, _ | .function _, w, _ | .form _, w, _ => by
      cases w <;> simp [strictlyEqual, opposesBoolean]

theorem allStrictlyEqual_eq : (vs ws : List Value) → allFreeOfNaN vs = true →
    allStrictlyEqual vs ws = (allMatch vs ws && !anyOpposesBoolean vs ws)
  | [], [], _ => rfl
  | [], _ :: _, _ | _ :: _, [], _ => rfl
  | x :: xs, y :: ys, h => by
      obtain ⟨hx, hxs⟩ := Bool.and_eq_true_iff.1 h
      rw [allStrictlyEqual, allMatch, anyOpposesBoolean, strictlyEqual_eq x y hx, allStrictlyEqual_eq xs ys hxs,
        isSameNaN_of_isFreeOfNaN hx, Bool.false_or]
      rw [Bool.not_or, Bool.and_assoc, Bool.and_assoc, Bool.and_left_comm (!opposesBoolean x y)]

end

theorem equalDates_of_areTied {d e : DateTime} (h : areTied d e = true) : equalDates d e = false := by
  by_cases hzone : d.zone = e.zone
  · rw [areTied_of_zone hzone] at h
    cases h
  · rw [Bool.eq_false_iff, ne_eq, equalDates_of_zones hzone]
    exact fun hequal => ((areTied_of_zones hzone).1 h).2.2 hequal.2.2

mutual

theorem looselyEqual_of_isTied : (v w : Value) → isTied v w = true → looselyEqual v w = false
  | .date d, w, h => by
      cases w with
      | date e => exact equalDates_of_areTied h
      | _ => cases h
  | .list xs, w, h => by
      cases w with
      | list ys => exact allMatch_of_areItemsTied xs ys h
      | _ => cases h
  | .tuple xs, w, h => by
      cases w with
      | tuple ys => exact allMatch_of_areItemsTied xs ys h
      | _ => cases h
  | .nil, _, h | .bool _, _, h | .int _, _, h | .float _, _, h | .text _, _, h | .token _ _, _, h | .function _, _, h
  | .form _, _, h => by cases h

theorem allMatch_of_areItemsTied : (vs ws : List Value) → areItemsTied vs ws = true → allMatch vs ws = false
  | [], _, h | _ :: _, [], h => by cases h
  | x :: xs, y :: ys, h => by
      have hall : allMatch (x :: xs) (y :: ys) = (itemsMatch x y && allMatch xs ys) := rfl
      rw [areItemsTied] at h
      rw [hall]
      split at h
      · rw [allMatch_of_areItemsTied xs ys h, Bool.and_false]
      · next hmatch => rw [Bool.eq_false_iff.2 hmatch, Bool.false_and]

end

end Value

namespace Builtin
open Value

/-- Where `<` answers, so do the other relations, and they agree with equality, with two exceptions. Lists may match
only if booleans count as one and zero, and the first difference of two values may be a pair of date-times of different
zones that are one instant, for one of which its zone has two offsets. Of such values none is smaller or equal, yet `<=`
holds. -/
theorem order_agrees_with_equality_iff {v w r : Value} (hv : v.isFreeOfNaN = true) (hw : w.isFreeOfNaN = true)
    (h : apply (.relation .less) [v, w] = .ok r) :
    ∃ less equal greater lessEqual : Bool, r = .bool less ∧ apply .equal [v, w] = .ok (.bool equal) ∧
      apply (.relation .greater) [v, w] = .ok (.bool greater) ∧
      apply (.relation .lessEqual) [v, w] = .ok (.bool lessEqual) ∧
      ([less, equal, greater].count true = 1 ↔
        ¬ (v.looselyEqual w = true ∧ v.opposesBoolean w = true) ∧ ¬ v.isTied w = true) ∧
      ((lessEqual = true ↔ less = true ∨ equal = true) ↔
        ¬ (v.looselyEqual w = true ∧ v.opposesBoolean w = true) ∧ ¬ v.isTied w = true) := by
  obtain ⟨c, hc⟩ : ∃ c, v.relate? w = some c := by
    cases hc : v.relate? w with
    | none =>
        rw [apply_relation_of_none hc] at h
        cases h
    | some c => exact ⟨c, rfl⟩
  rw [apply_relation hc] at h
  refine ⟨_, v.strictlyEqual w, _, _, (Except.ok.inj h).symm, rfl, apply_relation hc, apply_relation hc, ?_⟩
  have hcompare := (relate?_eq_some_iff.1 hc).2
  have hequal := compare?_eq_equal_iff v w hv hcompare
  have htied := looselyEqual_of_isTied v w
  rw [strictlyEqual_eq v w hv]
  generalize v.looselyEqual w = loose, v.isTied w = tied, v.opposesBoolean w = opposed at hequal htied ⊢
  cases c with
  | unordered => exact absurd hcompare (compare?_ne_unordered v w hv hw)
  | less | greater =>
      obtain ⟨hloose, htied⟩ := not_or.1 (mt hequal.2 (by decide))
      rw [Bool.eq_false_iff.2 hloose, Bool.eq_false_iff.2 htied]
      cases opposed <;> decide
  | equal => cases loose <;> cases tied <;> cases opposed <;> simp_all [Relation.holds]

/-- Numbers of both sorts and booleans against booleans, with a difference in a list within. -/
theorem order_agrees_with_equality_nested :
    let v : Value := .list [.int 1, .list [.bool true, .date (.onChangeUtc 11 30), .text "a"]]
    let w : Value := .list [.float (.ofInt 1), .list [.bool true, .date (.onChange 12 30 false), .text "b"]]
    (v.isFreeOfNaN = true ∧ w.isFreeOfNaN = true ∧ apply (.relation .less) [v, w] = .ok (.bool true)) ∧
      v.opposesBoolean w = false ∧ v.isTied w = false ∧ apply .equal [v, w] = .ok (.bool false) ∧
      apply (.relation .greater) [v, w] = .ok (.bool false) ∧
      apply (.relation .lessEqual) [v, w] = .ok (.bool true) := by
  intro v w
  have hw : w.isFreeOfNaN = true := by decide +kernel
  have hless : apply (.relation .less) [v, w] = .ok (.bool true) := apply_less_eq_true_iff.2 (by decide +kernel)
  obtain ⟨less, equal, greater, lessEqual, hr, hequal, hgreater, hlessEqual, hone, hboth⟩ :=
    order_agrees_with_equality_iff (v := v) rfl hw hless
  obtain rfl := Value.bool.inj hr
  have hopposes : v.opposesBoolean w = false := rfl
  have htied : v.isTied w = false := by decide +kernel
  have hagree : ¬ (v.looselyEqual w = true ∧ v.opposesBoolean w = true) ∧ ¬ v.isTied w = true := by
    rw [hopposes, htied]
    exact ⟨fun h => Bool.false_ne_true h.2, Bool.false_ne_true⟩
  have hfalse : ∀ x y : Bool, [true, x, y].count true = 1 → x = false ∧ y = false := by decide
  obtain ⟨rfl, rfl⟩ := hfalse equal greater (hone.2 hagree)
  obtain rfl : lessEqual = true := (hboth.2 hagree).2 (.inl rfl)
  exact ⟨⟨rfl, hw, hless⟩, hopposes, htied, hequal, hgreater, hlessEqual⟩

/-- A list of one and a list of true. -/
theorem order_disagrees_with_equality :
    let v : Value := .list [.int 1]
    let w : Value := .list [.bool true]
    (v.isFreeOfNaN = true ∧ w.isFreeOfNaN = true) ∧ apply (.relation .less) [v, w] = .ok (.bool false) ∧
      apply .equal [v, w] = .ok (.bool false) ∧ apply (.relation .greater) [v, w] = .ok (.bool false) ∧
      apply (.relation .lessEqual) [v, w] = .ok (.bool true) := by
  intro v w
  have hc : v.relate? w = some .equal := by decide +kernel
  exact ⟨⟨rfl, rfl⟩, apply_relation hc, rfl, apply_relation hc, apply_relation hc⟩

/-- The first passage of half past two on the day on which clocks are set back, and the same instant in universal
time. -/
example :
    let v : Value := .date (.onChange 2 30 false)
    let w : Value := .date (.onChangeUtc 0 30)
    v.isTied w = true ∧ v.strictlyEqual w = false ∧ v.compare? w = some .equal := by
  decide +kernel

end Builtin

end RuleExpr
