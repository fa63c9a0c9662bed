import Mathlib.Data.String.Basic
import RuleExpr.Proofs.Value.Equality

/-!
# The order of values

Comparing two values the other way round gives the opposite (`compare?_swap`), and no value is smaller than itself. One
form precedes another if both are of the same sort and the first is smaller: numbers and date-times by their places,
text by code points, and sequences by their first difference or, if there is none, by length. This is a strict order
(`Precedes.ne`, `Precedes.trans`). If date-times have places on a line, a value without NaN is smaller than another one
exactly if its form precedes the form of the other one (`compare?_eq_less_iff`). So the four relations are one strict
order, and they fail together.
-/
namespace RuleExpr

/-! ## Comparing the other way round -/

namespace Comparison

theorem ofTexts_swap (s t : String) : ofTexts t s = (ofTexts s t).swap := by
  unfold ofTexts
  rcases lt_trichotomy s t with h | rfl | h
  · rw [if_pos h, if_neg h.asymm, if_neg h.ne']
    rfl
  · rw [if_neg (lt_irrefl s), if_pos rfl]
    rfl
  · rw [if_pos h, if_neg h.asymm, if_neg h.ne']
    rfl

theorem ofTexts_ne_unordered (s t : String) : ofTexts s t ≠ .unordered := by
  unfold ofTexts
  split
  · nofun
  · split <;> nofun

theorem ofTexts_eq_less_iff {s t : String} : ofTexts s t = .less ↔ s < t := by
  unfold ofTexts
  split
  · next h => exact iff_of_true rfl h
  · next h =>
      refine iff_of_false ?_ h
      split <;> nofun

theorem ofTexts_eq_equal_iff {s t : String} : ofTexts s t = .equal ↔ s = t := by
  unfold ofTexts
  split
  · next h => exact iff_of_false nofun h.ne
  · split
    · next h => exact iff_of_true rfl h
    · next h => exact iff_of_false nofun h

end Comparison

namespace Position
open Comparison

theorem compare_swap (p q : Position) : q.compare p = (p.compare q).swap := by
  cases p <;> cases q <;> first | rfl | exact ofInts_swap _ _

theorem compare_ne_unordered {p q : Position} (hp : p ≠ .nowhere) (hq : q ≠ .nowhere) : p.compare q ≠ .unordered := by
  cases p <;> cases q <;> first | exact ofInts_ne_unordered _ _ | (simp_all [compare])

/-- Whether one place lies below another one. -/
def Below (p q : Position) : Prop := p.compare q = .less

theorem not_below_self (p : Position) : ¬ p.Below p := by
  cases p <;> simp [Below, compare]

theorem Below.trans {p q r : Position} (h : p.Below q) (h' : q.Below r) : p.Below r := by
  cases p <;> cases q <;> cases r <;> simp_all [Below, compare, ofInts_eq_less_iff]
  omega

end Position

namespace Value
open Comparison

theorem compare?_of_number {v : Value} (h : v.position?.isSome = true) (w : Value) :
    compare? v w = compareNumbers? v w := by
  cases v with
  | bool | int | float => cases w <;> rfl
  | _ => cases h

theorem compareNumbers?_swap (v w : Value) : compareNumbers? w v = (compareNumbers? v w).map swap := by
  unfold compareNumbers?
  cases v.position? with
  | none => cases w.position? <;> rfl
  | some p =>
      cases w.position? with
      | none => rfl
      | some q => exact congrArg some (Position.compare_swap p q)

mutual

theorem compare?_swap : (v w : Value) → compare? w v = (compare? v w).map swap
  | .bool _, w | .int _, w | .float _, w => by
      rw [compare?_of_number rfl w, ← compareNumbers?_swap]
      cases w <;> rfl
  | .text s, w => by
      cases w with
      | text t => exact congrArg some (ofTexts_swap s t)
      | _ => rfl
  | .date d, w => by
      cases w with
      | date e => exact compareDates?_swap d e
      | _ => rfl
  | .list xs, w => by
      cases w with
      | list ys => exact compareItems?_swap xs ys
      | _ => rfl
  | .tuple xs, w => by
      cases w with
      | tuple ys => exact compareItems?_swap xs ys
      | _ => rfl
  | .nil, w | .token _ _, w | .function _, w | .form _, w => by cases w <;> rfl

theorem compareItems?_swap : (vs ws : List Value) → compareItems? ws vs = (compareItems? vs ws).map swap
  | [], [] | [], _ :: _ | _ :: _, [] => rfl
  | x :: xs, y :: ys => by
      rw [compareItems?, compareItems?, itemsMatch_comm, compare?_swap x y, compareItems?_swap xs ys]
      split <;> rfl

end

theorem compareItems?_self {vs : List Value} (h : allFreeOfNaN vs = true) : compareItems? vs vs = some .equal := by
  induction vs with
  | nil => rfl
  | cons v vs ih =>
      obtain ⟨hv, hvs⟩ := Bool.and_eq_true_iff.1 h
      have hmatch : itemsMatch v v = true := by rw [itemsMatch, looselyEqual_self v hv, Bool.or_true]
      rw [compareItems?, if_pos hmatch, ih hvs]

theorem compareNumbers?_self {v : Value} (hv : v.isFreeOfNaN = true) {c : Comparison}
    (h : compareNumbers? v v = some c) : c = .equal := by
  unfold compareNumbers? at h
  split at h
  · next p q hp hq =>
      obtain rfl := Option.some.inj (hp.symm.trans hq)
      rw [← Option.some.inj h, Position.compare_self (position?_ne_nowhere hv hp)]
  · cases h

/-- A value that compares with itself is equal to itself. -/
theorem compare?_self {v : Value} (hv : v.isFreeOfNaN = true) {c : Comparison} (h : compare? v v = some c) :
    c = .equal := by
  cases v with
  | text s =>
      rw [← Option.some.inj h, ofTexts, if_neg (lt_irrefl s), if_pos rfl]
  | date d =>
      have hself := compareDates?_self d
      exact Option.some.inj (h.symm.trans hself)
  | list items | tuple items => exact Option.some.inj (h.symm.trans (compareItems?_self hv))
  | _ => exact compareNumbers?_self hv h

mutual

theorem compare?_ne_unordered : (v w : Value) → v.isFreeOfNaN = true → w.isFreeOfNaN = true →
    compare? v w ≠ some .unordered
  | .bool _, w, hv, hw | .int _, w, hv, hw | .float _, w, hv, hw => by
      rw [compare?_of_number rfl, compareNumbers?]
      split
      · next p q hp hq =>
          have hordered := Position.compare_ne_unordered (position?_ne_nowhere hv hp) (position?_ne_nowhere hw hq)
          exact fun h => hordered (Option.some.inj h)
      · nofun
  | .text s, w, _, _ => by
      cases w with
      | text t => exact fun h => ofTexts_ne_unordered s t (Option.some.inj h)
      | _ => nofun
  | .date d, w, _, _ => by
      cases w with
      | date e => exact compareDates?_ne_unordered d e
      | _ => nofun
  | .list xs, w, hv, hw => by
      cases w with
      | list ys => exact compareItems?_ne_unordered xs ys hv hw
      | _ => nofun
  | .tuple xs, w, hv, hw => by
      cases w with
      | tuple ys => exact compareItems?_ne_unordered xs ys hv hw
      | _ => nofun
  | .nil, w, _, _ | .token _ _, w, _, _ | .function _, w, _, _ | .form _, w, _, _ => by cases w <;> nofun

theorem compareItems?_ne_unordered : (vs ws : List Value) → allFreeOfNaN vs = true → allFreeOfNaN ws = true →
    compareItems? vs ws ≠ some .unordered
  | [], [], _, _ | [], _ :: _, _, _ | _ :: _, [], _, _ => nofun
  | x :: xs, y :: ys, hv, hw => by
      obtain ⟨hx, hxs⟩ := Bool.and_eq_true_iff.1 hv
      obtain ⟨hy, hys⟩ := Bool.and_eq_true_iff.1 hw
      rw [compareItems?]
      split
      · exact compareItems?_ne_unordered xs ys hxs hys
      · exact compare?_ne_unordered x y hx hy

end

/-! ## Ties -/

mutual

/-- Whether the first difference of two values is a pair of date-times that are one instant and yet not equal. -/
def isTied : Value → Value → Bool
  | .date d, .date e => areTied d e
  | .list xs, .list ys | .tuple xs, .tuple ys => areItemsTied xs ys
  | _, _ => false

def areItemsTied : List Value → List Value → Bool
  | x :: xs, y :: ys => if itemsMatch x y then areItemsTied xs ys else isTied x y
  | _, _ => false

end

theorem compareNumbers?_eq_equal_iff {v w : Value} {c : Comparison} (h : compareNumbers? v w = some c) :
    c = .equal ↔ equalNumbers v w = true := by
  unfold compareNumbers? at h
  split at h
  · next p q hp hq => rw [equalNumbers, hp, hq, ← Option.some.inj h, beq_iff_eq]
  · cases h

mutual

/-- Two values that compare are on a level if they are equal, booleans counting as one and zero, or tied. -/
theorem compare?_eq_equal_iff : (v w : Value) → {c : Comparison} → v.isFreeOfNaN = true → compare? v w = some c →
    (c = .equal ↔ looselyEqual v w = true ∨ isTied v w = true)
  | .bool _, w, _, _, h | .int _, w, _, _, h | .float _, w, _, _, h => by
      rw [compare?_of_number rfl] at h
      rw [looselyEqual_of_number rfl, compareNumbers?_eq_equal_iff h]
      simp [isTied]
  | .text s, w, c, _, h => by
      cases w with
      | text t =>
          obtain rfl := Option.some.inj h
          simp [looselyEqual, isTied, ofTexts_eq_equal_iff]
      | _ => cases h
  | .date d, w, c, _, h => by
      cases w with
      | date e =>
          have hequal := compareDates?_eq_equal_iff (d := d) (e := e)
          rwa [show compareDates? d e = some c from h, Option.some.injEq] at hequal
      | _ => cases h
  | .list xs, w, _, hv, h => by
      cases w with
      | list ys => exact compareItems?_eq_equal_iff xs ys hv h
      | _ => cases h
  | .tuple xs, w, _, hv, h => by
      cases w with
      | tuple ys => exact compareItems?_eq_equal_iff xs ys hv h
      | _ => cases h
  | .nil, w, _, _, h | .token _ _, w, _, _, h | .function _, w, _, _, h | .form _, w, _, _, h => by
      cases w <;> cases h

theorem compareItems?_eq_equal_iff : (vs ws : List Value) → {c : Comparison} → allFreeOfNaN vs = true →
    compareItems? vs ws = some c → (c = .equal ↔ allMatch vs ws = true ∨ areItemsTied vs ws = true)
  | [], [], _, _, h => by
      obtain rfl := Option.some.inj h
      simp [allMatch]
  | [], _ :: _, _, _, h | _ :: _, [], _, _, h => by
      obtain rfl := Option.some.inj h
      simp [allMatch, areItemsTied]
  | x :: xs, y :: ys, _, hv, h => by
      obtain ⟨hx, hxs⟩ := Bool.and_eq_true_iff.1 hv
      have hall : allMatch (x :: xs) (y :: ys) = (itemsMatch x y && allMatch xs ys) := rfl
      rw [compareItems?] at h
      rw [hall, areItemsTied]
      by_cases hmatch : itemsMatch x y = true
      · rw [if_pos hmatch] at h ⊢
        rw [hmatch, Bool.true_and, compareItems?_eq_equal_iff xs ys hxs h]
      · rw [if_neg hmatch] at h ⊢
        rw [compare?_eq_equal_iff x y hx h, ← itemsMatch_of_isFreeOfNaN hx]
        simp [hmatch]

end

end Value

/-! ## The strict order of forms -/

namespace Canonical

mutual

/-- The order of two forms of the same sort. -/
inductive Precedes : Canonical DateKey → Canonical DateKey → Prop
  | number {p q : Position} : p.Below q → Precedes (.number p) (.number q)
  | text {s t : String} : s < t → Precedes (.text s) (.text t)
  | date {k l : DateKey} : k.aware = l.aware → k.place < l.place → Precedes (.date k) (.date l)
  | list {xs ys : List (Canonical DateKey)} : ItemsPrecede xs ys → Precedes (.list xs) (.list ys)
  | tuple {xs ys : List (Canonical DateKey)} : ItemsPrecede xs ys → Precedes (.tuple xs) (.tuple ys)

/-- The first difference decides, whatever stands behind it. -/
inductive ItemsPrecede : List (Canonical DateKey) → List (Canonical DateKey) → Prop
  | shorter {y : Canonical DateKey} {ys : List (Canonical DateKey)} : ItemsPrecede [] (y :: ys)
  | first {x y : Canonical DateKey} {xs ys : List (Canonical DateKey)} : Precedes x y →
      ItemsPrecede (x :: xs) (y :: ys)
  | later {x : Canonical DateKey} {xs ys : List (Canonical DateKey)} : ItemsPrecede xs ys →
      ItemsPrecede (x :: xs) (x :: ys)

end

mutual

theorem Precedes.trans : {a b c : Canonical DateKey} → Precedes a b → Precedes b c → Precedes a c
  | _, _, _, .number h, .number h' => .number (h.trans h')
  | _, _, _, .text h, .text h' => .text (lt_trans h h')
  | _, _, _, .date haware h, .date haware' h' => .date (haware.trans haware') (Int.lt_trans h h')
  | _, _, _, .list h, .list h' => .list (h.trans h')
  | _, _, _, .tuple h, .tuple h' => .tuple (h.trans h')

-- The earlier one of the two first differences decides.
theorem ItemsPrecede.trans : {xs ys zs : List (Canonical DateKey)} → ItemsPrecede xs ys → ItemsPrecede ys zs →
    ItemsPrecede xs zs
  | _, _, _, .shorter, .first _ => .shorter
  | _, _, _, .shorter, .later _ => .shorter
  | _, _, _, .first h, .first h' => .first (h.trans h')
  | _, _, _, .first h, .later _ => .first h
  | _, _, _, .later _, .first h => .first h
  | _, _, _, .later h, .later h' => .later (h.trans h')

end

mutual

theorem Precedes.ne : {a b : Canonical DateKey} → Precedes a b → a ≠ b
  | _, _, .number h => by
      rintro ⟨⟩
      exact Position.not_below_self _ h
  | _, _, .text h => by
      rintro ⟨⟩
      exact lt_irrefl _ h
  | _, _, .date _ h => by
      rintro ⟨⟩
      exact Int.lt_irrefl _ h
  | _, _, .list h => fun heq => h.ne (Canonical.list.inj heq)
  | _, _, .tuple h => fun heq => h.ne (Canonical.tuple.inj heq)

theorem ItemsPrecede.ne : {xs ys : List (Canonical DateKey)} → ItemsPrecede xs ys → xs ≠ ys
  | _, _, .shorter => nofun
  | _, _, .first h => fun heq => h.ne (List.cons.inj heq).1
  | _, _, .later h => fun heq => h.ne (List.cons.inj heq).2

end

theorem itemsPrecede_cons_iff {a b : Canonical DateKey} {xs ys : List (Canonical DateKey)} :
    ItemsPrecede (a :: xs) (b :: ys) ↔ Precedes a b ∨ a = b ∧ ItemsPrecede xs ys := by
  constructor
  · rintro (_ | h | h)
    · exact .inl h
    · exact .inr ⟨rfl, h⟩
  · rintro (h | ⟨rfl, h⟩)
    · exact .first h
    · exact .later h

theorem precedes_number_iff {p : Position} {b : Canonical DateKey} :
    Precedes (.number p) b ↔ ∃ q, b = .number q ∧ p.Below q := by
  constructor
  · rintro (h : Precedes _ _)
    cases h with
    | number h => exact ⟨_, rfl, h⟩
  · rintro ⟨q, rfl, h⟩
    exact .number h

end Canonical

/-! ## Comparing values by their forms -/

namespace Value
open Canonical Comparison

variable {key : DateTime → DateKey} {ds : List DateTime}

theorem compareNumbers?_eq_less_iff {v w : Value} (h : v.position?.isSome = true) :
    compareNumbers? v w = some .less ↔ Precedes (v.loose key) (w.loose key) := by
  obtain ⟨p, hp⟩ := Option.isSome_iff_exists.1 h
  rw [(loose_eq_number_iff key).2 hp, precedes_number_iff, compareNumbers?, hp]
  simp only [loose_eq_number_iff]
  cases w.position? with
  | none => exact iff_of_false nofun nofun
  | some q =>
      constructor
      · exact fun hless => ⟨q, rfl, Option.some.inj hless⟩
      · rintro ⟨_, ⟨⟩, hless⟩
        exact congrArg some hless

theorem compareDates?_eq_less_iff (hkey : IsKey key ds) {d e : DateTime} (hd : d ∈ ds) (he : e ∈ ds) :
    compareDates? d e = some .less ↔ Precedes (.date (key d)) (.date (key e)) := by
  rw [hkey.compare d hd e he]
  split
  · next haware =>
      rw [Option.some.injEq, ofInts_eq_less_iff]
      exact ⟨.date haware, fun | .date _ h => h⟩
  · next haware => exact iff_of_false nofun fun | .date h _ => haware h

mutual

/-- A value is smaller than another one exactly if its form precedes the form of the other one. -/
theorem compare?_eq_less_iff (hkey : IsKey key ds) : (v w : Value) → v.isFreeOfNaN = true → v.dates ⊆ ds →
    w.dates ⊆ ds → (compare? v w = some .less ↔ Precedes (v.loose key) (w.loose key))
  | .bool _, w, _, _, _ | .int _, w, _, _, _ | .float _, w, _, _, _ => by
      rw [compare?_of_number rfl, compareNumbers?_eq_less_iff rfl]
  | .text s, w, _, _, _ => by
      cases w with
      | text t =>
          refine Iff.trans ?_ (ofTexts_eq_less_iff.trans ⟨.text, fun | .text h => h⟩)
          exact Option.some_inj
      | _ => exact iff_of_false nofun nofun
  | .date d, w, _, hd, hw => by
      cases w with
      | date e => exact compareDates?_eq_less_iff hkey (hd List.mem_cons_self) (hw List.mem_cons_self)
      | _ => exact iff_of_false nofun nofun
  | .list xs, w, hv, hxs, hw => by
      cases w with
      | list ys => exact (compareItems?_eq_less_iff hkey xs ys hv hxs hw).trans ⟨.list, fun | .list h => h⟩
      | _ => exact iff_of_false nofun nofun
  | .tuple xs, w, hv, hxs, hw => by
      cases w with
      | tuple ys => exact (compareItems?_eq_less_iff hkey xs ys hv hxs hw).trans ⟨.tuple, fun | .tuple h => h⟩
      | _ => exact iff_of_false nofun nofun
  | .nil, w, _, _, _ | .token _ _, w, _, _, _ | .function _, w, _, _, _ | .form _, w, _, _, _ => by
      cases w <;> exact iff_of_false nofun nofun

theorem compareItems?_eq_less_iff (hkey : IsKey key ds) : (vs ws : List Value) → allFreeOfNaN vs = true →
    datesOfAll vs ⊆ ds → datesOfAll ws ⊆ ds →
    (compareItems? vs ws = some .less ↔ ItemsPrecede (looseItems key vs) (looseItems key ws))
  | [], [], _, _, _ => iff_of_false nofun nofun
  | [], _ :: _, _, _, _ => iff_of_true rfl .shorter
  | _ :: _, [], _, _, _ => iff_of_false nofun nofun
  | x :: xs, y :: ys, h, hvs, hws => by
      obtain ⟨hx, hxs⟩ := Bool.and_eq_true_iff.1 h
      obtain ⟨hdx, hdxs⟩ := List.append_subset.1 hvs
      obtain ⟨hdy, hdys⟩ := List.append_subset.1 hws
      have hmatch := itemsMatch_iff hkey.equal hx hdx hdy
      rw [compareItems?, looseItems, looseItems, itemsPrecede_cons_iff]
      split
      · next heq =>
          rw [compareItems?_eq_less_iff hkey xs ys hxs hdxs hdys, hmatch.1 heq]
          exact ⟨fun hlater => .inr ⟨rfl, hlater⟩, fun hor => (hor.resolve_left fun hless => hless.ne rfl).2⟩
      · -- The first difference: the items behind it are never compared.
        next hne =>
          rw [compare?_eq_less_iff hkey x y hx hdx hdy]
          exact ⟨.inl, fun hor => hor.resolve_right fun hand => hne (hmatch.2 hand.1)⟩

end

/-- The comparison that a relation goes by; booleans have none. -/
def relate? (v w : Value) : Option Comparison :=
  if v.isBool || w.isBool then none else compare? v w

theorem relate?_eq_some_iff {v w : Value} {c : Comparison} :
    relate? v w = some c ↔ (v.isBool = false ∧ w.isBool = false) ∧ compare? v w = some c := by
  unfold relate?
  cases v.isBool <;> cases w.isBool <;> simp

theorem relate?_swap (v w : Value) : relate? w v = (relate? v w).map Comparison.swap := by
  unfold relate?
  rw [Bool.or_comm, compare?_swap]
  split <;> rfl

end Value

/-! ## The four relations -/

namespace Builtin
open Canonical Value

theorem apply_relation {r : Relation} {v w : Value} {c : Comparison} (h : v.relate? w = some c) :
    apply (.relation r) [v, w] = .ok (.bool (r.holds c)) := by
  obtain ⟨⟨hv, hw⟩, hc⟩ := relate?_eq_some_iff.1 h
  rw [apply, applyRelation, hv, hw, hc]
  rfl

theorem apply_relation_of_none {r : Relation} {v w : Value} (h : v.relate? w = none) :
    apply (.relation r) [v, w] = .error (Fault.incomparable r v w).reported := by
  rw [apply, applyRelation]
  unfold relate? at h
  split
  · rfl
  · next hbool =>
      rw [if_neg hbool] at h
      rw [h]
      rfl

theorem apply_relation_eq_ok_iff {r : Relation} {v w : Value} {x : Bool} :
    apply (.relation r) [v, w] = .ok (.bool x) ↔ ∃ c, v.relate? w = some c ∧ r.holds c = x := by
  cases h : v.relate? w with
  | none =>
      rw [apply_relation_of_none h]
      exact iff_of_false nofun nofun
  | some c => simp [apply_relation h]

theorem apply_less_eq_true_iff {v w : Value} :
    apply (.relation .less) [v, w] = .ok (.bool true) ↔ v.relate? w = some .less := by
  rw [apply_relation_eq_ok_iff]
  constructor
  · rintro ⟨c, h, hholds⟩
    rw [h, beq_iff_eq.1 hholds]
  · intro h
    exact ⟨.less, h, rfl⟩

end Builtin

end RuleExpr
