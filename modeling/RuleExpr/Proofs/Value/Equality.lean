import RuleExpr.Proofs.Value.DateTimes

/-!
# Equality as an equivalence

Equality is reflexive where there is no NaN, and symmetric everywhere. The form of a value keeps what an equality can
tell of it: the places of numbers on their line, keys of date-times, and everything else as it is. The loose form puts
booleans among the numbers. The strict form keeps them apart as far as lists reach, and is loose inside tuples and
tokens. If the keys tell date-times apart as equality does, values without NaN are equal exactly if their forms are the
same (`looselyEqual_iff`, `strictlyEqual_iff`), however lists, tuples and tokens stand inside each other. So equality is
transitive as far as it is on date-times.
-/
namespace RuleExpr

/-! ## Places of numbers -/

namespace Position

theorem compare_eq_equal_iff {p q : Position} : p.compare q = .equal ↔ p = q ∧ p ≠ .nowhere := by
  cases p <;> cases q <;> simp [compare, Comparison.ofInts_eq_equal_iff]

theorem compare_comm_equal (p q : Position) : (p.compare q == .equal) = (q.compare p == .equal) := by
  rw [Bool.eq_iff_iff, beq_iff_eq, beq_iff_eq, compare_eq_equal_iff, compare_eq_equal_iff]
  constructor
  · rintro ⟨rfl, h⟩
    exact ⟨rfl, h⟩
  · rintro ⟨rfl, h⟩
    exact ⟨rfl, h⟩

theorem ofBinary64_ne_nowhere {x : Binary64} (h : ∀ mark, x ≠ .nan mark) : ofBinary64 x ≠ .nowhere := by
  cases x with
  | nan mark => exact absurd rfl (h mark)
  | infinite negative => cases negative <;> nofun
  | finite negative rank => nofun

end Position

/-! ## Values without NaN -/

namespace Value

mutual

/-- Whether no NaN stands in a value. -/
def isFreeOfNaN : Value → Bool
  | .float (.nan _) => false
  | .list items | .tuple items => allFreeOfNaN items
  | .token _ content => isFreeOfNaN content
  | _ => true

def allFreeOfNaN : List Value → Bool
  | [] => true
  | v :: vs => isFreeOfNaN v && allFreeOfNaN vs

end

theorem allFreeOfNaN_iff {vs : List Value} : allFreeOfNaN vs = true ↔ ∀ v ∈ vs, v.isFreeOfNaN = true := by
  induction vs with
  | nil => simp [allFreeOfNaN]
  | cons v vs ih => rw [allFreeOfNaN, Bool.and_eq_true, ih, List.forall_mem_cons]

theorem isSameNaN_of_isFreeOfNaN {v : Value} (h : v.isFreeOfNaN = true) (w : Value) : isSameNaN v w = false := by
  unfold isSameNaN
  split
  · next x _ =>
      cases x with
      | nan mark => cases h
      | infinite | finite => rfl
  · rfl

theorem itemsMatch_of_isFreeOfNaN {v : Value} (h : v.isFreeOfNaN = true) (w : Value) :
    itemsMatch v w = looselyEqual v w := by
  rw [itemsMatch, isSameNaN_of_isFreeOfNaN h, Bool.false_or]

theorem position?_ne_nowhere {v : Value} {p : Position} (hv : v.isFreeOfNaN = true) (h : v.position? = some p) :
    p ≠ .nowhere := by
  cases v with
  | bool b | int n =>
      obtain rfl := Option.some.inj h
      nofun
  | float x =>
      obtain rfl := Option.some.inj h
      refine Position.ofBinary64_ne_nowhere ?_
      rintro mark rfl
      cases hv
  | _ => cases h

end Value

/-! ## Reflexivity and symmetry -/

namespace Value

theorem looselyEqual_of_number {v : Value} (h : v.position?.isSome = true) (w : Value) :
    looselyEqual v w = equalNumbers v w := by
  cases v with
  | bool | int | float => cases w <;> rfl
  | _ => cases h

theorem equalNumbers_self {v : Value} (hv : v.isFreeOfNaN = true) (h : v.position?.isSome = true) :
    equalNumbers v v = true := by
  obtain ⟨p, hp⟩ := Option.isSome_iff_exists.1 h
  rw [equalNumbers, hp]
  exact beq_iff_eq.2 (Position.compare_self (position?_ne_nowhere hv hp))

theorem equalNumbers_comm (v w : Value) : equalNumbers v w = equalNumbers w v := by
  unfold equalNumbers
  cases v.position? with
  | none => cases w.position? <;> rfl
  | some p =>
      cases w.position? with
      | none => rfl
      | some q => exact Position.compare_comm_equal p q

mutual

theorem looselyEqual_self : (v : Value) → v.isFreeOfNaN = true → looselyEqual v v = true
  | .bool _, hv | .int _, hv | .float _, hv => (looselyEqual_of_number rfl _).trans (equalNumbers_self hv rfl)
  | .nil, _ => rfl
  | .text _, _ | .function _, _ | .form _, _ => by simp [looselyEqual]
  | .date d, _ => equalDates_self d
  | .list items, hv | .tuple items, hv => allMatch_self items hv
  | .token _ content, hv => by
      rw [looselyEqual, looselyEqual_self content hv, Bool.or_true, Bool.and_true]
      exact beq_self_eq_true _

theorem allMatch_self : (vs : List Value) → allFreeOfNaN vs = true → allMatch vs vs = true
  | [], _ => rfl
  | v :: vs, h => by
      obtain ⟨hv, hvs⟩ := Bool.and_eq_true_iff.1 h
      rw [allMatch, looselyEqual_self v hv, allMatch_self vs hvs, Bool.or_true]
      rfl

end

mutual

theorem strictlyEqual_self : (v : Value) → v.isFreeOfNaN = true → strictlyEqual v v = true
  | .bool b, _ => beq_self_eq_true b
  | .list items, hv => allStrictlyEqual_self items hv
  | .nil, hv | .int _, hv | .float _, hv | .text _, hv | .date _, hv | .tuple _, hv | .token _ _, hv | .function _, hv
  | .form _, hv => looselyEqual_self _ hv

theorem allStrictlyEqual_self : (vs : List Value) → allFreeOfNaN vs = true → allStrictlyEqual vs vs = true
  | [], _ => rfl
  | v :: vs, h => by
      obtain ⟨hv, hvs⟩ := Bool.and_eq_true_iff.1 h
      rw [allStrictlyEqual, strictlyEqual_self v hv, allStrictlyEqual_self vs hvs]
      rfl

end

theorem isSameNaN_comm (v w : Value) : isSameNaN v w = isSameNaN w v := by
  cases v with
  | float x =>
      cases w with
      | float y =>
          cases x with
          | nan a =>
              cases y with
              | nan b => cases a <;> cases b <;> first | rfl | exact Bool.beq_comm
              | infinite | finite => cases a <;> rfl
          | infinite | finite => cases y <;> first | rfl | (next a => cases a <;> rfl)
      | _ => rfl
  | _ => cases w <;> rfl

mutual

theorem looselyEqual_comm : (v w : Value) → looselyEqual v w = looselyEqual w v
  | .bool _, w | .int _, w | .float _, w => by
      rw [looselyEqual_of_number rfl, equalNumbers_comm]
      cases w <;> rfl
  | .nil, w => by cases w <;> rfl
  | .text _, w | .function _, w | .form _, w => by
      cases w <;> simp [looselyEqual, equalNumbers, position?, Bool.beq_comm]
  | .date d, w => by
      cases w with
      | date e => exact equalDates_comm d e
      | _ => rfl
  | .list xs, w | .tuple xs, w => by
      cases w with
      | list ys | tuple ys => first | exact allMatch_comm xs ys | rfl
      | _ => rfl
  | .token k x, w => by
      cases w with
      | token l y => rw [looselyEqual, looselyEqual, Bool.beq_comm, isSameNaN_comm x y, looselyEqual_comm x y]
      | _ => rfl

theorem allMatch_comm : (vs ws : List Value) → allMatch vs ws = allMatch ws vs
  | [], [] | [], _ :: _ | _ :: _, [] => rfl
  | x :: xs, y :: ys => by
      rw [allMatch, allMatch, isSameNaN_comm x y, looselyEqual_comm x y, allMatch_comm xs ys]

end

theorem itemsMatch_comm (v w : Value) : itemsMatch v w = itemsMatch w v := by
  rw [itemsMatch, itemsMatch, isSameNaN_comm, looselyEqual_comm]

mutual

theorem strictlyEqual_comm : (v w : Value) → strictlyEqual v w = strictlyEqual w v
  | .bool _, w => by cases w <;> simp [strictlyEqual, Bool.beq_comm]
  | .list xs, w => by
      cases w with
      | list ys => exact allStrictlyEqual_comm xs ys
      | _ => rfl
  | .nil, w | .int _, w | .float _, w | .text _, w | .date _, w | .tuple _, w | .token _ _, w | .function _, w
  | .form _, w => by cases w <;> first | rfl | exact looselyEqual_comm _ _

theorem allStrictlyEqual_comm : (vs ws : List Value) → allStrictlyEqual vs ws = allStrictlyEqual ws vs
  | [], [] | [], _ :: _ | _ :: _, [] => rfl
  | x :: xs, y :: ys => by
      rw [allStrictlyEqual, allStrictlyEqual, strictlyEqual_comm x y, allStrictlyEqual_comm xs ys]

end

/-! ## Forms -/

mutual

/-- The date-times that stand in a value, at any depth. -/
def dates : Value → List DateTime
  | .date d => [d]
  | .list items | .tuple items => datesOfAll items
  | .token _ content => dates content
  | _ => []

def datesOfAll : List Value → List DateTime
  | [] => []
  | v :: vs => dates v ++ datesOfAll vs

end

end Value

/-- What an equality can tell of a value, date-times being told by keys. -/
inductive Canonical (κ : Type) where
  | nil
  | bool (b : Bool)
  | number (place : Position)
  | text (s : String)
  | date (key : κ)
  | list (items : List (Canonical κ))
  | tuple (items : List (Canonical κ))
  | token (kind : Kind) (content : Canonical κ)
  | function (f : Function)
  | form (f : Form)

namespace Value

section
variable {κ : Type} (key : DateTime → κ)

mutual

/-- The form of a value that counts booleans as one and zero. -/
def loose : Value → Canonical κ
  | .nil => .nil
  | .bool b => .number (.ofInt (if b then 1 else 0))
  | .int n => .number (.ofInt n)
  | .float x => .number (.ofBinary64 x)
  | .text s => .text s
  | .date d => .date (key d)
  | .list items => .list (looseItems items)
  | .tuple items => .tuple (looseItems items)
  | .token kind content => .token kind (loose content)
  | .function f => .function f
  | .form f => .form f

def looseItems : List Value → List (Canonical κ)
  | [] => []
  | v :: vs => loose v :: looseItems vs

end

mutual

/-- The form of a value that keeps booleans apart from numbers, in lists at every depth. -/
def strict : Value → Canonical κ
  | .bool b => .bool b
  | .list items => .list (strictItems items)
  | v => loose key v

def strictItems : List Value → List (Canonical κ)
  | [] => []
  | v :: vs => strict v :: strictItems vs

end

theorem loose_eq_number_iff {v : Value} {p : Position} : v.loose key = .number p ↔ v.position? = some p := by
  cases v <;> simp [loose, position?]

theorem equalNumbers_iff {v w : Value} (hv : v.isFreeOfNaN = true) (h : v.position?.isSome = true) :
    equalNumbers v w = true ↔ v.loose key = w.loose key := by
  obtain ⟨p, hp⟩ := Option.isSome_iff_exists.1 h
  rw [(loose_eq_number_iff key).2 hp, eq_comm (b := w.loose key), loose_eq_number_iff]
  unfold equalNumbers
  rw [hp]
  cases w.position? with
  | none => exact iff_of_false nofun nofun
  | some q =>
      simp only [beq_iff_eq, Position.compare_eq_equal_iff, Option.some.injEq]
      exact ⟨fun heq => heq.1.symm, fun heq => ⟨heq.symm, position?_ne_nowhere hv hp⟩⟩

/-- Whether keys tell the date-times of a list apart as equality does. -/
def IsTold (ds : List DateTime) : Prop := ∀ d ∈ ds, ∀ e ∈ ds, (equalDates d e = true ↔ key d = key e)

variable {key} {ds : List DateTime}

mutual

theorem looselyEqual_iff (htold : IsTold key ds) : (v w : Value) → v.isFreeOfNaN = true → v.dates ⊆ ds →
    w.dates ⊆ ds → (looselyEqual v w = true ↔ v.loose key = w.loose key)
  | .bool _, w, hv, _, _ | .int _, w, hv, _, _ | .float _, w, hv, _, _ => by
      rw [looselyEqual_of_number rfl, equalNumbers_iff key hv rfl]
  | .nil, w, _, _, _ | .text _, w, _, _, _ | .function _, w, _, _, _ | .form _, w, _, _, _ => by
      cases w <;> simp [looselyEqual, loose, equalNumbers, position?]
  | .date d, w, _, hd, hw => by
      cases w with
      | date e => simpa [looselyEqual, loose] using htold d (hd List.mem_cons_self) e (hw List.mem_cons_self)
      | _ => simp [looselyEqual, loose, equalNumbers, position?]
  | .list xs, w, hv, hxs, hw | .tuple xs, w, hv, hxs, hw => by
      cases w with
      | list ys | tuple ys =>
          first
          | simpa [looselyEqual, loose] using allMatch_iff htold xs ys hv hxs hw
          | simp [looselyEqual, loose, equalNumbers, position?]
      | _ => simp [looselyEqual, loose, equalNumbers, position?]
  | .token k x, w, hv, hx, hw => by
      cases w with
      | token l y =>
          have hfree : x.isFreeOfNaN = true := hv
          simp [looselyEqual, loose, isSameNaN_of_isFreeOfNaN hfree, looselyEqual_iff htold x y hfree hx hw]
      | _ => simp [looselyEqual, loose, equalNumbers, position?]

theorem allMatch_iff (htold : IsTold key ds) : (vs ws : List Value) → allFreeOfNaN vs = true →
    datesOfAll vs ⊆ ds → datesOfAll ws ⊆ ds → (allMatch vs ws = true ↔ looseItems key vs = looseItems key ws)
  | [], ws, _, _, _ => by cases ws <;> simp [allMatch, looseItems]
  | _ :: _, [], _, _, _ => by simp [allMatch, looseItems]
  | x :: xs, y :: ys, h, hvs, hws => by
      obtain ⟨hx, hxs⟩ := Bool.and_eq_true_iff.1 h
      obtain ⟨hdx, hdxs⟩ := List.append_subset.1 hvs
      obtain ⟨hdy, hdys⟩ := List.append_subset.1 hws
      simp [allMatch, looseItems, isSameNaN_of_isFreeOfNaN hx, looselyEqual_iff htold x y hx hdx hdy,
        allMatch_iff htold xs ys hxs hdxs hdys]

end

theorem itemsMatch_iff (htold : IsTold key ds) {v w : Value} (hv : v.isFreeOfNaN = true) (hdv : v.dates ⊆ ds)
    (hdw : w.dates ⊆ ds) : itemsMatch v w = true ↔ v.loose key = w.loose key := by
  rw [itemsMatch_of_isFreeOfNaN hv, looselyEqual_iff htold v w hv hdv hdw]

mutual

theorem strictlyEqual_iff (htold : IsTold key ds) : (v w : Value) → v.isFreeOfNaN = true → v.dates ⊆ ds →
    w.dates ⊆ ds → (strictlyEqual v w = true ↔ v.strict key = w.strict key)
  | .bool _, w, _, _, _ => by cases w <;> simp [strictlyEqual, strict, loose]
  | .list xs, w, hv, hxs, hw => by
      cases w with
      | list ys => simpa [strictlyEqual, strict] using allStrictlyEqual_iff htold xs ys hv hxs hw
      | _ => simp [strictlyEqual, strict, loose, looselyEqual, equalNumbers, position?]
  | .nil, w, hv, hd, hw | .int _, w, hv, hd, hw | .float _, w, hv, hd, hw | .text _, w, hv, hd, hw
  | .date _, w, hv, hd, hw | .tuple _, w, hv, hd, hw | .token _ _, w, hv, hd, hw | .function _, w, hv, hd, hw
  | .form _, w, hv, hd, hw => by
      have hloose := looselyEqual_iff htold _ w hv hd hw
      cases w with
      | bool => simp [strictlyEqual, strict, loose]
      | list => simp [strictlyEqual, strict, loose, looselyEqual, equalNumbers, position?]
      | _ => exact hloose

theorem allStrictlyEqual_iff (htold : IsTold key ds) : (vs ws : List Value) → allFreeOfNaN vs = true →
    datesOfAll vs ⊆ ds → datesOfAll ws ⊆ ds → (allStrictlyEqual vs ws = true ↔ strictItems key vs = strictItems key ws)
  | [], ws, _, _, _ => by cases ws <;> simp [allStrictlyEqual, strictItems]
  | _ :: _, [], _, _, _ => by simp [allStrictlyEqual, strictItems]
  | x :: xs, y :: ys, h, hvs, hws => by
      obtain ⟨hx, hxs⟩ := Bool.and_eq_true_iff.1 h
      obtain ⟨hdx, hdxs⟩ := List.append_subset.1 hvs
      obtain ⟨hdy, hdys⟩ := List.append_subset.1 hws
      simp [allStrictlyEqual, strictItems, strictlyEqual_iff htold x y hx hdx hdy,
        allStrictlyEqual_iff htold xs ys hxs hdxs hdys]

end

end

end Value

namespace Builtin
open Value

theorem apply_equal_eq_true_iff {v w : Value} :
    apply .equal [v, w] = .ok (.bool true) ↔ v.strictlyEqual w = true := by
  rw [apply, Except.ok.injEq, Value.bool.injEq]

/-- Among values without NaN, of all sorts and nested in any way, equality is reflexive and symmetric. It is transitive
if no date-time in the values is equal to two of another zone with different readings. What equals a value without NaN
has none either, so that nothing more needs to be known of `c`. -/
theorem equal_is_equivalence {a b : Value} (c : Value) (ha : a.isFreeOfNaN = true) (hb : b.isFreeOfNaN = true) :
    apply .equal [a, a] = .ok (.bool true) ∧ apply .equal [a, b] = apply .equal [b, a] ∧
      (ReadingsAgree (a.dates ++ b.dates ++ c.dates) →
        apply .equal [a, b] = .ok (.bool true) → apply .equal [b, c] = .ok (.bool true) →
        apply .equal [a, c] = .ok (.bool true)) := by
  simp only [apply_equal_eq_true_iff]
  refine ⟨strictlyEqual_self a ha, ?_, fun hagree => ?_⟩
  · rw [apply, apply, strictlyEqual_comm]
  · have htold : IsTold (fun d => (a.dates ++ b.dates ++ c.dates).find? (equalDates d))
        (a.dates ++ b.dates ++ c.dates) := fun d hd e he => find?_equalDates_iff hagree hd he
    have hda : a.dates ⊆ a.dates ++ b.dates ++ c.dates := by simp
    have hdb : b.dates ⊆ a.dates ++ b.dates ++ c.dates := by simp
    have hdc : c.dates ⊆ a.dates ++ b.dates ++ c.dates := by simp
    rw [strictlyEqual_iff htold a b ha hda hdb, strictlyEqual_iff htold b c hb hdb hdc,
      strictlyEqual_iff htold a c ha hda hdc]
    exact Eq.trans

/-- A boolean, an integer and a binary64 number of the same place, and date-times of two zones, in tuples and tokens
that stand in lists. -/
theorem equal_is_equivalence_nested :
    let wrap (v : Value) (d : DateTime) : Value := .list [.tuple [v, .token .num (.list [v, .date d])], .bool true]
    let a := wrap (.bool true) (.onChange 12 30 false)
    let b := wrap (.int 1) (.onChangeUtc 11 30)
    let c := wrap (.float (.ofInt 1)) (.onChange 12 30 true)
    (a.isFreeOfNaN = true ∧ b.isFreeOfNaN = true ∧ ReadingsAgree (a.dates ++ b.dates ++ c.dates) ∧
      apply .equal [a, b] = .ok (.bool true) ∧ apply .equal [b, c] = .ok (.bool true)) ∧
      apply .equal [a, a] = .ok (.bool true) ∧ apply .equal [b, a] = .ok (.bool true) ∧
      apply .equal [a, c] = .ok (.bool true) := by
  intro wrap a b c
  have hagree : ReadingsAgree (a.dates ++ b.dates ++ c.dates) := by decide +kernel
  have hab : apply .equal [a, b] = .ok (.bool true) := apply_equal_eq_true_iff.2 (by decide +kernel)
  have hbc : apply .equal [b, c] = .ok (.bool true) := apply_equal_eq_true_iff.2 (by decide +kernel)
  obtain ⟨hrefl, hsymm, htrans⟩ := equal_is_equivalence (a := a) (b := b) c rfl rfl
  exact ⟨⟨rfl, rfl, hagree, hab, hbc⟩, hrefl, hsymm ▸ hab, htrans hagree hab hbc⟩

/-- A zone that heeds no passages is set forward from two to three: by its clock half past two is not half past three,
but both are the same instant as half past one in universal time. -/
theorem equal_is_not_transitive_across_zones :
    let heedless : Zone := ⟨1, "heedless", ⟨3600000000, by decide⟩,
      [⟨737512 * 86400000000 + 10800000000, ⟨7200000000, by decide⟩, ⟨7200000000, by decide⟩⟩]⟩
    let day : Date := ⟨2020, 3, 29, by decide⟩
    let a : Value := .date ⟨day, ⟨2, 30, 0, 0, false⟩, some (.changing heedless)⟩
    let b : Value := .date ⟨day, ⟨1, 30, 0, 0, false⟩, some .utc⟩
    let c : Value := .date ⟨day, ⟨3, 30, 0, 0, false⟩, some (.changing heedless)⟩
    (a.isFreeOfNaN = true ∧ b.isFreeOfNaN = true ∧ c.isFreeOfNaN = true) ∧
      apply .equal [a, b] = .ok (.bool true) ∧ apply .equal [b, c] = .ok (.bool true) ∧
      apply .equal [a, c] = .ok (.bool false) := by
  intro heedless day a b c
  have hac : a.strictlyEqual c = false := by decide +kernel
  refine ⟨⟨rfl, rfl, rfl⟩, apply_equal_eq_true_iff.2 (by decide +kernel),
    apply_equal_eq_true_iff.2 (by decide +kernel), ?_⟩
  rw [apply, hac]

end Builtin

end RuleExpr
