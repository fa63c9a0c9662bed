import RuleExpr.Proofs.Value.Order

/-!
# The first extreme item

A scan for an extreme compares every item with the best one so far only, so what it finds out of all items has to follow
from what it finds out of the best. The items behind the result yield to it in any case (`extremeAfter_isFirst`). That
it beats the items in front of it needs a weak order: what beats an item beats all that yield to the item. Where clocks
go forward with the instants, and only date-times themselves are tied, the order of values is one (`isWeaklyOrdered`).
-/
namespace RuleExpr

/-! ## Beating and yielding -/

namespace Value
open Builtin Comparison

/-- Whether a value is compared with another one and lies beyond it towards an end of the order. -/
def Beats (e : Extreme) (v w : Value) : Prop := ∃ c, compare? v w = some c ∧ (beats e).holds c = true

/-- Whether a value is compared with another one and does not beat it. -/
def Yields (e : Extreme) (v w : Value) : Prop := ∃ c, compare? v w = some c ∧ (beats e).holds c = false

variable {e : Extreme} {v w r best : Value} {vs : List Value}

theorem Beats.yields (h : Beats e v w) : Yields e w v := by
  obtain ⟨c, hc, hholds⟩ := h
  refine ⟨c.swap, by rw [compare?_swap v w, hc, Option.map_some], ?_⟩
  cases e <;> cases c <;> first | rfl | cases hholds

/-- Whether what beats a value beats all that yield to the value. -/
def IsWeaklyOrdered (e : Extreme) (items : List Value) : Prop :=
  ∀ u ∈ items, ∀ v ∈ items, ∀ w ∈ items, Beats e u v → Yields e w v → Beats e u w

/-! ## The first of the extreme items -/

/-- Whether the items behind an item yield to it and, in a weak order, it beats the items in front of it. Unless the
item stands alone, it was compared with another one. -/
structure IsFirst (e : Extreme) (r : Value) (before after : List Value) : Prop where
  after_yield : ∀ x ∈ after, Yields e x r
  beats_before : IsWeaklyOrdered e (before ++ r :: after) → ∀ y ∈ before, Beats e r y
  compared : before ++ after ≠ [] → ∃ y, (compare? r y).isSome = true

/-- Where an item is the first of the extreme items of a sequence. -/
def IsFirstOf (e : Extreme) (r : Value) (items : List Value) : Prop :=
  ∃ before after, items = before ++ r :: after ∧ IsFirst e r before after

theorem IsWeaklyOrdered.mono {items others : List Value} (h : IsWeaklyOrdered e items) (hsubset : others ⊆ items) :
    IsWeaklyOrdered e others :=
  fun u hu v hv w hw => h u (hsubset hu) v (hsubset hv) w (hsubset hw)

theorem Beats.isSome (h : Beats e v w) : (compare? v w).isSome = true := by
  obtain ⟨c, hc, -⟩ := h
  rw [hc]
  rfl

theorem Yields.isSome (h : Yields e v w) : (compare? w v).isSome = true := by
  obtain ⟨c, hc, -⟩ := h
  rw [compare?_swap v w, hc]
  rfl

/-- An item may be put in front of one that beats it. -/
theorem IsFirstOf.of_beats (h : IsFirstOf e r (v :: vs)) (hbeats : Beats e v best) :
    IsFirstOf e r (best :: v :: vs) := by
  obtain ⟨before, after, hsplit, hfirst⟩ := h
  refine ⟨best :: before, after, congrArg _ hsplit, hfirst.after_yield, fun hweak => ?_, fun _ => ?_⟩
  · have hbefore := hfirst.beats_before (hweak.mono (List.subset_cons_self _ _))
    refine List.forall_mem_cons.2 ⟨?_, hbefore⟩
    cases before with
    | nil =>
        obtain rfl := (List.cons.inj hsplit).1
        exact hbeats
    | cons y before =>
        obtain rfl := (List.cons.inj hsplit).1
        exact hweak r (by simp) v (by simp) best (by simp) (hbefore v List.mem_cons_self) hbeats.yields
  · cases before with
    | nil =>
        obtain rfl := (List.cons.inj hsplit).1
        exact ⟨best, hbeats.isSome⟩
    | cons y before => exact hfirst.compared (List.cons_ne_nil _ _)

/-- An item may be put behind the first one if it yields to that one. -/
theorem IsFirstOf.of_yields (h : IsFirstOf e r (best :: vs)) (hyields : Yields e v best) :
    IsFirstOf e r (best :: v :: vs) := by
  obtain ⟨before, after, hsplit, hfirst⟩ := h
  cases before with
  | nil =>
      obtain ⟨rfl, rfl⟩ := List.cons.inj hsplit
      exact ⟨[], v :: vs, rfl, List.forall_mem_cons.2 ⟨hyields, hfirst.after_yield⟩, fun _ => List.forall_mem_nil _,
        fun _ => ⟨v, hyields.isSome⟩⟩
  | cons y before =>
      obtain ⟨rfl, rfl⟩ := List.cons.inj hsplit
      refine ⟨best :: v :: before, after, rfl, hfirst.after_yield, fun hweak => ?_,
        fun _ => hfirst.compared (List.cons_ne_nil _ _)⟩
      have hsubset : best :: before ++ r :: after ⊆ best :: v :: before ++ r :: after := by simp
      obtain ⟨hbest, hrest⟩ := List.forall_mem_cons.1 (hfirst.beats_before (hweak.mono hsubset))
      have hv : Beats e r v := hweak r (by simp) best (by simp) v (by simp) hbest hyields
      exact List.forall_mem_cons.2 ⟨hbest, List.forall_mem_cons.2 ⟨hv, hrest⟩⟩

/-- What was compared with some value yields to itself. -/
theorem yields_self (hv : v.isFreeOfNaN = true) (h : (compare? v w).isSome = true) : Yields e v v := by
  have hself : compare? v v = some .equal := by
    cases v with
    | text s => exact congrArg some (by rw [ofTexts, if_neg (lt_irrefl s), if_pos rfl])
    | date d => exact compareDates?_self d
    | list items | tuple items => exact compareItems?_self hv
    | bool | int | float =>
        rw [compare?_of_number rfl, compareNumbers?]
        split
        · next p q hp hq =>
            obtain rfl := Option.some.inj (hp.symm.trans hq)
            rw [Position.compare_self (position?_ne_nowhere hv hp)]
        · next hnone => exact absurd rfl (hnone _ _ rfl)
    | nil | token | function | form => cases w <;> cases h
  exact ⟨.equal, hself, by cases e <;> rfl⟩

end Value

/-! ## The weak order -/

namespace Canonical

/-- Whether one form lies beyond another one towards an end of the order. -/
def Beats : Extreme → Canonical DateKey → Canonical DateKey → Prop
  | .largest, a, b => Precedes b a
  | .smallest, a, b => Precedes a b

/-- Whether two forms are the same or date-times of one place. -/
inductive Level : Canonical DateKey → Canonical DateKey → Prop
  | same {a : Canonical DateKey} : Level a a
  | dates {k l : DateKey} : k.aware = l.aware → k.place = l.place → Level (.date k) (.date l)

variable {e : Extreme} {a b c : Canonical DateKey}

theorem Beats.trans (h : Beats e a b) (h' : Beats e b c) : Beats e a c := by
  cases e with
  | largest => exact Precedes.trans h' h
  | smallest => exact Precedes.trans h h'

theorem Beats.of_level (h : Beats e a b) (h' : Level c b) : Beats e a c := by
  cases h' with
  | same => exact h
  | dates haware hplace =>
      cases e with
      | largest =>
          cases h with
          | date haware' hless => exact .date (haware.trans haware') (hplace ▸ hless)
      | smallest =>
          cases h with
          | date haware' hless => exact .date (haware'.trans haware.symm) (hplace ▸ hless)

end Canonical

namespace Value
open Builtin Canonical

variable {key : DateTime → DateKey} {ds : List DateTime} {e : Extreme} {v w : Value}

theorem beats_iff (hkey : IsKey key ds) (hv : v.isFreeOfNaN = true) (hw : w.isFreeOfNaN = true) (hdv : v.dates ⊆ ds)
    (hdw : w.dates ⊆ ds) : Value.Beats e v w ↔ Canonical.Beats e (v.loose key) (w.loose key) := by
  have hless := compare?_eq_less_iff hkey v w hv hdv hdw
  have hgreater := compare?_eq_less_iff hkey w v hw hdw hdv
  rw [compare?_swap v w] at hgreater
  cases e with
  | largest =>
      refine Iff.trans ⟨?_, fun h => ?_⟩ hgreater
      · rintro ⟨c, hc, hholds⟩
        obtain rfl : c = .greater := by simpa [beats, Relation.holds] using hholds
        rw [hc]
        rfl
      · obtain ⟨c, hc, hswap⟩ := Option.map_eq_some_iff.1 h
        refine ⟨c, hc, ?_⟩
        cases c <;> first | rfl | cases hswap
  | smallest =>
      refine Iff.trans ⟨?_, fun h => ⟨_, h, rfl⟩⟩ hless
      rintro ⟨c, hc, hholds⟩
      obtain rfl : c = .less := by simpa [beats, Relation.holds] using hholds
      exact hc

/-- What is tied and is a date-time is tied with a date-time of the same place. -/
theorem level_of_isTied (hkey : IsKey key ds) {d : DateTime} (htied : (Value.date d).isTied w = true) (hd : d ∈ ds)
    (hdw : w.dates ⊆ ds) : Level (.date (key d)) (w.loose key) := by
  cases w with
  | date e =>
      have he : e ∈ ds := hdw List.mem_cons_self
      have hequal : compareDates? d e = some .equal := compareDates?_eq_equal_iff.2 (.inr htied)
      rw [hkey.compare d hd e he] at hequal
      split at hequal
      · next haware => exact .dates haware (Comparison.ofInts_eq_equal_iff.1 (Option.some.inj hequal))
      · cases hequal
  | _ => cases htied

theorem beats_or_level_of_yields (hkey : IsKey key ds) (hv : v.isFreeOfNaN = true) (hw : w.isFreeOfNaN = true)
    (hdv : v.dates ⊆ ds) (hdw : w.dates ⊆ ds) (htied : v.isTied w = true → ∃ d, v = .date d) (h : Yields e v w) :
    Value.Beats e w v ∨ Level (v.loose key) (w.loose key) := by
  obtain ⟨c, hc, hholds⟩ := h
  by_cases hequal : c = .equal
  · right
    rcases (compare?_eq_equal_iff v w hv hc).1 hequal with hloose | hdates
    · rw [(looselyEqual_iff hkey.equal v w hv hdv hdw).1 hloose]
      exact .same
    · obtain ⟨d, rfl⟩ := htied hdates
      exact level_of_isTied hkey hdates (hdv List.mem_cons_self) hdw
  · left
    refine ⟨c.swap, by rw [compare?_swap v w, hc, Option.map_some], ?_⟩
    cases c with
    | equal => exact absurd rfl hequal
    | unordered => exact absurd hc (compare?_ne_unordered v w hv hw)
    | less | greater => cases e <;> first | rfl | cases hholds

theorem dates_subset_of_mem {items : List Value} (h : v ∈ items) : v.dates ⊆ datesOfAll items := by
  induction items with
  | nil => cases h
  | cons x xs ih =>
      rcases List.mem_cons.1 h with rfl | h
      · exact List.subset_append_left _ _
      · exact List.subset_append_of_subset_right _ (ih h)

/-- Values are weakly ordered if the clocks of their date-times go forward with the instants and no sequences among them
are tied. -/
theorem isWeaklyOrdered {items : List Value} (hfree : ∀ v ∈ items, v.isFreeOfNaN = true)
    (hagree : ClocksAgree (datesOfAll items))
    (htied : ∀ x ∈ items, ∀ y ∈ items, x.isTied y = true → ∃ d, x = .date d) : IsWeaklyOrdered e items := by
  obtain ⟨key, hkey⟩ := exists_isKey hagree
  intro u hu v hv w hw hbeats hyields
  have hiff {x y : Value} (hx : x ∈ items) (hy : y ∈ items) : Value.Beats e x y ↔
      Canonical.Beats e (x.loose key) (y.loose key) :=
    beats_iff hkey (hfree x hx) (hfree y hy) (dates_subset_of_mem hx) (dates_subset_of_mem hy)
  have huv := (hiff hu hv).1 hbeats
  rw [hiff hu hw]
  rcases beats_or_level_of_yields hkey (hfree w hw) (hfree v hv) (dates_subset_of_mem hw) (dates_subset_of_mem hv)
    (htied w hw v hv) hyields with hvw | hlevel
  · exact huv.trans ((hiff hv hw).1 hvw)
  · exact huv.of_level hlevel

end Value

namespace Builtin
open Value

/-! ## Scanning -/

/-- A scan ends with the first of the extreme items. -/
theorem extremeAfter_isFirst {e : Extreme} {best r : Value} {vs : List Value} (h : extremeAfter e best vs = .ok r) :
    IsFirstOf e r (best :: vs) := by
  induction vs generalizing best with
  | nil =>
      obtain rfl := Except.ok.inj h
      exact ⟨[], [], rfl, List.forall_mem_nil _, fun _ => List.forall_mem_nil _, fun hne => absurd rfl hne⟩
  | cons v vs ih =>
      rw [extremeAfter] at h
      split at h
      · cases h
      · next c hc =>
          by_cases hholds : (beats e).holds c = true
          · rw [if_pos hholds] at h
            exact (ih h).of_beats ⟨c, hc, hholds⟩
          · rw [if_neg hholds] at h
            exact (ih h).of_yields ⟨c, hc, Bool.eq_false_iff.2 hholds⟩

theorem extremeAfter_eq_error {e : Extreme} {best : Value} {vs : List Value} {f : Fault}
    (h : extremeAfter e best vs = .error f) : f = .incomparableElements e := by
  induction vs generalizing best with
  | nil => cases h
  | cons v vs ih =>
      rw [extremeAfter] at h
      split at h
      · exact (Except.error.inj h).symm
      · exact ih h

theorem extremeOf_eq_error {e : Extreme} {vs : List Value} {f : Fault} (h : extremeOf e vs = .error f) :
    f = .booleanElements e ∨ f = .incomparableElements e := by
  unfold extremeOf at h
  split at h
  · cases h
  · cases h
  · split at h
    · exact .inl (Except.error.inj h).symm
    · exact .inr (extremeAfter_eq_error h)

/-- Two or more items hold no boolean if they have an extreme, and are scanned from the first one on. -/
theorem extremeOf_eq_ok_of_two {e : Extreme} {vs : List Value} {r : Value} (htwo : 2 ≤ vs.length)
    (h : extremeOf e vs = .ok r) :
    (∀ v ∈ vs, v.isBool = false) ∧ ∃ best rest, vs = best :: rest ∧ extremeAfter e best rest = .ok r := by
  match vs, htwo with
  | v :: w :: vs, _ =>
    rw [extremeOf] at h
    · split at h
      · cases h
      · next hbool =>
          refine ⟨fun x hx => ?_, v, w :: vs, rfl, h⟩
          exact Bool.eq_false_iff.2 fun hx' => hbool (List.any_eq_true.2 ⟨x, hx, hx'⟩)
    · exact List.cons_ne_nil w vs

theorem extremeOf_of_boolean {e : Extreme} {vs : List Value} {x : Value} (htwo : 2 ≤ vs.length) (hx : x ∈ vs)
    (hbool : x.isBool = true) : extremeOf e vs = .error (.booleanElements e) := by
  match vs, htwo with
  | v :: w :: vs, _ => exact if_pos (List.any_eq_true.2 ⟨x, hx, hbool⟩)

theorem extremeOf_pair_eq_error_iff {e : Extreme} {a b : Value} :
    (∃ f, extremeOf e [a, b] = .error f) ↔ ∃ f, apply (.relation (beats e)) [b, a] = .error f := by
  have hany : [a, b].any Value.isBool = (b.isBool || a.isBool) := by simp [Bool.or_comm]
  rw [extremeOf, apply, applyRelation, hany]
  · cases b.isBool || a.isBool with
    | true => exact iff_of_true ⟨_, rfl⟩ ⟨_, rfl⟩
    | false =>
        simp only [extremeAfter]
        cases b.compare? a with
        | none => exact iff_of_true ⟨_, rfl⟩ ⟨_, rfl⟩
        | some c =>
            refine iff_of_false ?_ ?_
            · rintro ⟨f, hf⟩
              cases hf
            · rintro ⟨f, hf⟩
              cases hf
  · exact List.cons_ne_nil b []

theorem apply_beats_iff {e : Extreme} {v w : Value} {x : Bool} (hv : v.isBool = false) (hw : w.isBool = false) :
    apply (.relation (beats e)) [v, w] = .ok (.bool x) ↔ ∃ c, v.compare? w = some c ∧ (beats e).holds c = x := by
  simp only [apply_relation_eq_ok_iff, relate?_eq_some_iff, hv, hw, and_self, true_and]

theorem apply_extreme {e : Extreme} {v : Value} {items : List Value} (h : items? v = some items) :
    apply (.extreme e) [v] = extremeOf e items := by
  rw [apply, requireItems, h]
  rfl

theorem isFreeOfNaN_of_items? {v : Value} {items : List Value} (hv : v.isFreeOfNaN = true)
    (h : items? v = some items) : ∀ x ∈ items, x.isFreeOfNaN = true := by
  cases v with
  | list vs | tuple vs =>
      obtain rfl := Option.some.inj h
      exact allFreeOfNaN_iff.1 hv
  | text s =>
      obtain rfl := Option.some.inj h
      exact List.forall_mem_map.2 fun _ _ => rfl
  | _ => cases h

end Builtin

end RuleExpr
