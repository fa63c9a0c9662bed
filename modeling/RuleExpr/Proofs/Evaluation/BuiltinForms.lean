import RuleExpr.Evaluation

/-!
# Builtin forms

Where no form of a host occurs, among the bindings or in what functions return, none ever comes up: names, builtin
functions and the items of sequences only pass on what is there (`Builtin.apply_builtinForms`). The builtin forms do
one thing only. They test some of their operands in turn, each at most once, and choose an operand or the name of a
constant (`planOf_selects`).
-/
namespace RuleExpr

mutual

/-- Whether all forms in a value are builtin ones. -/
def Value.builtinForms : Value → Bool
  | .form (.host _) => false
  | .list items | .tuple items => allBuiltinForms items
  | .token _ content => builtinForms content
  | _ => true

def Value.allBuiltinForms : List Value → Bool
  | [] => true
  | v :: vs => builtinForms v && allBuiltinForms vs

end

theorem Value.allBuiltinForms_iff {vs : List Value} :
    allBuiltinForms vs = true ↔ ∀ v ∈ vs, v.builtinForms = true := by
  induction vs with
  | nil => simp [allBuiltinForms]
  | cons v vs ih => rw [allBuiltinForms, Bool.and_eq_true, ih, List.forall_mem_cons]

/-- Whether names stand only for values whose forms are builtin ones. -/
def Scope.BuiltinForms (s : Scope) : Prop :=
  ∀ name v, s.lookup? name = some v → v.builtinForms = true

/-- The notes that calls of a host's functions leave one after the other, if no form of the host is passed. -/
inductive Host.Remembers (host : Host) : List Call → Prop
  | start : Remembers host []
  | call {calls : List Call} {vs : List Value} (name : String) : Remembers host calls →
      (∀ v ∈ vs, v.builtinForms = true) → Remembers host (calls ++ (host.call calls name vs).1)

/-- Whether the functions of a host return none of its forms as long as they are passed none. -/
def Host.BuiltinForms (host : Host) : Prop :=
  ∀ calls name vs r, host.Remembers calls → (∀ v ∈ vs, v.builtinForms = true) →
    (host.call calls name vs).2 = .ok r → r.builtinForms = true

theorem Scope.builtinForms_of_all {s : Scope}
    (h : (s.frames.all fun f => f.bindings.all (·.2.builtinForms)) = true) : s.BuiltinForms := by
  intro name v hv
  obtain ⟨f, hf, hlookup⟩ := Option.bind_eq_some_iff.1 hv
  obtain ⟨b, hb, rfl⟩ := Option.map_eq_some_iff.1 hlookup
  have hframe := List.all_eq_true.1 h f (List.mem_of_find?_eq_some hf)
  exact List.all_eq_true.1 hframe b (List.mem_of_find?_eq_some hb)

theorem Scope.builtinForms_of_resolveValue {s : Scope} {name v : Value} (hs : s.BuiltinForms)
    (h : s.resolveValue name = .ok v) : v.builtinForms = true := by
  unfold resolveValue at h
  split at h
  · next text =>
      unfold resolve at h
      split at h
      · next found =>
          obtain rfl := Except.ok.inj h
          exact hs text _ found
      · cases h
  · split at h <;> cases h

/-! ## Builtin functions -/

/-- Whether a value is no node, no sequence and nothing that can be called. -/
def Value.isPlain : Value → Bool
  | .list _ | .tuple _ | .token _ _ | .function _ | .form _ => false
  | _ => true

/-- Classes that hold all plain values, and a sequence exactly if they hold its items. -/
structure Value.Closed (good : Value → Prop) : Prop where
  plain {v : Value} : v.isPlain = true → good v
  list_iff {vs : List Value} : good (.list vs) ↔ ∀ v ∈ vs, good v
  tuple_iff {vs : List Value} : good (.tuple vs) ↔ ∀ v ∈ vs, good v

theorem Value.builtinForms_closed : Closed (·.builtinForms = true) where
  plain {v} h := by
    cases v with
    | list | tuple | token | function | form => cases h
    | _ => rfl
  list_iff := allBuiltinForms_iff
  tuple_iff := allBuiltinForms_iff

namespace Builtin

theorem isPlain_toValue (a : Number) : a.toValue.isPlain = true := by
  cases a <;> rfl

theorem isPlain_of_map {α : Type} {e : Except Fault α} {f : α → Value} {r : Value}
    (hf : ∀ a, (f a).isPlain = true) (h : e.map f = .ok r) : r.isPlain = true := by
  obtain ⟨a, -, rfl⟩ := map_eq_ok_iff.1 h
  exact hf a

theorem isPlain_of_mapText {function : Builtin} {f : List Char → List Char} {v r : Value}
    (h : mapText function f v = .ok r) : r.isPlain = true := by
  unfold mapText at h
  split at h
  · obtain rfl := Except.ok.inj h
    rfl
  · cases h

theorem isPlain_of_numbers {function : Builtin} {operation : Number → Number → Except Fault Number}
    {v w r : Value} (h : applyToNumbers function operation v w = .ok r) : r.isPlain = true := by
  unfold applyToNumbers at h
  split at h
  · exact isPlain_of_map isPlain_toValue h
  · cases h

theorem isPlain_of_arithmetic {op : Arithmetic} {vs : List Value} {r : Value}
    (h : applyArithmetic op vs = .ok r) : r.isPlain = true := by
  unfold applyArithmetic at h
  split at h
  · cases h
  · exact isPlain_of_map isPlain_toValue h
  · cases h

theorem extremeAfter_mem {e : Extreme} {best r : Value} {vs : List Value} (h : extremeAfter e best vs = .ok r) :
    r ∈ best :: vs := by
  induction vs generalizing best with
  | nil =>
      obtain rfl := Except.ok.inj h
      exact List.mem_cons_self
  | cons v vs ih =>
      simp only [extremeAfter] at h
      split at h
      · cases h
      · next c _ =>
          have hr := ih h
          by_cases hbeats : (beats e).holds c = true
          · rw [if_pos hbeats] at hr
            exact List.mem_cons_of_mem _ hr
          · rw [if_neg hbeats] at hr
            rcases List.mem_cons.1 hr with rfl | hr
            · exact List.mem_cons_self
            · exact List.mem_cons_of_mem _ (List.mem_cons_of_mem _ hr)

theorem extremeOf_mem {e : Extreme} {r : Value} {vs : List Value} (h : extremeOf e vs = .ok r) :
    r = .nil ∨ r ∈ vs := by
  unfold extremeOf at h
  split at h
  · exact .inl (Except.ok.inj h).symm
  · obtain rfl := Except.ok.inj h
    exact .inr List.mem_cons_self
  · split at h
    · cases h
    · exact .inr (extremeAfter_mem h)

section
variable {good : Value → Prop} (hgood : Value.Closed good)
include hgood

theorem closed_items {v : Value} {items : List Value} (hv : good v) (h : items? v = some items) :
    ∀ item ∈ items, good item := by
  unfold items? at h
  split at h
  · obtain rfl := Option.some.inj h
    exact hgood.list_iff.1 hv
  · obtain rfl := Option.some.inj h
    exact hgood.tuple_iff.1 hv
  · obtain rfl := Option.some.inj h
    intro item hitem
    obtain ⟨c, -, rfl⟩ := List.mem_map.1 hitem
    exact hgood.plain rfl
  · cases h

/-- A result that is made from the items of an argument. -/
theorem closed_of_items {function : Builtin} {v r : Value} {k : List Value → Except Fault Value} (hv : good v)
    (hk : ∀ items, (∀ item ∈ items, good item) → k items = .ok r → good r)
    (h : (do k (← requireItems function v)) = .ok r) : good r := by
  unfold requireItems at h
  split at h
  · next items hitems => exact hk items (closed_items hgood hv hitems) h
  · cases h

theorem closed_getD {v? : Option Value} (h : ∀ v ∈ v?, good v) : good (v?.getD .nil) := by
  cases v? with
  | none => exact hgood.plain rfl
  | some v => exact h v rfl

/-- What a builtin function returns is made of plain values and of what its arguments hold. -/
theorem apply_closed {b : Builtin} {vs : List Value} {r : Value} (hvs : ∀ v ∈ vs, good v) (h : b.apply vs = .ok r) :
    good r := by
  unfold apply at h
  -- the cases follow the order of the functions in the definition, wrong numbers of arguments come last
  split at h
  · obtain rfl := Except.ok.inj h
    exact hgood.list_iff.2 hvs
  · unfold join at h
    split at h
    · obtain rfl := Except.ok.inj h
      exact hgood.plain rfl
    · cases h
  · exact hgood.plain (isPlain_of_arithmetic h)
  · obtain rfl := Except.ok.inj h
    exact hvs _ List.mem_cons_self
  · obtain rfl := Except.ok.inj h
    exact hgood.plain rfl
  · exact hgood.plain (isPlain_of_map (fun _ => rfl) h)
  · obtain rfl := Except.ok.inj h
    exact hgood.plain rfl
  · obtain rfl := Except.ok.inj h
    exact hgood.plain rfl
  · exact hgood.plain (isPlain_of_numbers h)
  · exact hgood.plain (isPlain_of_numbers h)
  · exact hgood.plain (isPlain_of_map (fun _ => rfl) h)
  · refine closed_of_items hgood (hvs _ List.mem_cons_self) (fun items hitems hr => ?_) h
    rcases extremeOf_mem hr with rfl | hmem
    · exact hgood.plain rfl
    · exact hitems r hmem
  · refine closed_of_items hgood (hvs _ List.mem_cons_self) (fun items hitems hr => ?_) h
    obtain rfl := Except.ok.inj hr
    exact closed_getD hgood fun v hv => hitems v (List.mem_of_mem_head? hv)
  · refine closed_of_items hgood (hvs _ List.mem_cons_self) (fun items hitems hr => ?_) h
    obtain rfl := Except.ok.inj hr
    exact closed_getD hgood fun v hv => hitems v (List.mem_of_getLast? hv)
  · refine closed_of_items hgood (hvs _ List.mem_cons_self) (fun items hitems hr => ?_) h
    obtain rfl := Except.ok.inj hr
    exact hgood.plain rfl
  · exact hgood.plain (isPlain_of_map (fun _ => rfl) h)
  · exact hgood.plain (isPlain_of_map (fun _ => rfl) h)
  · exact hgood.plain (isPlain_of_mapText h)
  · exact hgood.plain (isPlain_of_mapText h)
  · cases h

end

/-- What a builtin function returns holds no form that its arguments do not hold. -/
theorem apply_builtinForms {b : Builtin} {vs : List Value} {r : Value} (hvs : ∀ v ∈ vs, v.builtinForms = true)
    (h : b.apply vs = .ok r) : r.builtinForms = true :=
  apply_closed Value.builtinForms_closed hvs h

end Builtin

/-! ## What builtin forms do -/

/-- The names of constants that stand for a form without a chosen operand. -/
def IsConstant (node : Value) : Prop := ∃ name ∈ ["nil", "true", "false"], node = .reference name

/-- Whether a plan only tests nodes of a list in turn, each at most once, and ends in a node of some class. -/
inductive Plan.Selects (chosen : Value → Prop) : List Value → Plan → Prop
  | expand {operands : List Value} {node : Value} : chosen node → Selects chosen operands (.expand node)
  | fail {operands : List Value} (f : Fault) : Selects chosen operands (.fail f)
  | test {node : Value} {operands : List Value} {next : Bool → Plan} :
      (∀ holds, Selects chosen operands (next holds)) → Selects chosen (node :: operands) (.test node next)
  | skip {node : Value} {operands : List Value} {p : Plan} : Selects chosen operands p →
      Selects chosen (node :: operands) p

section
variable {chosen : Value → Prop} {operands : List Value} (hconstant : ∀ node, IsConstant node → chosen node)
variable (h : ∀ node ∈ operands, chosen node)
include hconstant h

theorem Plan.selects_conditional : Selects chosen operands (conditional operands) := by
  unfold conditional
  split
  · next condition yes =>
      refine .test fun holds => .expand ?_
      cases holds with
      | true => exact h _ (by simp)
      | false => exact hconstant _ ⟨"nil", by simp, rfl⟩
  · next condition yes no =>
      refine .test fun holds => .expand ?_
      cases holds with
      | true => exact h _ (by simp)
      | false => exact h _ (by simp)
  · exact .fail _

theorem Plan.selects_casesFrom : Selects chosen operands (casesFrom operands) := by
  fun_induction casesFrom operands with
  | case1 => exact .expand (hconstant _ ⟨"nil", by simp, rfl⟩)
  | case2 default => exact .expand (h _ (by simp))
  | case3 condition result rest ih =>
      refine .test fun holds => ?_
      cases holds with
      | true => exact .expand (h _ (by simp))
      | false => exact .skip (ih fun node hnode => h node (by simp [hnode]))

theorem Plan.selects_conjunction : Selects chosen operands (conjunction operands) := by
  fun_induction conjunction operands with
  | case1 => exact .expand (hconstant _ ⟨"true", by simp, rfl⟩)
  | case2 last =>
      refine .test fun holds => .expand ?_
      cases holds with
      | true => exact h _ (by simp)
      | false => exact hconstant _ ⟨"false", by simp, rfl⟩
  | case3 operand rest _ ih =>
      refine .test fun holds => ?_
      cases holds with
      | true => exact ih fun node hnode => h node (by simp [hnode])
      | false => exact .expand (hconstant _ ⟨"false", by simp, rfl⟩)

theorem Plan.selects_disjunction : Selects chosen operands (disjunction operands) := by
  fun_induction disjunction operands with
  | case1 => exact .expand (hconstant _ ⟨"false", by simp, rfl⟩)
  | case2 operand rest ih =>
      refine .test fun holds => ?_
      cases holds with
      | true => exact .expand (h _ (by simp))
      | false => exact ih fun node hnode => h node (by simp [hnode])

end

/-- A builtin form tests operands and chooses an operand or the name of a constant. -/
theorem Host.planOf_selects (host : Host) {f : Form} (hf : (Value.form f).builtinForms = true)
    (operands : List Value) : (host.planOf f operands).Selects (fun node => IsConstant node ∨ node ∈ operands) operands := by
  have hconstant : ∀ node, IsConstant node → IsConstant node ∨ node ∈ operands := fun _ => .inl
  have hoperand : ∀ node ∈ operands, IsConstant node ∨ node ∈ operands := fun _ => .inr
  cases f with
  | conditional => exact Plan.selects_conditional hconstant hoperand
  | cases =>
      simp only [planOf, Plan.cases]
      split
      · exact .fail _
      · exact Plan.selects_casesFrom hconstant hoperand
  | conjunction => exact Plan.selects_conjunction hconstant hoperand
  | disjunction => exact Plan.selects_disjunction hconstant hoperand
  | host name => cases hf

end RuleExpr
