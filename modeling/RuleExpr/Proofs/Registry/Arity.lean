import RuleExpr.Proofs.Evaluation.Constants
import RuleExpr.Proofs.Evaluation.Termination

/-!
# Numbers of arguments

Every function of the registry takes certain numbers of arguments. Any other number is refused before an argument is
looked at, and a number that is taken is never what a call fails for. What the refusal is depends on the function
(`wrong_counts_are_refused`): the functions that fold over their arguments name it as a fault of arguments in words of
their own, and those of a fixed number of arguments do not.
-/
namespace RuleExpr
open Eval

/-- The numbers of arguments that a function takes. -/
inductive Arity where
  | exactly (n : Nat)
  | atLeast (n : Nat)
deriving DecidableEq, Repr

def Arity.Takes : Arity → Nat → Prop
  | exactly n, k => k = n
  | atLeast n, k => n ≤ k

instance (a : Arity) (k : Nat) : Decidable (a.Takes k) :=
  match a with
  | .exactly n => inferInstanceAs (Decidable (k = n))
  | .atLeast n => inferInstanceAs (Decidable (n ≤ k))

def Builtin.arity : Builtin → Arity
  | array | str => .atLeast 0
  | arithmetic _ => .atLeast 1
  | relation _ | equal | notEqual | divide | modulo => .exactly 2
  | identity | not | round _ | extreme _ | first | last | length | toInteger | toFloat | upcase | downcase => .exactly 1

namespace Function

/-- A function of a host counts its arguments itself. -/
def arity : Function → Arity
  | builtin b => b.arity
  | now | random => .exactly 0
  | host _ => .atLeast 0

/-- The fault of a number of arguments that the function does not take. -/
def countFault : Function → Fault
  | builtin (.arithmetic op) => .noArguments (.arithmetic op)
  | _ => .argumentCount

end Function

namespace Fault

/-- Whether the library reports the fault as one of the number or the shape of arguments. -/
def isOfArguments : Fault → Bool
  | conditionalOperands | caseOperands | noArguments _ => true
  | _ => false

/-- Whether the fault is about the number of arguments of a function, however it is reported. -/
def isOfCount : Fault → Bool
  | noArguments _ | argumentCount => true
  | _ => false

theorem isOfCount_reported {f : Fault} (h : f.isOfCount = false) : f.reported.isOfCount = false := by
  unfold reported
  split
  · exact h
  · rfl

end Fault

/-! ## Results that are not about the number of arguments -/

/-- Whether a result is no fault about the number of arguments. -/
def SparesCount {α : Type} (e : Except Fault α) : Prop := ∀ f, e = .error f → f.isOfCount = false

section
variable {α β : Type} {e : Except Fault α}

theorem sparesCount_ok (a : α) : SparesCount (.ok a) := nofun

theorem sparesCount_error {f : Fault} (h : f.isOfCount = false) : SparesCount (.error f : Except Fault α) := by
  intro g hg
  rwa [← Except.error.inj hg]

theorem sparesCount_unless {p : Prop} [Decidable p] {f : Fault} {a : α} (h : f.isOfCount = false) :
    SparesCount (if p then .error f else .ok a) := by
  split
  · exact sparesCount_error h
  · exact sparesCount_ok a

theorem SparesCount.bind {k : α → Except Fault β} (h : SparesCount e) (hk : ∀ a, SparesCount (k a)) :
    SparesCount (e >>= k) := by
  cases e with
  | error f => exact sparesCount_error (h f rfl)
  | ok a => exact hk a

theorem SparesCount.map (h : SparesCount e) (k : α → β) : SparesCount (e.map k) := by
  intro f hf
  exact h f (map_eq_error_iff.1 hf)

end

namespace Number

theorem sparesCount_toBinary64 (a : Number) : SparesCount a.toBinary64 := by
  fun_cases toBinary64 a with
  | case1 | case2 => exact sparesCount_ok _
  | case3 => exact sparesCount_error rfl

theorem sparesCount_combine {onInts : Int → Int → Except Fault Int}
    {onFloats : Binary64 → Binary64 → Except Fault Binary64} (hints : ∀ a b, SparesCount (onInts a b))
    (hfloats : ∀ x y, SparesCount (onFloats x y)) (a b : Number) : SparesCount (combine onInts onFloats a b) := by
  unfold combine
  split
  · exact (hints _ _).map _
  · refine (sparesCount_toBinary64 _).bind fun x => (sparesCount_toBinary64 _).bind fun y => ?_
    exact (hfloats x y).bind fun _ => sparesCount_ok _

theorem sparesCount_divide (a b : Number) : SparesCount (divide a b) :=
  sparesCount_combine (fun _ _ => sparesCount_unless rfl) (fun _ _ => sparesCount_unless rfl) a b

theorem sparesCount_modulo (a b : Number) : SparesCount (modulo a b) :=
  sparesCount_combine (fun _ _ => sparesCount_unless rfl) (fun _ _ => sparesCount_unless rfl) a b

theorem sparesCount_foldArithmetic (op : Arithmetic) (a : Number) (rest : List Number) :
    SparesCount (foldArithmetic op a rest) := by
  induction rest generalizing a with
  | nil => exact sparesCount_ok a
  | cons b rest ih =>
      have hstep : SparesCount (arithmetic op a b) :=
        sparesCount_combine (fun _ _ => sparesCount_ok _) (fun _ _ => sparesCount_ok _) a b
      unfold foldArithmetic
      split
      · next f hf => exact sparesCount_error (hstep f hf)
      · exact ih _

theorem sparesCount_roundHalfAway (u : Int) : SparesCount (roundHalfAway u) := by
  unfold roundHalfAway
  split
  · exact sparesCount_ok _
  · split
    · exact sparesCount_ok _
    · exact sparesCount_error rfl

theorem sparesCount_roundUnits (r : Rounding) (u : Int) : SparesCount (roundUnits r u) := by
  cases r with
  | floor | ceiling => exact sparesCount_ok _
  | nearest => exact sparesCount_roundHalfAway u

theorem sparesCount_toInteger {function : Builtin} {ofUnits : Int → Except Fault Int}
    (h : ∀ u, SparesCount (ofUnits u)) (v : Value) : SparesCount (toInteger function ofUnits v) := by
  have hfinite : SparesCount (finite function v) := by
    unfold finite
    split
    · exact sparesCount_ok _
    · split
      · exact sparesCount_ok _
      · exact sparesCount_error (Fault.isOfCount_reported rfl)
    · exact sparesCount_error (Fault.isOfCount_reported rfl)
  unfold toInteger
  split
  · exact sparesCount_ok _
  · exact h _
  · next f hf => exact sparesCount_error (hfinite f hf)

end Number

namespace Builtin

theorem sparesCount_applyArithmetic (op : Arithmetic) (v : Value) (vs : List Value) :
    SparesCount (applyArithmetic op (v :: vs)) := by
  unfold applyArithmetic
  split
  · next hnil =>
      rw [List.mapM_cons] at hnil
      simp [Option.bind_eq_some_iff] at hnil
  · exact (Number.sparesCount_foldArithmetic _ _ _).map _
  · exact sparesCount_error rfl

theorem sparesCount_applyToNumbers {function : Builtin} {operation : Number → Number → Except Fault Number}
    (h : ∀ a b, SparesCount (operation a b)) (v w : Value) : SparesCount (applyToNumbers function operation v w) := by
  unfold applyToNumbers
  split
  · exact (h _ _).map _
  · exact sparesCount_error rfl

theorem sparesCount_applyRelation (r : Relation) (v w : Value) : SparesCount (applyRelation r v w) := by
  unfold applyRelation
  split
  · exact sparesCount_error (Fault.isOfCount_reported rfl)
  · split
    · exact sparesCount_ok _
    · exact sparesCount_error (Fault.isOfCount_reported rfl)

theorem sparesCount_requireItems (function : Builtin) (v : Value) : SparesCount (requireItems function v) := by
  unfold requireItems
  split
  · exact sparesCount_ok _
  · exact sparesCount_error (Fault.isOfCount_reported rfl)

theorem sparesCount_extremeAfter (e : Extreme) (best : Value) (vs : List Value) :
    SparesCount (extremeAfter e best vs) := by
  induction vs generalizing best with
  | nil => exact sparesCount_ok best
  | cons v vs ih =>
      unfold extremeAfter
      split
      · exact sparesCount_error rfl
      · exact ih _

theorem sparesCount_extremeOf (e : Extreme) (vs : List Value) : SparesCount (extremeOf e vs) := by
  unfold extremeOf
  split
  · exact sparesCount_ok _
  · exact sparesCount_ok _
  · split
    · exact sparesCount_error rfl
    · exact sparesCount_extremeAfter e _ _

theorem sparesCount_integerOf (v : Value) : SparesCount (integerOf v) := by
  unfold integerOf
  split
  · exact sparesCount_ok _
  · split
    · exact sparesCount_ok _
    · split
      · exact sparesCount_ok _
      · next flaw _ => cases flaw <;> exact sparesCount_error rfl
  · exact Number.sparesCount_toInteger (fun _ => sparesCount_ok _) _

theorem sparesCount_floatOf (v : Value) : SparesCount (floatOf v) := by
  unfold floatOf
  split
  · exact sparesCount_ok _
  · split
    · exact sparesCount_ok _
    · split
      · exact sparesCount_ok _
      · exact sparesCount_error rfl
  · split
    · exact Number.sparesCount_toBinary64 _
    · exact sparesCount_error (Fault.isOfCount_reported rfl)

theorem sparesCount_mapText (function : Builtin) (f : List Char → List Char) (v : Value) :
    SparesCount (mapText function f v) := by
  unfold mapText
  split
  · exact sparesCount_ok _
  · exact sparesCount_error (Fault.isOfCount_reported rfl)

theorem sparesCount_join (vs : List Value) : SparesCount (join vs) := by
  unfold join
  split
  · exact sparesCount_ok _
  · exact sparesCount_error rfl

/-- A call with a number of arguments that the function takes does not fail for their number. -/
theorem sparesCount_apply {b : Builtin} {vs : List Value} (h : b.arity.Takes vs.length) : SparesCount (b.apply vs) := by
  cases b with
  | array => exact sparesCount_ok _
  | str => exact sparesCount_join vs
  | arithmetic op =>
      obtain ⟨v, rest, rfl⟩ := List.exists_cons_of_length_pos h
      exact sparesCount_applyArithmetic op v rest
  | relation r =>
      obtain ⟨v, w, rfl⟩ := List.length_eq_two.1 h
      exact (sparesCount_applyRelation r v w).map _
  | equal | notEqual =>
      obtain ⟨v, w, rfl⟩ := List.length_eq_two.1 h
      exact sparesCount_ok _
  | divide =>
      obtain ⟨v, w, rfl⟩ := List.length_eq_two.1 h
      exact sparesCount_applyToNumbers Number.sparesCount_divide v w
  | modulo =>
      obtain ⟨v, w, rfl⟩ := List.length_eq_two.1 h
      exact sparesCount_applyToNumbers Number.sparesCount_modulo v w
  | identity | not =>
      obtain ⟨v, rfl⟩ := List.length_eq_one_iff.1 h
      exact sparesCount_ok _
  | round r =>
      obtain ⟨v, rfl⟩ := List.length_eq_one_iff.1 h
      exact (Number.sparesCount_toInteger (Number.sparesCount_roundUnits r) v).map _
  | extreme e =>
      obtain ⟨v, rfl⟩ := List.length_eq_one_iff.1 h
      exact (sparesCount_requireItems _ v).bind (sparesCount_extremeOf e)
  | first | last | length =>
      obtain ⟨v, rfl⟩ := List.length_eq_one_iff.1 h
      exact (sparesCount_requireItems _ v).bind fun _ => sparesCount_ok _
  | toInteger =>
      obtain ⟨v, rfl⟩ := List.length_eq_one_iff.1 h
      exact (sparesCount_integerOf v).map _
  | toFloat =>
      obtain ⟨v, rfl⟩ := List.length_eq_one_iff.1 h
      exact (sparesCount_floatOf v).map _
  | upcase | downcase =>
      obtain ⟨v, rfl⟩ := List.length_eq_one_iff.1 h
      exact sparesCount_mapText _ _ v

/-- A number of arguments that a function does not take is refused, whatever the arguments are. -/
theorem apply_of_not_takes {b : Builtin} {vs : List Value} (h : ¬ b.arity.Takes vs.length) :
    b.apply vs = .error (Function.builtin b).countFault := by
  cases b with
  | array | str => exact absurd (Nat.zero_le _) h
  | arithmetic op =>
      cases vs with
      | nil => rfl
      | cons v vs => exact absurd (Nat.succ_pos _) h
  | relation | equal | notEqual | divide | modulo =>
      rcases vs with _ | ⟨v, _ | ⟨w, _ | ⟨u, vs⟩⟩⟩
      · rfl
      · rfl
      · exact absurd rfl h
      · rfl
  | identity | not | round | extreme | first | last | length | toInteger | toFloat | upcase | downcase =>
      rcases vs with _ | ⟨v, _ | ⟨w, vs⟩⟩
      · rfl
      · exact absurd rfl h
      · rfl

end Builtin

/-! ## Calls -/

namespace Function
variable (f : Function)

theorem isOfArguments_countFault_iff :
    f.countFault.isOfArguments = true ↔ ∃ op, f = .builtin (.arithmetic op) := by
  fun_cases countFault f with
  | case1 op => exact iff_of_true rfl ⟨op, rfl⟩
  | case2 _ hother =>
      refine iff_of_false nofun ?_
      rintro ⟨op, hop⟩
      exact hother op hop

theorem isOfArguments_countFault_or : f.countFault.isOfArguments = true ∨ f.countFault = .argumentCount := by
  fun_cases countFault f with
  | case1 op => exact .inl rfl
  | case2 => exact .inr rfl

end Function

theorem Registry.not_host {name : String} {f : Function} (h : defaults.lookup? name = some (.function f))
    (reason : String) : f ≠ .host reason := by
  have hall : ∀ b ∈ defaults.bindings, b.2 ∈ (forms ++ constants ++ functions).map (·.2) := by decide +kernel
  rintro rfl
  obtain ⟨b, hb, hvalue⟩ := Option.map_eq_some_iff.1 h
  have hown := hall b (List.mem_of_find?_eq_some hb)
  rw [hvalue] at hown
  simp [forms, constants, functions, builtins] at hown

section
variable {host : Host} {f : Function} {vs : List Value}

theorem applyFunction_of_not_takes (h : ¬ f.arity.Takes vs.length) :
    applyFunction host f vs = Eval.fault f.countFault := by
  cases f with
  | builtin b => rw [applyFunction, Builtin.apply_of_not_takes h, Eval.ofExcept]
  | now | random =>
      cases vs with
      | nil => exact absurd rfl h
      | cons v vs => rfl
  | host name => exact absurd (Nat.zero_le _) h

theorem sparesCount_applyFunction (hhost : ∀ name, f ≠ .host name) (h : f.arity.Takes vs.length) {m : Machine}
    {fault : Fault} (hfault : (applyFunction host f vs m).1 = .error (.fault fault)) : fault.isOfCount = false := by
  cases f with
  | builtin b =>
      have hspares := Builtin.sparesCount_apply h
      rw [applyFunction] at hfault
      cases hresult : b.apply vs with
      | ok v =>
          rw [hresult] at hfault
          cases hfault
      | error g =>
          rw [hresult] at hfault
          cases hfault
          exact hspares _ hresult
  | now | random =>
      obtain rfl := List.length_eq_zero_iff.1 h
      cases hfault
  | host name => exact absurd rfl (hhost name)

end

/-- A call of a function of the registry does not fail for the number of its arguments if the function takes so many.
Otherwise it fails for nothing else, called directly or by a rule, and no argument is looked at. The fault is reported as
one of arguments by the functions that fold over their arguments, and by no other one. -/
theorem wrong_counts_are_refused (host : Host) {name : String} {f : Function}
    (hname : Registry.defaults.lookup? name = some (.function f)) (vs : List Value) :
    (f.arity.Takes vs.length → ∀ m fault, (applyFunction host f vs m).1 = .error (.fault fault) →
      fault.isOfCount = false) ∧
    (¬ f.arity.Takes vs.length →
      (∀ m, applyFunction host f vs m = (.error (.fault f.countFault), m)) ∧
      (∀ ceiling fuel head operands m m₁ m₂, eval host ceiling fuel head m.counted = (.ok (.function f), m₁) →
        evalItems (eval host ceiling fuel) operands m₁ = (.ok vs, m₂) →
        eval host ceiling (fuel + 1) (.tuple (head :: operands)) m = (.error (.fault f.countFault), m₂)) ∧
      (f.countFault.isOfArguments = true ↔ ∃ op, f = .builtin (.arithmetic op)) ∧
      (f.countFault.isOfArguments = true ∨ f.countFault = .argumentCount)) := by
  constructor
  · intro htakes m fault hfault
    exact sparesCount_applyFunction (Registry.not_host hname) htakes hfault
  · intro hcount
    have hcall (m : Machine) : applyFunction host f vs m = (.error (.fault f.countFault), m) := by
      rw [applyFunction_of_not_takes hcount]
      rfl
    refine ⟨hcall, ?_, f.isOfArguments_countFault_iff, f.isOfArguments_countFault_or⟩
    intro ceiling fuel head operands m m₁ m₂ hhead hoperands
    rw [eval_functionCall hhead hoperands, bind_apply, hcall]

/-- Two operands in place of one: both are evaluated, and then the call is refused. -/
theorem wrong_counts_are_refused_of_two :
    let m : Machine := .start ⟨[Registry.defaults]⟩
    eval .listing none 2 (.tuple [.reference "floor", .reference "nil", .reference "nil"]) m =
      (.error (.fault .argumentCount), m.countedBy 4) := by
  intro m
  have hname : Registry.defaults.lookup? "floor" = some (.function (.builtin (.round .floor))) := by decide +kernel
  have hcount : ¬ (Function.builtin (.round .floor)).arity.Takes [Value.nil, .nil].length := by decide
  have hhead : eval .listing none 1 (.reference "floor") m.counted =
      (.ok (.function (.builtin (.round .floor))), m.countedBy 2) := by decide +kernel
  have hoperands : evalItems (eval .listing none 1) [.reference "nil", .reference "nil"] (m.countedBy 2) =
      (.ok [.nil, .nil], m.countedBy 4) := by decide +kernel
  exact ((wrong_counts_are_refused .listing hname _).2 hcount).2.1 _ _ _ _ _ _ _ hhead hoperands

/-- The first item of no sequence is asked for: the function takes one argument, and the fault is not one of
arguments. -/
theorem missing_argument_is_not_reported :
    Registry.defaults.lookup? "first" = some (.function (.builtin .first)) ∧
      ¬ (Function.builtin .first).arity.Takes 0 ∧ Builtin.first.apply [] = .error .argumentCount ∧
      Fault.argumentCount.isOfArguments = false ∧
      ∃ i, Interpreter.new [] none = .ok i ∧
        (i.run .listing (some "(first)") []).1 = .error (.fault .argumentCount) := by
  refine ⟨by decide +kernel, by decide, rfl, rfl, ⟨Registry.defaults.overlay ⟨[]⟩, none⟩, ?_, ?_⟩
  · decide +kernel
  · decide +kernel

end RuleExpr
