import RuleExpr.Proofs.Evaluation.Termination

/-!
# Operands that are neither tested nor chosen

A builtin form tests some of its operands in turn and chooses at most one. Which ones it uses depends on the outcomes
of the tests alone (`Form.Uses`): a conditional never uses the branch that is not taken, a case distinction no result
but the one behind the first condition that holds and nothing behind that result, a conjunction nothing behind the
first operand that does not hold, and a disjunction nothing behind the first one that does. Whatever stands at the
other places has no part in the evaluation (`unused_operands_do_not_matter`), whether it would fail, go on for ever or
call the host. Forms of a host may use all their operands.
-/
namespace RuleExpr
open Eval

/-- Nodes that are tested in turn, each with the same outcome, from one machine to another. -/
inductive Eval.TestsTo (test : Value → Eval Bool) (holds : Bool) : List Value → Machine → Machine → Prop
  | nil (m : Machine) : TestsTo test holds [] m m
  | cons {node : Value} {nodes : List Value} {m m' last : Machine} : test node m = (.ok holds, m') →
      TestsTo test holds nodes m' last → TestsTo test holds (node :: nodes) m last

/-- The first nodes of the pairs in a list. -/
def Value.conditions : List Value → List Value
  | condition :: _ :: rest => condition :: conditions rest
  | _ => []

/-- Whether a case distinction comes to the operand at a place: to a condition or to the default if no condition in
front of it holds, and to a result if moreover the condition of its own pair holds. -/
def Plan.ComesTo (test : Value → Eval Bool) (operands : List Value) (m : Machine) (place : Nat) : Prop :=
  ∃ m', TestsTo test false (Value.conditions (operands.take place)) m m' ∧
    (place % 2 = 1 → ∃ condition ∈ operands[place - 1]?, (test condition m').1 = .ok true)

/-- Whether a form that is called in a machine tests or chooses the operand at a place. A conditional tests the first
operand and chooses the second or the third one. A conjunction comes to an operand if all operands in front of it hold,
a disjunction if none does. With a wrong number of operands none is used. -/
def Form.Uses (test : Value → Eval Bool) (f : Form) (operands : List Value) (m : Machine) (place : Nat) : Prop :=
  match f with
  | .conditional => (operands.length = 2 ∨ operands.length = 3) ∧
      (place = 0 ∨ ∃ condition ∈ operands.head?, ∃ holds m', test condition m = (.ok holds, m') ∧
        place = if holds then 1 else 2)
  | .cases => 3 ≤ operands.length ∧ Plan.ComesTo test operands m place
  | .conjunction => ∃ m', TestsTo test true (operands.take place) m m'
  | .disjunction => ∃ m', TestsTo test false (operands.take place) m m'
  | .host _ => True

/-- Whether two lists of operands are of one length and have the same operands at the places of some class. -/
structure AgreeAt (used : Nat → Prop) (others operands : List Value) : Prop where
  length : others.length = operands.length
  same (place : Nat) : used place → others[place]? = operands[place]?

namespace AgreeAt
variable {used used' : Nat → Prop} {others operands : List Value} {operand : Value}

theorem mono (h : AgreeAt used others operands) (hmore : ∀ place, used' place → used place) :
    AgreeAt used' others operands :=
  ⟨h.length, fun place hplace => h.same place (hmore place hplace)⟩

theorem nil (h : AgreeAt used others []) : others = [] :=
  List.length_eq_zero_iff.1 h.length

theorem cons (h : AgreeAt used others (operand :: operands)) :
    ∃ other rest, others = other :: rest ∧ (used 0 → other = operand) ∧
      AgreeAt (fun place => used (place + 1)) rest operands := by
  cases others with
  | nil => cases h.length
  | cons other rest =>
      refine ⟨other, rest, rfl, fun h0 => ?_, Nat.succ.inj h.length, fun place hplace => ?_⟩
      · exact Option.some.inj (h.same 0 h0)
      · exact h.same (place + 1) hplace

theorem eq_of_forall (h : AgreeAt used others operands) (hall : ∀ place, used place) : others = operands :=
  List.ext_getElem? fun place => h.same place (hall place)

end AgreeAt

/-! ## One form at a time -/

section
variable {visit : Value → Eval Value} {m : Machine} {others operands : List Value}

theorem Plan.run_test_congr {node : Value} {next next' : Bool → Plan}
    (h : ∀ holds m', truth (visit node) m = (.ok holds, m') →
      (next holds).run visit m' = (next' holds).run visit m') :
    (Plan.test node next).run visit m = (Plan.test node next').run visit m := by
  simp only [run, bind_apply]
  rcases htest : truth (visit node) m with ⟨e | holds, m'⟩
  · rfl
  · exact h holds m' htest

variable (visit)

theorem Plan.run_conditional_congr
    (h : AgreeAt (Form.Uses (fun node => truth (visit node)) .conditional operands m) others operands) :
    (conditional others).run visit m = (conditional operands).run visit m := by
  match operands, h with
  | [], h => rw [h.nil]
  | [_], h =>
      obtain ⟨_, _, rfl, -, h⟩ := h.cons
      rw [h.nil]
      rfl
  | [condition, yes], h =>
      obtain ⟨_, _, rfl, hcondition, h⟩ := h.cons
      obtain ⟨_, _, rfl, hyes, h⟩ := h.cons
      obtain rfl := hcondition ⟨.inl rfl, .inl rfl⟩
      rw [h.nil]
      refine run_test_congr fun holds m' htest => ?_
      cases holds with
      | true => rw [hyes ⟨.inl rfl, .inr ⟨_, rfl, true, m', htest, rfl⟩⟩]
      | false => rfl
  | [condition, yes, no], h =>
      obtain ⟨_, _, rfl, hcondition, h⟩ := h.cons
      obtain ⟨_, _, rfl, hyes, h⟩ := h.cons
      obtain ⟨_, _, rfl, hno, h⟩ := h.cons
      obtain rfl := hcondition ⟨.inr rfl, .inl rfl⟩
      rw [h.nil]
      refine run_test_congr fun holds m' htest => ?_
      cases holds with
      | true =>
          rw [hyes ⟨.inr rfl, .inr ⟨_, rfl, true, m', htest, rfl⟩⟩]
          rfl
      | false =>
          rw [hno ⟨.inr rfl, .inr ⟨_, rfl, false, m', htest, rfl⟩⟩]
          rfl
  | _ :: _ :: _ :: _ :: _, h =>
      obtain ⟨_, _, rfl, -, h⟩ := h.cons
      obtain ⟨_, _, rfl, -, h⟩ := h.cons
      obtain ⟨_, _, rfl, -, h⟩ := h.cons
      obtain ⟨_, _, rfl, -, h⟩ := h.cons
      rfl

theorem Plan.run_casesFrom_congr (h : AgreeAt (ComesTo (fun node => truth (visit node)) operands m) others operands) :
    (casesFrom others).run visit m = (casesFrom operands).run visit m := by
  fun_induction casesFrom operands generalizing others m with
  | case1 => rw [h.nil, casesFrom]
  | case2 default =>
      obtain ⟨_, _, rfl, hdefault, h⟩ := h.cons
      obtain rfl := hdefault ⟨m, .nil m, nofun⟩
      rw [h.nil, casesFrom]
  | case3 condition result rest ih =>
      obtain ⟨_, _, rfl, hcondition, h⟩ := h.cons
      obtain ⟨_, _, rfl, hresult, h⟩ := h.cons
      obtain rfl := hcondition ⟨m, .nil m, nofun⟩
      refine run_test_congr fun holds m' htest => ?_
      cases holds with
      | true =>
          rw [hresult ⟨m, .nil m, fun _ => ⟨_, rfl, congrArg (·.1) htest⟩⟩]
          rfl
      | false =>
          refine ih (h.mono fun place hplace => ?_)
          obtain ⟨last, htests, hholds⟩ := hplace
          refine ⟨last, .cons htest htests, fun hodd => ?_⟩
          obtain ⟨inner, hinner, htrue⟩ := hholds (by omega)
          refine ⟨inner, ?_, htrue⟩
          have hplace : place + 1 + 1 - 1 = place - 1 + 1 + 1 := by omega
          rw [hplace]
          exact hinner

theorem Plan.run_conjunction_congr
    (h : AgreeAt (Form.Uses (fun node => truth (visit node)) .conjunction operands m) others operands) :
    (conjunction others).run visit m = (conjunction operands).run visit m := by
  fun_induction conjunction operands generalizing others m with
  | case1 => rw [h.nil, conjunction]
  | case2 last =>
      obtain ⟨_, _, rfl, hlast, h⟩ := h.cons
      obtain rfl := hlast ⟨m, .nil m⟩
      rw [h.nil, conjunction]
  | case3 operand rest hrest ih =>
      obtain ⟨_, later, rfl, hoperand, h⟩ := h.cons
      obtain rfl := hoperand ⟨m, .nil m⟩
      have hlater : later ≠ [] := by
        rintro rfl
        exact hrest (List.length_eq_zero_iff.1 h.length.symm)
      rw [conjunction.eq_3 _ _ hlater]
      refine run_test_congr fun holds m' htest => ?_
      cases holds with
      | true =>
          refine ih (h.mono fun place hplace => ?_)
          obtain ⟨last, htests⟩ := hplace
          exact ⟨last, .cons htest htests⟩
      | false => rfl

theorem Plan.run_disjunction_congr
    (h : AgreeAt (Form.Uses (fun node => truth (visit node)) .disjunction operands m) others operands) :
    (disjunction others).run visit m = (disjunction operands).run visit m := by
  fun_induction disjunction operands generalizing others m with
  | case1 => rw [h.nil, disjunction]
  | case2 operand rest ih =>
      obtain ⟨_, _, rfl, hoperand, h⟩ := h.cons
      obtain rfl := hoperand ⟨m, .nil m⟩
      refine run_test_congr fun holds m' htest => ?_
      cases holds with
      | true => rfl
      | false =>
          refine ih (h.mono fun place hplace => ?_)
          obtain ⟨last, htests⟩ := hplace
          exact ⟨last, .cons htest htests⟩

/-- A form does the same with operands that agree at the places that it uses. -/
theorem Host.run_planOf_congr (host : Host) {f : Form}
    (h : AgreeAt (f.Uses (fun node => truth (visit node)) operands m) others operands) :
    (host.planOf f others).run visit m = (host.planOf f operands).run visit m := by
  cases f with
  | conditional => exact Plan.run_conditional_congr visit h
  | cases =>
      simp only [planOf, Plan.cases, h.length]
      split
      · rfl
      · next hlength => exact Plan.run_casesFrom_congr visit (h.mono fun place hplace => ⟨by omega, hplace⟩)
  | conjunction => exact Plan.run_conjunction_congr visit h
  | disjunction => exact Plan.run_disjunction_congr visit h
  | host name => rw [h.eq_of_forall fun _ => trivial]

end

/-! ## Calls -/

theorem evalCombination_congr (host : Host) {visit : Value → Eval Value} {head : Value} {f : Form}
    {others operands : List Value} {m m' : Machine} (hhead : visit head m = (.ok (.form f), m'))
    (h : AgreeAt (f.Uses (fun node => truth (visit node)) operands m') others operands) :
    evalCombination host visit head others m = evalCombination host visit head operands m := by
  simp only [evalCombination, bind_apply, hhead, host.run_planOf_congr visit h]

/-- A call of a form is evaluated alike whatever operands stand at the places that it neither tests nor chooses: with
the same value or halt, the same count and the same notes, under every ceiling and with all fuel. -/
theorem unused_operands_do_not_matter (host : Host) (ceiling : Option Int) (fuel : Nat) (m m' : Machine) (head : Value)
    (f : Form) (operands others : List Value) (hhead : eval host ceiling fuel head m.counted = (.ok (.form f), m'))
    (hlength : others.length = operands.length)
    (hused : ∀ place, f.Uses (fun node => truth (eval host ceiling fuel node)) operands m' place →
      others[place]? = operands[place]?) :
    eval host ceiling (fuel + 1) (.tuple (head :: others)) m =
        eval host ceiling (fuel + 1) (.tuple (head :: operands)) m ∧
      eval host ceiling (fuel + 1) (.list (head :: others)) m =
        eval host ceiling (fuel + 1) (.list (head :: operands)) m := by
  have hcombination : evalCombination host (eval host ceiling fuel) head others m.counted =
      evalCombination host (eval host ceiling fuel) head operands m.counted :=
    evalCombination_congr host hhead ⟨hlength, hused⟩
  have hcounted : (countOperation ceiling m).2 = m.counted := countOperation_machine ceiling m
  simp only [eval, bind_apply, evalNode]
  rcases hcount : countOperation ceiling m with ⟨e | _, counted⟩
  · exact ⟨rfl, rfl⟩
  · rw [hcount] at hcounted
    obtain rfl : counted = m.counted := hcounted
    exact ⟨hcombination, hcombination⟩

/-- A call of the host's function with one argument. -/
def Value.pairing (n : Int) : Value := .tuple [.reference "pair", .token .num (.int n)]

/-- A result that is not chosen and a default, both of which would call the host. -/
theorem unused_operands_do_not_matter_default :
    let num (n : Int) : Value := .token .num (.int n)
    let operands : List Value := [.reference "nil", .pairing 1, num 2, num 3, .pairing 4]
    let others : List Value := [.reference "nil", num 7, num 2, num 3, .reference "missing"]
    eval .listing none 3 (.reference "cond") Machine.listing.counted =
        (.ok (.form .cases), Machine.listing.counted.counted) ∧
      eval .listing none 4 (.tuple (.reference "cond" :: others)) .listing =
        eval .listing none 4 (.tuple (.reference "cond" :: operands)) .listing ∧
      (eval .listing none 4 (.tuple (.reference "cond" :: operands)) .listing).1 = .ok (.int 3) := by
  intro num operands others
  have hhead : eval .listing none 3 (.reference "cond") Machine.listing.counted =
      (.ok (.form .cases), Machine.listing.counted.counted) := by decide +kernel
  have hfirst : (truth (eval .listing none 3 (.reference "nil")) Machine.listing.counted.counted).1 = .ok false := by
    decide +kernel
  have hsecond (m : Machine) : (truth (eval .listing none 3 (num 2)) m).1 = .ok true := rfl
  refine ⟨hhead, (unused_operands_do_not_matter .listing none 3 .listing _ _ _ operands others hhead rfl ?_).1,
    by decide +kernel⟩
  rintro place ⟨-, m', htests, hholds⟩
  match place with
  | 0 | 2 | 3 => rfl
  | 1 =>
      obtain ⟨condition, hcondition, htrue⟩ := hholds rfl
      obtain rfl : Value.reference "nil" = condition := Option.some.inj hcondition
      cases htests
      rw [hfirst] at htrue
      cases htrue
  | 4 =>
      obtain _ | ⟨-, htests⟩ := htests
      obtain _ | ⟨htest, -⟩ := htests
      cases (hsecond _).symm.trans (congrArg (·.1) htest)
  | place + 5 => rfl

end RuleExpr
