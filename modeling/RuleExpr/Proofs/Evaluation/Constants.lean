import RuleExpr.Proofs.Evaluation.Selection
import RuleExpr.Proofs.Scope.Merge

/-!
# Forms that come to a constant

Where a builtin form chooses none of its operands, it stands for the name of a constant (`Form.FallsBack`). The name is
looked up like any other one, in the frames that the tests of the form have left. So the form has the value of the
constant exactly if the name has it there (`constants_are_looked_up`). In a call of a rule that is the case unless the
call, or else the interpreter, binds the name to another value: nothing keeps these names from being bound again.
-/
namespace RuleExpr
open Eval

section
variable {visit : Value → Eval Value} {m m' : Machine} {front : List Value}

theorem Plan.run_test_of {node : Value} {next : Bool → Plan} {holds : Bool}
    (h : truth (visit node) m = (.ok holds, m')) : (Plan.test node next).run visit m = (next holds).run visit m' := by
  simp only [run, bind_apply, h]

/-- Operands that hold are passed over by a conjunction. -/
theorem Plan.run_conjunction_front (h : TestsTo (fun node => truth (visit node)) true front m m') {rest : List Value}
    (hrest : rest ≠ []) : (conjunction (front ++ rest)).run visit m = (conjunction rest).run visit m' := by
  induction h with
  | nil => rfl
  | cons htest _ ih =>
      rw [List.cons_append, conjunction.eq_3 _ _ (List.append_ne_nil_of_right_ne_nil _ hrest), run_test_of htest]
      exact ih

theorem Plan.run_conjunction_stop {operand : Value} (h : truth (visit operand) m = (.ok false, m'))
    (rest : List Value) : (conjunction (operand :: rest)).run visit m = (.ok (.reference "false"), m') := by
  cases rest with
  | nil =>
      rw [conjunction, run_test_of h]
      rfl
  | cons =>
      rw [conjunction.eq_3 _ _ (List.cons_ne_nil _ _), run_test_of h]
      rfl

/-- Operands that do not hold are passed over by a disjunction. -/
theorem Plan.run_disjunction_front (h : TestsTo (fun node => truth (visit node)) false front m m')
    (rest : List Value) : (disjunction (front ++ rest)).run visit m = (disjunction rest).run visit m' := by
  induction h with
  | nil => rfl
  | cons htest _ ih =>
      rw [List.cons_append, disjunction, run_test_of htest]
      exact ih

theorem Plan.run_casesFrom_none {operands : List Value} (heven : operands.length % 2 = 0)
    (h : TestsTo (fun node => truth (visit node)) false (Value.conditions operands) m m') :
    (casesFrom operands).run visit m = (.ok (.reference "nil"), m') := by
  fun_induction casesFrom operands generalizing m with
  | case1 =>
      cases h
      rfl
  | case2 => cases heven
  | case3 condition result rest ih =>
      rw [Value.conditions] at h
      cases h with
      | cons htest hrest =>
          rw [List.length_cons, List.length_cons] at heven
          rw [run_test_of htest]
          exact ih (by omega) hrest

end

/-- Whether a form that is called with these operands chooses none of them and stands for a constant, after tests that
lead from one machine to another. -/
inductive Form.FallsBack (test : Value → Eval Bool) :
    Form → (operands : List Value) → (name : String) → (constant : Value) → Machine → Machine → Prop
  | conditional {condition yes : Value} {m m' : Machine} : test condition m = (.ok false, m') →
      FallsBack test .conditional [condition, yes] "nil" .nil m m'
  | cases {operands : List Value} {m m' : Machine} : 3 ≤ operands.length → operands.length % 2 = 0 →
      TestsTo test false (Value.conditions operands) m m' → FallsBack test .cases operands "nil" .nil m m'
  | noOperand (m : Machine) : FallsBack test .conjunction [] "true" (.bool true) m m
  | conjunction {front rest : List Value} {operand : Value} {m m' m'' : Machine} : TestsTo test true front m m' →
      test operand m' = (.ok false, m'') → FallsBack test .conjunction (front ++ operand :: rest) "false" (.bool false) m m''
  | disjunction {operands : List Value} {m m' : Machine} : TestsTo test false operands m m' →
      FallsBack test .disjunction operands "false" (.bool false) m m'

section
variable {test : Value → Eval Bool} {f : Form} {operands : List Value} {name : String} {constant : Value} {m m' : Machine}

/-- The registry binds the name of a constant to the constant. -/
theorem Form.FallsBack.default (h : f.FallsBack test operands name constant m m') :
    Registry.defaults.lookup? name = some constant := by
  cases h with
  | conditional | cases | noOperand | conjunction | disjunction => decide +kernel

theorem Form.FallsBack.run {visit : Value → Eval Value} (host : Host)
    (h : f.FallsBack (fun node => truth (visit node)) operands name constant m m') :
    (host.planOf f operands).run visit m = (.ok (.reference name), m') := by
  cases h with
  | conditional htest => exact Plan.run_test_of htest
  | cases hlength heven htests =>
      have hplan : host.planOf .cases operands = Plan.casesFrom operands := if_neg (by omega)
      rw [hplan]
      exact Plan.run_casesFrom_none heven htests
  | noOperand => rfl
  | @conjunction front rest operand _ _ _ htests htest =>
      have hfront := Plan.run_conjunction_front htests (List.cons_ne_nil operand rest)
      exact hfront.trans (Plan.run_conjunction_stop htest rest)
  | disjunction htests =>
      have hplan := Plan.run_disjunction_front htests []
      rw [List.append_nil] at hplan
      exact hplan

end

/-- A node that has a value was counted within the ceiling. -/
theorem countOperation_of_eval_ok {host : Host} {ceiling : Option Int} {fuel : Nat} {node v : Value} {m m' : Machine}
    (h : eval host ceiling fuel node m = (.ok v, m')) : ∀ limit ∈ ceiling, (m.operations : Int) + 1 ≤ limit := by
  rintro limit rfl
  cases fuel with
  | zero => cases h
  | succ fuel =>
      by_contra hover
      rw [eval, bind_apply, countOperation_some, if_pos (by omega)] at h
      cases h

/-- A node whose head has a value is counted, and then its items are. -/
theorem eval_of_head {host : Host} {ceiling : Option Int} {fuel : Nat} {head v : Value} {m m' : Machine}
    (hhead : eval host ceiling fuel head m.counted = (.ok v, m')) (operands : List Value) :
    eval host ceiling (fuel + 1) (.tuple (head :: operands)) m =
      evalCombination host (eval host ceiling fuel) head operands m.counted := by
  have hroom : ∀ limit ∈ ceiling, (m.operations : Int) + 1 ≤ limit := by
    intro limit hlimit
    have hcounted := countOperation_of_eval_ok hhead limit hlimit
    rw [Machine.counted_operations] at hcounted
    omega
  simp only [eval, bind_apply, countOperation_of_le hroom, evalNode]

/-- A call of a form carries out the plan of the form and evaluates the node that it comes to. -/
theorem eval_formCall {host : Host} {ceiling : Option Int} {fuel : Nat} {head : Value} {operands : List Value}
    {f : Form} {m m' : Machine} (hhead : eval host ceiling fuel head m.counted = (.ok (.form f), m')) :
    eval host ceiling (fuel + 1) (.tuple (head :: operands)) m =
      ((host.planOf f operands).run (eval host ceiling fuel) >>= eval host ceiling fuel) m' := by
  simp only [eval_of_head hhead, evalCombination, bind_apply, hhead]

/-- A call of a function evaluates the operands and passes on their values. -/
theorem eval_functionCall {host : Host} {ceiling : Option Int} {fuel : Nat} {head : Value} {operands vs : List Value}
    {f : Function} {m m₁ m₂ : Machine} (hhead : eval host ceiling fuel head m.counted = (.ok (.function f), m₁))
    (hoperands : evalItems (eval host ceiling fuel) operands m₁ = (.ok vs, m₂)) :
    eval host ceiling (fuel + 1) (.tuple (head :: operands)) m = (applyFunction host f vs >>= mark) m₂ := by
  simp only [eval_of_head hhead, evalCombination, bind_apply, hhead, hoperands]

theorem eval_reference {host : Host} {ceiling : Option Int} {fuel : Nat} {name : String} {m : Machine}
    (hroom : ∀ limit ∈ ceiling, (m.operations : Int) + 1 ≤ limit) :
    eval host ceiling (fuel + 1) (.reference name) m = ofExcept (m.scope.resolve name) m.counted := by
  simp only [eval, bind_apply, countOperation_of_le hroom]
  rfl

theorem ofExcept_resolve_eq_ok_iff {s : Scope} {name : String} {v : Value} {m : Machine} :
    (ofExcept (s.resolve name) m).1 = .ok v ↔ s.lookup? name = some v := by
  unfold Scope.resolve
  cases s.lookup? name with
  | none => exact iff_of_false nofun nofun
  | some w =>
      have hvalue : (ofExcept (.ok w) m).1 = .ok w := rfl
      rw [hvalue, Except.ok.injEq, Option.some.injEq]

/-- In the frame of a call of a rule a name of the registry has the value of the last pair for it in the call, else of
the last one in the bindings of the interpreter, else its own. -/
theorem Rule.lookup?_frame {vars pairs : List (Value × Value)} {ceiling : Option Int} {i : Interpreter}
    {source : Option String} {r : Rule} {frame : Frame} (hi : Interpreter.new vars ceiling = .ok i)
    (hr : i.compile source = .ok r) (hframe : Frame.ofKeyed pairs = .ok frame) {name : String} {default : Value}
    (hdefault : Registry.defaults.lookup? name = some default) :
    Scope.lookup? ⟨[r.frame frame]⟩ name =
      some (((Frame.lastOf pairs name).or (Frame.lastOf vars name)).getD default) := by
  obtain ⟨-, inst, hinst, hmerge⟩ := frame_eq_merge hi hr
  rw [hmerge, Scope.lookup?_cons, Scope.lookup?_empty, Option.or_none, Frame.lookup?_merge, Scope.ofFrames]
  simp only [List.reverse_cons, List.reverse_nil, List.nil_append, List.cons_append, Scope.lookup?_cons,
    Scope.lookup?_empty, Option.or_none, Frame.lookup?_ofKeyed hframe, Frame.lookup?_ofKeyed hinst, hdefault]
  cases Frame.lastOf pairs name with
  | some v => rfl
  | none => cases Frame.lastOf vars name <;> rfl

/-- A form that chooses no operand has the value that the name of its constant has where its tests have led, or fails
because the name is not bound. So it comes to the constant exactly if the name is bound to it there. In the frame of a
call of a rule that depends on nothing but the last binding of the name in the call and in the interpreter. Fewer than
three operands of a case distinction come to nothing: they are refused before a test. -/
theorem constants_are_looked_up (host : Host) (ceiling : Option Int) (fuel : Nat) (m m₁ : Machine) (head : Value)
    (f : Form) (operands : List Value) (hhead : eval host ceiling (fuel + 1) head m.counted = (.ok (.form f), m₁)) :
    (∀ name constant m₂,
      f.FallsBack (fun node => truth (eval host ceiling (fuel + 1) node)) operands name constant m₁ m₂ →
      (∀ limit ∈ ceiling, (m₂.operations : Int) + 1 ≤ limit) →
      eval host ceiling (fuel + 2) (.tuple (head :: operands)) m = ofExcept (m₂.scope.resolve name) m₂.counted ∧
        ((eval host ceiling (fuel + 2) (.tuple (head :: operands)) m).1 = .ok constant ↔
          m₂.scope.lookup? name = some constant) ∧
        ∀ vars pairs ceiling' i source r frame, Interpreter.new vars ceiling' = .ok i → i.compile source = .ok r →
          Frame.ofKeyed pairs = .ok frame → m₂.scope = ⟨[r.frame frame]⟩ →
          eval host ceiling (fuel + 2) (.tuple (head :: operands)) m =
            (.ok (((Frame.lastOf pairs name).or (Frame.lastOf vars name)).getD constant), m₂.counted)) ∧
      (f = .cases → operands.length < 3 →
        eval host ceiling (fuel + 2) (.tuple (head :: operands)) m = (.error (.fault .caseOperands), m₁)) := by
  constructor
  · intro name constant m₂ hfalls hroom
    have hcall : eval host ceiling (fuel + 2) (.tuple (head :: operands)) m =
        ofExcept (m₂.scope.resolve name) m₂.counted := by
      rw [eval_formCall hhead, bind_apply, hfalls.run host]
      exact eval_reference hroom
    refine ⟨hcall, ?_, ?_⟩
    · rw [hcall, ofExcept_resolve_eq_ok_iff]
    · intro vars pairs ceiling' i source r frame hi hr hframe hscope
      rw [hcall, hscope, Scope.resolve, Rule.lookup?_frame hi hr hframe hfalls.default]
      rfl
  · rintro rfl hfew
    have hplan : host.planOf .cases operands = .fail .caseOperands := if_pos hfew
    rw [eval_formCall hhead, hplan]
    rfl

/-- The interpreter binds the name of a constant anew, and the call binds it to the constant again. -/
theorem constants_are_looked_up_restored :
    let i : Interpreter := ⟨Registry.defaults.overlay ⟨[("false", .int 7)]⟩, some 4⟩
    let frame : Frame := ⟨[("false", .bool false)]⟩
    ∃ r, Interpreter.new [(.text "false", .int 7)] (some 4) = .ok i ∧ i.compile (some "(and nil)") = .ok r ∧
      (eval .listing (some 4) 3 (.tuple [.reference "and", .reference "nil"]) (.start ⟨[r.frame frame]⟩)).1 =
        .ok (.bool false) := by
  intro i frame
  have hi : Interpreter.new [(.text "false", .int 7)] (some 4) = .ok i := by decide +kernel
  have hframe : Frame.ofKeyed [(.text "false", .bool false)] = .ok frame := by decide +kernel
  obtain ⟨reading, hreading⟩ : ∃ reading, Tree.read (some "(and nil)") = .ok reading :=
    ⟨⟨.tuple [.reference "and", .reference "nil"], 4, 0⟩, by decide +kernel⟩
  have hr : i.compile (some "(and nil)") = .ok ⟨i, some "(and nil)", reading⟩ := by
    rw [Interpreter.compile, hreading]
    rfl
  let m : Machine := .start ⟨[i.bindings.overlay frame]⟩
  have hhead : eval .listing (some 4) 2 (.reference "and") m.counted = (.ok (.form .conjunction), m.countedBy 2) := by
    decide +kernel
  have htest : truth (eval .listing (some 4) 2 (.reference "nil")) (m.countedBy 2) = (.ok false, m.countedBy 3) := by
    decide +kernel
  have hfalls : Form.FallsBack (fun node => truth (eval .listing (some 4) 2 node)) .conjunction [.reference "nil"]
      "false" (.bool false) (m.countedBy 2) (m.countedBy 3) := .conjunction (.nil _) htest
  have hroom : ∀ limit ∈ some (4 : Int), ((m.countedBy 3).operations : Int) + 1 ≤ limit := by
    rintro limit ⟨⟩
    decide
  obtain ⟨-, -, hvalue⟩ := (constants_are_looked_up .listing (some 4) 1 m _ _ _ _ hhead).1 _ _ _ hfalls hroom
  have hcall := hvalue _ _ _ _ _ _ _ hi hr hframe rfl
  exact ⟨_, hi, hr, congrArg Prod.fst hcall⟩

/-- A conjunction whose operand does not hold, in a call that binds the name of a constant anew. -/
theorem constants_are_not_kept : ∃ i, Interpreter.new [] none = .ok i ∧
    (i.run .listing (some "(and nil)") []).1 = .ok (.bool false) ∧
    (i.run .listing (some "(and nil)") [(.text "false", .int 7)]).1 = .ok (.int 7) := by
  refine ⟨⟨Registry.defaults.overlay ⟨[]⟩, none⟩, ?_, ?_, ?_⟩
  · decide +kernel
  · decide +kernel
  · decide +kernel

end RuleExpr
