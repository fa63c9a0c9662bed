import RuleExpr.Proofs.Evaluation.Selection
import RuleExpr.Proofs.Evaluation.Settling

/-!
# Case distinctions and nested conditionals

A case distinction does what a conditional for each of its pairs does, each one in the place of the missing operand of
the one before (`cases_agree_with_nested_conditionals`). The conditionals are called one after another, each behind a
condition that does not hold, and a call counts two operations: one for itself and one for its head. So the nested form
counts two more for every condition that is tested beside the first one. Testing a condition must keep the frames, since
the name of the conditional is resolved anew behind every one of them, and no function or form of the host may look at
the count, which would tell the two apart (`cases_differ_by_count`).
-/
namespace RuleExpr
open Eval

/-- The conditionals that a case distinction over these operands stands for. The default of the distinction is the
last operand of the innermost one, which has only two operands if there is no default. -/
def Value.nestedConditional : List Value → Value
  | [] => .reference "nil"
  | [default] => default
  | [condition, result] => .tuple [.reference "if", condition, result]
  | condition :: result :: rest => .tuple [.reference "if", condition, result, nestedConditional rest]

/-- Whether so many conditions are tested in turn, up to the first one that does not fail to hold: because it
holds or because its evaluation halts. If there is none, all are tested. -/
inductive FreeHost.Tests (host : FreeHost) : List Value → Machine → Nat → Prop
  | nil (m : Machine) : Tests host [] m 0
  | last {condition : Value} {conditions : List Value} {m : Machine} {o : Except Halt Bool × Machine} :
      Settles (fun fuel => truth (host.eval none fuel condition)) m o → o.1 ≠ .ok false →
      Tests host (condition :: conditions) m 1
  | next {condition : Value} {conditions : List Value} {m m' : Machine} {count : Nat} :
      Settles (fun fuel => truth (host.eval none fuel condition)) m (.ok false, m') →
      Tests host conditions m' count → Tests host (condition :: conditions) m (count + 1)

/-- Whether the evaluation of a node, wherever these frames stand, leaves them as they are. -/
def FreeHost.KeepsFrames (host : FreeHost) (scope : Scope) (node : Value) : Prop :=
  ∀ m v m', m.scope = scope → Settles (host.eval none · node) m (.ok v, m') → m'.scope = scope

section
variable {host : FreeHost} {scope : Scope} {m : Machine} {operands : List Value} {o : Except Halt Value × Machine}

theorem FreeHost.KeepsFrames.truth {node : Value} (h : host.KeepsFrames scope node) (hscope : m.scope = scope)
    {holds : Bool} {m' : Machine} (htest : Settles (fun fuel => truth (host.eval none fuel node)) m (.ok holds, m')) :
    m'.scope = scope := by
  obtain ⟨v, m'', hnode, hsame⟩ := htest.of_truth
  exact hsame.trans (h m v m'' hscope hnode)

/-- Counting the same conditions twice gives one number. -/
theorem FreeHost.Tests.unique {c : Conduct} (hhost : host.Obeys c) {conditions : List Value} {count count' : Nat}
    (h : host.Tests conditions m count) (h' : host.Tests conditions m count') : count = count' := by
  have lasting (condition : Value) := (FreeHost.lasting_eval hhost none condition).truth
  induction h generalizing count' with
  | nil => cases h'; rfl
  | last htest hend =>
      cases h' with
      | last => rfl
      | next htest' => exact (hend (congrArg Prod.fst (htest.unique (lasting _) htest'))).elim
  | next htest _ ih =>
      cases h' with
      | last htest' hend => exact (hend (congrArg Prod.fst (htest'.unique (lasting _) htest))).elim
      | next htest' hrest =>
          cases htest.unique (lasting _) htest'
          rw [ih hrest]

/-- Of conditions that there are, at least one is tested. -/
theorem FreeHost.Tests.exists_succ {condition : Value} {conditions : List Value} {count : Nat}
    (h : host.Tests (condition :: conditions) m count) : ∃ less, count = less + 1 := by
  cases h with
  | last => exact ⟨0, rfl⟩
  | next => exact ⟨_, rfl⟩

section
variable (hhost : host.Obeys .blind)
include hhost

/-- A case distinction is called with two operations. -/
theorem settles_casesCall (hcond : m.scope.lookup? "cond" = some (.form .cases)) (hlength : 3 ≤ operands.length) :
    Settles (host.eval none · (.tuple (.reference "cond" :: operands))) m o ↔
      (Plan.casesFrom operands).LeadsTo host (m.countedBy 2) o := by
  have hhead : Settles (host.eval none · (.reference "cond")) m.counted (.ok (.form .cases), m.countedBy 2) :=
    settles_reference hcond
  have hplan : Plan.cases operands = Plan.casesFrom operands := if_neg (by omega)
  exact settles_formCall hhost hhead fun visit => by rw [FreeHost.expand, hplan]

/-- One conditional of the nest: it is called with two operations, and a condition that does not hold leads to the
conditionals behind it. -/
theorem settles_nestedConditional (hif : m.scope.lookup? "if" = some (.form .conditional)) {condition result : Value}
    {rest : List Value} :
    Settles (host.eval none · (.nestedConditional (condition :: result :: rest))) m o ↔
      (Plan.test condition fun holds => .expand (if holds then result else .nestedConditional rest)).LeadsTo host
        (m.countedBy 2) o := by
  have hhead : Settles (host.eval none · (.reference "if")) m.counted (.ok (.form .conditional), m.countedBy 2) :=
    settles_reference hif
  cases rest with
  | nil => exact settles_formCall hhost hhead fun _ => rfl
  | cons => exact settles_formCall hhost hhead fun _ => rfl

/-- A case distinction that ends is followed by the conditionals, with two operations more for each condition tested. -/
theorem Plan.LeadsTo.nestedConditional (hif : scope.lookup? "if" = some (.form .conditional)) (hscope : m.scope = scope)
    (hkeeps : ∀ condition ∈ Value.conditions operands, host.KeepsFrames scope condition) {r : Except Halt Value}
    {m' : Machine} (h : (casesFrom operands).LeadsTo host m (r, m')) :
    ∃ count, host.Tests (Value.conditions operands) m count ∧
      Settles (host.eval none · (.nestedConditional operands)) m (r, m'.countedBy (2 * count)) := by
  fun_induction casesFrom operands generalizing m with
  | case1 => exact ⟨0, .nil m, leadsTo_expand.1 h⟩
  | case2 default => exact ⟨0, .nil m, leadsTo_expand.1 h⟩
  | case3 condition result rest ih =>
      have hkeep := hkeeps condition List.mem_cons_self
      rw [← hscope] at hif
      simp only [settles_nestedConditional hhost hif, leadsTo_countedBy hhost]
      rcases (leadsTo_test hhost).1 h with ⟨e, m₁, htest, ho⟩ | ⟨holds, m₁, htest, hrest⟩
      · obtain ⟨rfl, rfl⟩ := Prod.mk.inj ho
        exact ⟨1, .last htest (by simp), _, _, (leadsTo_test hhost).2 (.inl ⟨e, m', htest, rfl⟩), rfl⟩
      · cases holds with
        | true => exact ⟨1, .last htest (by simp), _, _, (leadsTo_test hhost).2 (.inr ⟨true, m₁, htest, hrest⟩), rfl⟩
        | false =>
            obtain ⟨count, htests, hnested⟩ := ih (hkeep.truth hscope htest)
              (fun other hother => hkeeps other (List.mem_cons_of_mem _ hother)) hrest
            have hrun := leadsTo_expand.2 hnested
            refine ⟨count + 1, .next htest htests, _, _, (leadsTo_test hhost).2 (.inr ⟨false, m₁, htest, hrun⟩), ?_⟩
            rw [Machine.countedBy_countedBy]
            rfl

/-- Conditionals that end belong to a case distinction that ends. -/
theorem Plan.leadsTo_of_nestedConditional (hif : scope.lookup? "if" = some (.form .conditional))
    (hscope : m.scope = scope) (hkeeps : ∀ condition ∈ Value.conditions operands, host.KeepsFrames scope condition)
    (h : Settles (host.eval none · (.nestedConditional operands)) m o) :
    ∃ o', (casesFrom operands).LeadsTo host m o' := by
  fun_induction casesFrom operands generalizing m o with
  | case1 => exact ⟨o, leadsTo_expand.2 h⟩
  | case2 default => exact ⟨o, leadsTo_expand.2 h⟩
  | case3 condition result rest ih =>
      have hkeep := hkeeps condition List.mem_cons_self
      rw [← hscope] at hif
      rw [settles_nestedConditional hhost hif, leadsTo_countedBy hhost] at h
      obtain ⟨r, m', h, -⟩ := h
      rcases (leadsTo_test hhost).1 h with ⟨e, m₁, htest, -⟩ | ⟨holds, m₁, htest, hrest⟩
      · exact ⟨_, (leadsTo_test hhost).2 (.inl ⟨e, m₁, htest, rfl⟩)⟩
      · cases holds with
        | true => exact ⟨_, (leadsTo_test hhost).2 (.inr ⟨true, m₁, htest, hrest⟩)⟩
        | false =>
            obtain ⟨o', hcases⟩ := ih (hkeep.truth hscope htest)
              (fun other hother => hkeeps other (List.mem_cons_of_mem _ hother)) hrest
            exact ⟨o', (leadsTo_test hhost).2 (.inr ⟨false, m₁, htest, hcases⟩)⟩

end

end

/-- Without a ceiling a case distinction and the nested conditionals that it stands for end in the same cases, with the
same value or halt, the same notes and the same machine but for the count, if nothing looks at the count. Where the
distinction tests `count + 1` conditions, the conditionals count two operations more for each one behind the first. -/
theorem cases_agree_with_nested_conditionals (host : FreeHost) (hhost : host.Obeys .blind) (m : Machine)
    (operands : List Value) (hlength : 3 ≤ operands.length) (hif : m.scope.lookup? "if" = some (.form .conditional))
    (hcond : m.scope.lookup? "cond" = some (.form .cases))
    (hkeeps : ∀ condition ∈ Value.conditions operands, host.KeepsFrames m.scope condition) :
    (∀ r m', host.Evaluates none m (.tuple (.reference "cond" :: operands)) (r, m') →
      ∃ count, host.Tests (Value.conditions operands) m.renewed (count + 1) ∧
        host.Evaluates none m (.nestedConditional operands) (r, m'.countedBy (2 * count))) ∧
    (∀ r m'', host.Evaluates none m (.nestedConditional operands) (r, m'') →
      ∃ count m', host.Tests (Value.conditions operands) m.renewed (count + 1) ∧ m'' = m'.countedBy (2 * count) ∧
        host.Evaluates none m (.tuple (.reference "cond" :: operands)) (r, m')) := by
  have hcall (o : Except Halt Value × Machine) : host.Evaluates none m (.tuple (.reference "cond" :: operands)) o ↔
      (Plan.casesFrom operands).LeadsTo host (m.renewed.countedBy 2) o :=
    settles_casesCall hhost hcond hlength
  have hscope : m.renewed.scope = m.scope := rfl
  have forward : ∀ r m', host.Evaluates none m (.tuple (.reference "cond" :: operands)) (r, m') →
      ∃ count, host.Tests (Value.conditions operands) m.renewed (count + 1) ∧
        host.Evaluates none m (.nestedConditional operands) (r, m'.countedBy (2 * count)) := by
    intro r m' h
    rw [hcall, Plan.leadsTo_countedBy hhost] at h
    obtain ⟨r, m₁, hcases, ho⟩ := h
    obtain ⟨rfl, rfl⟩ := Prod.mk.inj ho
    obtain ⟨count, htests, hnested⟩ := hcases.nestedConditional hhost hif hscope hkeeps
    -- there is a first condition, and the call of its conditional is counted in both forms
    obtain ⟨condition, result, rest, rfl⟩ : ∃ condition result rest, operands = condition :: result :: rest := by
      match operands, hlength with
      | condition :: result :: rest, _ => exact ⟨condition, result, rest, rfl⟩
    obtain ⟨count, rfl⟩ := htests.exists_succ
    refine ⟨count, htests, ?_⟩
    rw [Machine.countedBy_countedBy, Nat.add_comm]
    exact hnested
  refine ⟨forward, fun r m'' h => ?_⟩
  obtain ⟨o, hcases⟩ := Plan.leadsTo_of_nestedConditional hhost hif hscope hkeeps h
  have hended := (hcall (o.1, o.2.countedBy 2)).2 ((Plan.leadsTo_countedBy hhost 2).2 ⟨o.1, o.2, hcases, rfl⟩)
  obtain ⟨count, htests, hnested⟩ := forward _ _ hended
  obtain ⟨rfl, rfl⟩ := Prod.mk.inj (h.unique hhost hnested)
  exact ⟨count, _, htests, rfl, hended⟩

/-- Names and literals keep the frames. -/
theorem FreeHost.keepsFrames_token (host : FreeHost) (scope : Scope) (kind : Kind) (content : Value) :
    host.KeepsFrames scope (.token kind content) := by
  rintro m v m' rfl ⟨_ | fuel, hrun, hfueled⟩
  · exact (hfueled (hrun ▸ rfl)).elim
  · have hsame : (host.eval none (fuel + 1) (.token kind content) m).2.scope = m.scope := by
      cases kind with
      | var =>
          have hresolve : host.eval none (fuel + 1) (.token .var content) m =
              ofExcept (m.scope.resolveValue content) m.counted := rfl
          rw [hresolve]
          cases m.scope.resolveValue content <;> rfl
      | _ => rfl
    exact (congrArg (·.2.scope) hrun).symm.trans hsame

/-- The second of two conditions holds, and its result calls the host; the other result and the default do not. -/
theorem cases_agree_with_nested_conditionals_calling :
    let host := Host.listing.free
    let num (n : Int) : Value := .token .num (.int n)
    let operands : List Value := [.reference "nil", .pairing 1, num 2, .pairing 3, .pairing 4]
    host.Obeys .blind ∧ 3 ≤ operands.length ∧ Machine.listing.scope.lookup? "if" = some (.form .conditional) ∧
      Machine.listing.scope.lookup? "cond" = some (.form .cases) ∧
      (∀ condition ∈ Value.conditions operands, host.KeepsFrames Machine.listing.scope condition) ∧
      ∃ m', host.Evaluates none .listing (.tuple (.reference "cond" :: operands)) (.ok (.list [.int 3]), m') ∧
        m'.calls = [⟨"pair", [.int 3]⟩] ∧ m'.operations = 7 ∧
        host.Evaluates none .listing (.nestedConditional operands) (.ok (.list [.int 3]), m'.countedBy 2) := by
  intro host num operands
  let call : Value := .tuple (.reference "cond" :: operands)
  have hhost : host.Obeys .blind := Host.listing.free_obeys .blind
  have hif : Machine.listing.scope.lookup? "if" = some (.form .conditional) := by decide +kernel
  have hcond : Machine.listing.scope.lookup? "cond" = some (.form .cases) := by decide +kernel
  have hkeeps : ∀ condition ∈ Value.conditions operands, host.KeepsFrames Machine.listing.scope condition := by
    rintro condition (_ | ⟨_, _ | ⟨_, ⟨⟩⟩⟩) <;> exact FreeHost.keepsFrames_token _ _ _ _
  have hfirst : (truth (host.eval none 1 (.reference "nil")) Machine.listing.renewed).1 = .ok false := by
    decide +kernel
  have hsecond (m : Machine) : (truth (host.eval none 1 (num 2)) m).1 = .ok true := rfl
  have htests : host.Tests (Value.conditions operands) Machine.listing.renewed (1 + 1) :=
    .next ⟨1, Prod.ext hfirst rfl, by simp⟩ (.last ⟨1, rfl, by simp [hsecond]⟩ (by simp [hsecond]))
  have hvalue : (host.eval none 4 call Machine.listing.renewed).1.toOption = some (.list [.int 3]) := by
    decide +kernel
  have hcalls : (host.eval none 4 call Machine.listing.renewed).2.calls = [⟨"pair", [.int 3]⟩] := by
    decide +kernel
  have hops : (host.eval none 4 call Machine.listing.renewed).2.operations = 7 := by decide +kernel
  rcases hrun : host.eval none 4 call Machine.listing.renewed with ⟨e | v, m'⟩
  · rw [hrun] at hvalue
    cases hvalue
  · rw [hrun] at hvalue hcalls hops
    obtain rfl : v = .list [.int 3] := Option.some.inj hvalue
    have hended : host.Evaluates none .listing call (.ok (.list [.int 3]), m') := ⟨4, hrun, by simp⟩
    obtain ⟨count, hcount, hnested⟩ :=
      (cases_agree_with_nested_conditionals host hhost .listing operands (by decide) hif hcond hkeeps).1 _ _ hended
    obtain rfl : count = 1 := Nat.succ.inj (hcount.unique hhost htests)
    exact ⟨hhost, by decide, hif, hcond, hkeeps, m', hended, hcalls, hops, hnested⟩

/-- A free host with one form, which stands for the number of operations so far. -/
def FreeHost.counting : FreeHost where
  function _ _ _ := return .nil
  form _ _ _ := fun m => (.ok (.token .num (.int m.operations)), m)
  now := Host.listing.now
  random := Host.listing.random

/-- A machine in whose scope that form, the two builtin ones and two constants are bound. -/
def Machine.counting : Machine :=
  .start ⟨[⟨[("if", .form .conditional), ("cond", .form .cases), ("ops", .form (.host "ops")), ("nil", .nil),
    ("true", .bool true)]⟩]⟩

/-- A form that looks at the count tells the two apart, though no evaluation changes the frames. -/
theorem cases_differ_by_count :
    let operands : List Value := [.reference "nil", .int 1, .reference "true", .tuple [.reference "ops"]]
    (∀ condition ∈ Value.conditions operands, FreeHost.counting.KeepsFrames Machine.counting.scope condition) ∧
      (∃ m', FreeHost.counting.Evaluates none .counting (.tuple (.reference "cond" :: operands)) (.ok (.int 6), m')) ∧
      ∃ m', FreeHost.counting.Evaluates none .counting (.nestedConditional operands) (.ok (.int 8), m') := by
  intro operands
  have hkeeps : ∀ condition ∈ Value.conditions operands,
      FreeHost.counting.KeepsFrames Machine.counting.scope condition := by
    rintro condition (_ | ⟨_, _ | ⟨_, ⟨⟩⟩⟩) <;> exact FreeHost.keepsFrames_token _ _ _ _
  have hcases : (FreeHost.counting.eval none 4 (.tuple (.reference "cond" :: operands))
      Machine.counting.renewed).1 = .ok (.int 6) := by decide +kernel
  have hnested : (FreeHost.counting.eval none 4 (.nestedConditional operands) Machine.counting.renewed).1 =
      .ok (.int 8) := by decide +kernel
  exact ⟨hkeeps, FreeHost.exists_evaluates hcases (by simp), FreeHost.exists_evaluates hnested (by simp)⟩

end RuleExpr
