import RuleExpr.Proofs.Evaluation.Ceiling

/-!
# Rules without fuel

Settling can be followed step by step with no fuel in the rules: a sequence settles as its first step does if that one
halts and as its second step does otherwise (`settles_bind`), and the call of a form settles as what its plan leads to
(`settles_formCall`). What was counted before has no part in an evaluation without a ceiling (`settles_countedBy`), as
long as no function or form of the host looks at the count (`Conduct.blind`).
-/
namespace RuleExpr

theorem Machine.countedBy_countedBy (m : Machine) (n k : Nat) : (m.countedBy n).countedBy k = m.countedBy (n + k) := by
  simp only [countedBy, Nat.add_assoc]

namespace Eval

section
variable {α β : Type} {x : Nat → Eval α} {f : Nat → α → Eval β} {m m' : Machine} {a : α}

theorem Lasting.bind (hx : Lasting x) (hf : ∀ a, Lasting (f · a)) : Lasting fun fuel => x fuel >>= f fuel :=
  fun fuel fuel' hle => (hx fuel fuel' hle).bind fun a => hf a fuel fuel' hle

theorem Lasting.truth {x : Nat → Eval Value} (hx : Lasting x) : Lasting fun fuel => truth (x fuel) :=
  fun fuel fuel' hle => (hx fuel fuel' hle).truth

theorem Settles.of_bind {o : Except Halt β × Machine} (h : Settles (fun fuel => x fuel >>= f fuel) m o) :
    (∃ e m', Settles x m (.error e, m') ∧ o = (.error e, m')) ∨
      ∃ a m', Settles x m (.ok a, m') ∧ Settles (f · a) m' o := by
  obtain ⟨fuel, hrun, hfueled⟩ := h
  simp only [bind_apply] at hrun
  rcases hfirst : x fuel m with ⟨e | a, m'⟩
  · rw [hfirst] at hrun
    obtain rfl : (.error e, m') = o := hrun
    exact .inl ⟨e, m', ⟨fuel, hfirst, by simpa using hfueled⟩, rfl⟩
  · rw [hfirst] at hrun
    exact .inr ⟨a, m', ⟨fuel, hfirst, by simp⟩, fuel, hrun, hfueled⟩

theorem Settles.bind {o : Except Halt β × Machine} (hx : Lasting x) (hf : Lasting (f · a))
    (h : Settles x m (.ok a, m')) (hrest : Settles (f · a) m' o) : Settles (fun fuel => x fuel >>= f fuel) m o := by
  obtain ⟨n, hn⟩ := h.eventually hx
  obtain ⟨n', hn'⟩ := hrest.eventually hf
  obtain ⟨_, -, hfueled⟩ := hrest
  refine ⟨max n n', ?_, hfueled⟩
  simp only [bind_apply, hn _ (Nat.le_max_left _ _)]
  exact hn' _ (Nat.le_max_right _ _)

theorem Settles.bind_error {e : Halt} (h : Settles x m (.error e, m')) :
    Settles (fun fuel => x fuel >>= f fuel) m (.error e, m') := by
  obtain ⟨fuel, hfirst, hfueled⟩ := h
  exact ⟨fuel, by simp only [bind_apply, hfirst], by simpa using hfueled⟩

/-- How a sequence settles: like its first step if that one halts, otherwise like its second step. -/
theorem settles_bind {o : Except Halt β × Machine} (hx : Lasting x) (hf : ∀ a, Lasting (f · a)) :
    Settles (fun fuel => x fuel >>= f fuel) m o ↔
      (∃ e m', Settles x m (.error e, m') ∧ o = (.error e, m')) ∨
        ∃ a m', Settles x m (.ok a, m') ∧ Settles (f · a) m' o := by
  refine ⟨Settles.of_bind, ?_⟩
  rintro (⟨e, m', hfirst, rfl⟩ | ⟨a, m', hfirst, hrest⟩)
  · exact hfirst.bind_error
  · exact hfirst.bind hx (hf a) hrest

/-- A sequence settles like its second step where the first one is known. -/
theorem settles_bind_of_ok {o : Except Halt β × Machine} (hx : Lasting x) (hf : Lasting (f · a))
    (hfirst : Settles x m (.ok a, m')) :
    Settles (fun fuel => x fuel >>= f fuel) m o ↔ Settles (f · a) m' o := by
  refine ⟨fun h => ?_, hfirst.bind hx hf⟩
  rcases h.of_bind with ⟨e, m'', hother, -⟩ | ⟨b, m'', hother, hrest⟩
  · cases hfirst.unique hx hother
  · cases hfirst.unique hx hother
    exact hrest

theorem Settles.of_truth {x : Nat → Eval Value} {holds : Bool}
    (h : Settles (fun fuel => truth (x fuel)) m (.ok holds, m')) :
    ∃ v m'', Settles x m (.ok v, m'') ∧ m'.scope = m''.scope := by
  obtain ⟨fuel, hrun, -⟩ := h
  unfold truth at hrun
  rcases hx : x fuel m with ⟨e | v, m''⟩
  · simp [hx] at hrun
  · simp only [hx, Prod.mk.injEq] at hrun
    obtain ⟨-, rfl⟩ := hrun
    exact ⟨v, m'', ⟨fuel, hx, by simp⟩, rfl⟩

/-- What was counted before is counted in the end and changes nothing else. -/
theorem settles_countedBy {o : Except Halt α × Machine} (hx : ∀ fuel, Blind (x fuel)) (n : Nat) :
    Settles x (m.countedBy n) o ↔ ∃ r m', Settles x m (r, m') ∧ o = (r, m'.countedBy n) := by
  constructor
  · rintro ⟨fuel, rfl, hfueled⟩
    rw [hx fuel m n] at hfueled ⊢
    exact ⟨_, _, ⟨fuel, rfl, hfueled⟩, rfl⟩
  · rintro ⟨r, m', ⟨fuel, hrun, hfueled⟩, rfl⟩
    exact ⟨fuel, by rw [hx fuel m n, hrun], hfueled⟩

end

/-! ## Nodes and plans -/

theorem Blind.rescue {x : Eval α} {handler : Halt → Eval α} (h : Blind x) (hf : ∀ e, Blind (handler e)) :
    Blind (rescue x handler) := by
  intro m n
  unfold Eval.rescue
  rw [h]
  rcases x m with ⟨e | a, m'⟩
  · exact hf e m' n
  · rfl

theorem blind_halt (h : Halt) : Blind (halt h : Eval α) := fun _ _ => rfl

end Eval

/-- The conduct that does not look at the count. All halts may be caught. -/
def Conduct.blind : Conduct where
  step := Eval.Blind
  catches h := h ≠ .outOfFuel
  quiet h := h.blind
  fueled h := h rfl

namespace Eval

/-- Doing the same whatever was counted before as a relation that evaluation respects; only the first computation
matters. -/
def blinding : Congruence .blind where
  rel x _ := Blind x
  step := id
  bind := .bind
  truth := .truth
  rescue {α x y f g} hx hf hpassed := by
    refine hx.rescue fun e => ?_
    by_cases he : e = .outOfFuel
    · rw [(hpassed e (not_not_intro he)).1]
      exact blind_halt e
    · exact hf e he

theorem blind_countOperation : Blind (countOperation none) := by
  intro m n
  simp only [countOperation, Machine.countedBy, Nat.add_right_comm]

theorem blind_freeEval {host : FreeHost} (hhost : host.Obeys .blind) (fuel : Nat) (node : Value) :
    Blind (host.eval none fuel node) := by
  have exhausted (node : Value) : blinding.rel (host.eval none 0 node) (host.eval none 0 node) := fun _ _ => rfl
  have lifted : blinding.rel (host.eval none fuel node) (host.eval none (0 + fuel) node) :=
    blinding.freeEval hhost blind_countOperation exhausted fuel node
  exact lifted

theorem blind_eval (host : Host) (fuel : Nat) (node : Value) : Blind (eval host none fuel node) := by
  rw [← host.eval_free]
  exact blind_freeEval (host.free_obeys .blind) fuel node

end Eval

open Eval

/-- How a plan ends without a ceiling, with the value of the node that it comes to. -/
def Plan.LeadsTo (host : FreeHost) (p : Plan) (m : Machine) (o : Except Halt Value × Machine) : Prop :=
  Settles (fun fuel => p.run (host.eval none fuel) >>= host.eval none fuel) m o

section
variable {host : FreeHost} {m m' : Machine} {o : Except Halt Value × Machine}

theorem settles_reference {name : String} {v : Value} (h : m.scope.lookup? name = some v) :
    Settles (host.eval none · (.reference name)) m (.ok v, m.counted) := by
  have hrun : host.eval none 1 (.reference name) m = ofExcept (m.scope.resolve name) m.counted := rfl
  rw [Scope.resolve, h] at hrun
  exact ⟨1, hrun, by simp⟩

variable (hhost : host.Obeys .blind)
include hhost

theorem lasting_planRun (ceiling : Option Int) (p : Plan) : Lasting fun fuel => p.run (host.eval ceiling fuel) :=
  fun fuel fuel' hle => (outlasting .blind).body (Conduct.allows_plan .blind p) fun node =>
    FreeHost.lasting_eval hhost ceiling node fuel fuel' hle

/-- The evaluation of a call whose head is known to be a builtin form. -/
theorem settles_formCall {head : Value} {tail : List Value} {f : Form} {p : Plan}
    (hhead : Settles (host.eval none · head) m.counted (.ok (.form f), m'))
    (hp : ∀ visit, host.expand visit f tail = p.run visit) :
    Settles (host.eval none · (.tuple (head :: tail))) m o ↔ p.LeadsTo host m' o := by
  have hsucc : Settles (host.eval none · (.tuple (head :: tail))) m o ↔
      Settles (fun fuel => host.evalCombination (host.eval none fuel) head tail) m.counted o := by
    constructor
    · rintro ⟨_ | fuel, hrun, hfueled⟩
      · exact (hfueled (hrun ▸ rfl)).elim
      · exact ⟨fuel, hrun, hfueled⟩
    · rintro ⟨fuel, hrun, hfueled⟩
      exact ⟨fuel + 1, hrun, hfueled⟩
  have hlasts := FreeHost.lasting_eval hhost none
  rw [hsucc]
  refine (settles_bind_of_ok (hlasts head) ?_ hhead).trans ?_
  · simp only [hp]
    exact (lasting_planRun hhost none p).bind hlasts
  · simp only [hp]
    rfl

omit hhost in
theorem Plan.leadsTo_expand {node : Value} :
    (Plan.expand node).LeadsTo host m o ↔ Settles (host.eval none · node) m o :=
  Iff.rfl

theorem Plan.leadsTo_test {node : Value} {next : Bool → Plan} :
    (Plan.test node next).LeadsTo host m o ↔
      (∃ e m', Settles (fun fuel => truth (host.eval none fuel node)) m (.error e, m') ∧ o = (.error e, m')) ∨
        ∃ holds m', Settles (fun fuel => truth (host.eval none fuel node)) m (.ok holds, m') ∧
          (next holds).LeadsTo host m' o := by
  have hassoc : (fun fuel => (Plan.test node next).run (host.eval none fuel) >>= host.eval none fuel) =
      fun fuel => truth (host.eval none fuel node) >>= fun holds =>
        (next holds).run (host.eval none fuel) >>= host.eval none fuel := by
    funext fuel m
    simp only [Plan.run, bind_apply]
    rcases truth (host.eval none fuel node) m with ⟨e | holds, m'⟩ <;> rfl
  have hlasts := FreeHost.lasting_eval hhost none
  rw [LeadsTo, hassoc]
  exact settles_bind (hlasts node).truth fun holds => (lasting_planRun hhost none (next holds)).bind hlasts

theorem Plan.leadsTo_countedBy {p : Plan} (n : Nat) :
    p.LeadsTo host (m.countedBy n) o ↔ ∃ r m', p.LeadsTo host m (r, m') ∧ o = (r, m'.countedBy n) := by
  refine settles_countedBy (fun fuel => ?_) n
  have run : Blind (p.run (host.eval none fuel)) := by
    have lifted : blinding.rel (p.run (host.eval none fuel)) (p.run (host.eval none fuel)) :=
      blinding.body (Conduct.allows_plan .blind p) (blind_freeEval hhost fuel)
    exact lifted
  exact run.bind (blind_freeEval hhost fuel)

end

end RuleExpr
