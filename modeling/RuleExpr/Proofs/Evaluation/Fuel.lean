import RuleExpr.Proofs.Evaluation.Lifting

/-!
# Evaluation without fuel

Fuel bounds how deep evaluations nest and has no part in the language. A computation settles on the outcome that it
has with any fuel that lets it end; there is at most one, and more fuel does not change it. `Evaluates` is the outcome
on which the evaluation of a node settles. A node without a ceiling may have none.
-/
namespace RuleExpr
open Eval

/-- The second computation does what the first one does wherever the first one's fuel lasts. -/
def Eval.Outlasts {α : Type} (x y : Eval α) : Prop :=
  ∀ m, (x m).1 ≠ .error .outOfFuel → y m = x m

theorem Eval.Outlasts.bind {α β : Type} {x y : Eval α} {f g : α → Eval β} (h : Outlasts x y)
    (hf : ∀ a, Outlasts (f a) (g a)) : Outlasts (x >>= f) (y >>= g) := by
  intro m hm
  have hx := h m
  simp only [bind_apply] at hm ⊢
  rcases hxm : x m with ⟨a | a, m'⟩
  · simp only [hxm] at hm hx ⊢
    rw [hx (by simpa using hm)]
  · simp only [hxm] at hm hx ⊢
    rw [hx (by simp)]
    exact hf a m' hm

theorem Eval.Outlasts.truth {x y : Eval Value} (h : Outlasts x y) :
    Outlasts (Eval.truth x) (Eval.truth y) := by
  intro m hm
  have hx := h m
  unfold Eval.truth at hm ⊢
  rcases hxm : x m with ⟨a | a, m'⟩
  · simp only [hxm] at hm hx ⊢
    rw [hx (by simpa using hm)]
  · simp only [hxm] at hx ⊢
    rw [hx (by simp)]

theorem Eval.Outlasts.rescue {α : Type} {x y : Eval α} {f g : Halt → Eval α} (h : Outlasts x y)
    (hf : ∀ e, e ≠ .outOfFuel → Outlasts (f e) (g e)) (hfuel : f .outOfFuel = halt .outOfFuel) :
    Outlasts (Eval.rescue x f) (Eval.rescue y g) := by
  intro m hm
  have hx := h m
  unfold Eval.rescue at hm ⊢
  rcases hxm : x m with ⟨e | a, m'⟩
  · simp only [hxm] at hm hx ⊢
    by_cases he : e = .outOfFuel
    · subst he
      rw [hfuel] at hm
      exact (hm rfl).elim
    · rw [hx (by simpa using he)]
      exact hf e he m' hm
  · simp only [hxm] at hx ⊢
    rw [hx (by simp)]

/-- Lasting longer as a relation that evaluation respects, whatever a host may do. -/
def Eval.outlasting (c : Conduct) : Congruence c where
  rel := Outlasts
  step _ _ _ := rfl
  bind := .bind
  truth := .truth
  rescue hx hf hpassed := by
    refine hx.rescue (fun e _ => ?_) (hpassed _ c.fueled).1
    by_cases he : c.catches e
    · exact hf e he
    · intro m _
      rw [(hpassed e he).1, (hpassed e he).2]

theorem FreeHost.eval_outlasts {host : FreeHost} {c : Conduct} (hhost : host.Obeys c) (ceiling : Option Int)
    {fuel fuel' : Nat} (hle : fuel ≤ fuel') (node : Value) :
    Outlasts (host.eval ceiling fuel node) (host.eval ceiling fuel' node) := by
  obtain ⟨extra, rfl⟩ := Nat.exists_eq_add_of_le' hle
  exact (outlasting c).freeEval hhost (fun _ _ => rfl) (fun _ _ h => (h rfl).elim) fuel node

/-- More fuel changes nothing where less is enough. -/
theorem eval_of_le {host : Host} {ceiling : Option Int} {fuel fuel' : Nat} (hle : fuel ≤ fuel')
    (node : Value) (m : Machine) (h : (eval host ceiling fuel node m).1 ≠ .error .outOfFuel) :
    eval host ceiling fuel' node m = eval host ceiling fuel node m := by
  have hlasts := FreeHost.eval_outlasts (host.free_obeys .reserved) ceiling hle node
  rw [host.eval_free, host.eval_free] at hlasts
  exact hlasts m h

/-! ## Outcomes -/

section
variable {α : Type} {x : Nat → Eval α} {m : Machine} {o o' : Except Halt α × Machine}

/-- Computations by fuel, of which more fuel changes none whose own fuel lasts. -/
def Eval.Lasting (x : Nat → Eval α) : Prop :=
  ∀ fuel fuel', fuel ≤ fuel' → Outlasts (x fuel) (x fuel')

/-- With enough fuel the computation ends like this. -/
def Eval.Settles (x : Nat → Eval α) (m : Machine) (o : Except Halt α × Machine) : Prop :=
  ∃ fuel, x fuel m = o ∧ o.1 ≠ .error .outOfFuel

theorem Eval.Settles.eventually (hx : Lasting x) (h : Settles x m o) :
    ∃ enough, ∀ fuel, enough ≤ fuel → x fuel m = o := by
  obtain ⟨enough, rfl, hfueled⟩ := h
  exact ⟨enough, fun fuel hle => hx enough fuel hle m hfueled⟩

theorem Eval.Settles.unique (hx : Lasting x) (h : Settles x m o) (h' : Settles x m o') : o = o' := by
  obtain ⟨n, hn⟩ := h.eventually hx
  obtain ⟨n', hn'⟩ := h'.eventually hx
  rw [← hn (max n n') (Nat.le_max_left _ _), hn' (max n n') (Nat.le_max_right _ _)]

end

theorem lasting_eval (host : Host) (ceiling : Option Int) (node : Value) : Lasting (eval host ceiling · node) :=
  fun _ _ hle m h => eval_of_le hle node m h

/-- With enough fuel the evaluation of a node where a machine stands, with a fresh count, ends like this. -/
def Evaluates (host : Host) (ceiling : Option Int) (m : Machine) (node : Value)
    (o : Except Halt Value × Machine) : Prop :=
  ∃ fuel, eval host ceiling fuel node m.renewed = o ∧ o.1 ≠ .error .outOfFuel

/-- An outcome is reached with all fuel from some amount on. -/
theorem Evaluates.eventually {host : Host} {ceiling : Option Int} {m : Machine} {node : Value}
    {o : Except Halt Value × Machine} (h : Evaluates host ceiling m node o) :
    ∃ enough, ∀ fuel, enough ≤ fuel → eval host ceiling fuel node m.renewed = o :=
  Settles.eventually (lasting_eval host ceiling node) h

theorem Evaluates.unique {host : Host} {ceiling : Option Int} {m : Machine} {node : Value}
    {o o' : Except Halt Value × Machine} (h : Evaluates host ceiling m node o)
    (h' : Evaluates host ceiling m node o') : o = o' :=
  Settles.unique (lasting_eval host ceiling node) h h'

/-! ## Free hosts -/

namespace FreeHost
variable {host : FreeHost} {c : Conduct} {ceiling : Option Int} {m : Machine} {node : Value}
variable {o o' : Except Halt Value × Machine}

theorem lasting_eval (hhost : host.Obeys c) (ceiling : Option Int) (node : Value) :
    Lasting (host.eval ceiling · node) :=
  fun _ _ hle => eval_outlasts hhost ceiling hle node

/-- With enough fuel the evaluation of a node where a machine stands, with a fresh count, ends like this. -/
def Evaluates (host : FreeHost) (ceiling : Option Int) (m : Machine) (node : Value)
    (o : Except Halt Value × Machine) : Prop :=
  Settles (host.eval ceiling · node) m.renewed o

theorem exists_evaluates {fuel : Nat} {r : Except Halt Value} (h : (host.eval ceiling fuel node m.renewed).1 = r)
    (hfueled : r ≠ .error .outOfFuel) : ∃ m', host.Evaluates ceiling m node (r, m') :=
  ⟨_, fuel, Prod.ext h rfl, hfueled⟩

theorem Evaluates.unique (hhost : host.Obeys c) (h : host.Evaluates ceiling m node o)
    (h' : host.Evaluates ceiling m node o') : o = o' :=
  Settles.unique (lasting_eval hhost ceiling node) h h'

end FreeHost

end RuleExpr
