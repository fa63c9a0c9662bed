import RuleExpr.Proofs.Printing.Trees
import RuleExpr.Proofs.Tree.Flatten

/-!
# Two ways to write a tree

A tree is written like the list of its tokens, with a space between neighbours and none inside a parenthesis
(`tree_eq_tokens`). Both ways fail at the first leaf that cannot be written.
-/
namespace RuleExpr.Printing
open Lexeme

theorem ofList_spaced_cons (text : String) (texts : List String) :
    String.ofList (spaced (text :: texts)) = " " ++ text ++ String.ofList (spaced texts) :=
  String.toList_inj.1 (by simp [spaced_cons])

theorem intercalate_cons (text : String) (texts : List String) :
    " ".intercalate (text :: texts) = text ++ String.ofList (spaced texts) := by
  rw [← String.toList_inj, toList_intercalate_cons, String.toList_append, String.toList_ofList]

/-- Behind anything but an opening parenthesis tokens are written alike. -/
theorem tokensAfter_of_ne {kind : Kind} (h : kind ≠ .openList) (ps : List (Kind × Value)) :
    tokensAfter kind ps = tokensAfter .closeList ps := by
  cases ps with
  | nil => rfl
  | cons p ps =>
      have hgap : gap kind p.1 = gap .closeList p.1 := by simp [gap, h]
      rw [tokensAfter, tokensAfter, hgap]

theorem tokensAfter_close (before : Kind) (ps : List (Kind × Value)) :
    tokensAfter before ((.closeList, .text ")") :: ps) =
      (do let others ← tokensAfter .closeList ps; return ")" ++ others) := by
  have hgap : gap before .closeList = "" := by simp [gap]
  rw [tokensAfter, hgap]
  rfl

variable {leaf : Kind → Value → Prop}

/-- Items behind one another, if each of them is written like this. -/
theorem tokensAfter_flattenAll {vs : List Value}
    (h : ∀ v ∈ vs, ∀ before ps, tokensAfter before (v.flatten ++ ps) = (do
      let text ← tree v
      let others ← tokensAfter .closeList ps
      return gap before .openList ++ text ++ others)) (ps : List (Kind × Value)) :
    tokensAfter .closeList (Value.flattenAll vs ++ ps) = (do
      let texts ← trees vs
      let others ← tokensAfter .closeList ps
      return String.ofList (spaced texts) ++ others) := by
  induction vs with
  | nil =>
      have hnothing : String.ofList (spaced []) = "" := rfl
      simp only [Value.flattenAll, List.nil_append, trees, ok_bind, hnothing, String.empty_append, bind_pure]
  | cons v vs ih =>
      obtain ⟨hv, hvs⟩ := List.forall_mem_cons.1 h
      have hgap : gap .closeList .openList = " " := rfl
      rw [Value.flattenAll, List.append_assoc, hv, ih hvs, trees, hgap]
      simp only [bind_assoc, pure_bind, ofList_spaced_cons, String.append_assoc]

theorem tokensAfter_flatten (hkind : ∀ {kind content}, leaf kind content → kind ≠ .openList ∧ kind ≠ .closeList)
    {depth : Nat} {v : Value} (h : v.IsTree leaf depth) (before : Kind) (ps : List (Kind × Value)) :
    tokensAfter before (v.flatten ++ ps) = (do
      let text ← tree v
      let others ← tokensAfter .closeList ps
      return gap before .openList ++ text ++ others) := by
  induction h generalizing before ps with
  | @leaf _ kind content hleaf =>
      obtain ⟨hopen, hclose⟩ := hkind hleaf
      have hgap : gap before kind = gap before .openList := by simp [gap, hclose]
      rw [Value.flatten, List.singleton_append, tokensAfter, tokensAfter_of_ne hopen, hgap, tree]
  | @list depth vs _ ih =>
      have hopen : token .openList (.text "(") = .ok "(" := rfl
      rw [Value.flatten, List.cons_append, List.append_assoc, List.singleton_append, tokensAfter, hopen, tree]
      cases vs with
      | nil =>
          have hnothing : " ".intercalate ([] : List String) = "" := rfl
          simp only [Value.flattenAll, List.nil_append, tokensAfter_close, trees, ok_bind, bind_assoc, pure_bind,
            hnothing, String.empty_append, String.append_assoc]
      | cons v vs =>
          obtain ⟨hv, hvs⟩ := List.forall_mem_cons.1 ih
          have hgap : gap .openList .openList = "" := rfl
          rw [Value.flattenAll, List.append_assoc, hv, tokensAfter_flattenAll hvs, tokensAfter_close, trees]
          simp only [ok_bind, bind_assoc, pure_bind, intercalate_cons, hgap, String.empty_append, String.append_assoc]

/-- A tree is written as its tokens are, or neither can be written. -/
theorem tree_eq_tokens (hkind : ∀ {kind content}, leaf kind content → kind ≠ .openList ∧ kind ≠ .closeList)
    {depth : Nat} {v : Value} (h : v.IsTree leaf depth) : tree v = tokens v.flatten := by
  have hgap : gap .openList .openList = "" := rfl
  rw [tokens_eq_tokensAfter, ← List.append_nil v.flatten, tokensAfter_flatten hkind h, tokensAfter]
  simp only [ok_bind, hgap, String.empty_append, String.append_empty, bind_pure]

end RuleExpr.Printing
