import RuleExpr.Proofs.Tree.Flatten
import RuleExpr.Proofs.Printing.Trees

/-!
# Nesting of lists

Raw trees have leaves with the texts of lexemes. A raw tree whose leaves have values is read back from its tokens,
with these values, exactly if it nests lists no deeper than the limit. Only lists inside of each other count.
-/
namespace RuleExpr.Tree
open Lexeme

/-- The lexeme of a token that has a text. -/
def rawLexeme (p : Kind × Value) : Lexeme :=
  match p.2 with
  | .text text => ⟨p.1, text⟩
  | _ => ⟨p.1, ""⟩

/-- The content of a leaf that is read from its raw text. -/
def castContent (kind : Kind) (raw : Value) : Value :=
  (rawLexeme (kind, raw)).content.toOption.getD raw

/-- Leaves with a raw text that has a value. -/
def IsRawLeaf (kind : Kind) (raw : Value) : Prop :=
  kind ≠ .openList ∧ kind ≠ .closeList ∧
    ∃ text v, raw = .text text ∧ (⟨kind, text⟩ : Lexeme).content = .ok v

def rawSpelling : Spelling IsRawLeaf where
  lexeme := rawLexeme
  content := castContent
  openList := rfl
  closeList := rfl
  kind := by
    rintro kind raw ⟨hopen, hclose, text, v, rfl, -⟩
    exact ⟨hopen, hclose⟩
  leaf := by
    rintro kind raw ⟨-, -, text, v, rfl, hcontent⟩
    have hlexeme : rawLexeme (kind, .text text) = ⟨kind, text⟩ := rfl
    rw [castContent, hlexeme, leaf, hcontent]
    rfl

/-- Trees that were read nest lists within the depth that they were read for. -/
theorem nesting_le_of_parsed {depth : Nat} {v : Value} (h : Parsed depth v) : v.nesting ≤ depth := by
  induction h with
  | leaf _ _ _ hleaf =>
      obtain ⟨content, -, rfl⟩ := map_eq_ok_iff.1 hleaf
      rw [Value.nesting_token]
      exact Nat.zero_le _
  | list _ ih =>
      rw [Value.nesting]
      exact Nat.succ_le_succ (nestingOfAll_le_iff.2 ih)

/-- A raw tree comes back from its tokens, in front of whatever follows, if it nests lists within the limit, and is too
deep otherwise. What is read from a source nests no deeper than that. -/
theorem ofLexemes_flattened {limit : Int} (hlimit : 1 ≤ limit) {depth : Nat} {vs : List Value}
    (h : (Value.tuple vs).IsTree IsRawLeaf depth) (rest : List Lexeme) :
    (ofLexemes limit ((Value.tuple vs).flatten.map rawLexeme ++ rest) =
      if (Value.tuple vs).nesting ≤ limit then .ok ((Value.tuple vs).mapLeaves castContent, rest)
      else .error (.tooDeep limit)) ∧
      ∀ source r, read source = .ok r → r.tree.nesting ≤ 128 := by
  constructor
  · obtain ⟨room, rfl⟩ : ∃ room : Nat, limit = (room + 1 : Nat) := ⟨(limit - 1).toNat, by omega⟩
    simp only [Nat.cast_le]
    exact ofLexemes_flatten rawSpelling h
  · intro source r hread
    obtain ⟨items, htree, hitems⟩ := read_parsed hread
    rw [htree, Value.nesting]
    exact Nat.succ_le_succ (nestingOfAll_le_iff.2 fun v hv => nesting_le_of_parsed (hitems v hv))

/-- Two lists stand inside of the outer one, but not inside of each other. -/
theorem ofLexemes_flattened_siblings :
    let raw : Value := .tuple [.token .var (.text "f"), .tuple [.token .num (.text "-07")],
      .tuple [.token .date (.text "20120101"), .token .str (.text "\\\"")]]
    (1 : Int) ≤ 2 ∧ raw.IsTree IsRawLeaf 2 ∧ raw.nesting = 2 ∧
      ofLexemes 2 (raw.flatten.map rawLexeme ++ [⟨.closeList, ")"⟩]) =
        .ok (.tuple [.token .var (.text "f"), .tuple [.token .num (.int (-7))],
          .tuple [.token .date (.date ⟨⟨2012, 1, 1, by decide⟩, .midnight, some .utc⟩),
            .token .str (.text "\\\"")]], [⟨.closeList, ")"⟩]) ∧
      ofLexemes 1 (raw.flatten.map rawLexeme ++ [⟨.closeList, ")"⟩]) = .error (.tooDeep 1) := by
  intro raw
  have hraw : raw.IsTree IsRawLeaf 2 := by
    refine .list ?_
    simp only [List.forall_mem_cons]
    refine ⟨.leaf ⟨by decide, by decide, "f", _, rfl, rfl⟩, .list ?_, .list ?_, List.forall_mem_nil _⟩
    · rw [List.forall_mem_singleton]
      exact .leaf ⟨by decide, by decide, "-07", .int (-7), rfl, rfl⟩
    · simp only [List.forall_mem_cons]
      exact ⟨.leaf ⟨by decide, by decide, "20120101", _, rfl, rfl⟩,
        .leaf ⟨by decide, by decide, "\\\"", _, rfl, rfl⟩, List.forall_mem_nil _⟩
  have hnesting : raw.nesting = 2 := rfl
  refine ⟨by decide, hraw, hnesting, ?_, ?_⟩
  · have hlimit : (1 : Int) ≤ 2 := by decide
    have hread := (ofLexemes_flattened hlimit hraw [⟨.closeList, ")"⟩]).1
    rw [hnesting, if_pos (by decide)] at hread
    exact hread
  · have hread := (ofLexemes_flattened (Int.le_refl 1) hraw [⟨.closeList, ")"⟩]).1
    rw [hnesting, if_neg (by decide)] at hread
    exact hread

end RuleExpr.Tree
