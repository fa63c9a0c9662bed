import RuleExpr.Proofs.Tree.Gather

/-!
# Flattened trees

A tree is flattened into tokens from left to right, with parentheses around the items of each list. Reading on over
lexemes that spell the tokens of a tree adds the tree to the state of the reader, with the content in each leaf that
its lexeme stands for, if there is room for the lists that the tree nests, and fails otherwise (`gather_flatten`).
-/
namespace RuleExpr

mutual

/-- The tokens of a tree from left to right. -/
def Value.flatten : Value → List (Kind × Value)
  | .token kind content => [(kind, content)]
  | .list items | .tuple items => (.openList, .text "(") :: (flattenAll items ++ [(.closeList, .text ")")])
  | _ => []

def Value.flattenAll : List Value → List (Kind × Value)
  | [] => []
  | v :: vs => flatten v ++ flattenAll vs

end

mutual

/-- The tree with other contents in its leaves. -/
def Value.mapLeaves (f : Kind → Value → Value) : Value → Value
  | .token kind content => .token kind (f kind content)
  | .list items => .list (mapLeavesOfAll f items)
  | .tuple items => .tuple (mapLeavesOfAll f items)
  | v => v

def Value.mapLeavesOfAll (f : Kind → Value → Value) : List Value → List Value
  | [] => []
  | v :: vs => mapLeaves f v :: mapLeavesOfAll f vs

end

mutual

/-- How many lists of a tree stand inside of each other, at most. -/
def Value.nesting : Value → Nat
  | .tuple items => nestingOfAll items + 1
  | _ => 0

def Value.nestingOfAll : List Value → Nat
  | [] => 0
  | v :: vs => max (nesting v) (nestingOfAll vs)

end

theorem Value.nesting_token (kind : Kind) (content : Value) : (Value.token kind content).nesting = 0 := by
  rw [nesting]
  nofun

/-- Trees that nest lists at most so deep and have such leaves. -/
inductive Value.IsTree (leaf : Kind → Value → Prop) : Nat → Value → Prop
  | leaf {depth : Nat} {kind : Kind} {content : Value} : leaf kind content → IsTree leaf depth (.token kind content)
  | list {depth : Nat} {items : List Value} : (∀ v ∈ items, IsTree leaf depth v) →
      IsTree leaf (depth + 1) (.tuple items)

namespace Tree
open Lexeme

variable {leaf : Kind → Value → Prop}

theorem mem_flattenAll {p : Kind × Value} {vs : List Value} :
    p ∈ Value.flattenAll vs ↔ ∃ v ∈ vs, p ∈ v.flatten := by
  induction vs with
  | nil => simp [Value.flattenAll]
  | cons v vs ih => rw [Value.flattenAll, List.mem_append, ih, List.exists_mem_cons_iff]

/-- The tokens of a tree are parentheses and leaves. -/
theorem mem_flatten {depth : Nat} {v : Value} (h : v.IsTree leaf depth) {p : Kind × Value} (hp : p ∈ v.flatten) :
    p = (.openList, .text "(") ∨ p = (.closeList, .text ")") ∨ leaf p.1 p.2 := by
  induction h with
  | leaf hleaf =>
      obtain rfl := List.mem_singleton.1 hp
      exact .inr (.inr hleaf)
  | list _ ih =>
      rw [Value.flatten, List.mem_cons, List.mem_append, List.mem_singleton, mem_flattenAll] at hp
      rcases hp with hp | ⟨v, hv, hp⟩ | hp
      · exact .inl hp
      · exact ih v hv hp
      · exact .inr (.inl hp)

/-- How tokens are spelled as lexemes, and which contents the leaves have that are read from them. -/
structure Spelling (leaf : Kind → Value → Prop) where
  lexeme : Kind × Value → Lexeme
  content : Kind → Value → Value
  openList : (lexeme (.openList, .text "(")).kind = .openList
  closeList : (lexeme (.closeList, .text ")")).kind = .closeList
  kind {kind : Kind} {v : Value} (h : leaf kind v) :
    (lexeme (kind, v)).kind ≠ .openList ∧ (lexeme (kind, v)).kind ≠ .closeList
  leaf {kind : Kind} {v : Value} (h : leaf kind v) : (lexeme (kind, v)).leaf = .ok (.token kind (content kind v))

theorem nestingOfAll_le_iff {vs : List Value} {n : Nat} :
    Value.nestingOfAll vs ≤ n ↔ ∀ v ∈ vs, v.nesting ≤ n := by
  induction vs with
  | nil => simp [Value.nestingOfAll]
  | cons v vs ih => rw [Value.nestingOfAll, Nat.max_le, ih, List.forall_mem_cons]

theorem nesting_le_of_isTree {depth : Nat} {v : Value} (h : v.IsTree leaf depth) : v.nesting ≤ depth := by
  induction h with
  | leaf _ =>
      rw [Value.nesting_token]
      exact Nat.zero_le _
  | list _ ih =>
      rw [Value.nesting]
      exact Nat.succ_le_succ (nestingOfAll_le_iff.2 ih)

variable (s : Spelling leaf) {limit room : Nat} {items : List Value} {outer : List (List Value)} {rest : List Lexeme}

/-- Items one after the other, if each of them is read like this. -/
theorem gather_flattenAll {vs : List Value} (h : ∀ v ∈ vs, ∀ items rest,
      gather limit items outer (v.flatten.map s.lexeme ++ rest) =
        if v.nesting ≤ room then gather limit (v.mapLeaves s.content :: items) outer rest
        else .error (.tooDeep limit)) :
    gather limit items outer ((Value.flattenAll vs).map s.lexeme ++ rest) =
      if Value.nestingOfAll vs ≤ room then
        gather limit ((Value.mapLeavesOfAll s.content vs).reverse ++ items) outer rest
      else .error (.tooDeep limit) := by
  induction vs generalizing items with
  | nil => exact (if_pos (Nat.zero_le room)).symm
  | cons v vs ih =>
      obtain ⟨hv, hvs⟩ := List.forall_mem_cons.1 h
      rw [Value.flattenAll, List.map_append, List.append_assoc, hv, Value.nestingOfAll]
      by_cases hfits : v.nesting ≤ room
      · rw [if_pos hfits, ih hvs, Value.mapLeavesOfAll, List.reverse_cons, List.append_assoc,
          List.singleton_append]
        simp only [Nat.max_le, hfits, true_and]
      · rw [if_neg hfits, if_neg fun hall => hfits (Nat.max_le.1 hall).1]

/-- Reading on over the tokens of a tree where so many more lists may be opened. -/
theorem gather_flatten {depth : Nat} {v : Value} (h : v.IsTree leaf depth) (hroom : room + outer.length + 1 = limit) :
    gather limit items outer (v.flatten.map s.lexeme ++ rest) =
      if v.nesting ≤ room then gather limit (v.mapLeaves s.content :: items) outer rest
      else .error (.tooDeep limit) := by
  induction h generalizing room items outer rest with
  | leaf hleaf =>
      obtain ⟨hopen, hclose⟩ := s.kind hleaf
      rw [Value.nesting_token, if_pos (Nat.zero_le room), Value.flatten, List.map_singleton, List.singleton_append,
        gather_of_leaf hopen hclose, s.leaf hleaf, Value.mapLeaves]
      rfl
  | @list depth vs _ ih =>
      rw [Value.flatten, List.map_cons, List.map_append, List.map_singleton, List.cons_append, List.append_assoc,
        List.singleton_append, gather_of_open s.openList, Value.nesting]
      cases room with
      | zero =>
          have hfull : (limit : Int) ≤ outer.length + 1 := by omega
          rw [if_pos hfull, if_neg (Nat.not_succ_le_zero _)]
      | succ room =>
          have hinner : room + (items :: outer).length + 1 = limit := by
            rw [List.length_cons]
            omega
          have hopen : ¬ (limit : Int) ≤ outer.length + 1 := by omega
          rw [if_neg hopen, gather_flattenAll s fun v hv items rest => ih v hv hinner]
          simp only [Nat.succ_le_succ_iff, gather_of_close_inner s.closeList, List.append_nil, List.reverse_reverse,
            Value.mapLeaves]

/-- A tree is read from its tokens if it nests lists within the limit. -/
theorem ofLexemes_flatten {depth : Nat} {vs : List Value} (h : (Value.tuple vs).IsTree leaf depth) :
    ofLexemes (room + 1 : Nat) ((Value.tuple vs).flatten.map s.lexeme ++ rest) =
      if (Value.tuple vs).nesting ≤ room + 1 then .ok ((Value.tuple vs).mapLeaves s.content, rest)
      else .error (.tooDeep (room + 1 : Nat)) := by
  cases h with
  | list hitems =>
      have hread : ∀ v ∈ vs, ∀ items rest, gather (room + 1 : Nat) items [] (v.flatten.map s.lexeme ++ rest) =
          if v.nesting ≤ room then gather (room + 1 : Nat) (v.mapLeaves s.content :: items) [] rest
          else .error (.tooDeep (room + 1 : Nat)) :=
        fun v hv items rest => gather_flatten s (hitems v hv) rfl
      rw [Value.flatten, List.map_cons, List.map_append, List.map_singleton, List.cons_append, List.append_assoc,
        List.singleton_append, ofLexemes_of_open s.openList, gather_flattenAll s hread, Value.nesting]
      simp only [Nat.succ_le_succ_iff, gather_of_close_last s.closeList, List.append_nil, List.reverse_reverse,
        Value.mapLeaves]

end Tree

end RuleExpr
