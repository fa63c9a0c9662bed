import RuleExpr.Proofs.Tree.Balance
import RuleExpr.Tree.InPlace

/-!
# One expression after the other

Reading in place does what reading a list of lexemes does (`takeFrom_eq_ok_iff`), and leaves all lexemes if it fails.
What it takes is one expression, of which its tree is made and nothing else. So reading one expression after the other
ends, with all lexemes in what was taken and what is left, each of them once (`isSeries_takeAll`).
-/
namespace RuleExpr.Tree
open Lexeme

/-- The lexemes of one expression in front of others: one that opens no list, a list up to where its parentheses
balance, or all lexemes if they never do. -/
inductive IsExpression : (taken rest : List Lexeme) → Prop
  | single {l : Lexeme} {rest : List Lexeme} : l.kind ≠ .openList → IsExpression [l] rest
  | closed {l : Lexeme} {inner rest : List Lexeme} : l.kind = .openList → Balanced (l :: inner) →
      (∀ front, front <+: l :: inner → front ≠ [] → Balanced front → front = l :: inner) →
      IsExpression (l :: inner) rest
  | unclosed {l : Lexeme} {inner : List Lexeme} : l.kind = .openList → NeverCloses (l :: inner) →
      IsExpression (l :: inner) []

/-- Whether the first expression ends among the lexemes, whatever follows them. -/
def EndsWithin (ls : List Lexeme) : Prop :=
  (∃ l rest, ls = l :: rest ∧ l.kind ≠ .openList) ∨ ∃ front, front <+: ls ∧ front ≠ [] ∧ Balanced front

variable {limit : Int} {items : List Value} {outer : List (List Value)} {tree : Value} {l : Lexeme}
  {ls rest taken : List Lexeme}

/-! ## The position -/

theorem gatherAt_eq (before ls : List Lexeme) : gatherAt limit (before ++ ls).toArray items outer before.length =
    (gather limit items outer ls).map fun (tree, rest) => (tree, (before ++ ls).length - rest.length) := by
  induction ls generalizing before items outer with
  | nil =>
      have hend : ¬ before.length < (before ++ []).toArray.size := by simp
      rw [gatherAt.eq_def, dif_neg hend]
      simp [gather, Except.map]
  | cons l ls ih =>
      have hsize : before.length < (before ++ l :: ls).toArray.size := by simp
      have hhere : (before ++ l :: ls).toArray[before.length] = l := by simp
      have hbehind : before.length + 1 = (before ++ [l]).length := by simp
      have hwhole : before ++ l :: ls = before ++ [l] ++ ls := by simp
      rw [gatherAt.eq_def, dif_pos hsize, hhere, hwhole, hbehind]
      split
      · next hopen =>
          rw [gather_of_open hopen]
          split
          · rfl
          · exact ih _
      · next hclose =>
          cases outer with
          | nil =>
              have hposition : (before ++ [l] ++ ls).length - ls.length = (before ++ [l]).length := by
                rw [List.length_append, Nat.add_sub_cancel]
              rw [gather_of_close_last hclose, ← hposition]
              rfl
          | cons enclosing outer =>
              rw [gather_of_close_inner hclose]
              exact ih _
      · next hopen hclose =>
          rw [gather_of_leaf hopen hclose]
          cases l.leaf with
          | error f => rfl
          | ok leaf => exact ih _

theorem locate_eq (limit : Int) (ls : List Lexeme) :
    locate limit ls = (ofLexemes limit ls).map fun (tree, rest) => (tree, ls.length - rest.length) := by
  cases ls with
  | nil => rfl
  | cons l ls =>
      have hone : (l :: ls).length - ls.length = 1 := by simp
      rw [locate]
      split
      · next hopen =>
          rw [ofLexemes_of_open hopen]
          exact gatherAt_eq [l] ls
      · next hclose =>
          rw [ofLexemes_of_close hclose, ← hone]
          rfl
      · next hopen hclose =>
          rw [ofLexemes_of_leaf hopen hclose, ← hone]
          cases l.leaf <;> rfl

/-! ## What is taken -/

theorem endsWithin_cons_iff (hopen : l.kind = .openList) : EndsWithin (l :: ls) ↔ ¬ StaysOpen 1 ls := by
  rw [← neverCloses_cons_iff hopen, EndsWithin, NeverCloses]
  push Not
  constructor
  · rintro (⟨first, rest, heq, hfirst⟩ | hfront)
    · obtain ⟨rfl, -⟩ := List.cons.inj heq
      exact (hfirst hopen).elim
    · exact hfront
  · exact .inr

/-- Lexemes behind the end of the first expression are left as they stand. -/
theorem ofLexemes_append (h : EndsWithin ls) (more : List Lexeme) : ofLexemes limit (ls ++ more) =
    (ofLexemes limit ls).map fun (tree, rest) => (tree, rest ++ more) := by
  cases ls with
  | nil =>
      rcases h with ⟨l, rest, heq, -⟩ | ⟨front, hfront, hne, -⟩
      · cases heq
      · exact (hne (List.prefix_nil.1 hfront)).elim
  | cons l ls =>
      rw [List.cons_append]
      by_cases hopen : l.kind = .openList
      · rw [ofLexemes_of_open hopen, ofLexemes_of_open hopen]
        have hcloses : ¬ StaysOpen (([] : List (List Value)).length + 1) ls := (endsWithin_cons_iff hopen).1 h
        exact gather_append hcloses more
      · by_cases hclose : l.kind = .closeList
        · rw [ofLexemes_of_close hclose, ofLexemes_of_close hclose]
          rfl
        · rw [ofLexemes_of_leaf hopen hclose, ofLexemes_of_leaf hopen hclose]
          cases l.leaf <;> rfl

theorem IsExpression.endsWithin (h : IsExpression taken rest) : rest = [] ∨ EndsWithin taken := by
  cases h with
  | single hopen => exact .inr (.inl ⟨_, [], rfl, hopen⟩)
  | closed _ hbalanced _ => exact .inr (.inr ⟨_, List.prefix_refl _, List.cons_ne_nil _ _, hbalanced⟩)
  | unclosed _ _ => exact .inl rfl

theorem IsExpression.ne_nil (h : IsExpression taken rest) : taken ≠ [] := by
  cases h <;> exact List.cons_ne_nil _ _

/-- What is taken off the front is one expression. -/
theorem isExpression_of_ofLexemes (h : ofLexemes limit (l :: ls) = .ok (tree, rest)) :
    ∃ taken, l :: ls = taken ++ rest ∧ IsExpression taken rest := by
  by_cases hopen : l.kind = .openList
  · rw [ofLexemes_of_open hopen] at h
    obtain ⟨inner, rfl, hcloses | ⟨rfl, hstays⟩⟩ := gather_taken h
    · refine ⟨l :: inner, rfl, .closed hopen ?_ fun front hfront hne hbalanced => ?_⟩
      · rw [Balanced, height, rise_of_open hopen]
        exact hcloses.1
      · rcases List.prefix_cons_iff.1 hfront with rfl | ⟨tail, rfl, htail⟩
        · exact (hne rfl).elim
        · by_contra hshorter
          have hpos := hcloses.2 tail htail fun heq => hshorter (congrArg (l :: ·) heq)
          rw [Balanced, height, rise_of_open hopen] at hbalanced
          exact absurd hbalanced (Int.ne_of_gt hpos)
    · exact ⟨l :: inner, rfl, .unclosed hopen ((neverCloses_cons_iff hopen).2 hstays)⟩
  · have hrest : rest = ls := by
      by_cases hclose : l.kind = .closeList
      · rw [ofLexemes_of_close hclose] at h
        exact (Prod.mk.inj (Except.ok.inj h)).2.symm
      · rw [ofLexemes_of_leaf hopen hclose, map_eq_ok_iff] at h
        obtain ⟨leaf, -, heq⟩ := h
        exact (Prod.mk.inj heq).2.symm
    exact ⟨[l], by rw [hrest]; rfl, .single hopen⟩

/-- The tree is made of what is taken. -/
theorem ofLexemes_taken (hexpression : IsExpression taken rest)
    (h : ofLexemes limit (taken ++ rest) = .ok (tree, rest)) : ofLexemes limit taken = .ok (tree, []) := by
  rcases hexpression.endsWithin with rfl | hends
  · rwa [List.append_nil] at h
  · rw [ofLexemes_append hends, map_eq_ok_iff] at h
    obtain ⟨⟨first, left⟩, htaken, heq⟩ := h
    obtain ⟨rfl, hleft⟩ := Prod.mk.inj heq
    rw [htaken, List.self_eq_append_left.1 hleft.symm]

/-! ## Reading in place -/

theorem takeFrom_eq_locate (limit : Int) (ls : List Lexeme) : takeFrom limit ls =
    match locate limit ls with
    | .error f => (.error f, ls)
    | .ok (tree, position) => (.ok tree, ls.drop position) := by
  rw [takeFrom, take]
  show ((match locate limit ls with
    | .error f => throw f
    | .ok (tree, position) => do
      set (ls.drop position)
      return tree) : ExceptT Fault (StateM (List Lexeme)) Value).run.run ls = _
  cases locate limit ls <;> rfl

/-- Where reading the list of lexemes fails, the state is as it was. -/
theorem takeFrom_of_error {f : Fault} (h : ofLexemes limit ls = .error f) : takeFrom limit ls = (.error f, ls) := by
  rw [takeFrom_eq_locate, locate_eq, h]
  rfl

theorem takeFrom_of_ok (h : ofLexemes limit ls = .ok (tree, rest)) : takeFrom limit ls = (.ok tree, rest) := by
  rw [takeFrom_eq_locate, locate_eq, h]
  cases ls with
  | nil =>
      obtain ⟨-, rfl⟩ := Prod.mk.inj (Except.ok.inj h)
      rfl
  | cons l ls =>
      obtain ⟨taken, htaken, -⟩ := isExpression_of_ofLexemes h
      have hposition : (taken ++ rest).length - rest.length = taken.length := by
        rw [List.length_append, Nat.add_sub_cancel]
      simp only [htaken, Except.map, hposition, List.drop_left]

theorem takeFrom_eq_ok_iff : takeFrom limit ls = (.ok tree, rest) ↔ ofLexemes limit ls = .ok (tree, rest) := by
  cases hread : ofLexemes limit ls with
  | error f => simp [takeFrom_of_error hread]
  | ok r => simp [takeFrom_of_ok hread, Prod.ext_iff]

theorem takeFrom_eq_error_iff {f : Fault} {left : List Lexeme} :
    takeFrom limit ls = (.error f, left) ↔ ofLexemes limit ls = .error f ∧ left = ls := by
  cases hread : ofLexemes limit ls with
  | error f => simp [takeFrom_of_error hread, eq_comm]
  | ok r => simp [takeFrom_of_ok hread]

/-! ## One after the other -/

/-- What a row of readings took off the front, with the tree of each, what it left, and the fault that ended it if
not all was read. -/
structure Series where
  taken : List (List Lexeme × Value)
  left : List Lexeme
  fault : Option Fault

/-- Reads expressions in place until no lexemes are left or one cannot be read. -/
def takeAll (limit : Int) (ls : List Lexeme) : Series :=
  match ls with
  | [] => ⟨[], [], none⟩
  | l :: ls =>
    match h : takeFrom limit (l :: ls) with
    | (.error f, left) => ⟨[], left, some f⟩
    | (.ok tree, rest) =>
      have : rest.length ≤ ls.length := Nat.le_of_lt_succ (ofLexemes_length_lt (takeFrom_eq_ok_iff.1 h))
      let later := takeAll limit rest
      ⟨((l :: ls).take ((l :: ls).length - rest.length), tree) :: later.taken, later.left, later.fault⟩
termination_by ls.length

theorem takeAll_of_error {f : Fault} (h : ofLexemes limit (l :: ls) = .error f) :
    takeAll limit (l :: ls) = ⟨[], l :: ls, some f⟩ := by
  rw [takeAll]
  split
  · next fault left hfails =>
      obtain ⟨hfault, rfl⟩ := takeFrom_eq_error_iff.1 hfails
      rw [Except.error.inj (hfault.symm.trans h)]
  · next tree rest htaken => cases (takeFrom_eq_ok_iff.1 htaken).symm.trans h

theorem takeAll_of_ok (h : ofLexemes limit (taken ++ rest) = .ok (tree, rest)) (hne : taken ≠ []) :
    takeAll limit (taken ++ rest) =
      ⟨(taken, tree) :: (takeAll limit rest).taken, (takeAll limit rest).left, (takeAll limit rest).fault⟩ := by
  obtain ⟨l, inner, rfl⟩ := List.exists_cons_of_ne_nil hne
  rw [List.cons_append] at h ⊢
  rw [takeAll]
  split
  · next fault left hfails => cases h.symm.trans (takeFrom_eq_error_iff.1 hfails).1
  · next other left htaken =>
      obtain ⟨rfl, rfl⟩ := Prod.mk.inj (Except.ok.inj ((takeFrom_eq_ok_iff.1 htaken).symm.trans h))
      have hfront : (l :: (inner ++ left)).take ((l :: (inner ++ left)).length - left.length) = l :: inner := by
        rw [← List.cons_append, List.length_append, Nat.add_sub_cancel, List.take_left]
      rw [hfront]

/-- What is known of a row of readings when it has ended. -/
structure IsSeries (limit : Int) (ls : List Lexeme) (s : Series) : Prop where
  joined : (s.taken.map (·.1)).flatten ++ s.left = ls
  single : ∀ p ∈ s.taken, p.1 ≠ [] ∧ takeFrom limit p.1 = (.ok p.2, [])
  stops : match s.fault with
    | none => s.left = []
    | some f => takeFrom limit s.left = (.error f, s.left)

theorem isSeries_takeAll (limit : Int) (ls : List Lexeme) : IsSeries limit ls (takeAll limit ls) := by
  match ls with
  | [] =>
      rw [takeAll]
      exact ⟨rfl, List.forall_mem_nil _, rfl⟩
  | l :: ls =>
      cases hread : ofLexemes limit (l :: ls) with
      | error f =>
          rw [takeAll_of_error hread]
          exact ⟨rfl, List.forall_mem_nil _, takeFrom_eq_error_iff.2 ⟨hread, rfl⟩⟩
      | ok r =>
          obtain ⟨tree, rest⟩ := r
          have hshorter : rest.length ≤ ls.length := Nat.le_of_lt_succ (ofLexemes_length_lt hread)
          obtain ⟨taken, htaken, hexpression⟩ := isExpression_of_ofLexemes hread
          have later := isSeries_takeAll limit rest
          rw [htaken] at hread ⊢
          rw [takeAll_of_ok hread hexpression.ne_nil]
          refine ⟨?_, List.forall_mem_cons.2 ⟨⟨hexpression.ne_nil, ?_⟩, later.single⟩, later.stops⟩
          · rw [List.map_cons, List.flatten_cons, List.append_assoc, later.joined]
          · exact takeFrom_eq_ok_iff.2 (ofLexemes_taken hexpression hread)
termination_by ls.length

/-- There are no more readings than lexemes. -/
theorem IsSeries.length_le {s : Series} (h : IsSeries limit ls s) : s.taken.length ≤ ls.length := by
  have hlengths : ∀ n ∈ s.taken.map (·.1.length), 1 ≤ n := by
    rw [List.forall_mem_map]
    exact fun p hp => List.length_pos_iff.2 (h.single p hp).1
  have hsum := List.card_nsmul_le_sum _ 1 hlengths
  rw [List.length_map, smul_eq_mul, Nat.mul_one] at hsum
  have hall := congrArg List.length h.joined
  rw [List.length_append, List.length_flatten, List.map_map] at hall
  exact hsum.trans (hall ▸ Nat.le_add_right _ _)

/-- Reading in place leaves all lexemes as they are or takes one expression off the front, and its tree depends on
nothing else. One expression after the other, this ends, and no lexeme is lost or read twice. -/
theorem takeFrom_takes_one_expression (limit : Int) (ls : List Lexeme) :
    (∀ f left, takeFrom limit ls = (.error f, left) → left = ls) ∧
      (∀ tree rest, takeFrom limit ls = (.ok tree, rest) → ls ≠ [] →
        ∃ taken, ls = taken ++ rest ∧ IsExpression taken rest ∧ takeFrom limit taken = (.ok tree, [])) ∧
      (EndsWithin ls → ∀ more, takeFrom limit (ls ++ more) = (takeFrom limit ls).map id (· ++ more)) ∧
      IsSeries limit ls (takeAll limit ls) ∧ (takeAll limit ls).taken.length ≤ ls.length := by
  refine ⟨fun f left h => (takeFrom_eq_error_iff.1 h).2, fun tree rest h hne => ?_, fun hends more => ?_, ?_, ?_⟩
  · obtain ⟨l, inner, rfl⟩ := List.exists_cons_of_ne_nil hne
    have hread := takeFrom_eq_ok_iff.1 h
    obtain ⟨taken, htaken, hexpression⟩ := isExpression_of_ofLexemes hread
    rw [htaken] at hread
    exact ⟨taken, htaken, hexpression, takeFrom_eq_ok_iff.2 (ofLexemes_taken hexpression hread)⟩
  · cases hread : ofLexemes limit ls with
    | error f =>
        have happend : ofLexemes limit (ls ++ more) = .error f := by
          rw [ofLexemes_append hends, hread]
          rfl
        rw [takeFrom_of_error happend, takeFrom_of_error hread]
        rfl
    | ok r =>
        have happend : ofLexemes limit (ls ++ more) = .ok (r.1, r.2 ++ more) := by
          rw [ofLexemes_append hends, hread]
          rfl
        rw [takeFrom_of_ok happend, takeFrom_of_ok hread]
        rfl
  · exact isSeries_takeAll limit ls
  · exact (isSeries_takeAll limit ls).length_le

end RuleExpr.Tree
