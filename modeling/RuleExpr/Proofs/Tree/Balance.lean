import RuleExpr.Proofs.Tree.Gather

/-!
# Balance of parentheses

The height of lexemes counts the lists that they open and do not close. Reading inside of open lists ends with the
first front that brings the height down by their number (`gather_taken`), and what follows it is left as it stands
(`gather_append`). If no front does, all lexemes are read, and closing parentheses behind them close the lists that
the end of the lexemes would have closed (`gather_append_closers`).
-/
namespace RuleExpr.Tree
open Lexeme

/-- How many more lists the lexemes open than they close. -/
def height : List Lexeme → Int
  | [] => 0
  | l :: ls => rise l + height ls

/-- As many lists are opened as are closed. -/
def Balanced (ls : List Lexeme) : Prop := height ls = 0

/-- Of so many open lists some are open behind every front. -/
def StaysOpen (opened : Int) (ls : List Lexeme) : Prop :=
  ∀ front, front <+: ls → 0 < opened + height front

/-- Of so many open lists the last one is closed by the last lexeme. -/
def Closes (opened : Int) (ls : List Lexeme) : Prop :=
  opened + height ls = 0 ∧ ∀ front, front <+: ls → front ≠ ls → 0 < opened + height front

/-- Parentheses balance in no front, the empty one apart. -/
def NeverCloses (ls : List Lexeme) : Prop :=
  ∀ front, front <+: ls → front ≠ [] → ¬ Balanced front

variable {limit opened : Int} {items : List Value} {outer : List (List Value)} {tree : Value} {l : Lexeme}
  {ls rest closers : List Lexeme}

theorem staysOpen_nil (h : 0 < opened) : StaysOpen opened [] := by
  intro front hfront
  rw [List.prefix_nil.1 hfront, height, Int.add_zero]
  exact h

theorem StaysOpen.pos (h : StaysOpen opened ls) : 0 < opened := by
  have hnil := h [] List.nil_prefix
  rwa [height, Int.add_zero] at hnil

theorem staysOpen_cons_iff : StaysOpen opened (l :: ls) ↔ 0 < opened ∧ StaysOpen (opened + rise l) ls := by
  constructor
  · intro h
    refine ⟨h.pos, fun front hfront => ?_⟩
    have hlonger := h (l :: front) ((List.prefix_cons_inj l).2 hfront)
    rw [height] at hlonger
    omega
  · rintro ⟨hpos, h⟩ front hfront
    rcases List.prefix_cons_iff.1 hfront with rfl | ⟨tail, rfl, htail⟩
    · rwa [height, Int.add_zero]
    · have hshorter := h tail htail
      rw [height]
      omega

instance StaysOpen.decidable : (opened : Int) → (ls : List Lexeme) → Decidable (StaysOpen opened ls)
  | opened, [] => decidable_of_iff (0 < opened) ⟨staysOpen_nil, StaysOpen.pos⟩
  | opened, l :: ls =>
    have := StaysOpen.decidable (opened + rise l) ls
    decidable_of_iff (0 < opened ∧ StaysOpen (opened + rise l) ls) staysOpen_cons_iff.symm

theorem Closes.cons (hpos : 0 < opened) (h : Closes (opened + rise l) ls) : Closes opened (l :: ls) := by
  obtain ⟨hall, hfronts⟩ := h
  refine ⟨?_, fun front hfront hne => ?_⟩
  · rw [height]
    omega
  · rcases List.prefix_cons_iff.1 hfront with rfl | ⟨tail, rfl, htail⟩
    · rwa [height, Int.add_zero]
    · have hshorter := hfronts tail htail fun heq => hne (congrArg (l :: ·) heq)
      rw [height]
      omega

theorem closes_singleton (h : rise l = -1) : Closes 1 [l] := by
  refine ⟨?_, fun front hfront hne => ?_⟩
  · rw [height, height, h]
    rfl
  · rcases List.prefix_cons_iff.1 hfront with rfl | ⟨tail, rfl, htail⟩
    · rw [height]
      decide
    · rw [List.prefix_nil.1 htail] at hne
      exact (hne rfl).elim

theorem Closes.not_staysOpen {front : List Lexeme} (h : Closes opened front) (hfront : front <+: ls) :
    ¬ StaysOpen opened ls := by
  intro hstays
  have hpos := hstays front hfront
  have hclosed := h.1
  omega

/-- The height falls by one lexeme at a time, so open lists are not all closed without a front that just closes
them. -/
theorem staysOpen_of_ne_zero (hpos : 0 < opened) (h : ∀ front, front <+: ls → opened + height front ≠ 0) :
    StaysOpen opened ls := by
  induction ls generalizing opened with
  | nil => exact staysOpen_nil hpos
  | cons l ls ih =>
      have hfirst := h [l] (List.prefix_append [l] ls)
      have hfall := neg_one_le_rise l
      rw [height, height] at hfirst
      refine staysOpen_cons_iff.2 ⟨hpos, ih (by omega) fun front hfront => ?_⟩
      have hne := h (l :: front) ((List.prefix_cons_inj l).2 hfront)
      rw [height] at hne
      omega

/-- A list never closes if it stays open over all that is behind its parenthesis. -/
theorem neverCloses_cons_iff (hopen : l.kind = .openList) : NeverCloses (l :: ls) ↔ StaysOpen 1 ls := by
  constructor
  · intro h
    refine staysOpen_of_ne_zero (by decide) fun front hfront hzero => ?_
    refine h (l :: front) ((List.prefix_cons_inj l).2 hfront) (List.cons_ne_nil l front) ?_
    rw [Balanced, height, rise_of_open hopen]
    exact hzero
  · intro h front hfront hne hbalanced
    rcases List.prefix_cons_iff.1 hfront with rfl | ⟨tail, rfl, htail⟩
    · exact hne rfl
    · have hpos := h tail htail
      rw [Balanced, height, rise_of_open hopen] at hbalanced
      omega

/-! ## Reading inside of open lists -/

/-- What is read is a front that closes the open lists or stays open to the end. -/
theorem gather_taken (h : gather limit items outer ls = .ok (tree, rest)) : ∃ taken, ls = taken ++ rest ∧
    (Closes (outer.length + 1) taken ∨ rest = [] ∧ StaysOpen (outer.length + 1) taken) := by
  induction ls generalizing items outer with
  | nil =>
      rw [gather] at h
      obtain ⟨-, rfl⟩ := Prod.mk.inj (Except.ok.inj h)
      exact ⟨[], rfl, .inr ⟨rfl, staysOpen_nil (by omega)⟩⟩
  | cons l ls ih =>
      cases gather_step limit items outer l with
      | fails f hfails => cases (hfails ls).symm.trans h
      | ends houter hrise hends =>
          obtain ⟨-, rfl⟩ := Prod.mk.inj (Except.ok.inj ((hends ls).symm.trans h))
          subst houter
          exact ⟨[l], rfl, .inl (closes_singleton hrise)⟩
      | leads items' outer' hlevel hleads =>
          rw [hleads] at h
          obtain ⟨taken, rfl, htaken⟩ := ih h
          have hopened : (outer'.length : Int) + 1 = outer.length + 1 + rise l := by omega
          rw [hopened] at htaken
          refine ⟨l :: taken, rfl, htaken.imp (Closes.cons (by omega)) ?_⟩
          rintro ⟨hrest, hstays⟩
          exact ⟨hrest, staysOpen_cons_iff.2 ⟨by omega, hstays⟩⟩

/-- What follows a front that closes the open lists is left as it stands. -/
theorem gather_append (h : ¬ StaysOpen (outer.length + 1) ls) (more : List Lexeme) :
    gather limit items outer (ls ++ more) =
      (gather limit items outer ls).map fun (tree, rest) => (tree, rest ++ more) := by
  induction ls generalizing items outer with
  | nil => exact (h (staysOpen_nil (by omega))).elim
  | cons l ls ih =>
      rw [List.cons_append]
      cases gather_step limit items outer l with
      | fails f hfails =>
          rw [hfails, hfails]
          rfl
      | ends _ _ hends =>
          rw [hends, hends]
          rfl
      | leads items' outer' hlevel hleads =>
          rw [hleads, hleads]
          refine ih fun hstays => h (staysOpen_cons_iff.2 ⟨by omega, ?_⟩)
          have hopened : (outer'.length : Int) + 1 = outer.length + 1 + rise l := by omega
          rwa [hopened] at hstays

/-- Closing parentheses close the open lists as the end of the lexemes does. -/
theorem gather_closers (h : ∀ l ∈ closers, l.kind = .closeList) :
    gather limit items outer closers = .ok (closeAll items outer, closers.drop (outer.length + 1)) := by
  induction closers generalizing items outer with
  | nil => rw [gather, List.drop_nil]
  | cons l closers ih =>
      obtain ⟨hclose, hclosers⟩ := List.forall_mem_cons.1 h
      cases outer with
      | nil => exact gather_of_close_last hclose
      | cons enclosing outer =>
          rw [gather_of_close_inner hclose, ih hclosers, closeAll, List.length_cons, List.drop_succ_cons]

/-- Closing parentheses behind lists that are still open change nothing but what is left of them. -/
theorem gather_append_closers (hclosers : ∀ l ∈ closers, l.kind = .closeList)
    (h : StaysOpen (outer.length + 1) ls) : gather limit items outer (ls ++ closers) =
      (gather limit items outer ls).map fun (tree, _) =>
        (tree, closers.drop (outer.length + 1 + height ls).toNat) := by
  induction ls generalizing items outer with
  | nil =>
      have hlevel : (outer.length + 1 + height []).toNat = outer.length + 1 := by
        rw [height]
        omega
      rw [List.nil_append, gather_closers hclosers, hlevel]
      rfl
  | cons l ls ih =>
      obtain ⟨-, hstays⟩ := staysOpen_cons_iff.1 h
      rw [List.cons_append]
      cases gather_step limit items outer l with
      | fails f hfails =>
          rw [hfails, hfails]
          rfl
      | ends houter hrise _ =>
          have hpos := hstays.pos
          rw [houter, hrise] at hpos
          exact absurd hpos (by decide)
      | leads items' outer' hlevel hleads =>
          have hopened : (outer'.length : Int) + 1 = outer.length + 1 + rise l := by omega
          rw [← hopened] at hstays
          rw [hleads, hleads, ih hstays, hopened, height, Int.add_assoc]

/-! ## Lists without an end -/

/-- A list that never closes takes all lexemes, and means the same if some or all of the lists that are still open are
closed behind it. Further parentheses are left. -/
theorem ofLexemes_append_closers (limit : Int) (hopen : l.kind = .openList) (hnever : NeverCloses (l :: ls))
    (hclosers : ∀ c ∈ closers, c.kind = .closeList) :
    0 < height (l :: ls) ∧ (∀ tree rest, ofLexemes limit (l :: ls) = .ok (tree, rest) → rest = []) ∧
      (closers.length ≤ height (l :: ls) → ofLexemes limit (l :: ls ++ closers) = ofLexemes limit (l :: ls)) ∧
      ofLexemes limit (l :: ls ++ closers) =
        (ofLexemes limit (l :: ls)).map fun (tree, _) => (tree, closers.drop (height (l :: ls)).toNat) := by
  have hstays := (neverCloses_cons_iff hopen).1 hnever
  have hheight : height (l :: ls) = 1 + height ls := by
    rw [height, rise_of_open hopen]
  have hall : ∀ tree rest, ofLexemes limit (l :: ls) = .ok (tree, rest) → rest = [] := by
    intro tree rest h
    rw [ofLexemes_of_open hopen] at h
    obtain ⟨taken, htaken, hcloses | ⟨hrest, -⟩⟩ := gather_taken h
    · exact (hcloses.not_staysOpen ⟨rest, htaken.symm⟩ hstays).elim
    · exact hrest
  have hclosed : ofLexemes limit (l :: ls ++ closers) =
      (ofLexemes limit (l :: ls)).map fun (tree, _) => (tree, closers.drop (height (l :: ls)).toNat) := by
    rw [List.cons_append, ofLexemes_of_open hopen, ofLexemes_of_open hopen, hheight]
    exact gather_append_closers hclosers hstays
  refine ⟨?_, hall, fun hfew => ?_, hclosed⟩
  · rw [hheight]
    exact hstays ls (List.prefix_refl ls)
  · have hdrop : closers.drop (height (l :: ls)).toNat = [] := List.drop_eq_nil_of_le (by omega)
    rw [hclosed, hdrop]
    cases hread : ofLexemes limit (l :: ls) with
    | error f => rfl
    | ok r =>
        obtain ⟨tree, rest⟩ := r
        rw [hall tree rest hread]
        rfl

/-- Two lists are open. One parenthesis too many is left. -/
theorem ofLexemes_append_closers_nested :
    let ls : List Lexeme := [⟨.openList, "("⟩, ⟨.var, "a"⟩, ⟨.openList, "("⟩, ⟨.var, "b"⟩]
    let closers (n : Nat) : List Lexeme := List.replicate n ⟨.closeList, ")"⟩
    NeverCloses ls ∧ height ls = 2 ∧ ofLexemes 2 (ls ++ closers 1) = ofLexemes 2 ls ∧
      ofLexemes 2 (ls ++ closers 2) = ofLexemes 2 ls ∧
      (ofLexemes 2 (ls ++ closers 3) = (ofLexemes 2 ls).map fun (tree, _) => (tree, closers 1)) ∧
      ofLexemes 1 (ls ++ closers 2) = .error (.tooDeep 1) := by
  intro ls closers
  have hnever : NeverCloses ls := (neverCloses_cons_iff rfl).2 (by decide)
  have hclosers (n : Nat) : ∀ c ∈ closers n, c.kind = .closeList := by
    intro c hc
    rw [List.eq_of_mem_replicate hc]
  refine ⟨hnever, rfl, ?_, ?_, ?_, ?_⟩
  · exact (ofLexemes_append_closers 2 rfl hnever (hclosers 1)).2.2.1 (by decide)
  · exact (ofLexemes_append_closers 2 rfl hnever (hclosers 2)).2.2.1 (by decide)
  · exact (ofLexemes_append_closers 2 rfl hnever (hclosers 3)).2.2.2
  · rw [(ofLexemes_append_closers 1 rfl hnever (hclosers 2)).2.2.1 (by decide)]
    rfl

end RuleExpr.Tree
