import RuleExpr.Proofs.Printing.DateTimes
import RuleExpr.Proofs.Printing.Flatten
import RuleExpr.Proofs.Tree.Balance

/-!
# Writing what was read

Lexemes are written one after the other, a tree is written item by item. The tokens of a tree that was read are those
of the lexemes that were taken, each with the value of its lexeme, and behind them a closing parenthesis for every list
that is still open (`flatten_gather`). So it does not matter whether lexemes are written as a tree or as they stand
(`reading_keeps_the_text`). Only the parentheses of trees have a fixed text, those of lexemes may have any; neither is
looked at when they are written.
-/
namespace RuleExpr

/-- The token of a lexeme, with the value that its raw text stands for. -/
def Lexeme.typed (l : Lexeme) : Except Fault (Kind × Value) := l.content.map (l.kind, ·)

theorem Lexeme.content_paren {l : Lexeme} (h : l.kind = .openList ∨ l.kind = .closeList) :
    l.content = .ok (.text l.text) := by
  obtain ⟨kind, text⟩ := l
  rcases h with rfl | rfl <;> rfl

namespace Printing
open Lexeme

/-! ## Parentheses -/

/-- A token, with the usual text if it is a parenthesis. -/
def usual : Kind × Value → Kind × Value
  | (.openList, _) => (.openList, .text "(")
  | (.closeList, _) => (.closeList, .text ")")
  | p => p

theorem usual_of_leaf {p : Kind × Value} (hopen : p.1 ≠ .openList) (hclose : p.1 ≠ .closeList) : usual p = p := by
  obtain ⟨kind, content⟩ := p
  cases kind with
  | openList => exact (hopen rfl).elim
  | closeList => exact (hclose rfl).elim
  | fn | var | num | date | blank | str => rfl

theorem kind_usual (p : Kind × Value) : (usual p).1 = p.1 := by
  obtain ⟨kind, content⟩ := p
  cases kind <;> rfl

theorem token_usual (p : Kind × Value) : token (usual p).1 (usual p).2 = token p.1 p.2 := by
  obtain ⟨kind, content⟩ := p
  cases kind <;> rfl

theorem tokensAfter_usual (before : Kind) (ps : List (Kind × Value)) :
    tokensAfter before (ps.map usual) = tokensAfter before ps := by
  induction ps generalizing before with
  | nil => rfl
  | cons p ps ih => rw [List.map_cons, tokensAfter, tokensAfter, token_usual, kind_usual, ih]

/-! ## Typed tokens -/

/-- What a lexeme stands for can be written. -/
theorem token_of_typed {l : Lexeme} {p : Kind × Value} (h : l.typed = .ok p) : ∃ text, token p.1 p.2 = .ok text := by
  obtain ⟨content, hcontent, rfl⟩ := map_eq_ok_iff.1 h
  obtain ⟨kind, text⟩ := l
  cases kind with
  | num =>
      rcases number_eq_ok hcontent with ⟨x, rfl, -, -⟩ | ⟨n, rfl, -, hn⟩
      · exact ⟨_, token_float x⟩
      · exact ⟨_, token_int (Numeral.isWritable_of_toInt hn)⟩
  | date =>
      obtain ⟨d, rfl, -⟩ := dateTime_eq_ok hcontent
      exact ⟨_, token_date d⟩
  | openList | closeList | fn | var | blank | str =>
      obtain rfl := Except.ok.inj hcontent
      exact ⟨_, token_eq_written ⟨_, text⟩⟩

theorem exists_typed_of_mem {ls : List Lexeme} {ps : List (Kind × Value)} (h : ls.mapM typed = .ok ps) :
    ∀ p ∈ ps, ∃ l : Lexeme, l.typed = .ok p := by
  induction ls generalizing ps with
  | nil =>
      obtain rfl := Except.ok.inj h
      exact List.forall_mem_nil _
  | cons l ls ih =>
      rw [List.mapM_cons, bind_eq_ok_iff] at h
      obtain ⟨p, hp, hlater⟩ := h
      obtain ⟨qs, hqs, heq⟩ := bind_eq_ok_iff.1 hlater
      obtain rfl := Except.ok.inj heq
      exact List.forall_mem_cons.2 ⟨⟨l, hp⟩, ih hqs⟩

theorem tokensAfter_eq_ok {ps : List (Kind × Value)} (h : ∀ p ∈ ps, ∃ text, token p.1 p.2 = .ok text)
    (before : Kind) : ∃ text, tokensAfter before ps = .ok text := by
  induction ps generalizing before with
  | nil => exact ⟨_, rfl⟩
  | cons p ps ih =>
      obtain ⟨⟨first, hfirst⟩, hothers⟩ := List.forall_mem_cons.1 h
      obtain ⟨others, hothers⟩ := ih hothers p.1
      refine ⟨gap before p.1 ++ first ++ others, ?_⟩
      rw [tokensAfter, hfirst, hothers]
      rfl

end Printing

namespace Tree
open Lexeme Printing

variable {limit opened : Int} {items : List Value} {outer : List (List Value)} {tree : Value} {l : Lexeme}
  {ls rest : List Lexeme}

/-! ## Tokens of open lists -/

theorem flattenAll_append (vs ws : List Value) :
    Value.flattenAll (vs ++ ws) = Value.flattenAll vs ++ Value.flattenAll ws := by
  induction vs with
  | nil => rfl
  | cons v vs ih => rw [List.cons_append, Value.flattenAll, Value.flattenAll, ih, List.append_assoc]

/-- The tokens of the open lists, from the outermost parenthesis to the last item of the innermost list. -/
def openTokens (items : List Value) : (outer : List (List Value)) → List (Kind × Value)
  | [] => (.openList, .text "(") :: Value.flattenAll items.reverse
  | enclosing :: outer => openTokens enclosing outer ++ (.openList, .text "(") :: Value.flattenAll items.reverse

theorem openTokens_item (v : Value) (items : List Value) (outer : List (List Value)) :
    openTokens (v :: items) outer = openTokens items outer ++ v.flatten := by
  have hitems : Value.flattenAll (v :: items).reverse = Value.flattenAll items.reverse ++ v.flatten := by
    rw [List.reverse_cons, flattenAll_append, Value.flattenAll, Value.flattenAll, List.append_nil]
  cases outer with
  | nil => rw [openTokens, openTokens, hitems, List.cons_append]
  | cons enclosing outer => rw [openTokens, openTokens, hitems, List.append_assoc, List.cons_append]

theorem openTokens_open (items : List Value) (outer : List (List Value)) :
    openTokens [] (items :: outer) = openTokens items outer ++ [(.openList, .text "(")] := rfl

theorem openTokens_close (items enclosing : List Value) (outer : List (List Value)) :
    openTokens (.tuple items.reverse :: enclosing) outer =
      openTokens items (enclosing :: outer) ++ [(.closeList, .text ")")] := by
  rw [openTokens_item, Value.flatten, openTokens, List.append_assoc, List.cons_append]

/-- Closing the open lists adds a parenthesis for each of them. -/
theorem flatten_closeAll (items : List Value) (outer : List (List Value)) : (closeAll items outer).flatten =
    openTokens items outer ++ List.replicate (outer.length + 1) (.closeList, .text ")") := by
  induction outer generalizing items with
  | nil => rw [closeAll, Value.flatten, openTokens, List.cons_append]; rfl
  | cons enclosing outer ih =>
      rw [closeAll, ih, openTokens_close, List.append_assoc, List.length_cons, List.singleton_append,
        ← List.replicate_succ]

/-! ## Tokens of what was read -/

theorem typed_paren (h : l.kind = .openList ∨ l.kind = .closeList) : l.typed = .ok (l.kind, .text l.text) := by
  rw [typed, content_paren h]
  rfl

/-- Lexemes that were taken from a state of the reader, their tokens, and the tree that they make up with the state. -/
structure Taken (items : List Value) (outer : List (List Value)) (tree : Value) (taken : List Lexeme)
    (ps : List (Kind × Value)) : Prop where
  typed : taken.mapM Lexeme.typed = .ok ps
  opened : 0 ≤ outer.length + 1 + height taken
  flatten : tree.flatten = openTokens items outer ++ ps.map usual ++
    List.replicate (outer.length + 1 + height taken).toNat (.closeList, .text ")")

theorem taken_nil : Taken items outer (closeAll items outer) [] [] := by
  have hopened : (outer.length : Int) + 1 + height [] = (outer.length + 1 : Nat) := by
    rw [height, Int.add_zero, Nat.cast_succ]
  refine ⟨rfl, ?_, ?_⟩
  · rw [hopened]
    exact Int.natCast_nonneg _
  · rw [hopened, Int.toNat_natCast, List.map_nil, List.append_nil, flatten_closeAll]

theorem taken_last (h : l.kind = .closeList) : Taken items [] (.tuple items.reverse) [l] [(l.kind, .text l.text)] := by
  have hlevel : (([] : List (List Value)).length : Int) + 1 + height [l] = 0 := by
    rw [height, height, rise_of_close h]
    rfl
  refine ⟨?_, hlevel.ge, ?_⟩
  · rw [List.mapM_cons, typed_paren (.inr h)]
    rfl
  · rw [hlevel, h, openTokens, Value.flatten]
    simp [usual]

/-- One more lexeme in front, if its token is what the state gains. -/
theorem Taken.cons {items' : List Value} {outer' : List (List Value)} {taken : List Lexeme} {p : Kind × Value}
    {ps : List (Kind × Value)} (htyped : l.typed = .ok p) (hlevel : (outer'.length : Int) = outer.length + rise l)
    (htokens : openTokens items' outer' = openTokens items outer ++ [usual p])
    (h : Taken items' outer' tree taken ps) : Taken items outer tree (l :: taken) (p :: ps) := by
  obtain ⟨htaken, hopened, hflatten⟩ := h
  have hheight : (outer'.length : Int) + 1 + height taken = outer.length + 1 + height (l :: taken) := by
    rw [height]
    omega
  rw [hheight] at hopened hflatten
  refine ⟨?_, hopened, ?_⟩
  · rw [List.mapM_cons, htyped, htaken]
    rfl
  · rw [hflatten, htokens, List.map_cons, List.append_assoc _ [usual p], List.singleton_append]

/-- What was taken and the lists that are open behind it make up the tokens of the tree. -/
theorem taken_of_gather (h : gather limit items outer ls = .ok (tree, rest)) :
    ∃ taken ps, ls = taken ++ rest ∧ Taken items outer tree taken ps := by
  fun_induction gather limit items outer ls with
  | case1 items outer =>
      obtain ⟨rfl, rfl⟩ := Prod.mk.inj (Except.ok.inj h)
      exact ⟨[], [], rfl, taken_nil⟩
  | case2 => cases h
  | case3 items outer l ls hkind hroom ih =>
      obtain ⟨taken, ps, rfl, htaken⟩ := ih h
      refine ⟨l :: taken, _, rfl, htaken.cons (typed_paren (.inl hkind)) ?_ ?_⟩
      · rw [rise_of_open hkind, List.length_cons, Nat.cast_succ]
      · rw [openTokens_open, hkind, usual]
  | case4 items l ls hkind =>
      obtain ⟨rfl, rfl⟩ := Prod.mk.inj (Except.ok.inj h)
      exact ⟨[l], _, rfl, taken_last hkind⟩
  | case5 items l ls hkind enclosing outer ih =>
      obtain ⟨taken, ps, rfl, htaken⟩ := ih h
      refine ⟨l :: taken, _, rfl, htaken.cons (typed_paren (.inr hkind)) ?_ ?_⟩
      · rw [rise_of_close hkind, List.length_cons]
        omega
      · rw [openTokens_close, hkind, usual]
  | case6 => cases h
  | case7 items outer l ls leaf hleaf hopen hclose ih =>
      obtain ⟨taken, ps, rfl, htaken⟩ := ih h
      obtain ⟨content, hcontent, rfl⟩ := map_eq_ok_iff.1 hleaf
      have htyped : l.typed = .ok (l.kind, content) := by
        rw [typed, hcontent]
        rfl
      refine ⟨l :: taken, _, rfl, htaken.cons htyped ?_ ?_⟩
      · rw [rise_of_leaf hopen hclose, Int.add_zero]
      · rw [openTokens_item, Value.flatten, usual_of_leaf hopen hclose]

/-! ## What can be read -/

/-- Every lexeme in front of which some of so many open lists are still open has a value, and no list is opened inside
of as many lists as the limit allows. -/
def Fits (limit opened : Int) (ls : List Lexeme) : Prop :=
  ∀ front l, front ++ [l] <+: ls → StaysOpen opened front →
    (∃ v, l.content = .ok v) ∧ (l.kind = .openList → opened + height front < limit)

theorem Fits.head (hpos : 0 < opened) (h : Fits limit opened (l :: ls)) :
    (∃ v, l.content = .ok v) ∧ (l.kind = .openList → opened < limit) := by
  have hfirst := h [] l (List.prefix_append [l] ls) (staysOpen_nil hpos)
  rwa [height, Int.add_zero] at hfirst

theorem Fits.tail (hpos : 0 < opened) (h : Fits limit opened (l :: ls)) : Fits limit (opened + rise l) ls := by
  intro front l' hfront hstays
  have hlater := h (l :: front) l' ((List.prefix_cons_inj l).2 hfront) (staysOpen_cons_iff.2 ⟨hpos, hstays⟩)
  rwa [height, ← Int.add_assoc] at hlater

theorem height_append (front ls : List Lexeme) : height (front ++ ls) = height front + height ls := by
  induction front with
  | nil => rw [List.nil_append, height, Int.zero_add]
  | cons l front ih => rw [List.cons_append, height, height, ih, Int.add_assoc]

/-- Lexemes that all have values, over which no more lists are open than the limit allows. -/
theorem fits_of_forall (hcontent : ∀ l ∈ ls, ∃ v, l.content = .ok v)
    (hdepth : ∀ front, front <+: ls → opened + height front ≤ limit) : Fits limit opened ls := by
  intro front l hfront _
  refine ⟨hcontent l (hfront.subset (List.mem_append_right front (List.mem_singleton_self l))), fun hopen => ?_⟩
  have hbehind := hdepth (front ++ [l]) hfront
  rw [height_append, height, height, rise_of_open hopen] at hbehind
  omega

theorem gather_of_fits (h : Fits limit (outer.length + 1) ls) :
    ∃ tree rest, gather limit items outer ls = .ok (tree, rest) := by
  have hpos : (0 : Int) < outer.length + 1 := by omega
  fun_induction gather limit items outer ls with
  | case1 => exact ⟨_, _, rfl⟩
  | case2 items outer l ls hkind hfull =>
      have hroom := (h.head hpos).2 hkind
      omega
  | case3 items outer l ls hkind hroom ih =>
      have hlater := h.tail hpos
      rw [rise_of_open hkind] at hlater
      exact ih hlater (by omega)
  | case4 => exact ⟨_, _, rfl⟩
  | case5 items l ls hkind enclosing outer ih =>
      have hlater := h.tail hpos
      have hlevel : ((enclosing :: outer).length : Int) + 1 + rise l = outer.length + 1 := by
        rw [rise_of_close hkind, List.length_cons]
        omega
      rw [hlevel] at hlater
      exact ih hlater (by omega)
  | case6 items outer l ls f hleaf hopen hclose =>
      obtain ⟨v, hv⟩ := (h.head hpos).1
      rw [leaf, hv] at hleaf
      cases hleaf
  | case7 items outer l ls leaf hleaf hopen hclose ih =>
      have hlater := h.tail hpos
      rw [rise_of_leaf hopen hclose, Int.add_zero] at hlater
      exact ih hlater hpos

/-! ## Trees of lexemes -/

/-- Trees of tuples and leaves, however deep. -/
def IsLeafTree (v : Value) : Prop :=
  ∃ depth, v.IsTree (fun kind _ => kind ≠ .openList ∧ kind ≠ .closeList) depth

theorem isTree_mono {leaf : Kind → Value → Prop} {depth deeper : Nat} {v : Value} (hle : depth ≤ deeper)
    (h : v.IsTree leaf depth) : v.IsTree leaf deeper := by
  induction h generalizing deeper with
  | leaf hleaf => exact .leaf hleaf
  | list _ ih =>
      obtain ⟨deeper, rfl⟩ := Nat.exists_eq_add_one_of_ne_zero (Nat.ne_zero_of_lt hle)
      exact .list fun v hv => ih v hv (Nat.le_of_succ_le_succ hle)

theorem IsLeafTree.tuple {vs : List Value} (h : ∀ v ∈ vs, IsLeafTree v) : IsLeafTree (.tuple vs) := by
  have hall : ∃ depth, ∀ v ∈ vs, v.IsTree (fun kind _ => kind ≠ .openList ∧ kind ≠ .closeList) depth := by
    induction vs with
    | nil => exact ⟨0, List.forall_mem_nil _⟩
    | cons v vs ih =>
        obtain ⟨⟨first, hfirst⟩, hothers⟩ := List.forall_mem_cons.1 h
        obtain ⟨others, hothers⟩ := ih hothers
        refine ⟨max first others, List.forall_mem_cons.2 ⟨isTree_mono (Nat.le_max_left _ _) hfirst, ?_⟩⟩
        exact fun w hw => isTree_mono (Nat.le_max_right _ _) (hothers w hw)
  obtain ⟨depth, hdepth⟩ := hall
  exact ⟨depth + 1, .list hdepth⟩

theorem isLeafTree_closeAll (hitems : ∀ v ∈ items, IsLeafTree v) (houter : ∀ vs ∈ outer, ∀ v ∈ vs, IsLeafTree v) :
    IsLeafTree (closeAll items outer) := by
  induction outer generalizing items with
  | nil => exact .tuple fun v hv => hitems v (List.mem_reverse.1 hv)
  | cons enclosing outer ih =>
      obtain ⟨henclosing, houter⟩ := List.forall_mem_cons.1 houter
      refine ih (List.forall_mem_cons.2 ⟨?_, henclosing⟩) houter
      exact .tuple fun v hv => hitems v (List.mem_reverse.1 hv)

theorem isLeafTree_of_gather (hitems : ∀ v ∈ items, IsLeafTree v) (houter : ∀ vs ∈ outer, ∀ v ∈ vs, IsLeafTree v)
    (h : gather limit items outer ls = .ok (tree, rest)) : IsLeafTree tree := by
  fun_induction gather limit items outer ls with
  | case1 items outer =>
      obtain ⟨rfl, -⟩ := Prod.mk.inj (Except.ok.inj h)
      exact isLeafTree_closeAll hitems houter
  | case2 => cases h
  | case3 items outer l ls hkind hroom ih =>
      exact ih (List.forall_mem_nil _) (List.forall_mem_cons.2 ⟨hitems, houter⟩) h
  | case4 items l ls hkind =>
      obtain ⟨rfl, -⟩ := Prod.mk.inj (Except.ok.inj h)
      exact .tuple fun v hv => hitems v (List.mem_reverse.1 hv)
  | case5 items l ls hkind enclosing outer ih =>
      obtain ⟨henclosing, houter⟩ := List.forall_mem_cons.1 houter
      refine ih (List.forall_mem_cons.2 ⟨?_, henclosing⟩) houter h
      exact .tuple fun v hv => hitems v (List.mem_reverse.1 hv)
  | case6 => cases h
  | case7 items outer l ls leaf hleaf hopen hclose ih =>
      obtain ⟨content, -, rfl⟩ := map_eq_ok_iff.1 hleaf
      exact ih (List.forall_mem_cons.2 ⟨⟨0, .leaf ⟨hopen, hclose⟩⟩, hitems⟩) houter h

end Tree

namespace Printing
open Lexeme RuleExpr.Tree

/-- The tree of the first list is written like the lexemes that were taken for it, with their values in place of their
raw texts, and with a closing parenthesis behind them for every list that they leave open. -/
theorem reading_keeps_the_text {limit : Int} {l : Lexeme} {ls : List Lexeme} (hopen : l.kind = .openList)
    (hfits : Fits limit 1 ls) : ∃ tree taken rest ps unclosed text,
      Tree.ofLexemes limit (l :: ls) = .ok (tree, rest) ∧ l :: ls = taken ++ rest ∧
      taken.mapM typed = .ok ps ∧ ((unclosed : Nat) : Int) = height taken ∧ Printing.tree tree = .ok text ∧
      tokens (ps ++ List.replicate unclosed (.closeList, .text ")")) = .ok text := by
  obtain ⟨tree, rest, hgather⟩ := @gather_of_fits limit [] [] ls hfits
  obtain ⟨taken, ps, rfl, htaken⟩ := taken_of_gather hgather
  obtain ⟨depth, htree⟩ := isLeafTree_of_gather (List.forall_mem_nil _) (List.forall_mem_nil _) hgather
  have hheight : (([] : List (List Value)).length : Int) + 1 + height taken = height (l :: taken) := by
    rw [height, rise_of_open hopen]
    rfl
  obtain ⟨htyped, hopened, hflatten⟩ := htaken
  rw [hheight] at hopened hflatten
  have hall : (l :: taken).mapM typed = .ok ((l.kind, .text l.text) :: ps) := by
    rw [List.mapM_cons, typed_paren (.inl hopen), htyped]
    rfl
  generalize hclosers : List.replicate (height (l :: taken)).toNat ((Kind.closeList, Value.text ")")) = closers at *
  have husual : ((l.kind, .text l.text) :: ps ++ closers).map usual = tree.flatten := by
    rw [hflatten, hopen, ← hclosers, List.map_append, List.map_replicate, List.map_cons]
    rfl
  have hsame : tokens ((l.kind, .text l.text) :: ps ++ closers) = Printing.tree tree := by
    rw [tree_eq_tokens id htree, ← husual, tokens_eq_tokensAfter, tokens_eq_tokensAfter, tokensAfter_usual]
  have hwritten : ∀ p ∈ (l.kind, Value.text l.text) :: ps ++ closers, ∃ text, token p.1 p.2 = .ok text := by
    rw [List.forall_mem_append]
    constructor
    · intro p hp
      obtain ⟨l', hl'⟩ := exists_typed_of_mem hall p hp
      exact token_of_typed hl'
    · intro p hp
      rw [← hclosers] at hp
      rw [List.eq_of_mem_replicate hp]
      exact ⟨_, rfl⟩
  obtain ⟨text, htext⟩ := tokensAfter_eq_ok hwritten .openList
  rw [← tokens_eq_tokensAfter] at htext
  refine ⟨tree, l :: taken, rest, _, _, text, ?_, rfl, hall, Int.toNat_of_nonneg hopened, ?_, ?_⟩
  · rw [ofLexemes_of_open hopen]
    exact hgather
  · rw [← hsame, htext]
  · rw [hclosers, htext]

/-- Two lists next to each other, of which the second stays open like the one around them. -/
theorem reading_keeps_the_text_open :
    let ls : List Lexeme := [⟨.var, "f"⟩, ⟨.openList, "("⟩, ⟨.closeList, ")"⟩, ⟨.openList, "("⟩, ⟨.num, "-07"⟩,
      ⟨.date, "20120101"⟩]
    Fits 2 1 ls ∧ ∃ ps, (⟨.openList, "("⟩ :: ls).mapM typed = .ok ps ∧
      tokens (ps ++ [(.closeList, .text ")"), (.closeList, .text ")")]) =
        .ok "(f () (-7 #dt\x7b2012-01-01T00:00:00+00:00\x7d))" := by
  intro ls
  have hcontent : ∀ l ∈ ls, ∃ v, l.content = .ok v := by
    simp only [ls, List.forall_mem_cons]
    exact ⟨⟨_, rfl⟩, ⟨_, rfl⟩, ⟨_, rfl⟩, ⟨_, rfl⟩, ⟨.int (-7), rfl⟩, ⟨_, rfl⟩, List.forall_mem_nil _⟩
  have hdepth : ∀ front ∈ ls.inits, 1 + height front ≤ 2 := by decide
  have hfits : Fits 2 1 ls := fits_of_forall hcontent fun front hfront => hdepth front ((List.mem_inits _ _).2 hfront)
  have hopen : (⟨.openList, "("⟩ : Lexeme).kind = .openList := rfl
  obtain ⟨tree, taken, rest, ps, unclosed, text, hread, htaken, hps, hunclosed, htree, htokens⟩ :=
    reading_keeps_the_text hopen hfits
  have hresult : Tree.ofLexemes 2 (⟨.openList, "("⟩ :: ls) = .ok (.tuple [.token .var (.text "f"), .tuple [],
      .tuple [.token .num (.int (-7)), .token .date (.date ⟨⟨2012, 1, 1, by decide⟩, .midnight, some .utc⟩)]], []) := rfl
  obtain ⟨rfl, rfl⟩ := Prod.mk.inj (Except.ok.inj (hresult.symm.trans hread))
  rw [List.append_nil] at htaken
  subst htaken
  have hcount : height (⟨.openList, "("⟩ :: ls) = 2 := rfl
  obtain rfl : unclosed = 2 := by omega
  refine ⟨hfits, ps, hps, htokens.trans (htree.symm.trans ?_)⟩
  decide +kernel

end Printing

end RuleExpr
