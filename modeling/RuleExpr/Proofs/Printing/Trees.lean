import RuleExpr.Proofs.Printing.Leaves
import RuleExpr.Proofs.Tree.Gather

/-!
# Reading written trees

A tree that was read is written with one space between the items of a list. Reading on over the text of a tree adds
the tree to the state of the reader, if all its leaves come back. At the first leaf that does not, another leaf is
added in its place, and no continuation can make up for it. So the tree comes back exactly when all its leaves do
(`reread_tree_iff`).
-/
namespace RuleExpr

mutual

/-- The leaves of a tree from left to right. -/
def Value.leaves : Value → List (Kind × Value)
  | .token kind content => [(kind, content)]
  | .list items | .tuple items => leavesOfAll items
  | _ => []

/-- The leaves of trees from left to right. -/
def Value.leavesOfAll : List Value → List (Kind × Value)
  | [] => []
  | v :: vs => leaves v ++ leavesOfAll vs

end

namespace Tree
open Lexeme

/-- Reads on over a text from a state of the reader. -/
def readOn (limit : Int) (items : List Value) (outer : List (List Value)) (cs : List Char) :
    Except Fault (Value × List Lexeme) := do
  let ls ← split cs
  gather limit items outer ls

variable {limit : Int} {items : List Value} {outer : List (List Value)} {cs rest : List Char} {l : Lexeme}

theorem gather_leaf {v : Value} {ls : List Lexeme} (hopen : l.kind ≠ .openList) (hclose : l.kind ≠ .closeList)
    (hleaf : l.leaf = .ok v) : gather limit items outer (l :: ls) = gather limit (v :: items) outer ls := by
  rw [gather_of_leaf hopen hclose, hleaf]
  rfl

theorem gather_leaf_eq_ok {r : Value × List Lexeme} {ls : List Lexeme} (hopen : l.kind ≠ .openList)
    (hclose : l.kind ≠ .closeList) (h : gather limit items outer (l :: ls) = .ok r) :
    ∃ v, l.leaf = .ok v ∧ gather limit (v :: items) outer ls = .ok r := by
  rw [gather_of_leaf hopen hclose] at h
  cases hleaf : l.leaf with
  | ok v =>
      rw [hleaf] at h
      exact ⟨v, rfl, h⟩
  | error f =>
      rw [hleaf] at h
      cases h

theorem readOn_cons (hsplit : split cs = (split rest).map (l :: ·)) : readOn limit items outer cs =
    (do let ls ← split rest; gather limit items outer (l :: ls)) := by
  rw [readOn, hsplit]
  cases split rest <;> rfl

theorem readOn_leaf {v : Value} (hsplit : split cs = (split rest).map (l :: ·)) (hopen : l.kind ≠ .openList)
    (hclose : l.kind ≠ .closeList) (hleaf : l.leaf = .ok v) :
    readOn limit items outer cs = readOn limit (v :: items) outer rest := by
  rw [readOn_cons hsplit]
  simp only [gather_leaf hopen hclose hleaf]
  rfl

theorem split_paren {kind : Kind} {c : Char} {cut : Cut} (hcut : cut? (c :: rest) = some (kind, cut))
    (hrest : cut.rest = rest) (hkind : kind ≠ .blank) :
    split (c :: rest) = (split rest).map (⟨kind, String.ofList cut.kept⟩ :: ·) := by
  rw [split_of_cut? hcut, hrest]
  simp only [ofCut?, if_neg hkind]
  rfl

theorem readOn_open (hroom : ¬ limit ≤ outer.length + 1) :
    readOn limit items outer ('(' :: rest) = readOn limit [] (items :: outer) rest := by
  have hcut : cut? ('(' :: rest) = some (.openList, .whole ['('] rest) := rfl
  rw [readOn_cons (split_paren hcut rfl (by decide))]
  simp only [gather, if_neg hroom]
  rfl

theorem readOn_close (enclosing : List Value) : readOn limit items (enclosing :: outer) (')' :: rest) =
    readOn limit (.tuple items.reverse :: enclosing) outer rest := by
  have hcut : cut? (')' :: rest) = some (.closeList, .whole [')'] rest) := rfl
  rw [readOn_cons (split_paren hcut rfl (by decide))]
  simp only [gather]
  rfl

theorem readOn_close_last : readOn limit items [] [')'] = .ok (.tuple items.reverse, []) := by
  have hcut : cut? [')'] = some (.closeList, .whole [')'] []) := rfl
  rw [readOn_cons (split_paren hcut rfl (by decide)), split_nil]
  rfl

end Tree

namespace Printing
open Lexeme RuleExpr.Tree

/-- Whether all leaves of a tree are read back from their texts. -/
def TreeReturns (v : Value) : Prop := ∀ leaf ∈ v.leaves, LeafReturns leaf.1 leaf.2

/-- What is known about the text of a tree, where room is left for so many more lists. -/
structure TreeText (limit room : Nat) (v : Value) (text : String) : Prop where
  printed : tree v = .ok text
  starts : ∃ c cs, text.toList = c :: cs ∧ Text.isBlank c = false
  returns : TreeReturns v → ∀ items outer rest, room + outer.length + 1 = limit →
    (∀ c ∈ rest.head?, IsSeparator c) →
      readOn limit items outer (text.toList ++ rest) = readOn limit (v :: items) outer rest
  breaks : ¬ TreeReturns v → ∀ items outer rest, room + outer.length + 1 = limit →
    (∀ c ∈ rest.head?, IsSeparator c) → ∀ root left,
      readOn limit items outer (text.toList ++ rest) = .ok (root, left) → ¬ Extends (v :: items) outer root

variable {limit room : Nat}

theorem split_of_leaf {cs : List Char} {kind : Kind} {cut : Cut} (hcut : cut? cs = some (kind, cut))
    (hkind : IsLeafKind kind) :
    split cs = (split cut.rest).map (⟨kind, String.ofList cut.kept⟩ :: ·) := by
  rw [split_of_cut? hcut]
  simp only [ofCut?, if_neg hkind.2.2]
  rfl

theorem treeText_leaf {kind : Kind} {content : Value} {text : List Char} (h : LeafText kind content text) :
    TreeText limit room (.token kind content) (String.ofList text) := by
  have hreturns : TreeReturns (.token kind content) ↔ LeafReturns kind content := by
    unfold TreeReturns
    rw [Value.leaves, List.forall_mem_singleton]
  constructor
  · exact h.printed
  · rw [String.toList_ofList]
    exact h.starts
  · intro hall items outer rest _ hrest
    obtain ⟨l, hshape, hquoted, hkind, hwritten, hleaf⟩ := h.returns (hreturns.1 hall)
    have hsplit := split_written hshape hquoted fun _ => hrest
    rw [String.toList_ofList, ← hwritten]
    exact readOn_leaf hsplit hkind.1 hkind.2.1 hleaf
  · intro hall items outer rest _ hrest root left hread hextends
    obtain ⟨kind', cut, hcut, hkind, hleaf⟩ := h.breaks (hall ∘ hreturns.2) rest hrest
    rw [String.toList_ofList, readOn_cons (split_of_leaf hcut hkind)] at hread
    cases hsplit : split cut.rest with
    | error f =>
        rw [hsplit] at hread
        cases hread
    | ok ls =>
        rw [hsplit] at hread
        obtain ⟨v, hv, hgather⟩ := gather_leaf_eq_ok hkind.1 hkind.2.1 hread
        have hsame := (gather_extends hgather).injective hextends
        exact hleaf (hsame ▸ hv)

/-! ## Lists -/

/-- Texts with a space in front of each. -/
def spaced (texts : List String) : List Char := texts.flatMap fun text => ' ' :: text.toList

theorem spaced_cons (text : String) (texts : List String) :
    spaced (text :: texts) = ' ' :: (text.toList ++ spaced texts) := rfl

theorem spaced_cons_append (text : String) (texts : List String) (rest : List Char) :
    spaced (text :: texts) ++ rest = ' ' :: (text.toList ++ (spaced texts ++ rest)) := by
  rw [spaced_cons, List.cons_append, List.append_assoc]

theorem toList_intercalate_cons (text : String) (texts : List String) :
    (" ".intercalate (text :: texts)).toList = text.toList ++ spaced texts := by
  induction texts generalizing text with
  | nil => rw [String.intercalate_singleton, spaced, List.flatMap_nil, List.append_nil]
  | cons next texts ih =>
      have hnext := ih next
      rw [String.intercalate_cons_of_ne_nil (List.cons_ne_nil _ _), String.toList_append, String.toList_append,
        hnext, spaced_cons, List.append_assoc]
      rfl

theorem readOn_space {limit : Int} {items : List Value} {outer : List (List Value)} {text : String} {v : Value}
    {bound : Nat} (h : TreeText bound room v text) (rest : List Char) :
    readOn limit items outer (' ' :: (text.toList ++ rest)) = readOn limit items outer (text.toList ++ rest) := by
  obtain ⟨c, cs, htext, hc⟩ := h.starts
  rw [readOn, readOn, split_space]
  rw [htext]
  rintro d ⟨⟩
  exact hc

theorem head?_spaced {texts : List String} {rest : List Char} (hrest : ∀ c ∈ rest.head?, IsSeparator c) :
    ∀ c ∈ (spaced texts ++ rest).head?, IsSeparator c := by
  cases texts with
  | nil => exact hrest
  | cons text texts =>
      rintro c ⟨⟩
      exact .inl rfl

theorem head?_close {rest : List Char} : ∀ c ∈ (')' :: rest).head?, IsSeparator c := by
  rintro c ⟨⟩
  exact .inr rfl

theorem treeReturns_tuple {vs : List Value} : TreeReturns (.tuple vs) ↔ ∀ v ∈ vs, TreeReturns v := by
  unfold TreeReturns
  rw [Value.leaves]
  induction vs with
  | nil => simp [Value.leavesOfAll]
  | cons v vs ih =>
      rw [Value.leavesOfAll, List.forall_mem_append, List.forall_mem_cons, ih]

variable {vs : List Value} {texts : List String} {items : List Value} {outer : List (List Value)}

/-- Items that come back are added to the state one after the other. -/
theorem readOn_spaced (h : List.Forall₂ (TreeText limit room) vs texts) (hreturns : ∀ v ∈ vs, TreeReturns v)
    {rest : List Char} (hroom : room + outer.length + 1 = limit) (hrest : ∀ c ∈ rest.head?, IsSeparator c) :
    readOn limit items outer (spaced texts ++ rest) = readOn limit (vs.reverse ++ items) outer rest := by
  induction h generalizing items with
  | nil => rfl
  | @cons v text vs texts hfirst _ ih =>
      obtain ⟨hv, hvs⟩ := List.forall_mem_cons.1 hreturns
      have hread := hfirst.returns hv items outer (spaced texts ++ rest) hroom (head?_spaced hrest)
      rw [spaced_cons_append, readOn_space hfirst, hread, ih hvs, List.reverse_cons, List.append_assoc,
        List.singleton_append]

/-- The first item that does not come back is not made up for by what follows it. -/
theorem readOn_spaced_breaks (h : List.Forall₂ (TreeText limit room) vs texts)
    (hbreaks : ¬ ∀ v ∈ vs, TreeReturns v) {rest : List Char} (hroom : room + outer.length + 1 = limit)
    (hrest : ∀ c ∈ rest.head?, IsSeparator c) {root : Value} {left : List Lexeme}
    (hread : readOn limit items outer (spaced texts ++ rest) = .ok (root, left)) :
    ¬ Extends (vs.reverse ++ items) outer root := by
  induction h generalizing items with
  | nil => exact (hbreaks (by simp)).elim
  | @cons v text vs texts hfirst _ ih =>
      rw [List.reverse_cons, List.append_assoc, List.singleton_append]
      rw [spaced_cons_append, readOn_space hfirst] at hread
      by_cases hv : TreeReturns v
      · rw [hfirst.returns hv items outer _ hroom (head?_spaced hrest)] at hread
        apply ih _ hread
        intro hvs
        exact hbreaks (List.forall_mem_cons.2 ⟨hv, hvs⟩)
      · intro hextends
        exact hfirst.breaks hv items outer _ hroom (head?_spaced hrest) root left hread (hextends.drop _)

/-- The text of a list is that of its items between parentheses. -/
theorem readOn_intercalate (h : List.Forall₂ (TreeText limit room) vs texts) (rest : List Char) :
    readOn limit items outer ((" ".intercalate texts).toList ++ rest) =
      readOn limit items outer (spaced texts ++ rest) := by
  cases h with
  | nil => rfl
  | cons hfirst _ =>
      rw [toList_intercalate_cons, List.append_assoc, spaced_cons_append, readOn_space hfirst]

theorem trees_eq_ok (h : List.Forall₂ (TreeText limit room) vs texts) : trees vs = .ok texts := by
  induction h with
  | nil => rfl
  | cons hfirst _ ih =>
      rw [trees, hfirst.printed, ih]
      rfl

theorem tree_tuple (h : List.Forall₂ (TreeText limit room) vs texts) :
    tree (.tuple vs) = .ok ("(" ++ " ".intercalate texts ++ ")") := by
  rw [tree, trees_eq_ok h]
  rfl

theorem toList_tree_tuple (texts : List String) (rest : List Char) :
    ("(" ++ " ".intercalate texts ++ ")").toList ++ rest =
      '(' :: ((" ".intercalate texts).toList ++ ')' :: rest) := by
  simp

theorem treeText_tuple (h : List.Forall₂ (TreeText limit room) vs texts) :
    TreeText limit (room + 1) (.tuple vs) ("(" ++ " ".intercalate texts ++ ")") := by
  have hinner (items : List Value) {outer : List (List Value)} (hroom : room + 1 + outer.length + 1 = limit) :
      ¬ (limit : Int) ≤ outer.length + 1 ∧ room + (items :: outer).length + 1 = limit := by
    rw [List.length_cons]
    omega
  constructor
  · exact tree_tuple h
  · refine ⟨'(', (" ".intercalate texts).toList ++ [')'], ?_, rfl⟩
    simp
  · intro hreturns items outer rest hroom _
    rw [toList_tree_tuple, readOn_open (hinner items hroom).1, readOn_intercalate h,
      readOn_spaced h (treeReturns_tuple.1 hreturns) (hinner items hroom).2 head?_close, readOn_close, List.append_nil,
      List.reverse_reverse]
  · intro hbreaks items outer rest hroom _ root left hread hextends
    rw [toList_tree_tuple, readOn_open (hinner items hroom).1, readOn_intercalate h] at hread
    have := readOn_spaced_breaks h (hbreaks ∘ treeReturns_tuple.2) (hinner items hroom).2 head?_close hread
    apply this
    refine ⟨[], ?_⟩
    rw [List.append_nil, List.append_nil, List.reverse_reverse]
    exact hextends

theorem exists_forall₂ {α β : Type} {p : α → β → Prop} {as : List α} (h : ∀ a ∈ as, ∃ b, p a b) :
    ∃ bs, List.Forall₂ p as bs := by
  induction as with
  | nil => exact ⟨[], .nil⟩
  | cons a as ih =>
      obtain ⟨⟨b, hb⟩, hlater⟩ := List.forall_mem_cons.1 h
      obtain ⟨bs, hbs⟩ := ih hlater
      exact ⟨b :: bs, .cons hb hbs⟩

theorem exists_treeText {v : Value} (h : Parsed room v) : ∃ text, TreeText limit room v text := by
  induction h with
  | leaf hshape hopen hclose hleaf =>
      obtain ⟨content, text, rfl, htext⟩ := leafText_of_leaf hshape hopen hclose hleaf
      exact ⟨_, treeText_leaf htext⟩
  | list _ ih =>
      obtain ⟨texts, htexts⟩ := exists_forall₂ ih
      exact ⟨_, treeText_tuple htexts⟩

end Printing

/-! ## Sources -/

namespace Tree
open Lexeme

theorem Parsed.items {depth : Nat} {items : List Value} (h : Parsed (depth + 1) (.tuple items)) :
    ∀ v ∈ items, Parsed depth v := by
  cases h with
  | leaf _ _ _ hleaf =>
      obtain ⟨content, -, hcontent⟩ := map_eq_ok_iff.1 hleaf
      cases hcontent
  | list hitems => exact hitems

/-- What is read from lexemes is a list within the depth limit. -/
theorem ofLexemes_parsed {limit : Nat} {ls rest : List Lexeme} {tree : Value}
    (hshape : ∀ l ∈ ls, HasShape l.kind l.text.toList) (h : ofLexemes ↑(limit + 1) ls = .ok (tree, rest)) :
    ∃ items, tree = .tuple items ∧ ∀ v ∈ items, Parsed limit v := by
  cases ls with
  | nil =>
      obtain ⟨rfl, -⟩ := Prod.mk.inj (Except.ok.inj h)
      exact ⟨[], rfl, List.forall_mem_nil _⟩
  | cons l ls =>
      obtain ⟨hfirst, hlater⟩ := List.forall_mem_cons.1 hshape
      by_cases hopen : l.kind = .openList
      · rw [ofLexemes_of_open hopen] at h
        obtain ⟨items, rfl⟩ := gather_extends h
        have hroom : limit + ([] : List (List Value)).length + 1 = limit + 1 := rfl
        have hparsed : Parsed (limit + 1) (.tuple ([].reverse ++ items)) :=
          gather_parsed hlater hroom (List.forall_mem_nil _) trivial h
        exact ⟨_, rfl, hparsed.items⟩
      · by_cases hclose : l.kind = .closeList
        · rw [ofLexemes_of_close hclose] at h
          obtain ⟨rfl, -⟩ := Prod.mk.inj (Except.ok.inj h)
          exact ⟨[], rfl, List.forall_mem_nil _⟩
        · rw [ofLexemes_of_leaf hopen hclose, map_eq_ok_iff] at h
          obtain ⟨leaf, hleaf, heq⟩ := h
          obtain ⟨rfl, -⟩ := Prod.mk.inj heq
          refine ⟨[leaf], rfl, ?_⟩
          rw [List.forall_mem_singleton]
          exact .leaf hfirst hopen hclose hleaf

/-- Reading a source is reading its lexemes, and both count what is left over. -/
theorem read_eq_ok {source : Option String} {r : Reading} (h : read source = .ok r) :
    ∃ ls rest, ofSource source = .ok ls ∧ ofLexemes depthLimit ls = .ok (r.tree, rest) := by
  unfold read at h
  cases hsource : ofSource source with
  | error f =>
      rw [hsource] at h
      cases h
  | ok ls =>
      cases htree : ofLexemes depthLimit ls with
      | error f =>
          simp only [hsource, bind, Except.bind, htree] at h
          cases h
      | ok read =>
          simp only [hsource, bind, Except.bind, htree] at h
          obtain rfl := Except.ok.inj h
          exact ⟨ls, read.2, rfl, htree⟩

theorem read_of_lexemes {source : Option String} {ls rest : List Lexeme} {tree : Value}
    (hsource : ofSource source = .ok ls) (htree : ofLexemes depthLimit ls = .ok (tree, rest)) :
    read source = .ok ⟨tree, ls.length, rest.length⟩ := by
  rw [read, hsource]
  simp only [bind, Except.bind, htree]
  rfl

theorem depthLimit_eq : depthLimit = ((127 + 1 : Nat) : Int) := rfl

theorem read_parsed {source : Option String} {r : Reading} (h : read source = .ok r) :
    ∃ items, r.tree = .tuple items ∧ ∀ v ∈ items, Parsed 127 v := by
  obtain ⟨ls, rest, hsource, htree⟩ := read_eq_ok h
  rw [depthLimit_eq] at htree
  exact ofLexemes_parsed (hasShape_of_ofSource hsource) htree

/-- A source that starts with a parenthesis is read from the state in which only that list is open. -/
theorem read_open_iff {text : String} {tree : Value} (htext : text.toList = '(' :: cs) :
    (∃ again, read (some text) = .ok again ∧ again.tree = tree) ↔
      ∃ left, readOn depthLimit [] [] cs = .ok (tree, left) := by
  have hcut : cut? ('(' :: cs) = some (.openList, .whole ['('] cs) := rfl
  have hsource : ofSource (some text) = (split cs).map (⟨.openList, "("⟩ :: ·) := by
    rw [ofSource, htext, split_paren hcut rfl (by decide)]
    rfl
  constructor
  · rintro ⟨again, hread, rfl⟩
    obtain ⟨ls, rest, hls, htree⟩ := read_eq_ok hread
    obtain ⟨inner, hinner, rfl⟩ := map_eq_ok_iff.1 (hsource.symm.trans hls)
    refine ⟨rest, ?_⟩
    rw [readOn, hinner]
    exact htree
  · rintro ⟨left, hread⟩
    cases hinner : split cs with
    | error f =>
        rw [readOn, hinner] at hread
        cases hread
    | ok inner =>
        rw [readOn, hinner] at hread
        have htree : ofLexemes depthLimit (⟨.openList, "("⟩ :: inner) = .ok (tree, left) := hread
        have hls : ofSource (some text) = .ok (⟨.openList, "("⟩ :: inner) := by
          rw [hsource, hinner]
          rfl
        exact ⟨_, read_of_lexemes hls htree, rfl⟩

end Tree

namespace Printing
open Lexeme RuleExpr.Tree

/-- A tree that was read comes back from its text exactly when all its leaves do. -/
theorem reread_tree_iff {source : Option String} {r : Reading} (h : read source = .ok r) :
    ∃ text, tree r.tree = .ok text ∧ ((∃ again, read (some text) = .ok again ∧ again.tree = r.tree) ↔
      ∀ leaf ∈ r.tree.leaves, LeafReturns leaf.1 leaf.2) := by
  obtain ⟨items, htree, hitems⟩ := read_parsed h
  have hexists : ∀ v ∈ items, ∃ text, TreeText (127 + 1) 127 v text := fun v hv => exists_treeText (hitems v hv)
  obtain ⟨texts, htexts⟩ := exists_forall₂ hexists
  have htext := toList_tree_tuple texts []
  rw [List.append_nil] at htext
  have hroom : 127 + ([] : List (List Value)).length + 1 = 127 + 1 := rfl
  rw [htree]
  refine ⟨_, tree_tuple htexts, ?_⟩
  rw [read_open_iff htext, depthLimit_eq, readOn_intercalate htexts]
  constructor
  · rintro ⟨left, hread⟩
    by_contra hbreaks
    have hitems : ¬ ∀ v ∈ items, TreeReturns v := fun hall => hbreaks (treeReturns_tuple.2 hall)
    have hextends := readOn_spaced_breaks htexts hitems hroom head?_close hread
    apply hextends
    refine ⟨[], ?_⟩
    rw [List.append_nil, List.append_nil, List.reverse_reverse]
  · intro hall
    have hitems := treeReturns_tuple.1 hall
    refine ⟨[], ?_⟩
    rw [readOn_spaced htexts hitems hroom head?_close, readOn_close_last, List.append_nil, List.reverse_reverse]

/-- An exponent is read as a name and an integer of their own. -/
theorem reread_tree_exponent : ∃ r again, read (some "(10000000000000000.0)") = .ok r ∧
    tree r.tree = .ok "(1e+16)" ∧ read (some "(1e+16)") = .ok again ∧ again.tree ≠ r.tree := by
  have h : read (some "(10000000000000000.0)") =
      .ok ⟨.tuple [.token .num (.float (.finite false 4846369599423283200))], 3, 0⟩ :=
    eq_ok_of_toOption (by decide +kernel)
  have hagain : read (some "(1e+16)") =
      .ok ⟨.tuple [.token .num (.int 1), .token .var (.text "e+"), .token .num (.int 16)], 5, 0⟩ :=
    eq_ok_of_toOption (by decide +kernel)
  have htext : tree (.tuple [.token .num (.float (.finite false 4846369599423283200))]) = .ok "(1e+16)" :=
    eq_ok_of_toOption (by decide +kernel)
  exact ⟨_, _, h, htext, hagain, by decide⟩

/-- An apostrophe alone does no harm. -/
theorem reread_tree_nested :
    let tree : Value := .tuple [.token .var (.text "f"), .tuple [.token .str (.text "it's"),
      .token .num (.float (.finite false 4547007122018943789))]]
    read (some "(f (\"it's\" 0.0001))") = .ok ⟨tree, 7, 0⟩ ∧ ∃ text, Printing.tree tree = .ok text ∧
      ∃ again, read (some text) = .ok again ∧ again.tree = tree := by
  intro tree
  have h : read (some "(f (\"it's\" 0.0001))") = .ok ⟨tree, 7, 0⟩ := eq_ok_of_toOption (by decide +kernel)
  obtain ⟨text, htext, hiff⟩ := reread_tree_iff h
  refine ⟨h, text, htext, hiff.2 ?_⟩
  have hleaves : tree.leaves = [(.var, .text "f"), (.str, .text "it's"),
      (.num, .float (.finite false 4547007122018943789))] := rfl
  rw [hleaves]
  simp only [List.forall_mem_cons]
  refine ⟨trivial, ?_, ?_, List.forall_mem_nil _⟩
  · rintro ⟨hquote, -⟩
    exact absurd hquote (by decide)
  · exact .inr (by decide +kernel)

end Printing

end RuleExpr
