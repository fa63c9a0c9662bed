import RuleExpr.Proofs.Printing.Flatten
import RuleExpr.Proofs.Value.Equality

/-!
# Reading built trees

A tree need not come from a source. A host may put it together from names, texts, integers and date-times, if each is
one that can be written. Such a tree is always written as text that is read again (`reread_built_tree`): its tokens
are written as lexemes, cut off again and gathered into lists. What is read is the tree itself, save that a date-time
comes back in a zone that has its offset for good. It is equal to the date-time that was written, unless the zone of
that one has two offsets for it.
-/
namespace RuleExpr.Printing
open Lexeme Numeral Text RuleExpr.Tree

/-- The leaves that a tree may be built from. -/
def IsBuilt : Kind → Value → Prop
  | .var, .text s => s ≠ "" ∧ (∀ c ∈ s.toList, isNameChar c = true) ∧ s ≠ "fn"
  | .fn, .text s => s = "fn"
  | .num, .int n => isWritable n = true
  | .date, .date d => d.isAware = true
  | .str, .text s => isPaired s.toList = true ∧ ¬ ('"' ∈ s.toList ∧ holdsBare '\'' s.toList = true)
  | _, _ => False

/-- The content of a leaf as the text of a lexeme. -/
def rawText : Value → String
  | .text s => s
  | .date d => String.ofList (d.toText 'T')
  | v => String.ofList v.plain

/-- The content that is read from the text of a content. -/
def rereadContent : Value → Value
  | .date d => .date d.reread
  | v => v

theorem spelled_of_isBuilt {kind : Kind} {content : Value} (h : IsBuilt kind content) :
    Spelled kind content (rawText content) (rereadContent content) := by
  unfold IsBuilt at h
  split at h
  · next s =>
      obtain ⟨hne, hname, hfn⟩ := h
      refine spelled_name ⟨?_, hname, ?_⟩ (.inr rfl)
      · simpa using hne
      · exact fun htext => hfn (String.toList_inj.1 htext)
  · next s =>
      obtain rfl := h
      exact spelled_name rfl (.inl rfl)
  · exact spelled_int h
  · exact spelled_date h
  · exact spelled_str h.1 fun hquoted => h.2 hquoted.2
  · exact h.elim

/-- The tokens of built trees, spelled as they are written. -/
def builtSpelling : Spelling IsBuilt where
  lexeme p := ⟨p.1, rawText p.2⟩
  content _ := rereadContent
  openList := rfl
  closeList := rfl
  kind h := ⟨(spelled_of_isBuilt h).leafKind.1, (spelled_of_isBuilt h).leafKind.2.1⟩
  leaf h := (spelled_of_isBuilt h).leaf

/-- What is known about the lexeme of a token of a built tree. -/
theorem builtSpelling_lexeme {depth : Nat} {v : Value} (h : v.IsTree IsBuilt depth) {p : Kind × Value}
    (hp : p ∈ v.flatten) : Writes p (builtSpelling.lexeme p) ∧
      HasShape (builtSpelling.lexeme p).kind (builtSpelling.lexeme p).text.toList ∧
      ¬ (builtSpelling.lexeme p).Misquoted := by
  rcases mem_flatten h hp with rfl | rfl | hleaf
  · exact ⟨⟨rfl, rfl⟩, rfl, not_misquoted (by decide) _⟩
  · exact ⟨⟨rfl, rfl⟩, rfl, not_misquoted (by decide) _⟩
  · have spelled := spelled_of_isBuilt hleaf
    exact ⟨⟨rfl, spelled.printed⟩, spelled.shape, spelled.quoted⟩

/-! ## Trees that come back -/

theorem equalDates_reread {d : DateTime} (h : d.isAware = true) : Value.equalDates d.reread d = !d.isTwofold := by
  have hposition : d.reread.position = d.position := by
    rw [DateTime.position, DateTime.position, DateTime.offset_reread, DateTime.clockReading_reread]
  have hone : d.reread.isTwofold = false := by
    rw [DateTime.isTwofold, DateTime.reread]
    cases d.offset with
    | none => rfl
    | some o => exact bne_self_eq_false _
  by_cases hzone : d.reread.zone = d.zone
  · -- Only a fixed zone is read back, and it has one offset.
    have htwofold := DateTime.isTwofold_eq_of_clockReading hzone (DateTime.clockReading_reread d)
    rw [(Value.equalDates_of_zone hzone).2 (DateTime.clockReading_reread d), ← htwofold, hone]
    rfl
  · rw [Bool.eq_iff_iff, Value.equalDates_of_zones hzone, DateTime.isAware_reread, h, hposition, hone]
    simp

theorem itemsMatch_rereadContent {kind : Kind} {v : Value} (h : IsBuilt kind v) :
    Value.itemsMatch (rereadContent v) v = true ↔ ∀ d, v = .date d → d.isTwofold = false := by
  cases v with
  | date d =>
      have haware : d.isAware = true := by
        cases kind with
        | date => exact h
        | _ => exact h.elim
      have hmatch : Value.itemsMatch (rereadContent (.date d)) (.date d) = Value.equalDates d.reread d := rfl
      rw [hmatch, equalDates_reread haware, Bool.not_eq_true']
      exact ⟨fun hone e heq => Value.date.inj heq ▸ hone, fun hall => hall d rfl⟩
  | text s =>
      refine iff_of_true (by simp [rereadContent, Value.itemsMatch, Value.looselyEqual]) fun d hd => ?_
      cases hd
  | int n =>
      refine iff_of_true ?_ fun d hd => ?_
      · rw [rereadContent, Value.itemsMatch_of_isFreeOfNaN rfl, Value.looselyEqual_self _ rfl]
        intro d hd
        cases hd
      · cases hd
  | _ => cases kind <;> exact h.elim

/-- A tree equals the tree with other contents in its leaves if each content matches its own. -/
theorem mapLeaves_looselyEqual_iff {leaf good : Kind → Value → Prop} {f : Kind → Value → Value}
    (hleaf : ∀ {kind v}, leaf kind v → (Value.itemsMatch (f kind v) v = true ↔ good kind v)) {depth : Nat} {v : Value}
    (h : v.IsTree leaf depth) :
    Value.looselyEqual (v.mapLeaves f) v = true ↔ ∀ p ∈ v.leaves, good p.1 p.2 := by
  induction h with
  | leaf hcontent =>
      rw [Value.mapLeaves, Value.leaves, List.forall_mem_singleton, ← hleaf hcontent, Value.looselyEqual,
        beq_self_eq_true, Bool.true_and]
      rfl
  | @list _ items hitems ih =>
      have hall (vs : List Value) (hvs : vs ⊆ items) :
          Value.allMatch (Value.mapLeavesOfAll f vs) vs = true ↔ ∀ p ∈ Value.leavesOfAll vs, good p.1 p.2 := by
        induction vs with
        | nil => exact iff_of_true rfl (List.forall_mem_nil _)
        | cons v vs ihvs =>
            obtain ⟨hv, hvs⟩ := List.cons_subset.1 hvs
            have hnan : Value.isSameNaN (v.mapLeaves f) v = false := by
              cases hitems v hv <;> rfl
            rw [Value.mapLeavesOfAll, Value.allMatch, hnan, Bool.false_or, Bool.and_eq_true, ih v hv, ihvs hvs,
              Value.leavesOfAll, List.forall_mem_append]
      exact hall items (List.Subset.refl items)

/-- A built tree is written and read again, with all lexemes used up. What is read equals the tree exactly when every
date-time in it has one offset in its zone. -/
theorem reread_built_tree {vs : List Value} (h : (Value.tuple vs).IsTree IsBuilt 128) :
    ∃ text r, tree (.tuple vs) = .ok text ∧ read (some text) = .ok r ∧ r.leftOver = 0 ∧
      r.tree = (Value.tuple vs).mapLeaves (fun _ => rereadContent) ∧
      (r.tree.looselyEqual (.tuple vs) = true ↔ ∀ kind d, (kind, .date d) ∈ (Value.tuple vs).leaves →
        d.isTwofold = false) := by
  have hlexemes {p : Kind × Value} (hp : p ∈ (Value.tuple vs).flatten) := builtSpelling_lexeme h hp
  have hwrites : List.Forall₂ Writes (Value.tuple vs).flatten ((Value.tuple vs).flatten.map builtSpelling.lexeme) :=
    List.forall₂_map_right_iff.2 (List.forall₂_same.2 fun p hp => (hlexemes hp).1)
  have hprinted := tree_eq_tokens (fun hleaf => builtSpelling.kind hleaf) h
  rw [tokens_eq_written hwrites] at hprinted
  have hshape : ∀ l ∈ (Value.tuple vs).flatten.map builtSpelling.lexeme, HasShape l.kind l.text.toList :=
    List.forall_mem_map.2 fun p hp => (hlexemes hp).2.1
  have hquoted : ∀ l ∈ (Value.tuple vs).flatten.map builtSpelling.lexeme, ¬ l.Misquoted :=
    List.forall_mem_map.2 fun p hp => (hlexemes hp).2.2
  have hsplit := (split_writtenAfter_iff .openList hshape).2 hquoted
  have hgather : Tree.ofLexemes depthLimit ((Value.tuple vs).flatten.map builtSpelling.lexeme ++ []) =
      .ok ((Value.tuple vs).mapLeaves fun _ => rereadContent, []) :=
    (ofLexemes_flatten builtSpelling h).trans (if_pos (nesting_le_of_isTree h))
  rw [List.append_nil] at hgather
  refine ⟨_, _, hprinted, read_of_lexemes ?_ hgather, rfl, rfl, ?_⟩
  · rw [ofSource, String.toList_ofList, hsplit]
  · rw [mapLeaves_looselyEqual_iff itemsMatch_rereadContent h]
    constructor
    · exact fun hone kind d hd => hone _ hd d rfl
    · rintro hone ⟨kind, v⟩ hp d rfl
      exact hone kind d hp

/-- A tree with leaves of all kinds: a double quote alone, a negative integer, and a time of a zone that changes its
offset. -/
theorem reread_built_tree_kinds :
    let d : DateTime := .onChange 12 30 false
    let built : Value := .tuple [.token .var (.text "-"), .token .str (.text "say \"hi\""),
      .tuple [.token .fn (.text "fn"), .token .num (.int (-5)), .token .date (.date d)]]
    built.IsTree IsBuilt 128 ∧
      ∃ text r, tree built = .ok text ∧ read (some text) = .ok r ∧ r.tree.looselyEqual built = true := by
  intro d built
  have hname : IsBuilt .var (.text "-") := ⟨by decide, List.all_eq_true.1 rfl, by decide⟩
  have htext : IsBuilt .str (.text "say \"hi\"") := ⟨by decide +kernel, by decide +kernel⟩
  have hint : IsBuilt .num (.int (-5)) := isWritable_iff.2 (by decide +kernel)
  have hbuilt : built.IsTree IsBuilt 128 := by
    refine .list ?_
    simp only [List.forall_mem_cons]
    refine ⟨.leaf hname, .leaf htext, .list ?_, List.forall_mem_nil _⟩
    simp only [List.forall_mem_cons]
    exact ⟨.leaf rfl, .leaf hint, .leaf rfl, List.forall_mem_nil _⟩
  obtain ⟨text, r, hprinted, hread, -, -, hiff⟩ := reread_built_tree hbuilt
  refine ⟨hbuilt, text, r, hprinted, hread, hiff.2 ?_⟩
  intro kind e he
  have hleaves : built.leaves = [(.var, .text "-"), (.str, .text "say \"hi\""), (.fn, .text "fn"), (.num, .int (-5)),
      (.date, .date d)] := rfl
  rw [hleaves] at he
  simp only [List.mem_cons, Prod.mk.injEq, reduceCtorEq, and_false, false_or, List.not_mem_nil, or_false,
    Value.date.injEq] at he
  obtain rfl := he.2
  decide +kernel

/-- A time that the clock of its zone shows twice is read back as one of a zone of its own, and is not equal to it. -/
theorem reread_built_tree_twofold :
    let d : DateTime := .onChange 2 30 false
    let built : Value := .tuple [.token .date (.date d)]
    built.IsTree IsBuilt 128 ∧ tree built = .ok "(#dt\x7b2020-10-25T02:30:00+02:00\x7d)" ∧
      ∃ r, read (some "(#dt\x7b2020-10-25T02:30:00+02:00\x7d)") = .ok r ∧ r.tree.looselyEqual built = false := by
  intro d built
  have hbuilt : built.IsTree IsBuilt 128 := by
    refine .list fun v hv => ?_
    obtain rfl := List.mem_singleton.1 hv
    exact .leaf rfl
  have hprinted : tree built = .ok "(#dt\x7b2020-10-25T02:30:00+02:00\x7d)" := eq_ok_of_toOption (by decide +kernel)
  have hread : read (some "(#dt\x7b2020-10-25T02:30:00+02:00\x7d)") =
      .ok ⟨.tuple [.token .date (.date d.reread)], 3, 0⟩ :=
    eq_ok_of_toOption (by decide +kernel)
  exact ⟨hbuilt, hprinted, _, hread, by decide +kernel⟩

end RuleExpr.Printing
