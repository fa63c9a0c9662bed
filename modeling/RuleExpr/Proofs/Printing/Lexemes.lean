import RuleExpr.Proofs.Lexeme.Cutting
import RuleExpr.Printing

/-!
# Reading written lexemes

The lexemes of a source are written with one space between neighbours and none inside a parenthesis. A lexeme that
was written so is cut off again whatever follows it, with one exception: a text that holds a double quote is put
between apostrophes, and it then ends at its first bare apostrophe. So the lexemes come back exactly when no text
among them is misquoted (`reread_lexemes_iff`).
-/
namespace RuleExpr.Lexeme
open Numeral Text

/-- The quote that is put around a text. -/
def quoteAround (text : List Char) : Char :=
  if '"' ∈ text then '\'' else '"'

/-- A lexeme as it is written. -/
def written (l : Lexeme) : List Char :=
  match l.kind with
  | .openList => ['(']
  | .closeList => [')']
  | .str => quoteAround l.text.toList :: (l.text.toList ++ [quoteAround l.text.toList])
  | .date => "#dt\x7b".toList ++ l.text.toList ++ ['\x7d']
  | _ => l.text.toList

/-- Whether the text of a lexeme ends early between the quotes that are put around it. -/
def Misquoted (l : Lexeme) : Prop :=
  l.kind = .str ∧ '"' ∈ l.text.toList ∧ holdsBare '\'' l.text.toList = true

/-- Further lexemes as they are written, behind one of the given kind. -/
def writtenAfter (before : Kind) : List Lexeme → List Char
  | [] => []
  | l :: ls => (Printing.gap before l.kind).toList ++ (l.written ++ writtenAfter l.kind ls)

theorem token_eq_written (l : Lexeme) :
    Printing.token l.kind (.text l.text) = .ok (String.ofList l.written) := by
  obtain ⟨kind, text⟩ := l
  have plain : Printing.plainText (.text text) = .ok text := by
    simp only [Printing.plainText, Value.isWritable, if_true, Value.plain_text, String.ofList_toList]
  cases kind with
  | openList => rfl
  | closeList => rfl
  | str =>
      simp only [Printing.token, Printing.quotedContent, Printing.holdsQuote, plain, written, quoteAround,
        List.contains_eq_mem]
      by_cases h : '"' ∈ text.toList
      · simp only [h, if_true]
        exact congrArg Except.ok (String.toList_inj.1 (by simp))
      · simp only [h, if_false]
        exact congrArg Except.ok (String.toList_inj.1 (by simp))
  | date =>
      simp only [Printing.token, Printing.dateContent, plain, written]
      exact congrArg Except.ok (String.toList_inj.1 (by simp))
  | fn | var | num | blank =>
      simp only [Printing.token, plain, written, String.ofList_toList]

/-- Whether a token is written as the lexeme is. -/
def Writes (p : Kind × Value) (l : Lexeme) : Prop :=
  l.kind = p.1 ∧ Printing.token p.1 p.2 = .ok (String.ofList l.written)

theorem writes_ofLexemes (ls : List Lexeme) : List.Forall₂ Writes (Printing.ofLexemes ls) ls :=
  List.forall₂_map_left_iff.2 (List.forall₂_same.2 fun l _ => ⟨rfl, token_eq_written l⟩)

theorem tokensAfter_eq_written {ps : List (Kind × Value)} {ls : List Lexeme} (h : List.Forall₂ Writes ps ls)
    (before : Kind) : Printing.tokensAfter before ps = .ok (String.ofList (writtenAfter before ls)) := by
  induction h generalizing before with
  | nil => rfl
  | @cons p l ps ls hfirst _ ih =>
      obtain ⟨hkind, first⟩ := hfirst
      have others := ih l.kind
      rw [hkind] at others
      rw [Printing.tokensAfter, first, others, writtenAfter, hkind]
      exact congrArg Except.ok (String.toList_inj.1 (by simp))

theorem tokens_eq_tokensAfter (ps : List (Kind × Value)) : Printing.tokens ps = Printing.tokensAfter .openList ps := by
  cases ps with
  | nil => rfl
  | cons p ps =>
      have nothing : Printing.gap .openList p.1 = "" := by simp [Printing.gap]
      simp only [Printing.tokens, Printing.tokensAfter, nothing, String.empty_append]

theorem tokens_eq_written {ps : List (Kind × Value)} {ls : List Lexeme} (h : List.Forall₂ Writes ps ls) :
    Printing.tokens ps = .ok (String.ofList (writtenAfter .openList ls)) := by
  rw [tokens_eq_tokensAfter, tokensAfter_eq_written h]

/-! ## One lexeme -/

/-- A blank or the end of a list, which neither names nor numbers go on with. -/
def IsSeparator (c : Char) : Prop := c = ' ' ∨ c = ')'

theorem IsSeparator.not_name {c : Char} (h : IsSeparator c) : isNameChar c = false ∧ isAsciiDigit c = false := by
  rcases h with rfl | rfl <;> exact ⟨rfl, rfl⟩

theorem IsSeparator.not_number {c : Char} (h : IsSeparator c) : isAsciiDigit c = false ∧ c ≠ '.' := by
  rcases h with rfl | rfl <;> exact ⟨rfl, by decide⟩

theorem quoteAround_cases (text : List Char) : quoteAround text = '"' ∨ quoteAround text = '\'' := by
  unfold quoteAround
  split
  · exact .inr rfl
  · exact .inl rfl

theorem cut?_written {l : Lexeme} {rest : List Char} (hshape : HasShape l.kind l.text.toList)
    (hquoted : ¬ l.Misquoted)
    (hrest : l.kind ≠ .openList → ∀ c ∈ rest.head?, IsSeparator c) :
    ∃ front, cut? (l.written ++ rest) = some (l.kind, ⟨front, l.text.toList, rest⟩) := by
  obtain ⟨kind, text⟩ := l
  cases kind with
  | openList =>
      rw [show text.toList = ['('] from hshape]
      exact ⟨_, rfl⟩
  | closeList =>
      rw [show text.toList = [')'] from hshape]
      exact ⟨_, rfl⟩
  | fn =>
      have htext : text.toList = ['f', 'n'] := hshape
      have hnext : ∀ c ∈ rest.head?, isNameChar c = false := fun c hc => (hrest (by simp) c hc).not_name.1
      simp only [written, htext]
      exact ⟨_, cut?_fn hnext⟩
  | var =>
      obtain ⟨hne, hname, hfn⟩ := hshape
      exact ⟨_, cut?_name hne hname hfn fun c hc => (hrest (by simp) c hc).not_name⟩
  | num => exact ⟨_, cut?_number hshape fun c hc => (hrest (by simp) c hc).not_number⟩
  | date =>
      obtain ⟨hne, hbody⟩ := hshape
      have hcut : cut? ("#dt\x7b".toList ++ text.toList ++ '\x7d' :: rest) = _ := cut?_date hne hbody
      simp only [written, List.append_assoc, List.cons_append, List.nil_append] at hcut ⊢
      exact ⟨_, hcut⟩
  | blank => exact hshape.elim
  | str =>
      have hbare : holdsBare (quoteAround text.toList) text.toList = false := by
        unfold quoteAround
        split
        · next hmem => simpa [Misquoted, hmem] using hquoted
        · next hmem => exact holdsBare_of_not_mem hmem
      have hslash : quoteAround text.toList ≠ '\\' := by
        rcases quoteAround_cases text.toList with h | h <;> rw [h] <;> decide
      have hsplit := splitAtQuote?_paired rest hslash hshape hbare
      simp only [written, List.cons_append, List.append_assoc, List.nil_append]
      rw [cut?_quoted (quoteAround_cases _), cutQuoted, if_pos rfl, hsplit]
      exact ⟨_, rfl⟩

/-- A written lexeme is cut off again. -/
theorem split_written {l : Lexeme} {rest : List Char} (hshape : HasShape l.kind l.text.toList)
    (hquoted : ¬ l.Misquoted)
    (hrest : l.kind ≠ .openList → ∀ c ∈ rest.head?, IsSeparator c) :
    split (l.written ++ rest) = (split rest).map (l :: ·) := by
  obtain ⟨front, hcut⟩ := cut?_written hshape hquoted hrest
  have hkind : l.kind ≠ .blank := by
    intro h
    rw [h] at hshape
    exact hshape
  rw [split_of_cut? hcut]
  simp only [ofCut?, if_neg hkind, String.ofList_toList]
  rfl

/-- A misquoted text is cut short, so another text comes back in its place. -/
theorem cut?_misquoted {l : Lexeme} (rest : List Char) (hshape : HasShape l.kind l.text.toList)
    (hquoted : l.Misquoted) :
    ∃ cut, cut? (l.written ++ rest) = some (.str, cut) ∧ cut.kept ≠ l.text.toList := by
  obtain ⟨kind, text⟩ := l
  obtain ⟨rfl, hmem, hbare⟩ := hquoted
  dsimp only at hmem hbare
  have hquote : quoteAround text.toList = '\'' := if_pos hmem
  obtain ⟨body, behind, hsplit⟩ := splitAtQuote?_of_holdsBare hshape hbare
  have hlength : body.length < text.toList.length := by
    rw [← splitAtQuote?_eq_some hsplit]
    simp
  simp only [written, hquote, List.cons_append, List.append_assoc, List.nil_append]
  rw [cut?_quoted (.inr rfl), cutQuoted, if_pos rfl, splitAtQuote?_append _ (by decide) hsplit]
  refine ⟨_, rfl, fun h => ?_⟩
  rw [← h] at hlength
  exact Nat.lt_irrefl _ hlength

theorem written_head_not_blank {l : Lexeme} (hshape : HasShape l.kind l.text.toList) :
    ∃ c cs, l.written = c :: cs ∧ isBlank c = false := by
  have name_not_blank {c : Char} (h : isNameChar c = true) : isBlank c = false := by
    have := isNameChar_iff.1 h
    simp only [List.mem_cons, List.not_mem_nil, or_false] at this
    simp only [isBlank, Bool.or_eq_false_iff, Bool.and_eq_false_iff, decide_eq_false_iff_not, beq_eq_false_iff_ne]
    omega
  obtain ⟨kind, text⟩ := l
  cases kind with
  | openList => exact ⟨_, _, rfl, rfl⟩
  | closeList => exact ⟨_, _, rfl, rfl⟩
  | fn =>
      have htext : text.toList = ['f', 'n'] := hshape
      exact ⟨'f', ['n'], htext, rfl⟩
  | var =>
      obtain ⟨hne, hname, -⟩ := hshape
      obtain ⟨c, cs, hcs⟩ := List.exists_cons_of_ne_nil hne
      exact ⟨c, cs, hcs, name_not_blank (hname c (hcs ▸ List.mem_cons_self))⟩
  | num => exact IsNumber.not_blank hshape
  | date => exact ⟨_, _, rfl, rfl⟩
  | blank => exact hshape.elim
  | str =>
      refine ⟨_, _, rfl, ?_⟩
      rcases quoteAround_cases text.toList with h | h <;> rw [h] <;> rfl

/-! ## All lexemes -/

/-- The gap in front of a lexeme is passed over. -/
theorem split_gap {before : Kind} {l : Lexeme} (rest : List Char)
    (hshape : HasShape l.kind l.text.toList) :
    split ((Printing.gap before l.kind).toList ++ (l.written ++ rest)) = split (l.written ++ rest) := by
  unfold Printing.gap
  split
  · rfl
  · obtain ⟨c, cs, hwritten, hc⟩ := written_head_not_blank hshape
    refine split_space ?_
    rw [hwritten]
    rintro d ⟨⟩
    exact hc

theorem head?_writtenAfter {before : Kind} (hbefore : before ≠ .openList) (ls : List Lexeme) :
    ∀ c ∈ (writtenAfter before ls).head?, IsSeparator c := by
  cases ls with
  | nil => rintro c ⟨⟩
  | cons l ls =>
      unfold writtenAfter Printing.gap
      by_cases hclose : l.kind = .closeList
      · rw [if_pos (.inr hclose)]
        simp only [written, hclose]
        rintro c ⟨⟩
        exact .inr rfl
      · rw [if_neg (by simp [hbefore, hclose])]
        rintro c ⟨⟩
        exact .inl rfl

/-- The first misquoted text breaks the list; what is in front of it comes back. -/
theorem split_writtenAfter_iff (before : Kind) {ls : List Lexeme}
    (hshape : ∀ l ∈ ls, HasShape l.kind l.text.toList) :
    split (writtenAfter before ls) = .ok ls ↔ ∀ l ∈ ls, ¬ l.Misquoted := by
  induction ls generalizing before with
  | nil => simp [writtenAfter]
  | cons l ls ih =>
      obtain ⟨hfirst, hothers⟩ := List.forall_mem_cons.1 hshape
      have hlater := ih l.kind hothers
      rw [writtenAfter, split_gap _ hfirst, List.forall_mem_cons]
      by_cases hquoted : l.Misquoted
      · obtain ⟨cut, hcut, hkept⟩ := cut?_misquoted (writtenAfter l.kind ls) hfirst hquoted
        refine iff_of_false ?_ fun h => h.1 hquoted
        rw [split_of_cut? hcut, map_eq_ok_iff]
        rintro ⟨rest, -, hrest⟩
        have hfirst : (⟨.str, String.ofList cut.kept⟩ : Lexeme) = l := (List.cons.inj hrest).1
        exact hkept (by rw [← hfirst, String.toList_ofList])
      · rw [split_written hfirst hquoted fun hopen => head?_writtenAfter hopen ls, map_eq_ok_iff]
        constructor
        · rintro ⟨rest, hrest, heq⟩
          obtain rfl := (List.cons.inj heq).2
          exact ⟨hquoted, hlater.1 hrest⟩
        · rintro ⟨-, h⟩
          exact ⟨ls, hlater.2 h, rfl⟩

/-- The lexemes of a source come back from their written form exactly when no text among them holds a double quote
together with a bare apostrophe. -/
theorem reread_lexemes_iff {source : Option String} {ls : List Lexeme} (h : ofSource source = .ok ls) :
    ∃ text, Printing.tokens (Printing.ofLexemes ls) = .ok text ∧
      (ofSource (some text) = .ok ls ↔
        ∀ l ∈ ls, l.kind = .str → ¬ ('"' ∈ l.text.toList ∧ holdsBare '\'' l.text.toList = true)) := by
  have hshape := hasShape_of_ofSource h
  refine ⟨_, tokens_eq_written (writes_ofLexemes ls), ?_⟩
  rw [ofSource, String.toList_ofList, split_writtenAfter_iff .openList hshape]
  simp only [Misquoted, not_and]

/-- The text is put between apostrophes and ends at its own. -/
theorem reread_lexemes_misquoted :
    let ls : List Lexeme := [⟨.openList, "("⟩, ⟨.var, "f"⟩, ⟨.str, "a\\\"b's"⟩, ⟨.closeList, ")"⟩]
    ofSource (some "(f \"a\\\"b's\")") = .ok ls ∧
      ∃ text, Printing.tokens (Printing.ofLexemes ls) = .ok text ∧ ofSource (some text) ≠ .ok ls := by
  intro ls
  have h : ofSource (some "(f \"a\\\"b's\")") = .ok ls := eq_ok_of_toOption (by decide +kernel)
  obtain ⟨text, htext, hiff⟩ := reread_lexemes_iff h
  refine ⟨h, text, htext, fun hback => ?_⟩
  exact hiff.1 hback ⟨.str, "a\\\"b's"⟩ (by simp [ls]) rfl ⟨by decide, by decide⟩

end RuleExpr.Lexeme
