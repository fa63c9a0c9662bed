import RuleExpr.Proofs.Numeral.Reading
import RuleExpr.Proofs.Tree.Descent

/-!
# Faults of reading

Reading has faults of its own: for text in which no lexeme starts, for lists that nest too deep and for texts that are
no date-times. An integer with more digits than are converted fails with another fault, which is not of reading.
`reader_faults_iff` says that this is the only way, and exactly when it happens: lexemes behind the first expression
are not looked at, however long they are.
-/
namespace RuleExpr

namespace Lexeme
open Numeral

/-- Whether a lexeme is an integer with more digits than are converted. -/
def IsOverlong (l : Lexeme) : Prop :=
  l.kind = .num ∧ ∃ negative ds, l.text.toList = signText negative ++ ds ∧ IsDigits ds ∧ digitLimit < ds.length

variable {cs : List Char} {f : Fault} {l : Lexeme}

theorem IsNumber.eq_signText_append (h : IsNumber cs) :
    ∃ negative body, cs = signText negative ++ body ∧ IsMagnitude body := by
  cases h with
  | positive hbody => exact ⟨false, _, rfl, hbody⟩
  | negative hbody => exact ⟨true, _, rfl, hbody⟩

theorem number_of_isDigits (negative : Bool) {ds : List Char} (h : IsDigits ds) :
    number (signText negative ++ ds) =
      if ds.length ≤ digitLimit then
        .ok (.int (if negative then -(Nat.ofDigitChars 10 ds 0 : Int) else Nat.ofDigitChars 10 ds 0))
      else .error .tooManyDigits := by
  have hpoint : ¬ (signText negative ++ ds).contains '.' = true := by
    rw [not_point_mem h.2]
    exact Bool.false_ne_true
  rw [number, if_neg hpoint, toInt_signed negative h]
  by_cases hlength : ds.length ≤ digitLimit
  · rw [if_pos hlength, if_pos hlength]
  · rw [if_neg hlength, if_neg hlength]
    rfl

theorem number_of_fraction (negative : Bool) {ds fs : List Char} (hds : IsDigits ds) (hfs : IsDigits fs) :
    ∃ x, number (signText negative ++ (ds ++ '.' :: fs)) = .ok (.float x) := by
  have hpoint : (signText negative ++ (ds ++ '.' :: fs)).contains '.' = true := by simp
  rw [number, if_pos hpoint, Binary64.ofText?, toFraction_signed negative hds hfs]
  exact ⟨_, rfl⟩

/-- What can be wrong with a number is its number of digits. -/
theorem number_eq_error (hshape : IsNumber cs) (h : number cs = .error f) :
    f = .tooManyDigits ∧ ∃ negative ds, cs = signText negative ++ ds ∧ IsDigits ds ∧ digitLimit < ds.length := by
  obtain ⟨negative, body, rfl, hbody⟩ := hshape.eq_signText_append
  cases hbody with
  | whole hds =>
      rw [number_of_isDigits negative hds] at h
      split at h
      · cases h
      · next hlength => exact ⟨(Except.error.inj h).symm, negative, body, rfl, hds, Nat.lt_of_not_le hlength⟩
  | fraction hds hfs =>
      obtain ⟨x, hx⟩ := number_of_fraction negative hds hfs
      cases hx.symm.trans h

theorem IsOverlong.leaf_eq (h : l.IsOverlong) : l.leaf = .error .tooManyDigits := by
  obtain ⟨kind, text⟩ := l
  obtain ⟨rfl, negative, ds, htext, hds, hlength⟩ := h
  have hnumber : number text.toList = .error .tooManyDigits := by
    rw [htext, number_of_isDigits negative hds, if_neg (Nat.not_le_of_lt hlength)]
  rw [leaf, content, hnumber]
  rfl

/-- Leaves fail as integers with too many digits or as date-times. -/
theorem leaf_eq_error (hshape : HasShape l.kind l.text.toList) (h : l.leaf = .error f) :
    (l.IsOverlong ∧ f = .tooManyDigits) ∨ (l.kind = .date ∧ f = .invalidDateTime l.text) := by
  have hcontent : l.content = .error f := map_eq_error_iff.1 h
  obtain ⟨kind, text⟩ := l
  cases kind with
  | num =>
      obtain ⟨rfl, hdigits⟩ := number_eq_error hshape hcontent
      exact .inl ⟨⟨rfl, hdigits⟩, rfl⟩
  | date =>
      simp only [content, dateTime] at hcontent
      split at hcontent
      · cases hcontent
      · exact .inr ⟨rfl, (Except.error.inj hcontent).symm⟩
  | _ => cases hcontent

end Lexeme

namespace Tree
open Lexeme

/-- Whether reading gets through all lexemes and still takes a leaf behind them. -/
def TakesLeaf (limit : Int) (before : List Lexeme) : Prop :=
  ∃ tree, ofLexemes limit (before ++ [⟨.num, "0"⟩]) = .ok (tree, [])

/-- The faults that are of reading, with their causes. -/
inductive IsReaderFault (source : Option String) : Fault → Prop
  | token {rest : String} : ofSource source = .error (.invalidToken rest) → IsReaderFault source (.invalidToken rest)
  | depth : IsReaderFault source (.tooDeep depthLimit)
  | dateTime {ls : List Lexeme} {text : String} : ofSource source = .ok ls → ⟨.date, text⟩ ∈ ls →
      IsReaderFault source (.invalidDateTime text)

variable {limit : Int} {items : List Value} {outer : List (List Value)} {before after ls : List Lexeme} {l : Lexeme}
  {f : Fault}

/-! ## The leaf that fails -/

theorem gather_zero : gather limit items outer [⟨.num, "0"⟩] =
    .ok (closeAll (.token .num (.int 0) :: items) outer, []) := rfl

/-- Reading the lexemes in front fails, comes to the end of the list or leads to another state, whatever follows. -/
theorem gather_front (limit : Int) (items : List Value) (outer : List (List Value)) (before : List Lexeme) :
    (∃ f, ∀ ls, gather limit items outer (before ++ ls) = .error f) ∨
      (∃ tree rest, ∀ ls, gather limit items outer (before ++ ls) = .ok (tree, rest ++ ls)) ∨
      ∃ items' outer', ∀ ls, gather limit items outer (before ++ ls) = gather limit items' outer' ls := by
  induction before generalizing items outer with
  | nil => exact .inr (.inr ⟨items, outer, fun _ => rfl⟩)
  | cons first before ih =>
      simp only [List.cons_append]
      cases gather_step limit items outer first with
      | fails f hfails => exact .inl ⟨f, fun _ => hfails _⟩
      | ends _ _ hends => exact .inr (.inl ⟨_, before, fun _ => hends _⟩)
      | leads items' outer' _ hleads =>
          simp only [hleads]
          exact ih items' outer'

/-- Where a leaf is taken, one that fails is the end of reading. -/
theorem gather_eq_error_of_leaf {tree : Value} (hopen : l.kind ≠ .openList) (hclose : l.kind ≠ .closeList)
    (hleaf : l.leaf = .error f) (h : gather limit items outer (before ++ [⟨.num, "0"⟩]) = .ok (tree, [])) :
    gather limit items outer (before ++ l :: after) = .error f := by
  rcases gather_front limit items outer before with ⟨f, hfails⟩ | ⟨tree, rest, hends⟩ | ⟨items', outer', hleads⟩
  · cases (hfails _).symm.trans h
  · have heq := (Prod.mk.inj (Except.ok.inj ((hends _).symm.trans h))).2
    exact absurd heq (List.append_ne_nil_of_right_ne_nil rest (List.cons_ne_nil _ _))
  · rw [hleads, gather_of_leaf hopen hclose, hleaf]
    rfl

/-- Reading fails at a list that is too deep or where a leaf is taken that fails. -/
theorem gather_fault (h : gather limit items outer ls = .error f) :
    f = .tooDeep limit ∨ ∃ before l after, ls = before ++ l :: after ∧ l.leaf = .error f ∧
      ∃ tree, gather limit items outer (before ++ [⟨.num, "0"⟩]) = .ok (tree, []) := by
  obtain ⟨before, l, after, rfl, hcause, r, hr⟩ := gather_eq_error h
  rcases hcause with ⟨-, rfl⟩ | ⟨-, -, hleaf⟩
  · exact .inl rfl
  · refine .inr ⟨before, l, after, rfl, hleaf, ?_⟩
    rcases gather_front limit items outer before with ⟨f, hfails⟩ | ⟨tree, rest, hends⟩ | ⟨items', outer', hleads⟩
    · have hfront := hfails []
      rw [List.append_nil] at hfront
      cases hfront.symm.trans hr
    · cases (hends _).symm.trans h
    · exact ⟨_, (hleads _).trans gather_zero⟩

theorem takesLeaf_nil : TakesLeaf limit [] := ⟨_, rfl⟩

theorem takesLeaf_cons (hopen : l.kind = .openList) :
    TakesLeaf limit (l :: before) ↔ ∃ tree, gather limit [] [] (before ++ [⟨.num, "0"⟩]) = .ok (tree, []) := by
  rw [TakesLeaf, List.cons_append, ofLexemes_of_open hopen]

/-- Behind a leaf or parenthesis that is the whole expression nothing is taken. -/
theorem not_takesLeaf_cons (hopen : l.kind ≠ .openList) : ¬ TakesLeaf limit (l :: before) := by
  rintro ⟨tree, h⟩
  rw [List.cons_append] at h
  by_cases hclose : l.kind = .closeList
  · rw [ofLexemes_of_close hclose] at h
    cases before <;> cases h
  · rw [ofLexemes_of_leaf hopen hclose, map_eq_ok_iff] at h
    obtain ⟨leaf, -, heq⟩ := h
    cases before <;> cases heq

theorem ofLexemes_eq_error_of_leaf (hopen : l.kind ≠ .openList) (hclose : l.kind ≠ .closeList)
    (hleaf : l.leaf = .error f) (h : TakesLeaf limit before) : ofLexemes limit (before ++ l :: after) = .error f := by
  cases before with
  | nil =>
      rw [List.nil_append, ofLexemes_of_leaf hopen hclose, hleaf]
      rfl
  | cons first before =>
      by_cases hfirst : first.kind = .openList
      · obtain ⟨tree, htake⟩ := (takesLeaf_cons hfirst).1 h
        rw [List.cons_append, ofLexemes_of_open hfirst]
        exact gather_eq_error_of_leaf hopen hclose hleaf htake
      · exact absurd h (not_takesLeaf_cons hfirst)

theorem ofLexemes_fault (h : ofLexemes limit ls = .error f) :
    f = .tooDeep limit ∨ ∃ before l after, ls = before ++ l :: after ∧ l.leaf = .error f ∧ TakesLeaf limit before := by
  cases ls with
  | nil => cases h
  | cons first ls =>
      by_cases hopen : first.kind = .openList
      · rw [ofLexemes_of_open hopen] at h
        refine (gather_fault h).imp_right ?_
        rintro ⟨before, l, after, rfl, hleaf, htake⟩
        exact ⟨first :: before, l, after, rfl, hleaf, (takesLeaf_cons hopen).2 htake⟩
      · by_cases hclose : first.kind = .closeList
        · rw [ofLexemes_of_close hclose] at h
          cases h
        · rw [ofLexemes_of_leaf hopen hclose, map_eq_error_iff] at h
          exact .inr ⟨[], first, ls, rfl, h, takesLeaf_nil⟩

/-! ## Sources -/

theorem read_eq_error_iff {source : Option String} : read source = .error f ↔
    ofSource source = .error f ∨ ∃ ls, ofSource source = .ok ls ∧ ofLexemes depthLimit ls = .error f := by
  unfold read
  cases ofSource source with
  | error fault => simp [bind, Except.bind]
  | ok ls =>
      cases hread : ofLexemes depthLimit ls with
      | error fault => simp [bind, Except.bind, hread]
      | ok r => simp [bind, Except.bind, pure, Except.pure, hread]

theorem not_isReaderFault_tooManyDigits {source : Option String} : ¬ IsReaderFault source .tooManyDigits := nofun

/-- A fault of reading a source is of reading, or of an integer with too many digits where a leaf is taken. -/
theorem read_fault {source : Option String} (h : read source = .error f) :
    IsReaderFault source f ∨ f = .tooManyDigits ∧ ∃ before l after, ofSource source = .ok (before ++ l :: after) ∧
      TakesLeaf depthLimit before ∧ l.IsOverlong := by
  rcases read_eq_error_iff.1 h with hsource | ⟨ls, hsource, hread⟩
  · obtain ⟨rest, rfl⟩ := ofSource_eq_error hsource
    exact .inl (.token hsource)
  · rcases ofLexemes_fault hread with rfl | ⟨before, l, after, rfl, hleaf, htake⟩
    · exact .inl .depth
    · have hmem : l ∈ before ++ l :: after := List.mem_append_right _ List.mem_cons_self
      rcases leaf_eq_error (hasShape_of_ofSource hsource l hmem) hleaf with ⟨hlong, rfl⟩ | ⟨hdate, rfl⟩
      · exact .inr ⟨rfl, before, l, after, hsource, htake, hlong⟩
      · exact .inl (.dateTime hsource (hdate ▸ hmem))

theorem read_of_isOverlong {source : Option String} (hsource : ofSource source = .ok (before ++ l :: after))
    (htake : TakesLeaf depthLimit before) (h : l.IsOverlong) : read source = .error .tooManyDigits := by
  have hopen : l.kind ≠ .openList := by
    rw [h.1]
    decide
  have hclose : l.kind ≠ .closeList := by
    rw [h.1]
    decide
  exact read_eq_error_iff.2 (.inr ⟨_, hsource, ofLexemes_eq_error_of_leaf hopen hclose h.leaf_eq htake⟩)

/-- A source that is one integer with too many digits. -/
theorem read_of_isDigits {ds : List Char} (hds : Numeral.IsDigits ds) (h : Numeral.digitLimit < ds.length) :
    read (some (String.ofList ds)) = .error .tooManyDigits := by
  have hcut : cut? ds = some (.num, .whole ds []) := by
    have hrest : ∀ c ∈ ([] : List Char).head?, Numeral.isAsciiDigit c = false ∧ c ≠ '.' := nofun
    have hwhole := cut?_number (.positive (.whole hds)) hrest
    rwa [List.append_nil] at hwhole
  have hsource : ofSource (some (String.ofList ds)) = .ok ([] ++ ⟨.num, String.ofList ds⟩ :: []) := by
    rw [ofSource, String.toList_ofList, split_of_cut? hcut, Cut.whole, split_nil]
    rfl
  exact read_of_isOverlong hsource takesLeaf_nil ⟨rfl, false, ds, String.toList_ofList, hds, h⟩

/-- Reading a source fails with faults of reading only, exactly if it takes no integer with too many digits. Otherwise
it fails with the fault of that integer. -/
theorem reader_faults_iff (source : Option String) :
    ((∀ f, read source = .error f → IsReaderFault source f) ↔
      ∀ before l after, ofSource source = .ok (before ++ l :: after) → TakesLeaf depthLimit before →
        ¬ l.IsOverlong) ∧
      ∀ f, read source = .error f → IsReaderFault source f ∨ f = .tooManyDigits := by
  refine ⟨⟨fun h before l after hsource htake hlong => ?_, fun h f hf => ?_⟩, fun f hf => ?_⟩
  · exact not_isReaderFault_tooManyDigits (h _ (read_of_isOverlong hsource htake hlong))
  · rcases read_fault hf with hreader | ⟨-, before, l, after, hsource, htake, hlong⟩
    · exact hreader
    · exact absurd hlong (h before l after hsource htake)
  · exact (read_fault hf).imp_right (·.1)

/-- One integer with one digit too many. -/
theorem reader_fault_overlong :
    read (some (String.ofList (List.replicate 4301 '1'))) = .error .tooManyDigits ∧
      ¬ IsReaderFault (some (String.ofList (List.replicate 4301 '1'))) .tooManyDigits := by
  have hdigits : Numeral.IsDigits (List.replicate 4301 '1') := by
    refine ⟨List.cons_ne_nil _ _, fun c hc => ?_⟩
    rw [List.eq_of_mem_replicate hc]
    rfl
  have hlength : Numeral.digitLimit < (List.replicate 4301 '1').length := by
    rw [List.length_replicate]
    decide
  exact ⟨read_of_isDigits hdigits hlength, not_isReaderFault_tooManyDigits⟩

end Tree

end RuleExpr
