import RuleExpr.Proofs.Binary64.Layout
import RuleExpr.Proofs.Calendar.IsoText
import RuleExpr.Proofs.Printing.Lexemes
import RuleExpr.Tree

/-!
# Reading written leaves

Names, integers and date-times are written so that they are read back. A text is not if it is misquoted, and a
binary64 number is not if it is written with an exponent: the first lexeme of what is written is then another leaf.
-/
namespace RuleExpr.Printing
open Lexeme Numeral Text

/-- Whether the leaf with a content of a kind is read back from its text. -/
def LeafReturns : Kind → Value → Prop
  | .str, .text s => ¬ ('"' ∈ s.toList ∧ holdsBare '\'' s.toList = true)
  | _, .float x => x.IsPositional
  | _, _ => True

/-- The kinds of leaves. -/
def IsLeafKind (kind : Kind) : Prop := kind ≠ .openList ∧ kind ≠ .closeList ∧ kind ≠ .blank

instance (kind : Kind) : Decidable (IsLeafKind kind) := inferInstanceAs (Decidable (_ ∧ _ ∧ _))

/-- What is known about the text of a leaf. -/
structure LeafText (kind : Kind) (content : Value) (text : List Char) : Prop where
  printed : token kind content = .ok (String.ofList text)
  starts : ∃ c cs, text = c :: cs ∧ isBlank c = false
  returns : LeafReturns kind content → ∃ l : Lexeme, HasShape l.kind l.text.toList ∧ ¬ l.Misquoted ∧
    IsLeafKind l.kind ∧ l.written = text ∧ l.leaf = .ok (.token kind content)
  breaks : ¬ LeafReturns kind content → ∀ rest, (∀ c ∈ rest.head?, IsSeparator c) → ∃ kind' cut,
    cut? (text ++ rest) = some (kind', cut) ∧ IsLeafKind kind' ∧
      Lexeme.leaf ⟨kind', String.ofList cut.kept⟩ ≠ .ok (.token kind content)

/-- What is known about the text of the lexeme that is written for a leaf, and the content that is read from it. -/
structure Spelled (kind : Kind) (content : Value) (text : String) (again : Value) : Prop where
  printed : token kind content = .ok (String.ofList (written ⟨kind, text⟩))
  shape : HasShape kind text.toList
  quoted : ¬ Lexeme.Misquoted ⟨kind, text⟩
  leafKind : IsLeafKind kind
  leaf : Lexeme.leaf ⟨kind, text⟩ = .ok (.token kind again)

theorem not_misquoted {kind : Kind} (h : kind ≠ .str) (text : String) : ¬ Lexeme.Misquoted ⟨kind, text⟩ :=
  fun hquoted => h hquoted.1

/-- A leaf that is written as a lexeme that stands for it. -/
theorem leafText_of_spelled {kind : Kind} {content : Value} {text : String} (h : Spelled kind content text content)
    (hreturns : LeafReturns kind content) : LeafText kind content (written ⟨kind, text⟩) := by
  constructor
  · exact h.printed
  · exact @written_head_not_blank ⟨kind, text⟩ h.shape
  · intro _
    exact ⟨⟨kind, text⟩, h.shape, h.quoted, h.leafKind, rfl, h.leaf⟩
  · intro hbreaks
    exact (hbreaks hreturns).elim

/-! ## Names and texts -/

theorem spelled_name {kind : Kind} {text : String} (hshape : HasShape kind text.toList)
    (hname : kind = .fn ∨ kind = .var) : Spelled kind (.text text) text (.text text) := by
  rcases hname with rfl | rfl
  · exact ⟨token_eq_written ⟨.fn, text⟩, hshape, not_misquoted (by decide) text, by decide, rfl⟩
  · exact ⟨token_eq_written ⟨.var, text⟩, hshape, not_misquoted (by decide) text, by decide, rfl⟩

theorem spelled_str {text : String} (hshape : HasShape .str text.toList)
    (hquoted : ¬ Lexeme.Misquoted ⟨.str, text⟩) : Spelled .str (.text text) text (.text text) :=
  ⟨token_eq_written ⟨.str, text⟩, hshape, hquoted, by decide, rfl⟩

theorem leafText_name {kind : Kind} {text : String} (hshape : HasShape kind text.toList)
    (hname : kind = .fn ∨ kind = .var) : LeafText kind (.text text) (written ⟨kind, text⟩) := by
  refine leafText_of_spelled (spelled_name hshape hname) ?_
  rcases hname with rfl | rfl <;> trivial

theorem leafText_str {text : String} (hshape : HasShape .str text.toList) :
    LeafText .str (.text text) (written ⟨.str, text⟩) := by
  have hkind : IsLeafKind .str := by decide
  refine ⟨token_eq_written ⟨.str, text⟩, ?_, ?_, ?_⟩
  · exact @written_head_not_blank ⟨.str, text⟩ hshape
  · intro hreturns
    exact ⟨⟨.str, text⟩, hshape, fun hquoted => hreturns hquoted.2, hkind, rfl, rfl⟩
  · intro hbreaks rest _
    have hquoted : Lexeme.Misquoted ⟨.str, text⟩ := ⟨rfl, Classical.not_not.1 hbreaks⟩
    obtain ⟨cut, hcut, hkept⟩ := cut?_misquoted rest hshape hquoted
    refine ⟨.str, cut, hcut, hkind, fun h => hkept ?_⟩
    have htext : String.ofList cut.kept = text := Value.text.inj (Value.token.inj (Except.ok.inj h)).2
    rw [← htext, String.toList_ofList]

/-! ## Numbers -/

theorem isNumber_signed (negative : Bool) {cs : List Char} (h : IsMagnitude cs) :
    IsNumber (signText negative ++ cs) := by
  cases negative with
  | false => exact .positive h
  | true => exact .negative h

theorem number_eq_ok {cs : List Char} {v : Value} (h : number cs = .ok v) :
    (∃ x, v = .float x ∧ cs.contains '.' = true ∧ Binary64.ofText? cs = some x) ∨
      (∃ n, v = .int n ∧ cs.contains '.' = false ∧ toInt cs = .ok n) := by
  unfold number at h
  split at h
  · next hpoint =>
      split at h
      · next x hx =>
          obtain rfl := Except.ok.inj h
          exact .inl ⟨x, rfl, hpoint, hx⟩
      · cases h
  · next hpoint =>
      split at h
      · next n hn =>
          obtain rfl := Except.ok.inj h
          exact .inr ⟨n, rfl, by simpa using hpoint, hn⟩
      · cases h

theorem token_int {n : Int} (h : isWritable n = true) : token .num (.int n) = .ok (String.ofList (ofInt n)) := by
  have hplain : Value.plain (.int n) = ofInt n := rfl
  have hwritable : Value.isWritable (.int n) = true := h
  have htoken : token .num (.int n) = plainText (.int n) := rfl
  rw [htoken, plainText, if_pos hwritable, hplain]

/-- A number that is written in the form of number literals. -/
theorem spelled_number {v : Value} {cs : List Char} (hprinted : token .num v = .ok (String.ofList cs))
    (hshape : IsNumber cs) (hread : number cs = .ok v) : Spelled .num v (String.ofList cs) v := by
  have hwritten : written ⟨.num, String.ofList cs⟩ = cs := String.toList_ofList
  refine ⟨?_, ?_, not_misquoted (by decide) _, by decide, ?_⟩
  · rw [hwritten]
    exact hprinted
  · rw [String.toList_ofList]
    exact hshape
  · simp only [Lexeme.leaf, Lexeme.content, String.toList_ofList, hread]
    rfl

theorem spelled_int {n : Int} (h : isWritable n = true) :
    Spelled .num (.int n) (String.ofList (ofInt n)) (.int n) := by
  have hmagnitude : IsMagnitude (Nat.toDigits 10 n.natAbs) := .whole (isDigits_toDigits _)
  have hpoint : (ofInt n).contains '.' = false := by
    rw [ofInt_eq_signText]
    exact not_point_mem (isDigits_toDigits _).2
  refine spelled_number (token_int h) ?_ ?_
  · rw [ofInt_eq_signText]
    exact isNumber_signed _ hmagnitude
  · rw [number, if_neg (by rw [hpoint]; exact Bool.false_ne_true), toInt_ofInt h]

theorem leafText_int {n : Int} (h : isWritable n = true) : LeafText .num (.int n) (ofInt n) := by
  have hwritten : written ⟨.num, String.ofList (ofInt n)⟩ = ofInt n := String.toList_ofList
  rw [← hwritten]
  exact leafText_of_spelled (spelled_int h) trivial

/-! ## Binary64 numbers -/

theorem ofFraction_ne_nan {f : Fraction} {mark : Option Binary64.Mark} :
    Binary64.ofFraction f ≠ .nan mark := by
  unfold Binary64.ofFraction
  split
  · nofun
  · split
    · nofun
    · split
      · exact Binary64.ofUnits_ne_nan
      · exact Binary64.ofUnits_ne_nan

theorem ofText?_ne_nan {cs : List Char} {mark : Option Binary64.Mark} :
    Binary64.ofText? cs ≠ some (.nan mark) := by
  intro h
  obtain ⟨f, -, hf⟩ := Option.map_eq_some_iff.1 h
  exact ofFraction_ne_nan hf

theorem isMagnitude_mantissaText {c : Char} {cs : List Char} (h : IsDigits (c :: cs)) :
    IsMagnitude (Binary64.mantissaText c cs) := by
  have hfirst : IsDigits [c] := by
    refine ⟨List.cons_ne_nil _ _, ?_⟩
    rw [List.forall_mem_singleton]
    exact h.2 c List.mem_cons_self
  cases cs with
  | nil => exact .whole hfirst
  | cons d ds => exact .fraction hfirst h.tail

/-- A mantissa alone is read as an integer or as another number. -/
theorem number_mantissaText {negative : Bool} {c : Char} {cs : List Char} {x : Binary64} (h : IsDigits (c :: cs))
    (hread : cs ≠ [] → Binary64.ofText? (signText negative ++ Binary64.mantissaText c cs) ≠ some x) :
    number (signText negative ++ Binary64.mantissaText c cs) ≠ .ok (.float x) := by
  intro hnumber
  rcases number_eq_ok hnumber with ⟨y, hy, hpoint, htext⟩ | ⟨n, hn, -⟩
  · obtain rfl := Value.float.inj hy
    cases cs with
    | nil =>
        rw [Binary64.mantissaText, not_point_mem h.2] at hpoint
        cases hpoint
    | cons d ds => exact hread (List.cons_ne_nil d ds) htext
  · cases hn

theorem token_float (x : Binary64) : token .num (.float x) = .ok (String.ofList x.toText) := by
  have hplain : Value.plain (.float x) = x.toText := rfl
  have hwritable : Value.isWritable (.float x) = true := rfl
  have htoken : token .num (.float x) = plainText (.float x) := rfl
  rw [htoken, plainText, if_pos hwritable, hplain]

theorem leafText_positional {x : Binary64} (h : x.IsPositional) : LeafText .num (.float x) x.toText := by
  obtain ⟨negative, ds, fs, htext, hds, hfs, hread⟩ := Binary64.ofText?_toText h
  have hshape : IsNumber x.toText := by
    rw [htext]
    exact isNumber_signed negative (.fraction hds hfs)
  have hpoint : x.toText.contains '.' = true := by
    rw [htext]
    simp
  have hnumber : number x.toText = .ok (.float x) := by
    rw [number, if_pos hpoint, hread]
  have hwritten : written ⟨.num, String.ofList x.toText⟩ = x.toText := String.toList_ofList
  rw [← hwritten]
  exact leafText_of_spelled (spelled_number (token_float x) hshape hnumber) h

/-- The text of an infinity is a name. -/
theorem leafText_infinite (negative : Bool) :
    LeafText .num (.float (.infinite negative)) (Binary64.toText (.infinite negative)) := by
  have hname : ∀ c ∈ Binary64.toText (.infinite negative), isNameChar c = true :=
    List.all_eq_true.1 (by cases negative <;> rfl)
  have hfn : Binary64.toText (.infinite negative) ≠ ['f', 'n'] := by cases negative <;> decide
  have hne : Binary64.toText (.infinite negative) ≠ [] := by cases negative <;> decide
  refine ⟨token_float _, ?_, fun hreturns => hreturns.elim, ?_⟩
  · cases negative
    · exact ⟨'i', ['n', 'f'], rfl, rfl⟩
    · exact ⟨'-', ['i', 'n', 'f'], rfl, rfl⟩
  · intro _ rest hrest
    exact ⟨.var, _, cut?_name hne hname hfn fun c hc => (hrest c hc).not_name, by decide, nofun⟩

theorem leafText_scientific {negative : Bool} {rank : Fin Binary64.rankCount}
    (h : ¬ Binary64.IsPositional (.finite negative rank)) :
    LeafText .num (.float (.finite negative rank)) (Binary64.toText (.finite negative rank)) := by
  obtain ⟨c, cs, tail, htext, hdigits, hread⟩ := Binary64.toText_scientific h
  have hnumber := number_mantissaText hdigits hread
  have hshape : IsNumber (signText negative ++ Binary64.mantissaText c cs) :=
    isNumber_signed negative (isMagnitude_mantissaText hdigits)
  refine ⟨token_float _, ?_, fun hreturns => (h hreturns).elim, ?_⟩
  · obtain ⟨d, ds, hstart, hd⟩ := hshape.not_blank
    rw [htext, ← List.append_assoc, hstart]
    exact ⟨d, ds ++ 'e' :: tail, rfl, hd⟩
  · intro _ rest _
    have hmark : ∀ d ∈ ('e' :: (tail ++ rest)).head?, isAsciiDigit d = false ∧ d ≠ '.' := by
      rintro d ⟨⟩
      exact ⟨rfl, by decide⟩
    have hcut := cut?_number hshape hmark
    rw [htext]
    simp only [List.append_assoc, List.cons_append] at hcut ⊢
    refine ⟨.num, _, hcut, by decide, ?_⟩
    intro hleaf
    obtain ⟨content, hcontent, heq⟩ := map_eq_ok_iff.1 hleaf
    obtain rfl := (Value.token.inj heq).2
    simp only [Lexeme.content, Cut.whole, String.toList_ofList] at hcontent
    exact hnumber hcontent

theorem leafText_float {x : Binary64} (h : ∀ mark, x ≠ .nan mark) : LeafText .num (.float x) x.toText := by
  by_cases hpositional : x.IsPositional
  · exact leafText_positional hpositional
  · match x, h with
    | .nan mark, h => exact (h mark rfl).elim
    | .infinite negative, _ => exact leafText_infinite negative
    | .finite negative rank, _ => exact leafText_scientific hpositional

/-! ## Date-times -/

theorem isBrace_of_isIsoChar {c : Char} (h : DateTime.isIsoChar c = true) : isBrace c = false := by
  by_contra hbrace
  simp only [isBrace, Bool.not_eq_false, Bool.or_eq_true, decide_eq_true_eq] at hbrace
  rcases hbrace with rfl | rfl
  · cases h
  · cases h

theorem spelled_date {d : DateTime} (h : d.isAware = true) :
    Spelled .date (.date d) (String.ofList (d.toText 'T')) (.date d.reread) := by
  have hprinted : token .date (.date d) = .ok (String.ofList (written ⟨.date, String.ofList (d.toText 'T')⟩)) :=
    congrArg Except.ok (String.toList_inj.1 (by simp [written]))
  refine ⟨hprinted, ?_, not_misquoted (by decide) _, by decide, ?_⟩
  · rw [String.toList_ofList]
    constructor
    · rw [DateTime.toText]
      simp
    · intro c hc
      exact isBrace_of_isIsoChar (DateTime.isIsoChar_of_mem_toText c hc)
  · simp only [Lexeme.leaf, Lexeme.content, Lexeme.dateTime, String.toList_ofList, DateTime.ofLiteral?_toText h]
    rfl

theorem leafText_date {text : String} {d : DateTime} (h : DateTime.ofLiteral? text.toList = some d) :
    LeafText .date (.date d) (written ⟨.date, String.ofList (d.toText 'T')⟩) := by
  have spelled := spelled_date (DateTime.isAware_of_ofLiteral? h)
  rw [DateTime.reread_of_ofLiteral? h] at spelled
  exact leafText_of_spelled spelled trivial

/-! ## Leaves of sources -/

theorem leafText_number {text : String} {v : Value} (h : number text.toList = .ok v) :
    ∃ written, LeafText .num v written := by
  rcases number_eq_ok h with ⟨x, rfl, -, hx⟩ | ⟨n, rfl, -, hn⟩
  · refine ⟨_, leafText_float ?_⟩
    rintro mark rfl
    exact ofText?_ne_nan hx
  · exact ⟨_, leafText_int (isWritable_of_toInt hn)⟩

/-- Every leaf that was read has a text, and is read back from it exactly when it is such a leaf. -/
theorem leafText_of_leaf {l : Lexeme} {v : Value} (hshape : HasShape l.kind l.text.toList)
    (hopen : l.kind ≠ .openList) (hclose : l.kind ≠ .closeList) (h : l.leaf = .ok v) :
    ∃ content text, v = .token l.kind content ∧ LeafText l.kind content text := by
  obtain ⟨content, hcontent, rfl⟩ := map_eq_ok_iff.1 h
  obtain ⟨kind, text⟩ := l
  cases kind with
  | openList => exact (hopen rfl).elim
  | closeList => exact (hclose rfl).elim
  | blank => exact hshape.elim
  | fn =>
      obtain rfl := Except.ok.inj hcontent
      exact ⟨_, _, rfl, leafText_name hshape (.inl rfl)⟩
  | var =>
      obtain rfl := Except.ok.inj hcontent
      exact ⟨_, _, rfl, leafText_name hshape (.inr rfl)⟩
  | str =>
      obtain rfl := Except.ok.inj hcontent
      exact ⟨_, _, rfl, leafText_str hshape⟩
  | num =>
      obtain ⟨written, hwritten⟩ := leafText_number hcontent
      exact ⟨content, written, rfl, hwritten⟩
  | date =>
      simp only [Lexeme.content, Lexeme.dateTime] at hcontent
      split at hcontent
      · next d hd =>
          obtain rfl := Except.ok.inj hcontent
          exact ⟨_, _, rfl, leafText_date hd⟩
      · cases hcontent

end RuleExpr.Printing
