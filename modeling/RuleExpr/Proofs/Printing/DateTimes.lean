import RuleExpr.Proofs.Printing.Leaves

/-!
# Reading written date-times

A date-time token is written in one form, whatever the form of the literal that it was read from. A date-time that was
read is read back unchanged. One that a host made keeps its day, its clock and its offset, but not its zone, of which no
more than the offset is written.
-/
namespace RuleExpr.Printing

/-- The text between the braces of a written date-time token. -/
def dateInterior (d : DateTime) : String := String.ofList (d.toText 'T')

theorem token_date (d : DateTime) : token .date (.date d) = .ok ("#dt\x7b" ++ dateInterior d ++ "\x7d") := rfl

theorem dateTime_eq_ok {text : String} {v : Value} (h : Lexeme.dateTime text = .ok v) :
    ∃ d, v = .date d ∧ DateTime.ofLiteral? text.toList = some d := by
  unfold Lexeme.dateTime at h
  split at h
  · next d hd => exact ⟨d, (Except.ok.inj h).symm, hd⟩
  · cases h

theorem dateTime_interior {d : DateTime} (h : d.isAware = true) :
    Lexeme.dateTime (dateInterior d) = .ok (.date d.reread) := by
  rw [Lexeme.dateTime, dateInterior, String.toList_ofList, DateTime.ofLiteral?_toText h]

/-- What a literal stands for is an instant, and is read back from what is written for it. Of any instant the day, the
clock and the offset are read back. -/
theorem written_dates_are_read (text : String) (v : Value) (d : DateTime) :
    (Lexeme.dateTime text = .ok v → ∃ d interior, v = .date d ∧ d.isAware = true ∧
      token .date v = .ok ("#dt\x7b" ++ interior ++ "\x7d") ∧ Lexeme.dateTime interior = .ok v) ∧
    (d.isAware = true → ∃ interior e,
      token .date (.date d) = .ok ("#dt\x7b" ++ interior ++ "\x7d") ∧ Lexeme.dateTime interior = .ok (.date e) ∧
      e.isAware = true ∧ e.date = d.date ∧ e.time = { d.time with fold := false } ∧ e.offset = d.offset) := by
  constructor
  · intro h
    obtain ⟨d, rfl, hliteral⟩ := dateTime_eq_ok h
    have haware := DateTime.isAware_of_ofLiteral? hliteral
    refine ⟨d, dateInterior d, rfl, haware, token_date d, ?_⟩
    rw [dateTime_interior haware, DateTime.reread_of_ofLiteral? hliteral]
  · intro haware
    exact ⟨dateInterior d, d.reread, token_date d, dateTime_interior haware, (DateTime.isAware_reread d).trans haware,
      rfl, rfl, DateTime.offset_reread d⟩

/-- A week date behind the end of its year, digits that are cut off and an offset of 99 minutes to the west; and an
instant of the host whose offset, half a second, is read back. -/
theorem written_dates_are_read_week :
    (∃ d interior, Lexeme.dateTime " 2020W535T235959,1234567-0099 " = .ok (.date d) ∧
      d.date.year = 2021 ∧ d.offset.map Offset.microseconds = some (-5940000000) ∧
      token .date (.date d) = .ok ("#dt\x7b" ++ interior ++ "\x7d") ∧ Lexeme.dateTime interior = .ok (.date d)) ∧
    ∃ interior e, Lexeme.dateTime interior = .ok (.date e) ∧ e.offset = some ⟨500000, by decide⟩ := by
  have hread : Lexeme.dateTime " 2020W535T235959,1234567-0099 " =
      .ok (.date ⟨⟨2021, 1, 1, by decide⟩, ⟨23, 59, 59, 123456, false⟩,
        some (.fixed ⟨-5940000000, by decide +kernel⟩)⟩) := by
    decide +kernel
  let host : DateTime := ⟨⟨2012, 1, 1, by decide⟩, ⟨10, 30, 0, 0, false⟩, some (.fixed ⟨500000, by decide⟩)⟩
  obtain ⟨hliteral, hhost⟩ := written_dates_are_read " 2020W535T235959,1234567-0099 " _ host
  obtain ⟨d, interior, hd, -, hprinted, hagain⟩ := hliteral hread
  obtain rfl := Value.date.inj hd
  obtain ⟨interior', e, -, hagain', -, -, -, hoffset⟩ := hhost rfl
  exact ⟨⟨_, interior, hread, rfl, rfl, hprinted, hagain⟩, interior', e, hagain', hoffset⟩

end RuleExpr.Printing
