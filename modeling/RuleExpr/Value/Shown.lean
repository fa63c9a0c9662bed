import RuleExpr.Value.Basic
import RuleExpr.Binary64.Decimal
import RuleExpr.Calendar.Iso
import RuleExpr.Numeral
import RuleExpr.Text.Quoted

/-!
# Values as text

Messages and lists show a value in full: text in quotes, dates field by field. Names and text are built
from the plain form, which is the text itself and the ISO form of a date. Integers beyond the digit limit
have no text, so a value that holds one is not writable; functions have no text that a user could rely
on.
-/

namespace RuleExpr.Value

def commaSeparated (items : List (List Char)) : List Char :=
  [',', ' '].intercalate items

def natText (n : Nat) : List Char :=
  Nat.toDigits 10 n

/-- The fields of an offset: whole days, seconds and microseconds, of which only the days may be negative.
Zero fields are left out. -/
def offsetShown (o : Offset) : List Char :=
  let days := o.microseconds.fdiv microsecondsPerDay
  let rest := (o.microseconds.fmod microsecondsPerDay).toNat
  let seconds := rest / 1000000
  let microseconds := rest % 1000000
  let field (name : String) (value : List Char) (present : Bool) : List (List Char) :=
    if present then [name.toList ++ value] else []
  "datetime.timedelta(".toList ++
    commaSeparated (field "days=" (Numeral.ofInt days) (days != 0) ++
      field "seconds=" (natText seconds) (seconds != 0) ++
      field "microseconds=" (natText microseconds) (microseconds != 0)) ++ [')']

/-- A time zone; one whose offset changes is shown as its host has it. -/
def zoneShown : TimeZone → List Char
  | .fixed o =>
    if o.microseconds = 0 then "datetime.timezone.utc".toList
    else "datetime.timezone(".toList ++ offsetShown o ++ [')']
  | .changing z => z.shown.toList

/-- A date-time field by field. Zero microseconds are left out, and zero seconds with them. -/
def dateShown (d : DateTime) : List Char :=
  let time := d.time
  let small := if time.microsecond.val ≠ 0 then [time.second.val, time.microsecond.val]
    else if time.second.val ≠ 0 then [time.second.val] else []
  let numbers := [d.date.year, d.date.month, d.date.day, time.hour.val, time.minute.val] ++ small
  let fold := if time.fold then ["fold=1".toList] else []
  let zone := match d.zone with
    | some zone => ["tzinfo=".toList ++ zoneShown zone]
    | none => []
  "datetime.datetime(".toList ++ commaSeparated (numbers.map natText ++ fold ++ zone) ++ [')']

/-- A tuple between parentheses; a single item keeps its comma. -/
def tupleShown (items : List (List Char)) : List Char :=
  match items with
  | [item] => '(' :: item ++ [',', ')']
  | _ => '(' :: commaSeparated items ++ [')']

mutual

/-- The value in full. -/
def shown : Value → List Char
  | .nil => "None".toList
  | .bool b => if b then "True".toList else "False".toList
  | .int n => Numeral.ofInt n
  | .float x => x.toText
  | .text s => Text.quoted s.toList
  | .date d => dateShown d
  | .list items => '[' :: commaSeparated (shownItems items) ++ [']']
  | .tuple items => tupleShown (shownItems items)
  | .token kind content => "Token(".toList ++ kind.label.toList ++ [',', ' '] ++ shown content ++ [')']
  | .function f => "<function ".toList ++ f.name.toList ++ ['>']
  | .form f => "<Macro ".toList ++ f.name.toList ++ ['>']

def shownItems : List Value → List (List Char)
  | [] => []
  | v :: vs => shown v :: shownItems vs

end

/-- The plain form: text as it is, dates in ISO form with a space, and everything else in full. -/
def plain : Value → List Char
  | .text s => s.toList
  | .date d => d.toText ' '
  | v => v.shown

/-- The form in which rules join values to text: as the plain form, but nil is empty and the booleans have
the names that rules use. -/
def joined : Value → List Char
  | .nil => []
  | .bool b => if b then "true".toList else "false".toList
  | v => v.plain

mutual

/-- Whether every integer in the value has a text. -/
def isWritable : Value → Bool
  | .int n => Numeral.isWritable n
  | .list items | .tuple items => allWritable items
  | .token _ content => isWritable content
  | _ => true

def allWritable : List Value → Bool
  | [] => true
  | v :: vs => isWritable v && allWritable vs

end

mutual

/-- Whether a function stands in the value. -/
def holdsFunction : Value → Bool
  | .function _ => true
  | .list items | .tuple items => anyHoldsFunction items
  | .token _ content => holdsFunction content
  | _ => false

def anyHoldsFunction : List Value → Bool
  | [] => false
  | v :: vs => holdsFunction v || anyHoldsFunction vs

end

@[simp] theorem plain_text (s : String) : plain (.text s) = s.toList := rfl
@[simp] theorem joined_text (s : String) : joined (.text s) = s.toList := rfl
@[simp] theorem joined_nil : joined .nil = [] := rfl

end RuleExpr.Value
