import RecordStore.Number.Decimal
import RecordStore.Text.Doubled

/-!
# Field values

A datum is what a field of a record holds and what a parameter of a statement is bound to. Its type
is not declared anywhere, so equality and order are defined across types:

- numbers are equal by value, whether integer or decimal and whatever the scale, and the booleans
  equal the numbers 0 and 1; nothing else is equal across types (`sameValue`);
- in order, what is missing or null comes first, then booleans, numbers and texts (`order`).

## Main results

- `order_some_eq`: the order of two present values, without the case of a missing one.
-/

namespace RecordStore

/-- A value of a field or parameter. -/
inductive Datum where
  | null
  | bool (value : Bool)
  | integer (value : Int64)
  | decimal (value : Decimal)
  | text (value : String)
  deriving DecidableEq, Inhabited

namespace Datum

def isNull : Datum → Bool
  | null => true
  | _ => false

/-- The characters of a text. -/
def asText? : Datum → Option String
  | text s => some s
  | _ => none

/-- A number as an integer; a decimal only if it is whole and in range. -/
def asInt64? : Datum → Option Int64
  | integer i => some i
  | decimal d => d.toInt64?
  | _ => none

/-- A number as a decimal. -/
def asDecimal? : Datum → Option Decimal
  | integer i => some (.ofInt64 i)
  | decimal d => some d
  | _ => none

/-- The value of a number in units of `10 ^ -28`. -/
def units? (d : Datum) : Option Int := d.asDecimal?.map Decimal.units

/-! ## Equality of values -/

/-- The number that a boolean is equal to, in units. -/
def flagUnits (flag : Bool) : Int := if flag then Decimal.unitsPerOne else 0

/-- Equality of values as statements see it. -/
def sameValue (a b : Datum) : Bool :=
  match a, b with
  | bool x, bool y => x == y
  | bool flag, other | other, bool flag => other.units? == some (flagUnits flag)
  | a, b =>
    match a.units?, b.units? with
    | some x, some y => x == y
    | _, _ => a == b

theorem sameValue_refl (d : Datum) : d.sameValue d = true := by
  cases d <;> simp [sameValue, units?, asDecimal?]

/-! ## Order -/

/-- The place of a type in the order of types. -/
def rank : Datum → Nat
  | null => 0
  | bool _ => 1
  | integer _ | decimal _ => 2
  | text _ => 3

/-- The order by which rows are sorted. A missing field counts as null. -/
def order (a b : Option Datum) : Ordering :=
  match a.getD null, b.getD null with
  | bool x, bool y => compare x y
  | text x, text y => compare x y
  | a, b =>
    match a.units?, b.units? with
    | some x, some y => compare x y
    | _, _ => compare a.rank b.rank

theorem order_some_eq (a b : Datum) :
    order (some a) (some b) =
      match a, b with
      | bool x, bool y => compare x y
      | text x, text y => compare x y
      | a, b =>
        match a.units?, b.units? with
        | some x, some y => compare x y
        | _, _ => compare a.rank b.rank := rfl

/-- Whether a field is missing, null or an empty text. -/
def isBlank : Option Datum → Bool
  | none | some null => true
  | some (text s) => s.isEmpty
  | some _ => false

/-! ## Text -/

/-- An integer is written as its digits behind its sign. -/
theorem toList_toString (i : Int) :
    (toString i).toList = (if i < 0 then ['-'] else []) ++ Nat.toDigits 10 i.natAbs := by
  cases i with
  | ofNat n =>
    show n.repr.toList = _
    have hNot : ¬ Int.ofNat n < 0 := Int.not_lt.2 (Int.natCast_nonneg n)
    rw [Nat.toList_repr, if_neg hNot]
    rfl
  | negSucc n =>
    show ("-" ++ (n + 1).repr).toList = _
    rw [String.toList_append, Nat.toList_repr, if_pos (Int.negSucc_lt_zero n)]
    rfl

/-- The value as it is written in a statement. -/
def toChars : Datum → List Char
  | null => "NULL".toList
  | bool true => "true".toList
  | bool false => "false".toList
  | integer i => (toString i.toInt).toList
  | decimal d => d.toChars
  | text s => '\'' :: Text.doubled '\'' s.toList ++ ['\'']

/-- The value as it is written in a statement, as a text. -/
def display (d : Datum) : String := String.ofList d.toChars

end Datum

end RecordStore
