import RecordStore.Datum

/-!
# The order of values is a total preorder

The order of field values looks at their types first and inside of a type at what the values are. So
it is the lexicographic order of three keys: the place of the type, the number that a boolean or
number stands for, and the characters of a text. Everything that a sort relies on follows from this.

Values tie if all three keys agree. That is also when they are the same value, but for one difference:
a boolean is the same as a number that it stands for, and still comes before it.

## Main results

- `order_eq_byKeys`: the order is the lexicographic order of the three keys.
- `TransCmp order`: the order is reflexive, transitive and turns around when its sides do.
- `order_preorder`: the order as a preorder, and which values tie.
-/

namespace RecordStore.Datum

/-- The number of a boolean or number; zero for other values. -/
def amount : Datum → Int
  | bool flag => flagUnits flag
  | integer i => (Decimal.ofInt64 i).units
  | decimal d => d.units
  | null | text _ => 0

/-- The characters of a text; none for other values. -/
def letters : Datum → String
  | text s => s
  | _ => ""

/-- The lexicographic order of the place of the type, the number and the characters. -/
def byKeys : Datum → Datum → Ordering :=
  compareLex (compareOn rank) (compareLex (compareOn amount) (compareOn letters))

instance : Std.TransCmp byKeys :=
  inferInstanceAs (Std.TransCmp
    (compareLex (compareOn rank) (compareLex (compareOn amount) (compareOn letters))))

theorem byKeys_of_rank_ne {a b : Datum} (h : a.rank ≠ b.rank) :
    byKeys a b = compare a.rank b.rank := by
  have hNe : compare a.rank b.rank ≠ .eq := fun hEq => h (Nat.compare_eq_eq.1 hEq)
  rw [byKeys, compareLex, compareOn]
  cases hCompare : compare a.rank b.rank with
  | lt | gt => rfl
  | eq => exact absurd hCompare hNe

theorem byKeys_of_rank_eq {a b : Datum} (h : a.rank = b.rank) :
    byKeys a b = (compare a.amount b.amount).then (compare a.letters b.letters) := by
  have hEq : compare a.rank b.rank = .eq := Nat.compare_eq_eq.2 h
  rw [byKeys, compareLex, compareOn, hEq, Ordering.eq_then]
  rfl

theorem order_of_rank_ne {a b : Datum} (h : a.rank ≠ b.rank) :
    order (some a) (some b) = compare a.rank b.rank := by
  rw [order_some_eq]
  cases a <;> cases b <;> simp_all [rank, units?, asDecimal?]

private theorem compare_flagUnits (x y : Bool) :
    compare (flagUnits x) (flagUnits y) = compare x y := by
  cases x <;> cases y <;> decide

theorem order_of_rank_eq {a b : Datum} (h : a.rank = b.rank) :
    order (some a) (some b) = (compare a.amount b.amount).then (compare a.letters b.letters) := by
  rw [order_some_eq]
  cases a <;> cases b <;> simp_all [rank, units?, asDecimal?, amount, letters, compare_flagUnits]

theorem order_eq_byKeys (a b : Option Datum) : order a b = byKeys (a.getD null) (b.getD null) := by
  have hSome : order a b = order (some (a.getD null)) (some (b.getD null)) := by
    cases a <;> cases b <;> rfl
  rw [hSome]
  by_cases hRank : (a.getD null).rank = (b.getD null).rank
  · rw [order_of_rank_eq hRank, byKeys_of_rank_eq hRank]
  · rw [order_of_rank_ne hRank, byKeys_of_rank_ne hRank]

instance : Std.TransCmp order where
  eq_swap := by
    intro a b
    rw [order_eq_byKeys, order_eq_byKeys]
    exact Std.OrientedCmp.eq_swap
  isLE_trans := by
    intro a b c hab hbc
    rw [order_eq_byKeys] at hab hbc ⊢
    exact Std.TransCmp.isLE_trans hab hbc

theorem order_swap (a b : Option Datum) : order b a = (order a b).swap := Std.OrientedCmp.eq_swap

/-! ## The order beside the equality of values -/

/-- Whether a value is a boolean. -/
def isFlag : Datum → Bool
  | bool _ => true
  | _ => false

/-- Whether a value is a number. -/
def isNumber (d : Datum) : Bool := d.units?.isSome

/-- Whether one of two values is a boolean and the other a number. -/
def mixes (a b : Datum) : Bool := a.isFlag && b.isNumber || a.isNumber && b.isFlag

theorem flagUnits_eq_iff (x y : Bool) : flagUnits x = flagUnits y ↔ x = y := by
  cases x <;> cases y <;> decide

/-- Inside of a type values are the same if their keys are. -/
theorem sameValue_of_rank_eq {a b : Datum} (h : a.rank = b.rank) :
    a.sameValue b = true ↔ a.amount = b.amount ∧ a.letters = b.letters := by
  cases a <;> cases b <;>
    simp_all [rank, sameValue, units?, asDecimal?, amount, letters, flagUnits_eq_iff]

/-- Values of different types differ, unless they are a boolean and a number. -/
theorem sameValue_of_rank_ne {a b : Datum} (h : a.rank ≠ b.rank) (hMixes : mixes a b = false) :
    a.sameValue b = false := by
  cases a <;> cases b <;> simp_all [rank, sameValue, units?, asDecimal?, mixes, isFlag, isNumber]

theorem order_eq_eq_iff {a b : Datum} (h : mixes a b = false) :
    order (some a) (some b) = .eq ↔ a.sameValue b = true := by
  by_cases hRank : a.rank = b.rank
  · rw [order_of_rank_eq hRank, sameValue_of_rank_eq hRank, Ordering.then_eq_eq, Int.compare_eq_eq,
      Std.compare_eq_iff_eq]
  · rw [order_of_rank_ne hRank, sameValue_of_rank_ne hRank h, Nat.compare_eq_eq]
    exact iff_of_false hRank Bool.false_ne_true

theorem rank_of_isFlag {d : Datum} (h : d.isFlag = true) : d.rank = 1 := by
  cases d with
  | bool flag => rfl
  | null | integer i | decimal d | text s => cases h

theorem rank_of_isNumber {d : Datum} (h : d.isNumber = true) : d.rank = 2 := by
  cases d with
  | integer i | decimal d => rfl
  | null | bool flag | text s => cases h

/-- A boolean comes before every number, be it the one that it equals. -/
theorem order_flag_number {a b : Datum} (ha : a.isFlag = true) (hb : b.isNumber = true) :
    order (some a) (some b) = .lt := by
  have hRank : a.rank ≠ b.rank := by
    rw [rank_of_isFlag ha, rank_of_isNumber hb]
    decide
  rw [order_of_rank_ne hRank, rank_of_isFlag ha, rank_of_isNumber hb]
  rfl

/-- The order is a total preorder on values that may be missing. Equal values tie and values that tie
are equal, with a missing value read as null, except for a boolean and a number: there the boolean
comes first, whether they are equal or not. -/
theorem order_preorder (a b c : Option Datum) :
    order a a = .eq ∧ order b a = (order a b).swap ∧
      (order a b ≠ .gt → order b c ≠ .gt → order a c ≠ .gt) ∧
      ((a.getD null).mixes (b.getD null) = false →
        (order a b = .eq ↔ (a.getD null).sameValue (b.getD null) = true)) ∧
      ((a.getD null).isFlag = true → (b.getD null).isNumber = true →
        order a b = .lt ∧ order b a = .gt) := by
  have hSome : order a b = order (some (a.getD null)) (some (b.getD null)) := by
    rw [order_eq_byKeys, order_eq_byKeys, Option.getD_some, Option.getD_some]
  refine ⟨Std.ReflCmp.compare_self, order_swap a b, fun hab hbc => ?_, fun hMixes => ?_,
    fun ha hb => ?_⟩
  · have hLe : ∀ o : Ordering, o.isLE = true ↔ o ≠ .gt := by decide
    rw [← hLe] at hab hbc ⊢
    exact Std.TransCmp.isLE_trans hab hbc
  · rw [hSome]
    exact order_eq_eq_iff hMixes
  · rw [order_swap a b, hSome, order_flag_number ha hb]
    exact ⟨rfl, rfl⟩

/-- True is behind what is missing and in front of the decimal one that it equals; that ties with the
integer one. -/
theorem order_preorder_true_one :
    let one : Datum := .decimal ⟨false, 100, 2, by decide, by decide⟩
    order none (some (bool true)) ≠ .gt ∧ order (some (bool true)) (some one) = .lt ∧
      order none (some one) ≠ .gt ∧ (bool true).sameValue one = true ∧
      order (some one) (some (integer 1)) = .eq := by
  intro one
  obtain ⟨-, -, hTrans, -, -⟩ := order_preorder none (some (bool true)) (some one)
  obtain ⟨-, -, -, -, hFirst⟩ := order_preorder (some (bool true)) (some one) none
  obtain ⟨-, -, -, hTie, -⟩ := order_preorder (some one) (some (integer 1)) none
  have hMissing : order none (some (bool true)) ≠ .gt := by decide
  have hLess : order (some (bool true)) (some one) = .lt := (hFirst rfl rfl).1
  have hNotAfter : order (some (bool true)) (some one) ≠ .gt := by
    rw [hLess]
    decide
  exact ⟨hMissing, hLess, hTrans hMissing hNotAfter, by decide +kernel,
    (hTie rfl).2 (by decide +kernel)⟩

end RecordStore.Datum
