import RecordStore.Datum

/-!
# Records

A record maps field names to values. No schema says which fields there are. The entries are kept in
ascending order of their names, each name once, so two records with the same fields are the same
record (`ext`) and are written alike.

## Main results

- `get?_insert`: inserting sets one field and leaves the others.
- `get?_merge`: merging lets the second record win.
- `ext`: a record is determined by the values of its fields.
-/

namespace RecordStore

/-- The names of `entries` ascend. -/
def Ascending (entries : List (String × Datum)) : Prop :=
  entries.Pairwise fun a b => a.1 < b.1

/-- Field names with their values, in ascending order of the names. -/
structure Record where
  entries : List (String × Datum)
  ascending : Ascending entries
  deriving DecidableEq

namespace Record

/-- The record without fields. -/
def empty : Record := ⟨[], List.Pairwise.nil⟩

instance : Inhabited Record := ⟨empty⟩
instance : EmptyCollection Record := ⟨empty⟩

/-- The value of a field, if the record has it. -/
def get? (r : Record) (name : String) : Option Datum := r.entries.lookup name

/-- Whether the record has a field. -/
def has (r : Record) (name : String) : Bool := (r.get? name).isSome

/-- An entry put in its place among ascending ones, or in place of the one with its name. -/
def place (name : String) (value : Datum) : List (String × Datum) → List (String × Datum)
  | [] => [(name, value)]
  | entry :: rest =>
    if name < entry.1 then (name, value) :: entry :: rest
    else if name = entry.1 then (name, value) :: rest
    else entry :: place name value rest

private theorem lt_of_not_lt_of_ne {a b : String} (hNot : ¬ a < b) (hNe : a ≠ b) : b < a := by
  rcases Decidable.em (b < a) with h | h
  · exact h
  · exact absurd (String.le_antisymm (String.not_lt.1 h) (String.not_lt.1 hNot)) hNe

private theorem mem_place {name : String} {value : Datum} {entries : List (String × Datum)}
    {e : String × Datum} (h : e ∈ place name value entries) : e = (name, value) ∨ e ∈ entries := by
  induction entries with
  | nil => exact .inl (List.mem_singleton.1 h)
  | cons entry rest ih =>
    simp only [place] at h
    split at h
    · exact List.mem_cons.1 h
    · split at h
      · exact (List.mem_cons.1 h).imp id (List.mem_cons_of_mem _)
      · rcases List.mem_cons.1 h with h | h
        · exact .inr (h ▸ List.mem_cons_self)
        · exact (ih h).imp id (List.mem_cons_of_mem _)

theorem place_ascending (name : String) (value : Datum) {entries : List (String × Datum)}
    (h : Ascending entries) : Ascending (place name value entries) := by
  induction entries with
  | nil => exact List.pairwise_singleton _ _
  | cons entry rest ih =>
    have hHead : ∀ e ∈ rest, entry.1 < e.1 := (List.pairwise_cons.1 h).1
    have hRest : Ascending rest := h.of_cons
    simp only [place]
    split
    · next hLt =>
      refine List.Pairwise.cons (fun e he => ?_) h
      rcases List.mem_cons.1 he with rfl | he
      · exact hLt
      · exact String.lt_trans hLt (hHead e he)
    · next hNot =>
      split
      · next hEq => exact List.Pairwise.cons (fun e he => hEq ▸ hHead e he) hRest
      · next hNe =>
        refine List.Pairwise.cons (fun e he => ?_) (ih hRest)
        rcases mem_place he with rfl | he
        · exact lt_of_not_lt_of_ne hNot hNe
        · exact hHead e he

/-- The record with one field set. -/
def insert (r : Record) (name : String) (value : Datum) : Record :=
  ⟨place name value r.entries, place_ascending name value r.ascending⟩

/-- The record with fields set one after the other. -/
def insertAll (r : Record) (fields : List (String × Datum)) : Record :=
  fields.foldl (fun acc field => acc.insert field.1 field.2) r

/-- The record of a list of fields, of which the last of each name counts. -/
def ofList (fields : List (String × Datum)) : Record := empty.insertAll fields

/-- All fields of both records; where both have one, the second's value counts. -/
def merge (r s : Record) : Record := r.insertAll s.entries

/-! ## Reading after writing -/

@[simp] theorem get?_empty (name : String) : empty.get? name = none := rfl

private theorem lookup_cons_eq (key : String) (entry : String × Datum)
    (rest : List (String × Datum)) :
    (entry :: rest).lookup key = if key = entry.1 then some entry.2 else rest.lookup key := by
  rw [List.lookup_cons]
  by_cases h : key = entry.1
  · simp [h]
  · simp [h, beq_eq_false_iff_ne.2 h]

private theorem lookup_place (name : String) (value : Datum) (entries : List (String × Datum))
    (key : String) :
    (place name value entries).lookup key =
      if key = name then some value else entries.lookup key := by
  induction entries with
  | nil => simp [place, lookup_cons_eq]
  | cons entry rest ih =>
    simp only [place]
    split
    · rw [lookup_cons_eq]
    · split
      · next hEq => subst hEq; simp only [lookup_cons_eq]; split <;> rfl
      · next hNe =>
        rw [lookup_cons_eq, ih, lookup_cons_eq]
        by_cases hKey : key = name
        · subst hKey; simp [hNe]
        · simp [hKey]

theorem get?_insert (r : Record) (name : String) (value : Datum) (key : String) :
    (r.insert name value).get? key = if key = name then some value else r.get? key :=
  lookup_place name value r.entries key

@[simp] theorem get?_insert_self (r : Record) (name : String) (value : Datum) :
    (r.insert name value).get? name = some value := by simp [get?_insert]

theorem insertAll_append (r : Record) (xs ys : List (String × Datum)) :
    r.insertAll (xs ++ ys) = (r.insertAll xs).insertAll ys := by
  simp [insertAll, List.foldl_append]

private theorem lookup_eq_none_of_lt {key : String} {entries : List (String × Datum)}
    (h : ∀ e ∈ entries, key < e.1) : entries.lookup key = none := by
  induction entries with
  | nil => rfl
  | cons entry rest ih =>
    have hNe : key ≠ entry.1 := fun hEq =>
      String.lt_irrefl key (hEq ▸ h entry List.mem_cons_self : key < key)
    rw [lookup_cons_eq, if_neg hNe]
    exact ih fun e he => h e (List.mem_cons_of_mem _ he)

theorem get?_insertAll (fields : List (String × Datum)) (r : Record) (key : String) :
    (r.insertAll fields).get? key = (fields.reverse.lookup key).or (r.get? key) := by
  induction fields generalizing r with
  | nil => simp [insertAll]
  | cons field rest ih =>
    have hStep : r.insertAll (field :: rest) = (r.insert field.1 field.2).insertAll rest := rfl
    rw [hStep, ih, get?_insert, List.reverse_cons]
    simp only [List.lookup_append, lookup_cons_eq, List.lookup_nil]
    cases rest.reverse.lookup key with
    | some v => simp
    | none => by_cases hKey : key = field.1 <;> simp [hKey]

private theorem mem_of_lookup {key : String} {value : Datum} {entries : List (String × Datum)}
    (h : entries.lookup key = some value) : (key, value) ∈ entries := by
  induction entries with
  | nil => cases h
  | cons entry rest ih =>
    rw [lookup_cons_eq] at h
    split at h
    · next hEq => cases h; subst hEq; exact List.mem_cons_self
    · exact List.mem_cons_of_mem _ (ih h)

/-- An entry is what its name looks up. -/
theorem get?_eq_some_iff {r : Record} {name : String} {value : Datum} :
    r.get? name = some value ↔ (name, value) ∈ r.entries := by
  refine ⟨mem_of_lookup, fun h => ?_⟩
  obtain ⟨entries, hAsc⟩ := r
  simp only [get?] at h ⊢
  induction entries with
  | nil => cases h
  | cons entry rest ih =>
    have hHead := (List.pairwise_cons.1 hAsc).1
    rw [lookup_cons_eq]
    rcases List.mem_cons.1 h with hEq | hMem
    · simp [← hEq]
    · have hNe : name ≠ entry.1 := fun hEq =>
        String.lt_irrefl name (by have := hHead _ hMem; rwa [← hEq] at this)
      rw [if_neg hNe]
      exact ih hAsc.of_cons hMem

private theorem eq_of_lookup_eq {xs ys : List (String × Datum)} (hx : Ascending xs)
    (hy : Ascending ys) (h : ∀ key, xs.lookup key = ys.lookup key) : xs = ys := by
  induction xs generalizing ys with
  | nil =>
    cases ys with
    | nil => rfl
    | cons y ys => have := h y.1; simp [lookup_cons_eq] at this
  | cons x xs ih =>
    cases ys with
    | nil => have := h x.1; simp [lookup_cons_eq] at this
    | cons y ys =>
      have hxs := (List.pairwise_cons.1 hx).1
      have hys := (List.pairwise_cons.1 hy).1
      have hKey : x.1 = y.1 := by
        refine String.le_antisymm (String.not_lt.1 fun hLt => ?_) (String.not_lt.1 fun hLt => ?_)
        · have hSome := h y.1
          have hNone : (x :: xs).lookup y.1 = none := lookup_eq_none_of_lt fun e he => by
            rcases List.mem_cons.1 he with rfl | he
            · exact hLt
            · exact String.lt_trans hLt (hxs e he)
          rw [hNone] at hSome
          simp [lookup_cons_eq] at hSome
        · have hSome := h x.1
          have hNone : (y :: ys).lookup x.1 = none := lookup_eq_none_of_lt fun e he => by
            rcases List.mem_cons.1 he with rfl | he
            · exact hLt
            · exact String.lt_trans hLt (hys e he)
          rw [hNone] at hSome
          simp [lookup_cons_eq] at hSome
      have hValue : x.2 = y.2 := by
        have := h x.1
        simpa [lookup_cons_eq, hKey] using this
      have hRest : xs = ys := by
        refine ih hx.of_cons hy.of_cons fun key => ?_
        by_cases hEq : key = x.1
        · subst hEq
          rw [lookup_eq_none_of_lt hxs, lookup_eq_none_of_lt fun e he => hKey ▸ hys e he]
        · have := h key
          rwa [lookup_cons_eq, lookup_cons_eq, if_neg hEq, if_neg fun h' => hEq (h'.trans hKey.symm)]
            at this
      rw [hRest, Prod.ext hKey hValue]

/-- A record is determined by the values of its fields. -/
theorem ext {r s : Record} (h : ∀ name, r.get? name = s.get? name) : r = s := by
  obtain ⟨xs, hx⟩ := r
  obtain ⟨ys, hy⟩ := s
  simp only [mk.injEq]
  exact eq_of_lookup_eq hx hy h

theorem lookup_reverse (r : Record) (key : String) :
    r.entries.reverse.lookup key = r.get? key := by
  obtain ⟨entries, hAsc⟩ := r
  simp only [get?]
  induction entries with
  | nil => rfl
  | cons entry rest ih =>
    have hHead := (List.pairwise_cons.1 hAsc).1
    rw [List.reverse_cons, List.lookup_append, ih hAsc.of_cons, lookup_cons_eq, lookup_cons_eq]
    by_cases hKey : key = entry.1
    · subst hKey
      simp [lookup_eq_none_of_lt hHead]
    · simp [hKey]

theorem get?_merge (r s : Record) (key : String) :
    (r.merge s).get? key = (s.get? key).or (r.get? key) := by
  rw [merge, get?_insertAll, lookup_reverse]

/-- Setting the fields of a record one after the other makes that record. -/
theorem insertAll_entries (r : Record) : empty.insertAll r.entries = r := by
  refine ext fun name => ?_
  have hMerge := get?_merge empty r name
  rw [get?_empty, Option.or_none] at hMerge
  exact hMerge

end Record

end RecordStore
