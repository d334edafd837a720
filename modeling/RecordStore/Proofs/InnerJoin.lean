import RecordStore.Proofs.QueryPipeline
import RecordStore.Proofs.SameValues

/-!
# A join as an inner join

A join looks for the first partner of every record. The full join has a row for every pair of
records whose keys agree, so the two differ for records with several partners. A partner's key is the
same as the record's, hence two partners of one record have the same key. If no two records of the
second table have the same key, no record has more than one partner, and the first one is the only
one.

## Main results

- `pair?_eq_map_find?`: the first partner is the first record whose key agrees.
- `forall₂_filterMap`: what a list is filtered to corresponds to the members that are kept.
- `join_inner`: which records a join keeps and with which partner, and when it is the full join.
-/

namespace RecordStore

namespace Datum

theorem sameValue_comm (a b : Datum) : a.sameValue b = b.sameValue a :=
  Bool.eq_iff_iff.2 ⟨fun h => sameValue_equivalence.symm h, fun h => sameValue_equivalence.symm h⟩

/-- Nothing but null is the same as null. -/
theorem isNull_eq_of_sameValue {a b : Datum} (h : a.sameValue b = true) : a.isNull = b.isNull := by
  rcases sameValue_iff.1 h with rfl | ⟨n, ha, hb⟩
  · rfl
  · have hNumber (d : Datum) (hd : d.number? = some n) : d.isNull = false := by
      cases d with
      | null => cases hd
      | bool _ | integer _ | decimal _ | text _ => rfl
    rw [hNumber a ha, hNumber b hb]

end Datum

namespace Row

variable {join : Plan.Join} {others : List Record} {r other : Record}

/-! ## Partners -/

theorem keysAgree_of_key {key : Datum} (h : r.get? join.baseKey = some key) :
    keysAgree join r other = (!key.isNull && hasKey join.joinedKey key other) := by
  rw [keysAgree, h, hasKey]
  cases hValue : other.get? join.joinedKey with
  | none => simp
  | some value =>
    have hNull : value.sameValue key = true → value.isNull = key.isNull :=
      Datum.isNull_eq_of_sameValue
    rw [Option.any_some]
    show (!key.isNull && !value.isNull && key.sameValue value) =
      (!key.isNull && value.sameValue key)
    rw [Datum.sameValue_comm key value]
    cases hSame : value.sameValue key with
    | false => simp
    | true => simp [hNull hSame]

theorem keysAgree_of_no_key (h : r.get? join.baseKey = none) : keysAgree join r other = false := by
  rw [keysAgree, h]

theorem keysAgree_iff :
    keysAgree join r other = true ↔
      ∃ key value, r.get? join.baseKey = some key ∧ key.isNull = false ∧
        other.get? join.joinedKey = some value ∧ key.sameValue value = true := by
  cases hKey : r.get? join.baseKey with
  | none => simp [keysAgree_of_no_key hKey]
  | some key =>
    rw [keysAgree_of_key hKey, hasKey, Bool.and_eq_true, Bool.not_eq_true', Option.any_eq_true]
    constructor
    · rintro ⟨hNull, value, hValue, hSame⟩
      exact ⟨key, value, rfl, hNull, hValue, Datum.sameValue_comm value key ▸ hSame⟩
    · rintro ⟨key', value, hEq, hNull, hValue, hSame⟩
      obtain rfl := Option.some.inj hEq
      exact ⟨hNull, value, hValue, Datum.sameValue_comm key value ▸ hSame⟩

/-- The first partner is the first record whose key agrees. -/
theorem pair?_eq_map_find? (join : Plan.Join) (others : List Record) (r : Record) :
    pair? join others r =
      (others.find? (keysAgree join r)).map fun other => ⟨r, some other⟩ := by
  rw [pair?]
  cases hKey : r.get? join.baseKey with
  | none =>
    have hNone : keysAgree join r = fun _ => false := funext fun _ => keysAgree_of_no_key hKey
    rw [hNone]
    simp
  | some key =>
    have hAgree : keysAgree join r = fun other => !key.isNull && hasKey join.joinedKey key other :=
      funext fun _ => keysAgree_of_key hKey
    rw [hAgree]
    cases hNull : key.isNull with
    | true => simp [Option.filter, hNull]
    | false =>
      cases hFind : others.find? (hasKey join.joinedKey key) <;>
        simp [Option.filter, hNull, hFind]

/-! ## Rows and records -/

/-- What a list is filtered to corresponds one by one to the members that are kept. -/
theorem forall₂_filterMap {α β : Type} (f : α → Option β) (xs : List α) :
    List.Forall₂ (fun x y => f x = some y) (xs.filter fun x => (f x).isSome) (xs.filterMap f) := by
  induction xs with
  | nil => exact .nil
  | cons x xs ih =>
    cases hHead : f x with
    | none =>
      rw [List.filterMap_cons_none hHead, List.filter_cons_of_neg (by simp [hHead])]
      exact ih
    | some y =>
      rw [List.filterMap_cons_some hHead, List.filter_cons_of_pos (by simp [hHead])]
      exact .cons hHead ih

theorem isSome_pair? (join : Plan.Join) (others : List Record) (r : Record) :
    (pair? join others r).isSome = others.any (keysAgree join r) := by
  rw [pair?_eq_map_find?, Option.isSome_map, List.isSome_find?]

/-! ## Records with one partner at most -/

/-- Two records have keys that are not null and are the same. -/
def ShareKey (name : String) (a b : Record) : Prop :=
  ∃ x y, a.get? name = some x ∧ b.get? name = some y ∧ x.isNull = false ∧ y.isNull = false ∧
    x.sameValue y = true

/-- Two partners of one record share their key. -/
theorem shareKey_of_keysAgree {a b : Record} (ha : keysAgree join r a = true)
    (hb : keysAgree join r b = true) : ShareKey join.joinedKey a b := by
  obtain ⟨key, x, hKey, hNull, hx, hxSame⟩ := keysAgree_iff.1 ha
  obtain ⟨key', y, hKey', -, hy, hySame⟩ := keysAgree_iff.1 hb
  obtain rfl := Option.some.inj (hKey.symm.trans hKey')
  refine ⟨x, y, hx, hy, ?_, ?_, ?_⟩
  · rw [← Datum.isNull_eq_of_sameValue hxSame, hNull]
  · rw [← Datum.isNull_eq_of_sameValue hySame, hNull]
  · exact Datum.sameValue_equivalence.trans (Datum.sameValue_equivalence.symm hxSame) hySame

/-- Where no two members satisfy a condition, the first that does is the only one. -/
theorem filter_eq_toList_find? {α : Type} {p : α → Bool} {xs : List α}
    (h : xs.Pairwise fun a b => ¬ (p a = true ∧ p b = true)) : xs.filter p = (xs.find? p).toList := by
  induction xs with
  | nil => rfl
  | cons x xs ih =>
    obtain ⟨hHead, hTail⟩ := List.pairwise_cons.1 h
    cases hx : p x with
    | false =>
      rw [List.filter_cons_of_neg (by simp [hx]), List.find?_cons_of_neg (by simp [hx]), ih hTail]
    | true =>
      have hNone : xs.filter p = [] :=
        List.filter_eq_nil_iff.2 fun other hMem hOther => hHead other hMem ⟨hx, hOther⟩
      rw [List.filter_cons_of_pos hx, List.find?_cons_of_pos hx, hNone]
      rfl

theorem join_eq_allPairs (h : others.Pairwise fun a b => ¬ ShareKey join.joinedKey a b)
    (records : List Record) : Row.join join records others = allPairs join records others := by
  have hSingle (r : Record) :
      others.filter (keysAgree join r) = (others.find? (keysAgree join r)).toList :=
    filter_eq_toList_find? (h.imp fun hNot hBoth => hNot (shareKey_of_keysAgree hBoth.1 hBoth.2))
  rw [Row.join, List.filterMap_eq_flatMap_toList, allPairs]
  refine List.flatMap_congr fun r _ => ?_
  rw [hSingle r, pair?_eq_map_find?]
  cases others.find? (keysAgree join r) <;> rfl

/-- A join keeps, in order, the records whose key is there, is not null and is the same as that of a
record of the second table, each with the first such record. If no two records of the second table
have the same key, that is the full join. -/
theorem join_inner (join : Plan.Join) (records others : List Record) :
    (∀ r other, keysAgree join r other = true ↔
      ∃ key value, r.get? join.baseKey = some key ∧ key.isNull = false ∧
        other.get? join.joinedKey = some value ∧ key.sameValue value = true) ∧
    List.Forall₂ (fun r row => ∃ partner, IsFirstPartner join others r partner ∧
        row = ⟨r, some partner⟩)
      (records.filter fun r => others.any (keysAgree join r)) (Row.join join records others) ∧
    ((others.Pairwise fun a b => ¬ ShareKey join.joinedKey a b) →
      Row.join join records others = allPairs join records others) := by
  refine ⟨fun _ _ => keysAgree_iff, ?_, fun h => join_eq_allPairs h records⟩
  have hRows := forall₂_filterMap (pair? join others) records
  simp only [isSome_pair?] at hRows
  exact hRows.imp fun r row hPair => pair?_eq_some_iff.1 hPair

/-- Two users without an identifier share no key, and no session is theirs: not the one whose user
is null, nor the one without a user. -/
theorem join_inner_sessions :
    let user (id : Datum) := Record.ofList [("id", id)]
    let session (user : Datum) := Record.ofList [("user_id", user)]
    let users := [user .null, user (.integer 1), user .null]
    let sessions := [session .null, session (.bool true), Record.empty]
    let join : Plan.Join := ⟨.users, "user_id", "id"⟩
    (users.Pairwise fun a b => ¬ ShareKey "id" a b) ∧
      Row.join join sessions users = allPairs join sessions users ∧
      Row.join join sessions users = [⟨session (.bool true), some (user (.integer 1))⟩] := by
  intro user session users sessions join
  have hNone (a b : Record) (h : a.get? "id" = some .null ∨ b.get? "id" = some .null) :
      ¬ ShareKey "id" a b := by
    rintro ⟨x, y, hx, hy, hxNull, hyNull, -⟩
    rcases h with ha | hb
    · cases ha.symm.trans hx
      cases hxNull
    · cases hb.symm.trans hy
      cases hyNull
  have hNull : (user .null).get? "id" = some .null := by decide +kernel
  have hUnique : users.Pairwise fun a b => ¬ ShareKey "id" a b := by
    refine .cons (fun b _ => hNone _ b (.inl hNull)) (.cons (fun b hb => ?_) (.cons nofun .nil))
    obtain rfl := List.mem_singleton.1 hb
    exact hNone _ _ (.inr hNull)
  obtain ⟨-, -, hFull⟩ := join_inner join sessions users
  exact ⟨hUnique, hFull hUnique, by decide +kernel⟩

end Row

end RecordStore
