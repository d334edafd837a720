import Mathlib.Data.List.DropRight
import RecordStore.Json.Value
import RecordStore.Proofs.JsonFronts

/-!
# What stands between brackets

A written form of a sequence or map has its parts between brackets, with commas between them and blanks
on either side of a comma, which belong to a part there. A reader goes through the same text the other
way: it passes blanks, a comma and blanks and then reads a part, and passes blanks before the closing
bracket. `Inside` takes the side of the reader, and it means the same (`inside_iff`).

## Main results

- `spells_value_iff`: the blanks around a value can be taken off.
- `inside_items_iff`, `inside_entries_iff`: what is inside the brackets, as a reader passes it.
-/

namespace RecordStore.Json

/-- Nothing but blanks. -/
def AreBlank (cs : List Char) : Prop := cs.all isBlank = true

theorem areBlank_nil : AreBlank [] := rfl

theorem areBlank_append_iff {cs ds : List Char} : AreBlank (cs ++ ds) ↔ AreBlank cs ∧ AreBlank ds := by
  rw [AreBlank, List.all_append, Bool.and_eq_true]
  rfl

theorem areBlank_iff_skipBlanks {cs : List Char} : AreBlank cs ↔ skipBlanks cs = [] := by
  rw [AreBlank, List.all_eq_true, skipBlanks, List.dropWhile_eq_nil_iff]

/-! ## Lists of parts -/

section Parts

variable {α : Type}

/-- Parts with commas between them. -/
inductive Separated (spells : List Char → α → Prop) : List Char → List α → Prop
  | single {cs : List Char} {a : α} : spells cs a → Separated spells cs [a]
  | cons {cs ds : List Char} {a : α} {as : List α} :
    spells cs a → Separated spells ds as → Separated spells (cs ++ ',' :: ds) (a :: as)

/-- What stands in front of a part: blanks, and a comma unless it is the first part. -/
def Leads : Bool → List Char → Prop
  | true, lead => AreBlank lead
  | false, lead => ∃ before after, lead = before ++ ',' :: after ∧ AreBlank before ∧ AreBlank after

/-- What stands between brackets, as it is passed part by part. -/
def Inside (tight : List Char → α → Prop) : Bool → List Char → List α → Prop
  | _, inner, [] => AreBlank inner
  | first, inner, a :: as => ∃ lead front rest, inner = lead ++ (front ++ rest) ∧
      Leads first lead ∧ tight front a ∧ Inside tight false rest as

variable {spells tight : List Char → α → Prop}

/-- After a part the others come behind a comma. -/
theorem inside_false_cons_iff {inner : List Char} {a : α} {as : List α} :
    Inside tight false inner (a :: as) ↔
      ∃ before rest, inner = before ++ ',' :: rest ∧ AreBlank before ∧
        Inside tight true rest (a :: as) := by
  constructor
  · rintro ⟨_, front, rest, rfl, ⟨before, after, rfl, hBefore, hAfter⟩, hTight, hRest⟩
    exact ⟨before, after ++ (front ++ rest), by simp, hBefore, after, front, rest, rfl, hAfter, hTight,
      hRest⟩
  · rintro ⟨before, _, rfl, hBefore, lead, front, rest, rfl, hLead, hTight, hRest⟩
    exact ⟨before ++ ',' :: lead, front, rest, by simp, ⟨before, lead, rfl, hBefore, hLead⟩, hTight,
      hRest⟩

/-- Where blanks may stand around every part, it makes no difference to which part they belong. -/
theorem inside_iff
    (hBlanks : ∀ cs a, spells cs a ↔ ∃ before front after, cs = before ++ (front ++ after) ∧
      AreBlank before ∧ AreBlank after ∧ tight front a) {inner : List Char} {as : List α} :
    Inside tight true inner as ↔ as = [] ∧ AreBlank inner ∨ Separated spells inner as := by
  constructor
  · intro h
    induction as generalizing inner with
    | nil => exact .inl ⟨rfl, h⟩
    | cons a as ih =>
      obtain ⟨lead, front, rest, rfl, hLead, hTight, hRest⟩ := h
      right
      cases as with
      | nil => exact .single ((hBlanks _ _).2 ⟨lead, front, rest, rfl, hLead, hRest, hTight⟩)
      | cons b bs =>
        obtain ⟨before, others, rfl, hBefore, hOthers⟩ := inside_false_cons_iff.1 hRest
        have hPart : spells (lead ++ (front ++ before)) a :=
          (hBlanks _ _).2 ⟨lead, front, before, rfl, hLead, hBefore, hTight⟩
        rcases ih hOthers with ⟨hNot, -⟩ | hSeparated
        · cases hNot
        · have hJoined := Separated.cons hPart hSeparated
          simpa using hJoined
  · rintro (⟨rfl, hInner⟩ | h)
    · exact hInner
    · induction h with
      | single hPart =>
        obtain ⟨before, front, after, rfl, hBefore, hAfter, hTight⟩ := (hBlanks _ _).1 hPart
        exact ⟨before, front, after, rfl, hBefore, hTight, hAfter⟩
      | @cons cs ds a as hPart hOthers ih =>
        obtain ⟨before, front, after, rfl, hBefore, hAfter, hTight⟩ := (hBlanks _ _).1 hPart
        refine ⟨before, front, after ++ ',' :: ds, by simp, hBefore, hTight, ?_⟩
        cases as with
        | nil => cases hOthers
        | cons b bs => exact inside_false_cons_iff.2 ⟨after, ds, rfl, hAfter, ih⟩

end Parts

/-! ## Written forms without blanks around them -/

/-- A written form of a value that starts and ends with the value. -/
def SpellsTight (cs : List Char) : Value → Prop
  | .scalar s => skipBlanks cs = cs ∧ readHead cs = .ok (.scalar s, [])
  | .sequence vs => ∃ inner, cs = '[' :: (inner ++ [']']) ∧
      (vs = [] ∧ AreBlank inner ∨ Spells inner (.items vs))
  | .map es => ∃ inner, cs = '\x7b' :: (inner ++ ['\x7d']) ∧
      (es = [] ∧ AreBlank inner ∨ Spells inner (.entries es))

theorem SpellsTight.spells {cs : List Char} {v : Value} (h : SpellsTight cs v) :
    Spells cs (.value v) := by
  cases v with
  | scalar s => exact .scalar h.2
  | sequence vs =>
    obtain ⟨inner, rfl, ⟨rfl, hBlank⟩ | hItems⟩ := h
    · exact .emptySequence hBlank
    · exact .sequence hItems
  | map es =>
    obtain ⟨inner, rfl, ⟨rfl, hBlank⟩ | hEntries⟩ := h
    · exact .emptyMap hBlank
    · exact .map hEntries

/-- The blanks in front of a scalar can be taken off. -/
theorem exists_spellsTight {cs : List Char} {s : Scalar} (h : readHead cs = .ok (.scalar s, [])) :
    ∃ before front, cs = before ++ front ∧ AreBlank before ∧ SpellsTight front (.scalar s) := by
  obtain ⟨before, hBefore, hText⟩ := exists_blanks cs
  refine ⟨before, skipBlanks cs, hText, hBefore, List.dropWhile_idempotent isBlank cs, ?_⟩
  rwa [hText, readHead_append hBefore] at h

theorem spells_value_iff {cs : List Char} {v : Value} :
    Spells cs (.value v) ↔ ∃ before front after, cs = before ++ (front ++ after) ∧
      AreBlank before ∧ AreBlank after ∧ SpellsTight front v := by
  constructor
  · intro h
    generalize hPart : Part.value v = part at h
    induction h with
    | @blankBefore c cs w hBlank _ ih =>
      obtain ⟨before, front, after, rfl, hBefore, hAfter, hTight⟩ := ih hPart
      refine ⟨c :: before, front, after, rfl, ?_, hAfter, hTight⟩
      exact Bool.and_eq_true_iff.2 ⟨hBlank, hBefore⟩
    | @blankAfter c cs w hBlank _ ih =>
      obtain ⟨before, front, after, rfl, hBefore, hAfter, hTight⟩ := ih hPart
      refine ⟨before, front, after ++ [c], by simp, hBefore, ?_, hTight⟩
      exact areBlank_append_iff.2 ⟨hAfter, Bool.and_eq_true_iff.2 ⟨hBlank, rfl⟩⟩
    | @scalar cs s hRead =>
      cases hPart
      obtain ⟨before, front, rfl, hBefore, hTight⟩ := exists_spellsTight hRead
      exact ⟨before, front, [], by simp, hBefore, rfl, hTight⟩
    | @emptySequence blanks hBlank =>
      cases hPart
      exact ⟨[], _, [], by simp, rfl, rfl, blanks, rfl, .inl ⟨rfl, hBlank⟩⟩
    | @sequence cs vs hItems _ =>
      cases hPart
      exact ⟨[], _, [], by simp, rfl, rfl, cs, rfl, .inr hItems⟩
    | @emptyMap blanks hBlank =>
      cases hPart
      exact ⟨[], _, [], by simp, rfl, rfl, blanks, rfl, .inl ⟨rfl, hBlank⟩⟩
    | @map cs es hEntries _ =>
      cases hPart
      exact ⟨[], _, [], by simp, rfl, rfl, cs, rfl, .inr hEntries⟩
    | item | items | entry | entries => cases hPart
  · rintro ⟨before, front, after, rfl, hBefore, hAfter, hTight⟩
    have h := Spells.surround hBefore hAfter hTight.spells
    rwa [List.append_assoc] at h

/-! ## Items and entries -/

theorem separated_items_iff {cs : List Char} {vs : List Value} :
    Separated (fun cs v => Spells cs (.value v)) cs vs ↔ Spells cs (.items vs) := by
  constructor
  · intro h
    induction h with
    | single hItem => exact .item hItem
    | cons hItem _ ih => exact .items hItem ih
  · intro h
    generalize hPart : Part.items vs = part at h
    induction h generalizing vs with
    | item hItem =>
      cases hPart
      exact .single hItem
    | items hItem _ _ ih =>
      cases hPart
      exact .cons hItem (ih rfl)
    | blankBefore | blankAfter | scalar | emptySequence | sequence | emptyMap | map | entry
      | entries => cases hPart

/-- A written form of a key and its value, with the colon between them. -/
def SpellsEntry (cs : List Char) (e : String × Value) : Prop :=
  ∃ ks vs, cs = ks ++ ':' :: vs ∧ SpellsKey ks e.1 ∧ Spells vs (.value e.2)

/-- One that starts with the key and ends with the value. -/
def SpellsEntryTight (cs : List Char) (e : String × Value) : Prop :=
  ∃ inner text after before front, cs = '"' :: (inner ++ (after ++ ':' :: (before ++ front))) ∧
    AreBlank after ∧ AreBlank before ∧ readText inner = .ok (text, []) ∧ e.1 = String.ofList text ∧
    SpellsTight front e.2

theorem separated_entries_iff {cs : List Char} {es : List (String × Value)} :
    Separated SpellsEntry cs es ↔ Spells cs (.entries es) := by
  constructor
  · intro h
    induction h with
    | single hEntry =>
      obtain ⟨ks, vs, rfl, hKey, hValue⟩ := hEntry
      exact .entry hKey hValue
    | cons hEntry _ ih =>
      obtain ⟨ks, vs, rfl, hKey, hValue⟩ := hEntry
      exact .entries hKey hValue ih
  · intro h
    generalize hPart : Part.entries es = part at h
    induction h generalizing es with
    | entry hKey hValue =>
      cases hPart
      exact .single ⟨_, _, rfl, hKey, hValue⟩
    | entries hKey hValue _ _ ih =>
      cases hPart
      exact .cons ⟨_, _, rfl, hKey, hValue⟩ (ih rfl)
    | blankBefore | blankAfter | scalar | emptySequence | sequence | item | items | emptyMap
      | map => cases hPart

theorem spellsEntry_iff {cs : List Char} {e : String × Value} :
    SpellsEntry cs e ↔ ∃ before front after, cs = before ++ (front ++ after) ∧ AreBlank before ∧
      AreBlank after ∧ SpellsEntryTight front e := by
  constructor
  · rintro ⟨_, vs, rfl, ⟨before, inner, text, after, rfl, hBefore, hAfter, hRead, hKey⟩, hValue⟩
    obtain ⟨before', front, after', rfl, hBefore', hAfter', hTight⟩ := spells_value_iff.1 hValue
    exact ⟨before, '"' :: (inner ++ (after ++ ':' :: (before' ++ front))), after', by simp, hBefore,
      hAfter', inner, text, after, before', front, rfl, hAfter, hBefore', hRead, hKey, hTight⟩
  · rintro ⟨before, _, after, rfl, hBefore, hAfter, inner, text, after', before', front, rfl, hAfter',
      hBefore', hRead, hKey, hTight⟩
    exact ⟨before ++ '"' :: inner ++ after', before' ++ (front ++ after), by simp,
      ⟨before, inner, text, after', rfl, hBefore, hAfter', hRead, hKey⟩,
      spells_value_iff.2 ⟨before', front, after, rfl, hBefore', hAfter, hTight⟩⟩

theorem inside_items_iff {inner : List Char} {vs : List Value} :
    Inside SpellsTight true inner vs ↔
      vs = [] ∧ AreBlank inner ∨ Spells inner (.items vs) := by
  rw [← separated_items_iff]
  refine inside_iff ?_
  exact fun cs v => spells_value_iff

theorem inside_entries_iff {inner : List Char} {es : List (String × Value)} :
    Inside SpellsEntryTight true inner es ↔
      es = [] ∧ AreBlank inner ∨ Spells inner (.entries es) := by
  rw [← separated_entries_iff]
  refine inside_iff ?_
  exact fun cs e => spellsEntry_iff

end RecordStore.Json
