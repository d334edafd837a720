import Mathlib.Data.List.Forall2
import RecordStore.Proofs.Binding
import RecordStore.Proofs.JsonSpelling

/-!
# Readers of values

A reader accepts certain values at the front of a text and makes something of them (`ReadsAs`): of
what it accepts the front is a written form of such a value, and every written form of one is accepted,
in front of anything that ends it.

From a reader of parts follows one of sequences and one of maps, since a reader of brackets goes through
them part by part. What it does with the parts is left open.

## Main results

- `Steps.loop_iff`: what is read in steps is what stands inside the brackets.
- `readItem`, `readEntry`: the steps to the items of a sequence and the entries of a map.
- `ReadsAs.sequence`, `ReadsAs.map`: from parts to brackets.
- `ReadsAs.whole_iff`: what is read of whole texts.
-/

namespace RecordStore.Json

/-! ## Reading part by part -/

section Steps

variable {α β : Type}

/-- Steps through brackets, of which each but the last returns a part. -/
inductive Loop (step : Bool → List Char → Except Fault (Option β × List Char)) :
    Bool → List Char → List β → List Char → Prop
  | done {first : Bool} {cs rest : List Char} :
    step first cs = .ok (none, rest) → Loop step first cs [] rest
  | next {first : Bool} {cs middle rest : List Char} {b : β} {bs : List β} :
    step first cs = .ok (some b, middle) → Loop step false middle bs rest →
      Loop step first cs (b :: bs) rest

/-- A step passes the closing bracket, or it passes what leads to a part and reads the part. -/
structure Steps (step : Bool → List Char → Except Fault (Option β × List Char)) (closing : Char)
    (tight : List Char → α → Prop) (holds : α → β → Prop) : Prop where
  ends : ∀ rest, EndsNumber (closing :: rest)
  sound_none : ∀ {first cs rest}, step first cs = .ok (none, rest) →
    ∃ blanks, cs = blanks ++ closing :: rest ∧ AreBlank blanks
  sound_some : ∀ {first cs rest b}, step first cs = .ok (some b, rest) →
    ∃ lead front a, cs = lead ++ (front ++ rest) ∧ Leads first lead ∧ tight front a ∧ holds a b
  complete_none : ∀ {blanks}, AreBlank blanks → ∀ first rest,
    step first (blanks ++ closing :: rest) = .ok (none, rest)
  complete_some : ∀ {first lead front rest a b}, Leads first lead → tight front a → holds a b →
    EndsNumber rest → step first (lead ++ (front ++ rest)) = .ok (some b, rest)

/-- Blanks do not go on with a number. -/
theorem endsNumber_append {blanks rest : List Char} (h : AreBlank blanks) (hRest : EndsNumber rest) :
    EndsNumber (blanks ++ rest) := by
  cases blanks with
  | nil => exact hRest
  | cons c blanks =>
    intro d hd
    obtain rfl : c = d := Option.some.inj hd
    obtain ⟨hBlank, -⟩ := Bool.and_eq_true_iff.1 h
    simp only [isBlank, Bool.or_eq_true, beq_iff_eq] at hBlank
    rcases hBlank with ((rfl | rfl) | rfl) | rfl
    all_goals decide

theorem endsNumber_comma (rest : List Char) : EndsNumber (',' :: rest) := by
  intro c hc
  obtain rfl : ',' = c := Option.some.inj hc
  decide

variable {step : Bool → List Char → Except Fault (Option β × List Char)} {closing : Char}
  {tight : List Char → α → Prop} {holds : α → β → Prop}

/-- After a part a number has ended, whether others follow or not. -/
theorem Steps.ends_inside (h : Steps step closing tight holds) {inner : List Char} {as : List α}
    (hInside : Inside tight false inner as) (rest : List Char) :
    EndsNumber (inner ++ closing :: rest) := by
  cases as with
  | nil => exact endsNumber_append hInside (h.ends rest)
  | cons a as =>
    obtain ⟨before, others, rfl, hBefore, -⟩ := inside_false_cons_iff.1 hInside
    rw [List.append_assoc]
    exact endsNumber_append hBefore (endsNumber_comma _)

theorem Steps.loop_iff (h : Steps step closing tight holds) {first : Bool} {cs rest : List Char}
    {bs : List β} :
    Loop step first cs bs rest ↔ ∃ inner as, cs = inner ++ closing :: rest ∧
      Inside tight first inner as ∧ List.Forall₂ holds as bs := by
  constructor
  · intro hLoop
    induction hLoop with
    | done hStep =>
      obtain ⟨blanks, rfl, hBlank⟩ := h.sound_none hStep
      exact ⟨blanks, [], rfl, hBlank, .nil⟩
    | next hStep _ ih =>
      obtain ⟨lead, front, a, rfl, hLead, hTight, hHolds⟩ := h.sound_some hStep
      obtain ⟨inner, as, rfl, hInside, hAll⟩ := ih
      exact ⟨lead ++ (front ++ inner), a :: as, by simp, ⟨lead, front, inner, rfl, hLead, hTight,
        hInside⟩, .cons hHolds hAll⟩
  · rintro ⟨inner, as, rfl, hInside, hAll⟩
    induction hAll generalizing first inner with
    | nil => exact .done (h.complete_none hInside first rest)
    | cons hHolds _ ih =>
      obtain ⟨lead, front, others, rfl, hLead, hTight, hOthers⟩ := hInside
      have hStep := h.complete_some hLead hTight hHolds (h.ends_inside hOthers rest)
      rw [List.append_assoc, List.append_assoc]
      exact .next hStep (ih others hOthers)

end Steps

/-! ## Steps of the readers -/

/-- What is found behind blanks is what the blanks are followed by. -/
theorem exists_of_skipBlanks {c : Char} {cs rest : List Char} (h : skipBlanks cs = c :: rest) :
    ∃ blanks, cs = blanks ++ c :: rest ∧ AreBlank blanks := by
  obtain ⟨blanks, hBlanks, hText⟩ := exists_blanks cs
  exact ⟨blanks, by rw [← h, ← hText], hBlanks⟩

theorem skipBlanks_of_areBlank {blanks : List Char} {c : Char} (h : AreBlank blanks)
    (hc : isBlank c = false) (cs : List Char) : skipBlanks (blanks ++ c :: cs) = c :: cs := by
  rw [skipBlanks_append h, skipBlanks, List.dropWhile_cons_of_neg (by simp [hc])]

theorem readColon_eq_ok_iff {cs rest : List Char} :
    readColon cs = .ok rest ↔ ∃ blanks, cs = blanks ++ ':' :: rest ∧ AreBlank blanks := by
  constructor
  · intro h
    unfold readColon at h
    split at h
    · cases h
    · next c tail hSkip =>
      split at h
      · next hc =>
        cases h
        exact exists_of_skipBlanks (hc ▸ hSkip)
      · cases h
  · rintro ⟨blanks, rfl, hBlank⟩
    rw [readColon, skipBlanks_of_areBlank hBlank rfl]
    rfl

/-- A value does not start with a closing bracket. -/
theorem exists_of_readHead {cs : List Char} {p : Head × List Char} (h : readHead cs = .ok p) :
    ∃ c tail, skipBlanks cs = c :: tail ∧ c ≠ ']' := by
  unfold readHead at h
  split at h
  · cases h
  · next c tail hSkip =>
    refine ⟨c, tail, hSkip, ?_⟩
    rintro rfl
    cases h

theorem nextElement_of_leads {first : Bool} {lead cs : List Char} {p : Head × List Char}
    (hLead : Leads first lead) (h : readHead cs = .ok p) :
    nextElement first (lead ++ cs) = .ok (true, skipBlanks cs) := by
  obtain ⟨c, tail, hSkip, hc⟩ := exists_of_readHead h
  cases first with
  | true =>
    rw [nextElement, skipBlanks_append hLead, hSkip]
    simp only [if_neg hc, if_true]
  | false =>
    obtain ⟨before, after, rfl, hBefore, hAfter⟩ := hLead
    have hComma : skipBlanks (before ++ ',' :: after ++ cs) = ',' :: (after ++ cs) := by
      rw [List.append_assoc]
      exact skipBlanks_of_areBlank hBefore rfl _
    have hBehind : skipBlanks (after ++ cs) = c :: tail := by rw [skipBlanks_append hAfter, hSkip]
    rw [nextElement, hComma]
    simp only [hBehind, if_neg hc, hSkip]
    rfl

theorem leads_of_nextElement {first : Bool} {cs rest : List Char}
    (h : nextElement first cs = .ok (true, rest)) :
    ∃ lead, cs = lead ++ rest ∧ Leads first lead := by
  unfold nextElement at h
  split at h
  · cases h
  · next c tail hSkip =>
    obtain ⟨before, rfl, hBefore⟩ := exists_of_skipBlanks hSkip
    split at h
    · cases h
    split at h
    · next hFirst =>
      subst hFirst
      cases h
      exact ⟨before, rfl, hBefore⟩
    split at h
    · next hFirst hComma =>
      subst hComma
      split at h
      · cases h
      · next d others hBehind =>
        split at h
        · cases h
        · cases h
          obtain ⟨after, rfl, hAfter⟩ := exists_of_skipBlanks hBehind
          rw [Bool.not_eq_true] at hFirst
          subst hFirst
          exact ⟨before ++ ',' :: after, by simp, before, after, rfl, hBefore, hAfter⟩
    · cases h

theorem nextElement_false_iff {first : Bool} {cs rest : List Char} :
    nextElement first cs = .ok (false, rest) ↔
      ∃ blanks, cs = blanks ++ ']' :: rest ∧ AreBlank blanks := by
  constructor
  · intro h
    unfold nextElement at h
    split at h
    · cases h
    · next c tail hSkip =>
      split at h
      · next hc =>
        cases h
        exact exists_of_skipBlanks (hc ▸ hSkip)
      split at h
      · cases h
      split at h
      · split at h
        · cases h
        · split at h
          · cases h
          · cases h
      · cases h
  · rintro ⟨blanks, rfl, hBlank⟩
    rw [nextElement, skipBlanks_of_areBlank hBlank rfl]
    rfl

theorem nextKey_of_leads {first : Bool} {lead inner text : List Char} (hLead : Leads first lead)
    (h : readText inner = .ok (text, [])) (rest : List Char) :
    nextKey first (lead ++ '"' :: (inner ++ rest)) = .ok (some (String.ofList text), rest) := by
  obtain ⟨front, hFront, hRead⟩ := endsItself_readText _ _ _ h
  rw [List.append_nil] at hFront
  subst hFront
  cases first with
  | true =>
    rw [nextKey, skipBlanks_of_areBlank hLead rfl]
    simp only [hRead rest trivial]
    rfl
  | false =>
    obtain ⟨before, after, rfl, hBefore, hAfter⟩ := hLead
    have hComma : skipBlanks (before ++ ',' :: after ++ '"' :: (inner ++ rest)) =
        ',' :: (after ++ '"' :: (inner ++ rest)) := by
      rw [List.append_assoc]
      exact skipBlanks_of_areBlank hBefore rfl _
    rw [nextKey, hComma]
    simp only [skipBlanks_of_areBlank hAfter (show isBlank '"' = false from rfl), hRead rest trivial]
    rfl

theorem leads_of_nextKey {first : Bool} {cs rest : List Char} {key : String}
    (h : nextKey first cs = .ok (some key, rest)) :
    ∃ lead inner text, cs = lead ++ '"' :: (inner ++ rest) ∧ Leads first lead ∧
      readText inner = .ok (text, []) ∧ key = String.ofList text := by
  have hKey {tail : List Char} (h : ((readText tail).map fun p =>
      (some (String.ofList p.1), p.2)) = .ok (some key, rest)) :
      ∃ inner text, tail = inner ++ rest ∧ readText inner = .ok (text, []) ∧
        key = String.ofList text := by
    obtain ⟨⟨text, after⟩, hRead, hEq⟩ := map_eq_ok_iff.1 h
    cases hEq
    obtain ⟨inner, rfl, hInner⟩ := endsItself_readText _ _ _ hRead
    exact ⟨inner, text, rfl, by simpa using hInner [] trivial, rfl⟩
  unfold nextKey at h
  simp only at h
  split at h
  · cases h
  · next c tail hSkip =>
    obtain ⟨before, rfl, hBefore⟩ := exists_of_skipBlanks hSkip
    split at h
    · cases h
    split at h
    · next hFirst =>
      subst hFirst
      split at h
      · next hc =>
        obtain ⟨inner, text, rfl, hRead, hEq⟩ := hKey h
        exact ⟨before, inner, text, by rw [hc], hBefore, hRead, hEq⟩
      · cases h
    split at h
    · next hFirst hComma =>
      subst hComma
      rw [Bool.not_eq_true] at hFirst
      subst hFirst
      split at h
      · cases h
      · next d others hBehind =>
        split at h
        · next hd =>
          obtain ⟨inner, text, rfl, hRead, hEq⟩ := hKey h
          obtain ⟨after, rfl, hAfter⟩ := exists_of_skipBlanks hBehind
          exact ⟨before ++ ',' :: after, inner, text, by simp [hd],
            ⟨before, after, rfl, hBefore, hAfter⟩, hRead, hEq⟩
        · cases h
    · cases h

theorem nextKey_none_iff {first : Bool} {cs rest : List Char} :
    nextKey first cs = .ok (none, rest) ↔
      ∃ blanks, cs = blanks ++ '\x7d' :: rest ∧ AreBlank blanks := by
  constructor
  · intro h
    have hKey {tail : List Char} : ((readText tail).map fun p =>
        (some (String.ofList p.1), p.2)) ≠ .ok (none, rest) := by
      intro hNot
      obtain ⟨_, -, hEq⟩ := map_eq_ok_iff.1 hNot
      cases hEq
    unfold nextKey at h
    simp only at h
    split at h
    · cases h
    · next c tail hSkip =>
      split at h
      · next hc =>
        cases h
        exact exists_of_skipBlanks (hc ▸ hSkip)
      split at h
      · split at h
        · exact absurd h hKey
        · cases h
      split at h
      · split at h
        · cases h
        · split at h
          · exact absurd h hKey
          · cases h
      · cases h
  · rintro ⟨blanks, rfl, hBlank⟩
    rw [nextKey, skipBlanks_of_areBlank hBlank rfl]
    rfl

/-! ## Steps to parts -/

section Parts

variable {β : Type}

/-- Goes to the next item of a sequence and reads it, if there is one. -/
def readItem (read : List Char → Except Fault (β × List Char)) (first : Bool) (cs : List Char) :
    Except Fault (Option β × List Char) :=
  match nextElement first cs with
  | .error fault => .error fault
  | .ok (false, rest) => .ok (none, rest)
  | .ok (true, rest) => (read rest).map fun (b, rest) => (some b, rest)

/-- Goes to the next entry of a map and reads it, if there is one. -/
def readEntry (read : List Char → Except Fault (β × List Char)) (first : Bool) (cs : List Char) :
    Except Fault (Option (String × β) × List Char) :=
  match nextKey first cs with
  | .error fault => .error fault
  | .ok (none, rest) => .ok (none, rest)
  | .ok (some key, rest) =>
    match readColon rest with
    | .error fault => .error fault
    | .ok rest => (read rest).map fun (b, rest) => (some (key, b), rest)

variable {read : List Char → Except Fault (β × List Char)}

theorem readItem_some_iff {first : Bool} {cs rest : List Char} {b : β} :
    readItem read first cs = .ok (some b, rest) ↔ ∃ middle,
      nextElement first cs = .ok (true, middle) ∧ read middle = .ok (b, rest) := by
  constructor
  · intro h
    unfold readItem at h
    split at h
    · cases h
    · cases h
    · next middle hNext =>
      obtain ⟨⟨_, _⟩, hRead, hEq⟩ := map_eq_ok_iff.1 h
      cases hEq
      exact ⟨middle, hNext, hRead⟩
  · rintro ⟨middle, hNext, hRead⟩
    rw [readItem, hNext]
    exact map_eq_ok_iff.2 ⟨_, hRead, rfl⟩

theorem readItem_none_iff {first : Bool} {cs rest : List Char} :
    readItem read first cs = .ok (none, rest) ↔ nextElement first cs = .ok (false, rest) := by
  constructor
  · intro h
    unfold readItem at h
    split at h
    · cases h
    · next hNext =>
      cases h
      exact hNext
    · obtain ⟨_, -, hEq⟩ := map_eq_ok_iff.1 h
      cases hEq
  · intro hNext
    rw [readItem, hNext]

theorem readEntry_some_iff {first : Bool} {cs rest : List Char} {key : String} {b : β} :
    readEntry read first cs = .ok (some (key, b), rest) ↔ ∃ middle others,
      nextKey first cs = .ok (some key, middle) ∧ readColon middle = .ok others ∧
        read others = .ok (b, rest) := by
  constructor
  · intro h
    unfold readEntry at h
    split at h
    · cases h
    · cases h
    · next middle hKey =>
      split at h
      · cases h
      · next others hColon =>
        obtain ⟨⟨_, _⟩, hRead, hEq⟩ := map_eq_ok_iff.1 h
        cases hEq
        exact ⟨middle, others, hKey, hColon, hRead⟩
  · rintro ⟨middle, others, hKey, hColon, hRead⟩
    rw [readEntry, hKey]
    simp only [hColon]
    exact map_eq_ok_iff.2 ⟨_, hRead, rfl⟩

theorem readEntry_none_iff {first : Bool} {cs rest : List Char} :
    readEntry read first cs = .ok (none, rest) ↔ nextKey first cs = .ok (none, rest) := by
  constructor
  · intro h
    unfold readEntry at h
    split at h
    · cases h
    · next hKey =>
      cases h
      exact hKey
    · split at h
      · cases h
      · obtain ⟨_, -, hEq⟩ := map_eq_ok_iff.1 h
        cases hEq
  · intro hKey
    rw [readEntry, hKey]

end Parts

/-! ## Readers of values -/

section Readers

variable {β γ : Type}

/-- What a reader accepts at the front of a text, with what it makes of it and what it leaves. The
values are those of which `holds` tells what they hold; blanks in front of them do not matter. -/
structure ReadsAs (accepts : List Char → β → List Char → Prop) (holds : Value → β → Prop) : Prop where
  sound : ∀ {cs rest b}, accepts cs b rest → ∃ before front v, cs = before ++ (front ++ rest) ∧
    AreBlank before ∧ SpellsTight front v ∧ holds v b
  complete : ∀ {before front rest v b}, AreBlank before → SpellsTight front v → holds v b →
    EndsNumber rest → accepts (before ++ (front ++ rest)) b rest

/-- The texts at the front of which a reader succeeds. -/
def Accepts (read : List Char → Except Fault (β × List Char)) (cs : List Char) (b : β)
    (rest : List Char) : Prop := read cs = .ok (b, rest)

theorem endsNumber_bracket {closing : Char} (h : closing = ']' ∨ closing = '\x7d')
    (rest : List Char) : EndsNumber (closing :: rest) := by
  intro c hc
  obtain rfl : closing = c := Option.some.inj hc
  rcases h with rfl | rfl
  · decide
  · decide

theorem leads_append {first : Bool} {lead blanks : List Char} (h : Leads first lead)
    (hBlanks : AreBlank blanks) : Leads first (lead ++ blanks) := by
  cases first with
  | true => exact areBlank_append_iff.2 ⟨h, hBlanks⟩
  | false =>
    obtain ⟨before, after, rfl, hBefore, hAfter⟩ := h
    exact ⟨before, after ++ blanks, by simp, hBefore, areBlank_append_iff.2 ⟨hAfter, hBlanks⟩⟩

theorem SpellsTight.skipBlanks_append {front rest : List Char} {v : Value}
    (h : SpellsTight front v) : skipBlanks (front ++ rest) = front ++ rest := by
  obtain ⟨c, tail, rfl, hc⟩ : ∃ c tail, front = c :: tail ∧ isBlank c = false := by
    cases v with
    | scalar s =>
      obtain ⟨hSkip, hRead⟩ := h
      cases front with
      | nil => cases hRead
      | cons c tail => exact ⟨c, tail, rfl, isBlank_of_skipBlanks hSkip⟩
    | sequence vs =>
      obtain ⟨inner, rfl, -⟩ := h
      exact ⟨'[', _, rfl, rfl⟩
    | map es =>
      obtain ⟨inner, rfl, -⟩ := h
      exact ⟨'\x7b', _, rfl, rfl⟩
  exact skipBlanks_of_areBlank areBlank_nil hc (tail ++ rest)

/-- A written form of a value has a front that can be read. -/
theorem SpellsTight.exists_readHead {front rest : List Char} {v : Value} (h : SpellsTight front v)
    (hRest : EndsNumber rest) : ∃ p, readHead (front ++ rest) = .ok p := by
  cases v with
  | scalar s =>
    obtain ⟨scalar, hText, hRead⟩ := exists_scalar h.2
    rw [List.append_nil] at hText
    subst hText
    exact ⟨_, hRead rest hRest⟩
  | sequence vs =>
    obtain ⟨inner, rfl, -⟩ := h
    exact ⟨_, rfl⟩
  | map es =>
    obtain ⟨inner, rfl, -⟩ := h
    exact ⟨_, rfl⟩

variable {read : List Char → Except Fault (β × List Char)} {holds : Value → β → Prop}

theorem ReadsAs.steps_item (h : ReadsAs (Accepts read) holds) :
    Steps (readItem read) ']' SpellsTight holds where
  ends := endsNumber_bracket (.inl rfl)
  sound_none := by
    intro first cs rest hStep
    exact nextElement_false_iff.1 (readItem_none_iff.1 hStep)
  sound_some := by
    intro first cs rest b hStep
    obtain ⟨middle, hNext, hRead⟩ := readItem_some_iff.1 hStep
    obtain ⟨lead, rfl, hLead⟩ := leads_of_nextElement hNext
    obtain ⟨before, front, v, rfl, hBefore, hTight, hHolds⟩ := h.sound hRead
    exact ⟨lead ++ before, front, v, by simp, leads_append hLead hBefore, hTight, hHolds⟩
  complete_none := by
    intro blanks hBlank first rest
    exact readItem_none_iff.2 (nextElement_false_iff.2 ⟨blanks, rfl, hBlank⟩)
  complete_some := by
    intro first lead front rest v b hLead hTight hHolds hRest
    obtain ⟨p, hHead⟩ := hTight.exists_readHead hRest
    have hRead := h.complete areBlank_nil hTight hHolds hRest
    have hNext := nextElement_of_leads hLead hHead
    rw [hTight.skipBlanks_append] at hNext
    exact readItem_some_iff.2 ⟨_, hNext, hRead⟩

theorem ReadsAs.steps_entry (h : ReadsAs (Accepts read) holds) :
    Steps (readEntry read) '\x7d' SpellsEntryTight fun e p => e.1 = p.1 ∧ holds e.2 p.2 where
  ends := endsNumber_bracket (.inr rfl)
  sound_none := by
    intro first cs rest hStep
    exact nextKey_none_iff.1 (readEntry_none_iff.1 hStep)
  sound_some := by
    rintro first cs rest ⟨key, b⟩ hStep
    obtain ⟨middle, others, hKey, hColon, hRead⟩ := readEntry_some_iff.1 hStep
    obtain ⟨lead, inner, text, rfl, hLead, hText, rfl⟩ := leads_of_nextKey hKey
    obtain ⟨after, rfl, hAfter⟩ := readColon_eq_ok_iff.1 hColon
    obtain ⟨before, front, v, rfl, hBefore, hTight, hHolds⟩ := h.sound hRead
    exact ⟨lead, '"' :: (inner ++ (after ++ ':' :: (before ++ front))), (String.ofList text, v),
      by simp, hLead, ⟨inner, text, after, before, front, rfl, hAfter, hBefore, hText, rfl, hTight⟩,
      rfl, hHolds⟩
  complete_none := by
    intro blanks hBlank first rest
    exact readEntry_none_iff.2 (nextKey_none_iff.2 ⟨blanks, rfl, hBlank⟩)
  complete_some := by
    rintro first lead _ rest e ⟨key, b⟩ hLead ⟨inner, text, after, before, front, rfl, hAfter, hBefore,
      hText, hKey, hTight⟩ ⟨rfl, hHolds⟩ hRest
    have hRead := h.complete hBefore hTight hHolds hRest
    have hColon : readColon (after ++ ':' :: (before ++ (front ++ rest))) =
        .ok (before ++ (front ++ rest)) := readColon_eq_ok_iff.2 ⟨after, rfl, hAfter⟩
    have hNext := nextKey_of_leads hLead hText (after ++ ':' :: (before ++ (front ++ rest)))
    have hCut : lead ++ ('"' :: (inner ++ (after ++ ':' :: (before ++ front))) ++ rest) =
        lead ++ '"' :: (inner ++ (after ++ ':' :: (before ++ (front ++ rest)))) := by simp
    rw [← hKey] at hNext
    rw [hCut]
    exact readEntry_some_iff.2 ⟨_, _, hNext, hColon, hRead⟩

/-- The front of a sequence or map is its bracket, and any other front is a scalar. -/
theorem skipBlanks_of_readHead {cs rest : List Char} {head : Head}
    (h : readHead cs = .ok (head, rest)) :
    head = .sequence ∧ skipBlanks cs = '[' :: rest ∨ head = .map ∧ skipBlanks cs = '\x7b' :: rest ∨
      ∃ s, head = .scalar s := by
  unfold readHead at h
  split at h
  · cases h
  · next c tail hSkip =>
    split at h
    · next hc =>
      cases h
      exact .inl ⟨rfl, hc ▸ hSkip⟩
    split at h
    · next hc =>
      cases h
      exact .inr (.inl ⟨rfl, hc ▸ hSkip⟩)
    right; right
    repeat' split at h
    all_goals first
      | cases h
      | obtain ⟨_, -, hEq⟩ := map_eq_ok_iff.1 h
        cases hEq
        exact ⟨_, rfl⟩

theorem readHead_sequence_iff {cs rest : List Char} :
    readHead cs = .ok (.sequence, rest) ↔ ∃ before, cs = before ++ '[' :: rest ∧ AreBlank before := by
  constructor
  · intro h
    rcases skipBlanks_of_readHead h with ⟨-, hSkip⟩ | ⟨hNot, -⟩ | ⟨s, hNot⟩
    · exact exists_of_skipBlanks hSkip
    · cases hNot
    · cases hNot
  · rintro ⟨before, rfl, hBefore⟩
    rw [readHead_append hBefore]
    rfl

theorem readHead_map_iff {cs rest : List Char} :
    readHead cs = .ok (.map, rest) ↔ ∃ before, cs = before ++ '\x7b' :: rest ∧ AreBlank before := by
  constructor
  · intro h
    rcases skipBlanks_of_readHead h with ⟨hNot, -⟩ | ⟨-, hSkip⟩ | ⟨s, hNot⟩
    · cases hNot
    · exact exists_of_skipBlanks hSkip
    · cases hNot
  · rintro ⟨before, rfl, hBefore⟩
    rw [readHead_append hBefore]
    rfl

/-- Sequences are read as their items are read one by one. -/
theorem ReadsAs.sequence (h : ReadsAs (Accepts read) holds) (made : List β → γ → Prop) :
    ReadsAs (fun cs c rest => ∃ tail bs, readHead cs = .ok (.sequence, tail) ∧
        Loop (readItem read) true tail bs rest ∧ made bs c)
      fun v c => ∃ vs bs, v = .sequence vs ∧ List.Forall₂ holds vs bs ∧ made bs c where
  sound := by
    rintro cs rest c ⟨tail, bs, hHead, hLoop, hMade⟩
    obtain ⟨before, rfl, hBefore⟩ := readHead_sequence_iff.1 hHead
    obtain ⟨inner, vs, rfl, hInside, hAll⟩ := h.steps_item.loop_iff.1 hLoop
    exact ⟨before, '[' :: (inner ++ [']']), .sequence vs, by simp, hBefore,
      ⟨inner, rfl, inside_items_iff.1 hInside⟩, vs, bs, rfl, hAll, hMade⟩
  complete := by
    rintro before front rest _ c hBefore hTight ⟨vs, bs, rfl, hAll, hMade⟩ -
    obtain ⟨inner, rfl, hInner⟩ := hTight
    have hCut : before ++ ('[' :: (inner ++ [']']) ++ rest) =
        before ++ '[' :: (inner ++ ']' :: rest) := by simp
    rw [hCut]
    exact ⟨inner ++ ']' :: rest, bs, readHead_sequence_iff.2 ⟨before, rfl, hBefore⟩,
      h.steps_item.loop_iff.2 ⟨inner, vs, rfl, inside_items_iff.2 hInner, hAll⟩, hMade⟩

/-- Maps are read as their entries are read one by one. -/
theorem ReadsAs.map (h : ReadsAs (Accepts read) holds) (made : List (String × β) → γ → Prop) :
    ReadsAs (fun cs c rest => ∃ tail ps, readHead cs = .ok (.map, tail) ∧
        Loop (readEntry read) true tail ps rest ∧ made ps c)
      fun v c => ∃ es ps, v = .map es ∧
        List.Forall₂ (fun e p => e.1 = p.1 ∧ holds e.2 p.2) es ps ∧ made ps c where
  sound := by
    rintro cs rest c ⟨tail, ps, hHead, hLoop, hMade⟩
    obtain ⟨before, rfl, hBefore⟩ := readHead_map_iff.1 hHead
    obtain ⟨inner, es, rfl, hInside, hAll⟩ := h.steps_entry.loop_iff.1 hLoop
    exact ⟨before, '\x7b' :: (inner ++ ['\x7d']), .map es, by simp, hBefore,
      ⟨inner, rfl, inside_entries_iff.1 hInside⟩, es, ps, rfl, hAll, hMade⟩
  complete := by
    rintro before front rest _ c hBefore hTight ⟨es, ps, rfl, hAll, hMade⟩ -
    obtain ⟨inner, rfl, hInner⟩ := hTight
    have hCut : before ++ ('\x7b' :: (inner ++ ['\x7d']) ++ rest) =
        before ++ '\x7b' :: (inner ++ '\x7d' :: rest) := by simp
    rw [hCut]
    exact ⟨inner ++ '\x7d' :: rest, ps, readHead_map_iff.2 ⟨before, rfl, hBefore⟩,
      h.steps_entry.loop_iff.2 ⟨inner, es, rfl, inside_entries_iff.2 hInner, hAll⟩, hMade⟩

theorem ReadsAs.congr {accepts accepts' : List Char → β → List Char → Prop}
    {holds holds' : Value → β → Prop} (h : ReadsAs accepts holds)
    (hAccepts : ∀ {cs b rest}, accepts' cs b rest ↔ accepts cs b rest)
    (hHolds : ∀ {v b}, holds' v b ↔ holds v b) : ReadsAs accepts' holds' where
  sound := by
    intro cs rest b hAccept
    obtain ⟨before, front, v, hText, hBefore, hTight, hHold⟩ := h.sound (hAccepts.1 hAccept)
    exact ⟨before, front, v, hText, hBefore, hTight, hHolds.2 hHold⟩
  complete := by
    intro before front rest v b hBefore hTight hHold hRest
    exact hAccepts.2 (h.complete hBefore hTight (hHolds.1 hHold) hRest)

/-- A reader that accepts what either of two accepts. -/
theorem ReadsAs.or {accepts accepts' : List Char → β → List Char → Prop}
    {holds holds' : Value → β → Prop} (h : ReadsAs accepts holds) (h' : ReadsAs accepts' holds') :
    ReadsAs (fun cs b rest => accepts cs b rest ∨ accepts' cs b rest)
      fun v b => holds v b ∨ holds' v b where
  sound := by
    rintro cs rest b (hLeft | hRight)
    · obtain ⟨before, front, v, hText, hBefore, hTight, hHolds⟩ := h.sound hLeft
      exact ⟨before, front, v, hText, hBefore, hTight, .inl hHolds⟩
    · obtain ⟨before, front, v, hText, hBefore, hTight, hHolds⟩ := h'.sound hRight
      exact ⟨before, front, v, hText, hBefore, hTight, .inr hHolds⟩
  complete := by
    intro before front rest v b hBefore hTight hHolds hRest
    rcases hHolds with hLeft | hRight
    · exact .inl (h.complete hBefore hTight hLeft hRest)
    · exact .inr (h'.complete hBefore hTight hRight hRest)

/-- A whole text is accepted just if it is a written form of a value that holds something. -/
theorem ReadsAs.whole_iff (h : ReadsAs (Accepts read) holds) {cs : List Char} {b : β} :
    whole (read cs) = .ok b ↔ ∃ v, Spells cs (.value v) ∧ holds v b := by
  constructor
  · intro hWhole
    unfold whole at hWhole
    split at hWhole
    · cases hWhole
    · next c rest hRead =>
      split at hWhole
      · next hBlank =>
        cases hWhole
        obtain ⟨before, front, v, rfl, hBefore, hTight, hHolds⟩ := h.sound hRead
        have hAfter : AreBlank rest := areBlank_iff_skipBlanks.2 (List.isEmpty_iff.1 hBlank)
        exact ⟨v, spells_value_iff.2 ⟨before, front, rest, rfl, hBefore, hAfter, hTight⟩, hHolds⟩
      · cases hWhole
  · rintro ⟨v, hSpells, hHolds⟩
    obtain ⟨before, front, after, rfl, hBefore, hAfter, hTight⟩ := spells_value_iff.1 hSpells
    have hEnds : EndsNumber after := by
      have hNil := endsNumber_append hAfter endsNumber_nil
      rwa [List.append_nil] at hNil
    have hRead : read (before ++ (front ++ after)) = .ok (b, after) :=
      h.complete hBefore hTight hHolds hEnds
    rw [hRead]
    simp only [whole, areBlank_iff_skipBlanks.1 hAfter]
    rfl

end Readers

end RecordStore.Json
