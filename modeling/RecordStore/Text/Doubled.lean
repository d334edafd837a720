/-!
# Quotes written twice

Inside quotes a quote is written twice and everything else once, so a text ends at the first quote
that is not followed by another.

## Main results

- `undoubled?_doubled`: what was doubled and closed is read back.
- `eq_of_undoubled?`: what is read is the doubled form, a closing quote and the rest.
-/

namespace RecordStore.Text

/-- A text with every quote written twice. -/
def doubled (quote : Char) : List Char → List Char
  | [] => []
  | c :: cs => if c = quote then c :: c :: doubled quote cs else c :: doubled quote cs

/-- The text up to the closing quote, and what follows the quote; none if there is none. -/
def undoubled? (quote : Char) : List Char → Option (List Char × List Char)
  | [] => none
  | [c] => if c = quote then some ([], []) else none
  | c :: d :: cs =>
    if c = quote then
      if d = quote then (undoubled? quote cs).map fun (text, rest) => (quote :: text, rest)
      else some ([], d :: cs)
    else (undoubled? quote (d :: cs)).map fun (text, rest) => (c :: text, rest)

theorem undoubled?_doubled {quote : Char} (text : List Char) {rest : List Char}
    (hRest : rest.head? ≠ some quote) :
    undoubled? quote (doubled quote text ++ quote :: rest) = some (text, rest) := by
  induction text with
  | nil =>
    cases rest with
    | nil => simp [doubled, undoubled?]
    | cons d rest =>
      have hNe : d ≠ quote := fun h => hRest (by simp [h])
      simp [doubled, undoubled?, hNe]
  | cons c text ih =>
    by_cases h : c = quote
    · subst h
      simp [doubled, undoubled?, ih]
    · have hCons : ∃ d tail, doubled quote text ++ quote :: rest = d :: tail := by
        cases hText : doubled quote text ++ quote :: rest with
        | nil => simp at hText
        | cons d tail => exact ⟨d, tail, rfl⟩
      obtain ⟨d, tail, hTail⟩ := hCons
      simp only [doubled, h, if_false, List.cons_append]
      rw [hTail] at ih ⊢
      simp [undoubled?, h, ih]

theorem eq_of_undoubled? {quote : Char} (cs : List Char) :
    ∀ {text rest : List Char}, undoubled? quote cs = some (text, rest) →
      cs = doubled quote text ++ quote :: rest ∧ rest.head? ≠ some quote := by
  fun_induction undoubled? quote cs with
  | case1 => intro text rest h; cases h
  | case2 => intro text rest h; cases h; simp [doubled]
  | case3 => intro text rest h; cases h
  | case4 cs ih =>
    intro text rest h
    obtain ⟨⟨text', rest'⟩, hTail, hEq⟩ := Option.map_eq_some_iff.1 h
    cases hEq
    obtain ⟨hCs, hRest⟩ := ih hTail
    exact ⟨by simp [doubled, ← hCs], hRest⟩
  | case5 d cs hNe =>
    intro text rest h
    cases h
    exact ⟨by simp [doubled], by simpa using hNe⟩
  | case6 c d cs hNe ih =>
    intro text rest h
    obtain ⟨⟨text', rest'⟩, hTail, hEq⟩ := Option.map_eq_some_iff.1 h
    cases hEq
    obtain ⟨hCs, hRest⟩ := ih hTail
    exact ⟨by simp [doubled, hNe, ← hCs], hRest⟩

theorem undoubled?_length {quote : Char} {cs text rest : List Char}
    (h : undoubled? quote cs = some (text, rest)) : rest.length < cs.length := by
  rw [(eq_of_undoubled? cs h).1, List.length_append, List.length_cons]
  omega

end RecordStore.Text
