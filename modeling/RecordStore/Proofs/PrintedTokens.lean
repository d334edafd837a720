import RecordStore.Proofs.WrittenTokens

/-!
# Tokens of printed text

What a message prints is packed more closely than written tokens are: no blank stands beside a
parenthesis or the point of a qualified name, nor behind a sign. So it matters what follows a
spelling. `ReadsBefore` names it for each kind of token, and `Gives` is about one text that follows.

Only a blank, a closing parenthesis or the end of the text ever follow a part of a condition.
Characters that give their tokens in front of all these are printed parts (`Prints`), and longer ones
are put together from shorter ones.

## Main results

- `Gives.append`: tokens in front of others.
- `prints_name`, `prints_number`, `prints_text`: the parts that are one token each.
- `Prints.behind`, `Prints.append_blank`, `Prints.parentheses`: how printed parts are put together.
-/

namespace RecordStore.Sql

open Text (isBlank)

variable {c : Char} {cs ds rest spelling : List Char} {ends : List Char → Prop} {token : Token}
  {ts us : List Token} {s : String}

/-! ## Tokens in front of a rest -/

/-- Characters in front of a rest give these tokens, in front of those of the rest. -/
def Gives (cs : List Char) (ts : List Token) (rest : List Char) : Prop :=
  lexemes (cs ++ rest) = (lexemes rest).map (ts ++ ·)

theorem Gives.append (h : Gives cs ts (ds ++ rest)) (hNext : Gives ds us rest) :
    Gives (cs ++ ds) (ts ++ us) rest := by
  rw [Gives, List.append_assoc, h, hNext, Option.map_map]
  congr 1
  funext vs
  exact (List.append_assoc ts us vs).symm

theorem gives_blank (rest : List Char) : Gives [' '] [] rest := by
  have hBlank : isBlank ' ' = true := by decide
  rw [Gives, List.singleton_append, lexemes_blank hBlank]
  exact Option.map_id_apply.symm

/-- A token is the first one of a text that begins with its spelling, if what follows ends it. -/
theorem gives_of_readsBefore (h : ReadsBefore ends token spelling) (hRest : ends rest) :
    Gives spelling [token] rest := by
  obtain ⟨c, cs, rfl, hBlank, hReads⟩ := h
  obtain ⟨hComment, hCut⟩ := hReads 0 rest hRest
  exact lexemes_cut hBlank hComment hCut

/-- No other symbol goes on with a point or a parenthesis, so these stand in front of anything. -/
theorem gives_mark (h : (c, token) ∈ [('.', Token.dot), ('(', .leftParen), (')', .rightParen)])
    (rest : List Char) : Gives [c] [token] rest := by
  have hReads : ReadsBefore (fun _ => True) token [c] := by
    simp only [List.mem_cons, List.not_mem_nil, or_false, Prod.mk.injEq] at h
    rcases h with ⟨rfl, rfl⟩ | ⟨rfl, rfl⟩ | ⟨rfl, rfl⟩ <;>
      exact ⟨_, [], rfl, rfl, fun _ _ _ => ⟨rfl, rfl⟩⟩
  exact gives_of_readsBefore hReads trivial

/-- A hyphen is a sign unless a second one makes it a comment. -/
theorem gives_minus (hRest : rest.head? ≠ some '-') : Gives ['-'] [.minus] rest := by
  have hReads : ReadsBefore (·.head? ≠ some '-') .minus ['-'] :=
    ⟨'-', [], rfl, rfl, fun offset rest hRest => ⟨by simpa [startsComment] using hRest, rfl⟩⟩
  exact gives_of_readsBefore hReads hRest

/-! ## Printed parts -/

/-- What may follow a printed part: nothing, a blank or a closing parenthesis. -/
def IsClosed (rest : List Char) : Prop := ∀ c ∈ rest.head?, c = ' ' ∨ c = ')'

theorem isClosed_nil : IsClosed [] := by simp [IsClosed]

theorem isClosed_blank (rest : List Char) : IsClosed (' ' :: rest) := by simp [IsClosed]

theorem isClosed_paren (rest : List Char) : IsClosed (')' :: rest) := by simp [IsClosed]

theorem IsClosed.endsRun {continues : Char → Bool} (h : IsClosed rest)
    (hBlank : continues ' ' = false) (hParen : continues ')' = false) :
    EndsRun continues rest := by
  intro c hc
  rcases h c hc with rfl | rfl
  · exact hBlank
  · exact hParen

/-- Characters give these tokens in front of everything that may follow a printed part. -/
def Prints (cs : List Char) (ts : List Token) : Prop := ∀ rest, IsClosed rest → Gives cs ts rest

theorem prints_name (h : (Token.name s).isProper = true) : Prints s.toList [.name s] :=
  fun _ hRest => gives_of_readsBefore (readsBefore_name h) (hRest.endsRun (by decide) (by decide))

theorem prints_number (h : (Token.number s).isProper = true) : Prints s.toList [.number s] :=
  fun _ hRest => gives_of_readsBefore (readsBefore_number h) (hRest.endsRun (by decide) (by decide))

theorem prints_text (s : String) : Prints (enclosed '\'' s) [.text s] := by
  intro rest hRest
  have hQuote : isQuoteMark '\'' = true := by decide
  refine gives_of_readsBefore (readsBefore_quote hQuote s) fun hHead => ?_
  rcases hRest _ hHead with hBlank | hParen
  · exact absurd hBlank (by decide)
  · exact absurd hParen (by decide)

/-- Tokens that are given in front of a printed part make a longer one. -/
theorem Prints.behind (hNext : Prints ds us) (h : ∀ rest, Gives cs ts (ds ++ rest)) :
    Prints (cs ++ ds) (ts ++ us) :=
  fun rest hRest => (h rest).append (hNext rest hRest)

/-- Printed parts with a blank between them. -/
theorem Prints.append_blank (hLeft : Prints cs ts) (hRight : Prints ds us) :
    Prints (cs ++ ' ' :: ds) (ts ++ us) :=
  (hRight.behind fun rest => gives_blank (ds ++ rest)).behind fun _ => hLeft _ (isClosed_blank _)

/-- A token that a blank ends in front of a printed part. -/
theorem Prints.cons_blank (hRight : Prints ds us) (h : ReadsBack token spelling) :
    Prints (spelling ++ ' ' :: ds) (token :: us) :=
  (hRight.behind fun rest => gives_blank (ds ++ rest)).behind fun _ =>
    gives_of_readsBefore h (by simp [IsSeparated])

/-- A printed part in parentheses. -/
theorem Prints.parentheses (h : Prints cs ts) :
    Prints ('(' :: (cs ++ [')'])) (.leftParen :: (ts ++ [.rightParen])) := by
  intro rest _
  have hRight : Gives [')'] [.rightParen] rest := gives_mark (by simp) rest
  have hInner : Gives (cs ++ [')']) (ts ++ [.rightParen]) rest :=
    (h _ (isClosed_paren rest)).append hRight
  exact (gives_mark (by simp) _).append hInner

/-- The tokens of a text that is a printed part as a whole. -/
theorem Prints.lexemes_eq (h : Prints cs ts) : lexemes cs = some ts := by
  have hWhole : lexemes (cs ++ []) = (lexemes []).map (ts ++ ·) := h [] isClosed_nil
  simpa [lexemes_nil] using hWhole

end RecordStore.Sql
