import Mathlib.Logic.Relation
import RecordStore.Sql.Grammar
import RecordStore.Sql.Reading

/-!
# Steps of a reader

A reader that succeeds has passed some tokens and numbered some placeholders. `Cursor.Passes` says
which ones lie between two cursors. What lies between two cursors can be cut anywhere
(`passes_append_iff`), which is how a reader that is put together of others is taken apart.

For each reader there are two facts about it. Where it succeeds, it has passed tokens that spell its
result; and it passes every spelling with its result, provided that what follows does not make it
read on. This module has them for the readers that take one token and for chains of items.

## Main results

- `passes_append_iff`: two things are passed if one is passed after the other.
- `take_run_iff`, `eat_true_iff`, `eat_false_iff`: what readers of one token do.
- `chained_run_iff`: a chain is a sequence of links, as many as there are.
- `list_reads`: a reader of lists reads what the grammar says, if the reader of its items does.
-/

namespace RecordStore.Sql

open Grammar (placeholder?)

/-! ## Numbered operands -/

/-- The placeholders among the operands have the numbers from `n` to before `k`, in this order. -/
inductive Numbered : List Operand → Nat → Nat → Prop
  | nil (n : Nat) : Numbered [] n n
  | placeholder {os : List Operand} {n k : Nat} :
    Numbered os (n + 1) k → Numbered (.placeholder n :: os) n k
  | other {o : Operand} {os : List Operand} {n k : Nat} :
    placeholder? o = none → Numbered os n k → Numbered (o :: os) n k

variable {n k : Nat} {os xs ys : List Operand}

theorem numbered_nil_iff : Numbered [] n k ↔ n = k := by
  constructor
  · intro h
    cases h
    rfl
  · rintro rfl
    exact .nil n

theorem numbered_append_iff :
    Numbered (xs ++ ys) n k ↔ ∃ m, Numbered xs n m ∧ Numbered ys m k := by
  constructor
  · intro h
    induction xs generalizing n with
    | nil => exact ⟨n, .nil n, h⟩
    | cons o xs ih =>
      cases h with
      | placeholder hRest =>
        obtain ⟨m, hLeft, hRight⟩ := ih hRest
        exact ⟨m, .placeholder hLeft, hRight⟩
      | other hNone hRest =>
        obtain ⟨m, hLeft, hRight⟩ := ih hRest
        exact ⟨m, .other hNone hLeft, hRight⟩
  · rintro ⟨m, hLeft, hRight⟩
    induction hLeft with
    | nil n => exact hRight
    | placeholder _ ih => exact .placeholder (ih hRight)
    | other hNone _ ih => exact .other hNone (ih hRight)

/-- Operands are numbered from `n` if their placeholders are the numbers that follow `n`. -/
theorem exists_numbered_iff :
    (∃ k, Numbered os n k) ↔
      os.filterMap placeholder? = List.range' n (os.filterMap placeholder?).length := by
  constructor
  · rintro ⟨k, h⟩
    induction h with
    | nil n => rfl
    | @placeholder os n k _ ih =>
      rw [List.filterMap_cons_some (show placeholder? (.placeholder n) = some n from rfl),
        List.length_cons, List.range'_succ, ← ih]
    | other hNone _ ih => rwa [List.filterMap_cons_none hNone]
  · intro h
    induction os generalizing n with
    | nil => exact ⟨n, .nil n⟩
    | cons o os ih =>
      cases hHead : placeholder? o with
      | none =>
        rw [List.filterMap_cons_none hHead] at h
        obtain ⟨k, hk⟩ := ih h
        exact ⟨k, .other hHead hk⟩
      | some i =>
        rw [List.filterMap_cons_some hHead, List.length_cons, List.range'_succ,
          List.cons.injEq] at h
        obtain ⟨k, hk⟩ := ih h.2
        cases o with
        | placeholder j =>
          obtain rfl : j = n := (Option.some.inj hHead).trans h.1
          exact ⟨k, .placeholder hk⟩
        | literal d => cases hHead
        | now => cases hHead

/-- Without placeholders nothing is numbered. -/
theorem numbered_of_placeholder_notMem (h : ∀ i, Operand.placeholder i ∉ os) (n : Nat) :
    Numbered os n n := by
  induction os with
  | nil => exact .nil n
  | cons o os ih =>
    have hRest : Numbered os n n := ih fun i hMem => h i (List.mem_cons_of_mem o hMem)
    cases o with
    | placeholder i => exact absurd List.mem_cons_self (h i)
    | literal d => exact .other rfl hRest
    | now => exact .other rfl hRest

/-! ## What lies between two cursors -/

namespace Cursor

/-- The token that is next. -/
def next? (c : Cursor) : Option Token := c.tokens.head?.map Placed.token

/-- Whether there is a next token and it satisfies `p`. -/
def nextIs (c : Cursor) (p : Token → Bool) : Bool := c.next?.any p

/-- From one cursor to another some tokens are passed, in which these operands are read. -/
structure Passes (c : Cursor) (us : List Token) (os : List Operand) (c' : Cursor) : Prop where
  tokens : ∃ ps, c.tokens = ps ++ c'.tokens ∧ ps.map Placed.token = us
  numbered : Numbered os c.placeholders c'.placeholders

variable {c c' c'' : Cursor} {t : Token} {us vs : List Token}

theorem passes_nil_iff : c.Passes [] [] c' ↔ c = c' := by
  obtain ⟨ts, n⟩ := c
  obtain ⟨ts', n'⟩ := c'
  constructor
  · rintro ⟨⟨ps, hTokens, hMap⟩, hNumbered⟩
    have hNil : ps = [] := List.map_eq_nil_iff.1 hMap
    have hCount : n = n' := numbered_nil_iff.1 hNumbered
    have hSame : ts = ts' := by rw [hNil] at hTokens; exact hTokens
    rw [hSame, hCount]
  · intro h
    cases h
    exact ⟨⟨[], rfl, rfl⟩, .nil n⟩

theorem passes_append_iff :
    c.Passes (us ++ vs) (xs ++ ys) c'' ↔ ∃ c', c.Passes us xs c' ∧ c'.Passes vs ys c'' := by
  constructor
  · rintro ⟨⟨ps, hTokens, hMap⟩, hNumbered⟩
    obtain ⟨left, right, rfl, hLeft, hRight⟩ := List.map_eq_append_iff.1 hMap
    obtain ⟨m, hBefore, hAfter⟩ := numbered_append_iff.1 hNumbered
    rw [List.append_assoc] at hTokens
    exact ⟨⟨right ++ c''.tokens, m⟩, ⟨⟨left, hTokens, hLeft⟩, hBefore⟩,
      ⟨⟨right, rfl, hRight⟩, hAfter⟩⟩
  · rintro ⟨c', ⟨⟨left, hTokens, hLeft⟩, hBefore⟩, ⟨⟨right, hTokens', hRight⟩, hAfter⟩⟩
    refine ⟨⟨left ++ right, ?_, ?_⟩, numbered_append_iff.2 ⟨_, hBefore, hAfter⟩⟩
    · rw [hTokens, hTokens', List.append_assoc]
    · rw [List.map_append, hLeft, hRight]

/-- The operands are in the second part. -/
theorem passes_append_right_iff :
    c.Passes (us ++ vs) os c'' ↔ ∃ c', c.Passes us [] c' ∧ c'.Passes vs os c'' :=
  @passes_append_iff [] os c c'' us vs

/-- The operands are in the first part. -/
theorem passes_append_left_iff :
    c.Passes (us ++ vs) os c'' ↔ ∃ c', c.Passes us os c' ∧ c'.Passes vs [] c'' := by
  rw [← passes_append_iff, List.append_nil]

theorem Passes.append (h : c.Passes us xs c') (h' : c'.Passes vs ys c'') :
    c.Passes (us ++ vs) (xs ++ ys) c'' :=
  passes_append_iff.2 ⟨c', h, h'⟩

theorem passes_cons_iff :
    c.Passes (t :: us) os c'' ↔ ∃ c', c.Passes [t] [] c' ∧ c'.Passes us os c'' :=
  @passes_append_right_iff _ c c'' [t] us

theorem Passes.cons (h : c.Passes [t] [] c') (h' : c'.Passes us os c'') :
    c.Passes (t :: us) os c'' :=
  passes_cons_iff.2 ⟨c', h, h'⟩

theorem Passes.length_eq (h : c.Passes us os c') :
    c.tokens.length = us.length + c'.tokens.length := by
  obtain ⟨ps, hTokens, hMap⟩ := h.tokens
  rw [hTokens, List.length_append, ← hMap, List.length_map]

theorem Passes.next? (h : c.Passes (t :: us) os c') : c.next? = some t := by
  obtain ⟨ps, hTokens, hMap⟩ := h.tokens
  obtain ⟨p, ps, rfl, hToken, -⟩ := List.map_eq_cons_iff.1 hMap
  rw [Cursor.next?, hTokens, ← hToken]
  rfl

theorem passes_singleton_iff :
    c.Passes [t] [] c' ↔ ∃ p, c = ⟨p :: c'.tokens, c'.placeholders⟩ ∧ p.token = t := by
  obtain ⟨ts, n⟩ := c
  constructor
  · rintro ⟨⟨ps, hTokens, hMap⟩, hNumbered⟩
    obtain ⟨p, rfl, hToken⟩ := List.map_eq_singleton_iff.1 hMap
    have hCount : n = c'.placeholders := numbered_nil_iff.1 hNumbered
    have hTokens : ts = p :: c'.tokens := hTokens
    exact ⟨p, by rw [hTokens, hCount], hToken⟩
  · rintro ⟨p, hCursor, rfl⟩
    cases hCursor
    exact ⟨⟨[p], rfl, rfl⟩, .nil _⟩

theorem numbered_other_iff {o : Operand} (h : placeholder? o = none) :
    Numbered [o] n k ↔ Numbered [] n k := by
  constructor
  · intro hNumbered
    cases hNumbered with
    | placeholder => cases h
    | other _ hRest => exact hRest
  · exact .other h

/-- Only a placeholder changes how many have been passed. -/
theorem passes_other_iff {o : Operand} (h : placeholder? o = none) :
    c.Passes us [o] c' ↔ c.Passes us [] c' := by
  constructor
  · intro hPass
    exact ⟨hPass.tokens, (numbered_other_iff h).1 hPass.numbered⟩
  · intro hPass
    exact ⟨hPass.tokens, (numbered_other_iff h).2 hPass.numbered⟩

/-- A placeholder is given the number of those in front of it. -/
theorem passes_placeholder_iff {i : Nat} :
    c.Passes [t] [.placeholder i] c' ↔
      i = c.placeholders ∧ c'.placeholders = i + 1 ∧
        c.Passes [t] [] { c' with placeholders := i } := by
  constructor
  · rintro ⟨hTokens, hNumbered⟩
    cases hNumbered with
    | placeholder hRest =>
      exact ⟨rfl, (numbered_nil_iff.1 hRest).symm, hTokens, .nil _⟩
    | other hNone => cases hNone
  · rintro ⟨rfl, hCount, hTokens, -⟩
    refine ⟨hTokens, .placeholder ?_⟩
    rw [hCount]
    exact .nil _

theorem nextIs_of_next? {p : Token → Bool} (h : c.next? = some t) : c.nextIs p = p t := by
  rw [nextIs, h]
  rfl

theorem nextIs_false : c.nextIs (fun _ => false) = false := by
  rw [nextIs]
  cases c.next? <;> rfl

theorem nextIs_or_iff {p q : Token → Bool} :
    c.nextIs (fun t => p t || q t) = false ↔ c.nextIs p = false ∧ c.nextIs q = false := by
  simp only [nextIs]
  cases c.next? <;> simp

end Cursor

namespace Reader

open Cursor
open Relation (ReflTransGen)

variable {α β : Type} {c c' c'' : Cursor} {t : Token} {a a' : α} {b : β}

/-! ## One after the other -/

theorem run_bind {r : Reader α} {f : α → Reader β} (h : r.run c = .ok (a, c')) :
    (r >>= f).run c = (f a).run c' := by
  rw [StateT.run_bind, h]
  rfl

theorem run_bind_eq_ok_iff {r : Reader α} {f : α → Reader β} :
    (r >>= f).run c = .ok (b, c'') ↔
      ∃ a c', r.run c = .ok (a, c') ∧ (f a).run c' = .ok (b, c'') := by
  constructor
  · intro h
    cases hFirst : r.run c with
    | error e =>
      rw [StateT.run_bind, hFirst] at h
      cases h
    | ok found =>
      obtain ⟨a, c'⟩ := found
      rw [run_bind hFirst] at h
      exact ⟨a, c', rfl, h⟩
  · rintro ⟨a, c', hFirst, hThen⟩
    rw [run_bind hFirst, hThen]

theorem run_pure_eq_ok_iff :
    (pure a : Reader α).run c = .ok (a', c') ↔ a = a' ∧ c = c' := by
  rw [StateT.run_pure]
  simp [pure, Except.pure]

theorem run_throw_ne_ok {e : ParseError} : (throw e : Reader α).run c ≠ .ok (a, c') := by
  intro h
  cases h

theorem get_run : (get : Reader Cursor).run c = .ok (c, c) := rfl

theorem peek_run : peek.run c = .ok (c.next?, c) := rfl

theorem skip_run_iff (h : c.next? = some t) : skip.run c = .ok ((), c') ↔ c.Passes [t] [] c' := by
  obtain ⟨ts, n⟩ := c
  cases ts with
  | nil => cases h
  | cons p ts =>
    obtain rfl : p.token = t := Option.some.inj h
    have hSkip : skip.run ⟨p :: ts, n⟩ = .ok ((), ⟨ts, n⟩) := rfl
    rw [hSkip, passes_singleton_iff]
    constructor
    · intro hRun
      cases hRun
      exact ⟨p, rfl, rfl⟩
    · rintro ⟨q, hCursor, -⟩
      cases hCursor
      rfl

/-! ## Single tokens -/

theorem take_run_iff {expected : Expectation} {accept : Token → Option α} :
    (take expected accept).run c = .ok (a, c') ↔
      ∃ t, accept t = some a ∧ c.Passes [t] [] c' := by
  obtain ⟨ts, n⟩ := c
  cases ts with
  | nil =>
    rw [take_nil]
    simp [passes_singleton_iff]
  | cons p ts =>
    rw [take_cons]
    cases hAccept : accept p.token with
    | none =>
      simp only [passes_singleton_iff, reduceCtorEq, false_iff]
      rintro ⟨_, hSome, _, hCursor, rfl⟩
      cases hCursor
      rw [hAccept] at hSome
      cases hSome
    | some found =>
      simp only [passes_singleton_iff]
      constructor
      · intro h
        cases h
        exact ⟨_, hAccept, p, rfl, rfl⟩
      · rintro ⟨_, hSome, _, hCursor, rfl⟩
        cases hCursor
        rw [hAccept] at hSome
        cases hSome
        rfl

theorem keyword_run_iff {word : String} :
    (keyword word).run c = .ok ((), c') ↔ ∃ t, t.isKeyword word = true ∧ c.Passes [t] [] c' := by
  rw [keyword, take_run_iff]
  simp

theorem symbol_run_iff : (symbol t).run c = .ok ((), c') ↔ c.Passes [t] [] c' := by
  rw [symbol, take_run_iff]
  simp

theorem name_run_iff {s : String} :
    name.run c = .ok (s, c') ↔ ∃ t, Grammar.IsName t s ∧ c.Passes [t] [] c' := by
  rw [name, take_run_iff]
  simp only [Grammar.isName_iff]

/-- A token that may be there is passed if it is. -/
theorem eat_true_iff {p : Token → Bool} :
    (eat p).run c = .ok (true, c') ↔ ∃ t, p t = true ∧ c.Passes [t] [] c' := by
  obtain ⟨ts, n⟩ := c
  cases ts with
  | nil =>
    rw [eat_nil]
    simp [passes_singleton_iff]
  | cons q ts =>
    rw [eat_cons]
    simp only [passes_singleton_iff]
    constructor
    · intro h
      split at h
      · next hAccept =>
        cases h
        exact ⟨_, hAccept, q, rfl, rfl⟩
      · cases h
    · rintro ⟨_, hAccept, _, hCursor, rfl⟩
      cases hCursor
      rw [if_pos hAccept]

/-- A token that may be there stays where it is if it is another. -/
theorem eat_false_iff {p : Token → Bool} :
    (eat p).run c = .ok (false, c') ↔ c.nextIs p = false ∧ c = c' := by
  obtain ⟨ts, n⟩ := c
  cases ts with
  | nil =>
    rw [eat_nil]
    simp [nextIs, next?]
  | cons q ts =>
    rw [eat_cons]
    cases hAccept : p q.token <;> simp [nextIs, next?, hAccept]

theorem eatToken_true_iff : (eatToken t).run c = .ok (true, c') ↔ c.Passes [t] [] c' := by
  rw [eatToken, eat_true_iff]
  simp

theorem eatToken_false_iff :
    (eatToken t).run c = .ok (false, c') ↔ c.nextIs (· == t) = false ∧ c = c' :=
  eat_false_iff

theorem eatKeyword_true_iff {word : String} :
    (eatKeyword word).run c = .ok (true, c') ↔
      ∃ t, t.isKeyword word = true ∧ c.Passes [t] [] c' :=
  eat_true_iff

theorem eatKeyword_false_iff {word : String} :
    (eatKeyword word).run c = .ok (false, c') ↔
      c.nextIs (Token.isKeyword word) = false ∧ c = c' :=
  eat_false_iff

/-! ## Chains -/

/-- Where at most `limit` tokens are left, a reader puts none back. -/
def Advances (limit : Nat) (r : Reader β) : Prop :=
  ∀ c b c', c.tokens.length ≤ limit → r.run c = .ok (b, c') →
    c'.tokens.length ≤ c.tokens.length

/-- One link of a chain: a separator and an item. -/
def Link (separator : Reader Bool) (item : Reader β) (join : α → β → α) (x y : α × Cursor) : Prop :=
  ∃ b c, separator.run x.2 = .ok (true, c) ∧ item.run c = .ok (b, y.2) ∧ y.1 = join x.1 b

variable {p : Token → Bool} {item : Reader β} {join : α → β → α} {limit fuel : Nat}

/-- A link takes at least its separator. -/
theorem length_of_link {x y : α × Cursor} (hItem : Advances limit item)
    (hLimit : x.2.tokens.length ≤ limit) (h : Link (eat p) item join x y) :
    y.2.tokens.length < x.2.tokens.length := by
  obtain ⟨b, c, hSeparator, hNext, -⟩ := h
  obtain ⟨t, -, hPass⟩ := eat_true_iff.1 hSeparator
  have hLength : x.2.tokens.length = 1 + c.tokens.length := hPass.length_eq
  have hBehind : y.2.tokens.length ≤ c.tokens.length := hItem c b y.2 (by omega) hNext
  omega

theorem links_of_chain_run (hItem : Advances limit item) (hLimit : c.tokens.length ≤ limit)
    (hFuel : c.tokens.length ≤ fuel)
    (h : (chain (eat p) item join fuel a).run c = .ok (a', c')) :
    ReflTransGen (Link (eat p) item join) (a, c) (a', c') ∧ c'.nextIs p = false := by
  induction fuel generalizing a c with
  | zero =>
    -- The fuel is used up with the tokens, so that nothing is next.
    obtain ⟨rfl, rfl⟩ := run_pure_eq_ok_iff.1 h
    have hEnd : c.tokens = [] := List.length_eq_zero_iff.1 (Nat.le_zero.1 hFuel)
    exact ⟨.refl, by rw [nextIs, next?, hEnd]; rfl⟩
  | succ fuel ih =>
    rw [chain] at h
    obtain ⟨announced, c₁, hSeparator, h⟩ := run_bind_eq_ok_iff.1 h
    cases announced with
    | false =>
      obtain ⟨hStop, rfl⟩ := eat_false_iff.1 hSeparator
      obtain ⟨rfl, rfl⟩ := run_pure_eq_ok_iff.1 h
      exact ⟨.refl, hStop⟩
    | true =>
      obtain ⟨b, c₂, hNext, h⟩ := run_bind_eq_ok_iff.1 h
      have hLink : Link (eat p) item join (a, c) (join a b, c₂) := ⟨b, c₁, hSeparator, hNext, rfl⟩
      have hShorter : c₂.tokens.length < c.tokens.length := length_of_link hItem hLimit hLink
      obtain ⟨hLinks, hStop⟩ := ih (by omega) (by omega) h
      exact ⟨.head hLink hLinks, hStop⟩

theorem chain_run_of_links (hItem : Advances limit item) (hLimit : c.tokens.length ≤ limit)
    (hFuel : c.tokens.length ≤ fuel)
    (hLinks : ReflTransGen (Link (eat p) item join) (a, c) (a', c'))
    (hStop : c'.nextIs p = false) :
    (chain (eat p) item join fuel a).run c = .ok (a', c') := by
  induction fuel generalizing a c with
  | zero =>
    rcases hLinks.cases_head with hSame | ⟨⟨a₁, c₂⟩, hLink, -⟩
    · cases hSame
      rfl
    · have hShorter : c₂.tokens.length < c.tokens.length := length_of_link hItem hLimit hLink
      omega
  | succ fuel ih =>
    rw [chain]
    rcases hLinks.cases_head with hSame | ⟨⟨a₁, c₂⟩, hLink, hMore⟩
    · cases hSame
      rw [run_bind (eat_false_iff.2 ⟨hStop, rfl⟩)]
      rfl
    · have hShorter : c₂.tokens.length < c.tokens.length := length_of_link hItem hLimit hLink
      have hRest : (chain (eat p) item join fuel a₁).run c₂ = .ok (a', c') :=
        ih (by omega) (by omega) hMore
      obtain ⟨b, c₁, hSeparator, hNext, hJoin⟩ := hLink
      have hJoined : a₁ = join a b := hJoin
      rw [run_bind hSeparator, if_pos rfl, run_bind hNext, ← hJoined, hRest]

/-- A chain consists of as many links as there are. -/
theorem chained_run_iff (hItem : Advances limit item) (hLimit : c.tokens.length ≤ limit) :
    (chained (eat p) item join a).run c = .ok (a', c') ↔
      ReflTransGen (Link (eat p) item join) (a, c) (a', c') ∧ c'.nextIs p = false := by
  rw [chained, run_bind get_run]
  constructor
  · exact links_of_chain_run hItem hLimit (Nat.le_refl _)
  · rintro ⟨hLinks, hStop⟩
    exact chain_run_of_links hItem hLimit (Nat.le_refl _) hLinks hStop

/-! ## Readers and spellings -/

/-- Where a reader succeeds it has passed a spelling of its result. -/
def Sound (r : Reader α) (spells : List Token → α → Prop) (operands : α → List Operand) : Prop :=
  ∀ ⦃c a c'⦄, r.run c = .ok (a, c') → ∃ us, spells us a ∧ c.Passes us (operands a) c'

/-- The same where at most `limit` tokens are left. -/
def SoundWithin (limit : Nat) (r : Reader α) (spells : List Token → α → Prop)
    (operands : α → List Operand) : Prop :=
  ∀ ⦃c a c'⦄, c.tokens.length ≤ limit → r.run c = .ok (a, c') →
    ∃ us, spells us a ∧ c.Passes us (operands a) c'

/-- A reader passes every spelling of a result, unless it goes on with the token that follows. -/
def Complete (r : Reader α) (spells : List Token → α → Prop) (operands : α → List Operand)
    (goesOn : Token → Bool) : Prop :=
  ∀ ⦃c a c' us⦄, spells us a → c.Passes us (operands a) c' → c'.nextIs goesOn = false →
    r.run c = .ok (a, c')

/-- A reader reads exactly what the grammar says. -/
structure Reads (r : Reader α) (spells : List Token → α → Prop) (operands : α → List Operand)
    (goesOn : Token → Bool) : Prop where
  sound : Sound r spells operands
  complete : Complete r spells operands goesOn

variable {spells : List Token → β → Prop} {operands : β → List Operand} {goesOn : Token → Bool}

theorem Sound.within (h : Sound item spells operands) (limit : Nat) :
    SoundWithin limit item spells operands :=
  fun _ _ _ _ hRun => h hRun

theorem SoundWithin.advances (h : SoundWithin limit item spells operands) :
    Advances limit item := by
  intro c b c' hLimit hRun
  obtain ⟨us, -, hPass⟩ := h hLimit hRun
  have hLength : c.tokens.length = us.length + c'.tokens.length := hPass.length_eq
  omega

/-- What has been passed grows with every link of a chain. -/
theorem passes_of_links (whole : List Token → α → Prop) (all : α → List Operand) {us : List Token}
    {start : Cursor} (hItem : SoundWithin limit item spells operands)
    (hLimit : start.tokens.length ≤ limit)
    (hWhole : ∀ {us a t vs b}, whole us a → p t = true → spells vs b →
      whole (us ++ t :: vs) (join a b))
    (hAll : ∀ a b, all (join a b) = all a ++ operands b)
    (hFirst : whole us a) (hPass : start.Passes us (all a) c)
    (hLinks : ReflTransGen (Link (eat p) item join) (a, c) (a', c')) :
    ∃ vs, whole vs a' ∧ start.Passes vs (all a') c' := by
  suffices h : ∀ y, ReflTransGen (Link (eat p) item join) (a, c) y →
      ∃ vs, whole vs y.1 ∧ start.Passes vs (all y.1) y.2 from h _ hLinks
  intro y hLinks
  -- From the front, so that the whole grows at its end.
  induction hLinks with
  | refl => exact ⟨us, hFirst, hPass⟩
  | @tail y z _ hLink ih =>
    obtain ⟨vs, hSpells, hBefore⟩ := ih
    obtain ⟨b, c₁, hSeparator, hNext, hJoin⟩ := hLink
    obtain ⟨t, hToken, hOne⟩ := eat_true_iff.1 hSeparator
    have hPassed : start.tokens.length = vs.length + y.2.tokens.length := hBefore.length_eq
    have hLength : y.2.tokens.length = 1 + c₁.tokens.length := hOne.length_eq
    obtain ⟨ws, hItemSpells, hAfter⟩ := hItem (by omega) hNext
    refine ⟨vs ++ t :: ws, ?_, ?_⟩
    · rw [hJoin]
      exact hWhole hSpells hToken hItemSpells
    · rw [hJoin, hAll]
      exact hBefore.append (hOne.cons hAfter)

/-! ## Lists -/

theorem spellsList_append {us vs : List Token} {as : List β} {b : β}
    (h : Grammar.SpellsList spells us as) (hLast : spells vs b) :
    Grammar.SpellsList spells (us ++ .comma :: vs) (as ++ [b]) := by
  induction h with
  | single hItem => exact .cons hItem (.single hLast)
  | cons hItem _ ih =>
    rw [List.append_assoc, List.cons_append]
    exact .cons hItem ih

theorem list_sound (hItem : Sound item spells operands) :
    Sound (list item) (Grammar.SpellsList spells) (·.flatMap operands) := by
  intro c as c' h
  rw [list] at h
  obtain ⟨first, c₁, hFirst, h⟩ := run_bind_eq_ok_iff.1 h
  obtain ⟨more, c₂, hMore, h⟩ := run_bind_eq_ok_iff.1 h
  obtain ⟨rfl, rfl⟩ := run_pure_eq_ok_iff.1 h
  obtain ⟨us, hSpells, hPass⟩ := hItem hFirst
  have hWithin := hItem.within c.tokens.length
  have hLength : c.tokens.length = us.length + c₁.tokens.length := hPass.length_eq
  obtain ⟨hLinks, -⟩ := (chained_run_iff hWithin.advances (by omega)).1 hMore
  refine passes_of_links (fun us items => Grammar.SpellsList spells us (first :: items))
    (fun items => (first :: items).flatMap operands) hWithin (Nat.le_refl _) ?_ ?_
    (.single hSpells) ?_ hLinks
  · intro us items t vs b hList hComma hLast
    obtain rfl : t = .comma := by simpa using hComma
    exact spellsList_append hList hLast
  · intro items b
    simp
  · simpa using hPass

/-- A list is an item and the links of the others. -/
theorem links_of_spellsList (hItem : Complete item spells operands goesOn)
    (hComma : goesOn .comma = false) {us : List Token} {as : List β}
    (h : Grammar.SpellsList spells us as) (hPass : c.Passes us (as.flatMap operands) c')
    (hStop : c'.nextIs goesOn = false) :
    ∃ first more c₁, as = first :: more ∧ item.run c = .ok (first, c₁) ∧
      ReflTransGen (Link (eatToken .comma) item fun items next => items ++ [next])
        ([], c₁) (more, c') := by
  induction h generalizing c with
  | single hSpells =>
    rw [List.flatMap_singleton] at hPass
    exact ⟨_, [], c', rfl, hItem hSpells hPass hStop, .refl⟩
  | cons hSpells _ ih =>
    rw [List.flatMap_cons] at hPass
    obtain ⟨c₁, hFirst, hPass⟩ := passes_append_iff.1 hPass
    obtain ⟨c₂, hOne, hPass⟩ := passes_cons_iff.1 hPass
    obtain ⟨next, more, c₃, rfl, hNext, hLinks⟩ := ih hPass
    have hFollows : c₁.nextIs goesOn = false := by rw [nextIs_of_next? hOne.next?, hComma]
    have hSeparator : (eatToken .comma).run c₁ = .ok (true, c₂) := eatToken_true_iff.2 hOne
    have hLink : Link (eatToken .comma) item (fun items next => items ++ [next])
        ([], c₁) ([next], c₃) := ⟨next, c₂, hSeparator, hNext, rfl⟩
    refine ⟨_, next :: more, c₁, rfl, hItem hSpells hFirst hFollows, .head hLink ?_⟩
    -- The other links have been found with no item in front of them.
    refine hLinks.lift (fun x => (next :: x.1, x.2)) ?_
    rintro x y ⟨b, c, hComma, hRun, hJoin⟩
    exact ⟨b, c, hComma, hRun, by simp [hJoin]⟩

theorem list_complete (hItem : Reads item spells operands goesOn)
    (hComma : goesOn .comma = false) :
    Complete (list item) (Grammar.SpellsList spells) (·.flatMap operands)
      (fun t => goesOn t || t == .comma) := by
  intro c as c' us hSpells hPass hStop
  obtain ⟨hItemStops, hListStops⟩ :
      c'.nextIs goesOn = false ∧ c'.nextIs (· == .comma) = false := nextIs_or_iff.1 hStop
  obtain ⟨first, more, c₁, rfl, hFirst, hLinks⟩ :=
    links_of_spellsList hItem.complete hComma hSpells hPass hItemStops
  have hMore : (chained (eatToken .comma) item (fun items next => items ++ [next]) []).run c₁ =
      .ok (more, c') :=
    (chained_run_iff (hItem.sound.within _).advances (Nat.le_refl _)).2 ⟨hLinks, hListStops⟩
  rw [list, run_bind hFirst, run_bind hMore]
  rfl

/-- Items with commas between them are read as a list of them. -/
theorem list_reads (hItem : Reads item spells operands goesOn) (hComma : goesOn .comma = false) :
    Reads (list item) (Grammar.SpellsList spells) (·.flatMap operands)
      (fun t => goesOn t || t == .comma) :=
  ⟨list_sound hItem.sound, list_complete hItem hComma⟩

end Reader

end RecordStore.Sql
