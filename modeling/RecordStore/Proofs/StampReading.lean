import RecordStore.Proofs.SameRows
import RecordStore.Proofs.StampFields

/-!
# Reading written moments back

What is read of a written moment of a year 0 to 9999 is the moment to the millisecond, in UTC: each
part is read off the front as the number that it spells, the date is one of the calendar, and putting
days, seconds and milliseconds together again undoes taking them apart.

So a field that holds a written moment stands to the current time as the moment to the millisecond
does. The current time has parts below the millisecond, and what is read is never later than what was
written, so nothing is taken for live once its time has come; it may be taken for expired less than a
millisecond early.

## Main results

- `read?_stamp`: a written moment is read as itself to the millisecond.
- `Row.StampedAt.passes_iff`: when a written moment passes a test of time.
- `stamp_read_back`: reading back, comparing with the current time, and sessions that are live.
-/

namespace RecordStore

/-! ## Blanks -/

theorem Text.isBlank_of_isDigit {c : Char} (h : c.isDigit = true) : isBlank c = false := by
  cases hBlank : isBlank c with
  | false => rfl
  | true =>
    have hNot := not_isAlphanumeric_of_isBlank hBlank
    have hAscii : c.toNat < 0x80 := Nat.lt_trans (Decimal.digit_bounds h).2 (by decide)
    rw [isAlphanumeric, isNumeric, if_pos hAscii, h, Bool.or_true] at hNot
    cases hNot

theorem Text.dropWhile_isBlank {cs : List Char} (h : ∀ c ∈ cs.head?, isBlank c = false) :
    cs.dropWhile isBlank = cs := by
  cases cs with
  | nil => rfl
  | cons c cs => rw [List.dropWhile_cons_of_neg (by simp [h c rfl])]

/-- A text without blanks at its ends is not trimmed. -/
theorem Text.trim_eq_self {cs : List Char} (hFirst : ∀ c ∈ cs.head?, isBlank c = false)
    (hLast : ∀ c ∈ cs.getLast?, isBlank c = false) : trim cs = cs := by
  have hReversed : ∀ c ∈ cs.reverse.head?, isBlank c = false := by
    rw [List.head?_reverse]
    exact hLast
  rw [trim, dropWhile_isBlank hFirst, dropWhile_isBlank hReversed, List.reverse_reverse]

namespace Moment

/-! ## Reading numbers -/

/-- Digits are read as the number that they make. -/
theorem fixedDigits?_append (ds : List Char) (hDigits : ∀ d ∈ ds, d.isDigit = true) (acc : Nat)
    (rest : List Char) :
    fixedDigits? ds.length acc (ds ++ rest) = some (Nat.ofDigitChars 10 ds acc, rest) := by
  induction ds generalizing acc with
  | nil => rfl
  | cons d ds ih =>
    obtain ⟨hDigit, hRest⟩ := List.forall_mem_cons.1 hDigits
    rw [List.length_cons, List.cons_append, fixedDigits?, if_pos hDigit, ih hRest,
      ← Nat.ofDigitChars_append]
    rfl

theorem Spells.fixedDigits? {width n : Nat} {cs : List Char} (h : Spells width n cs)
    (rest : List Char) : fixedDigits? width 0 (cs ++ rest) = some (n, rest) := by
  rw [← h.length_eq, fixedDigits?_append cs h.digits, h.value]

theorem Spells.twoDigitsAfter? {n : Nat} {cs : List Char} (h : Spells 2 n cs) (c : Char)
    (rest : List Char) : twoDigitsAfter? c (c :: (cs ++ rest)) = some (n, rest) := by
  rw [Moment.twoDigitsAfter?, literal?, if_pos rfl]
  exact h.fixedDigits? rest

theorem Spells.readFraction? {n : Nat} {c : Char} {cs : List Char} (h : Spells 3 n cs)
    (hStop : ¬ c.isDigit = true) (rest : List Char) :
    readFraction? ('.' :: (cs ++ c :: rest)) = some (n * 1000000, c :: rest) := by
  have hTake : (cs ++ c :: rest).takeWhile Char.isDigit = cs := by
    rw [List.takeWhile_append_of_pos h.digits, List.takeWhile_cons_of_neg hStop, List.append_nil]
  have hDrop : (cs ++ c :: rest).dropWhile Char.isDigit = c :: rest := by
    rw [List.dropWhile_append_of_pos h.digits, List.dropWhile_cons_of_neg hStop]
  have hSome : cs.isEmpty = false := by
    rw [List.isEmpty_eq_false_iff, ← List.length_pos_iff, h.length_eq]
    decide
  have hFraction : fractionNanoseconds cs = n * 1000000 := by
    have hLength := h.length_eq
    rw [fractionNanoseconds, List.take_of_length_le (by omega), h.value, hLength]
    rfl
  simp only [Moment.readFraction?, hTake, hDrop, hSome, hFraction, Bool.false_eq_true, if_false]

theorem readDate?_padded {date : Date} (hValid : date.IsValid)
    (hMonth : Spells 2 date.month (padded 2 date.month))
    (hDay : Spells 2 date.day (padded 2 date.day)) (rest : List Char) :
    readDate? date.year ('-' :: (padded 2 date.month ++ '-' :: (padded 2 date.day ++ rest))) =
      some (date, rest) := by
  rw [readDate?, hMonth.twoDigitsAfter?]
  simp only [bind, Option.bind, hDay.twoDigitsAfter?, hValid.ofParts?]
  rfl

/-! ## Reading moments -/

theorem secondOfDay?_of_lt {t : Nat} (h : t < 86400) :
    secondOfDay? (t / 3600) (t / 60 % 60) (t % 60) = some t := by
  rw [secondOfDay?, if_pos (by omega)]
  congr 1
  omega

theorem ofLocal_date (m : Moment) :
    ofLocal m.date m.timeOfDay (m.millisecondOfSecond * 1000000) 0 = m.toMillisecond := by
  have hSecond := m.millisecond_div
  have hMillisecond : m.nanoseconds / nanosecondsPerMillisecond = m.millisecond := rfl
  rw [ofLocal, toMillisecond, hMillisecond, date, Date.dayNumber_ofDayNumber, Moment.mk.injEq]
  refine ⟨?_, rfl⟩
  simp only [timeOfDay, millisecondOfSecond, secondsPerDay, nanosecondsPerSecond,
    nanosecondsPerMillisecond]
  omega

variable {m : Moment}

theorem readInternet?_stampChars (h : m.HasFourDigitYear) :
    readInternet? m.stampChars = some m.toMillisecond := by
  have hParts := h.spelledParts
  have hValid : m.date.IsValid := Date.isValid_ofDayNumber _
  have hYear : (m.date.year.toNat : Int) = m.date.year := Int.toNat_of_nonneg h.1
  have hDate := readDate?_padded hValid hParts.month hParts.day
  have hSize : ¬ 'T'.utf8Size ≠ 1 := by decide
  have hNotLeap : ¬ m.timeOfDay % 60 = 60 := by omega
  have hFraction := hParts.millisecond.readFraction? (by decide : ¬ 'Z'.isDigit = true) []
  rw [stampChars_eq h, readInternet?, hParts.year.fixedDigits?]
  simp only [bind, Option.bind, hYear, hDate, List.head?_cons, if_neg hSize, List.drop_succ_cons,
    List.drop_zero, hParts.hour.fixedDigits?, hParts.minute.twoDigitsAfter?,
    hParts.second.twoDigitsAfter?, hFraction, if_neg hNotLeap, secondOfDay?_of_lt m.timeOfDay_lt]
  -- What is left over after the fraction is the letter for UTC.
  show some (ofLocal m.date m.timeOfDay (m.millisecondOfSecond * 1000000) 0) = _
  rw [ofLocal_date]

/-- A written moment starts with a digit and ends with a letter. -/
theorem trim_stampChars (h : m.HasFourDigitYear) : Text.trim m.stampChars = m.stampChars := by
  refine Text.trim_eq_self (fun c hc => ?_) fun c hc => ?_
  · have hYear := h.spelledParts.year
    have hSome : padded 4 m.date.year.toNat ≠ [] := by
      rw [← List.length_pos_iff, hYear.length_eq]
      decide
    rw [stampChars_eq h, List.head?_append, Option.or_of_isSome (List.isSome_head?.2 hSome)] at hc
    exact Text.isBlank_of_isDigit (hYear.digits c (List.mem_of_mem_head? hc))
  · obtain ⟨front, hFront⟩ : ∃ front, m.stampChars = front ++ ['Z'] := ⟨_, rfl⟩
    rw [hFront, List.getLast?_concat] at hc
    cases hc
    decide

/-- A written moment is read as itself to the millisecond, in UTC. -/
theorem read?_stamp (h : m.HasFourDigitYear) : read? m.stamp = some m.toMillisecond := by
  rw [read?, stamp, String.toList_ofList, trim_stampChars h, readChars?, readInternet?_stampChars h,
    Option.some_or]

end Moment

/-! ## Written moments beside the current time -/

namespace Plan

/-- The relation of two points in time, in nanoseconds. -/
def TimeRelation.Relates : TimeRelation → Int → Int → Prop
  | before, x, now => x < now
  | atOrBefore, x, now => x ≤ now
  | after, x, now => now < x
  | atOrAfter, x, now => now ≤ x

theorem TimeRelation.holds_iff {relation : TimeRelation} {m clock : Moment} :
    relation.holds m clock = true ↔ relation.Relates m.nanoseconds clock.nanoseconds := by
  cases relation <;> exact decide_eq_true_iff

end Plan

open Plan (Field Scope TimeRelation Predicate Selection)

/-- A field with a written moment passes as the moment does to the millisecond. -/
theorem Row.StampedAt.passes_iff {row : Row} {field : Field} {t : Moment}
    (h : row.StampedAt field t) (relation : TimeRelation) (clock : Moment) :
    (Test.time field relation clock).passes row = true ↔
      relation.Relates t.toMillisecond.nanoseconds clock.nanoseconds := by
  have hMoment : row.moment? field = some t.toMillisecond := by
    rw [Row.moment?, h.2, Option.bind_some, Datum.asText?, Option.bind_some, Moment.read?_stamp h.1]
  rw [Test.passes, hMoment, Option.any_some, TimeRelation.holds_iff]

theorem Plan.ofCondition_time (dialect : Dialect) {scope : Scope} {column : Sql.Column}
    {field : Field} (h : scope.resolve column = .ok field) (relation : TimeRelation) :
    Predicate.ofCondition dialect scope
      (some (.compare ⟨column, relation.comparator, .now⟩)) =
        .ok (.conjunction [.time field relation]) := by
  have hClauses : clauses? scope (.compare ⟨column, relation.comparator, .now⟩) =
      .ok [.time field relation] := by
    rw [clauses?, ofComparison_time h]
    rfl
  simp only [Predicate.ofCondition, hClauses]

/-- The query for the sessions that have not expired. -/
def Plan.Selection.liveSessions : Selection :=
  ⟨.sessions, none, .conjunction [.time ⟨.base, "expires_at"⟩ .after], [.everything], none, none⟩

theorem Plan.ofText_liveSessions :
    Plan.ofText .strict "SELECT * FROM sessions WHERE expires_at > datetime('now')" =
      .ok ⟨.select .liveSessions, 0⟩ :=
  ok_of_toOption (by decide +kernel)

theorem Plan.evaluate_liveSessions (now : Moment) (db : Database) :
    ∃ outcome, (Plan.mk (.select .liveSessions) 0).evaluate [] now db = (.ok outcome, db) ∧
      outcome.rows = (db.records .sessions).filter fun r =>
        (Test.time ⟨.base, "expires_at"⟩ .after now).passes (.single r) := by
  let m : Matcher := .all [.time ⟨.base, "expires_at"⟩ .after now]
  have hCommand : (Plan.mk (.select .liveSessions) 0).command [] now =
      .ok (.select .liveSessions m) := rfl
  refine ⟨_, evaluate_of_command hCommand db, ?_⟩
  refine (Selection.result_wholeRecords .sessions _ m db).trans (List.filter_congr fun r _ => ?_)
  rw [Matcher.acceptsRecord, Matcher.accepts_all_cons, Matcher.accepts_all_nil, Bool.and_true]

theorem Moment.toMillisecond_bounds (t : Moment) :
    t.toMillisecond.nanoseconds ≤ t.nanoseconds ∧
      t.nanoseconds < t.toMillisecond.nanoseconds + nanosecondsPerMillisecond := by
  simp only [toMillisecond, nanosecondsPerMillisecond]
  omega

/-- A written moment of a year 0 to 9999 is read as itself to the millisecond, in UTC. A comparison of
its field with the current time is true if this is so of the moment to the millisecond. So a session
is not live once its time has come, and live until a millisecond before. -/
theorem stamp_read_back {t : Moment} (ht : t.HasFourDigitYear) :
    Moment.read? t.stamp = some t.toMillisecond ∧
      (∀ (dialect : Dialect) (scope : Scope) (column : Sql.Column) (field : Field)
          (relation : TimeRelation), scope.resolve column = .ok field →
        ∃ predicate, Predicate.ofCondition dialect scope
            (some (.compare ⟨column, relation.comparator, .now⟩)) = .ok predicate ∧
          ∀ parameters now fallback,
            ∃ m, Matcher.ofPredicate parameters now fallback predicate = .ok m ∧
              ∀ row : Row, row.field field = some (.text t.stamp) →
                (m.accepts row = true ↔
                  relation.Relates t.toMillisecond.nanoseconds now.nanoseconds)) ∧
      Plan.ofText .strict "SELECT * FROM sessions WHERE expires_at > datetime('now')" =
        .ok ⟨.select .liveSessions, 0⟩ ∧
      ∀ now db, ∃ outcome,
        (Plan.mk (.select .liveSessions) 0).evaluate [] now db = (.ok outcome, db) ∧
        ∀ r ∈ db.records .sessions, r.get? "expires_at" = some (.text t.stamp) →
          (t.nanoseconds ≤ now.nanoseconds → r ∉ outcome.rows) ∧
          (now.nanoseconds + Moment.nanosecondsPerMillisecond ≤ t.nanoseconds →
            r ∈ outcome.rows) := by
  refine ⟨Moment.read?_stamp ht, fun dialect scope column field relation hField => ?_,
    Plan.ofText_liveSessions, fun now db => ?_⟩
  · refine ⟨_, Plan.ofCondition_time dialect hField relation, fun parameters now fallback => ?_⟩
    refine ⟨.all [.time field relation now], rfl, fun row hRow => ?_⟩
    have hStamped : row.StampedAt field t := ⟨ht, hRow⟩
    rw [Matcher.accepts_all_cons, Matcher.accepts_all_nil, Bool.and_true, hStamped.passes_iff]
  · obtain ⟨outcome, hOutcome, hRows⟩ := Plan.evaluate_liveSessions now db
    refine ⟨outcome, hOutcome, fun r hMem hField => ?_⟩
    have hStamped : (Row.single r).StampedAt ⟨.base, "expires_at"⟩ t := ⟨ht, hField⟩
    have hLive : r ∈ outcome.rows ↔ now.nanoseconds < t.toMillisecond.nanoseconds := by
      rw [hRows, List.mem_filter, hStamped.passes_iff]
      exact and_iff_right hMem
    have hBounds := t.toMillisecond_bounds
    rw [hLive]
    omega

/-- A session that ends with the last nanosecond before 1970, as written in another time zone. -/
theorem stamp_read_back_session :
    let t : Moment := ⟨-1, 7200⟩
    let session := Record.ofList [("expires_at", .text t.stamp)]
    let db := Database.empty.withRecords .sessions [session]
    let query : Plan := ⟨.select .liveSessions, 0⟩
    t.HasFourDigitYear ∧ t.stamp = "1969-12-31T23:59:59.999Z" ∧
      Moment.read? t.stamp = some ⟨-1000000, 0⟩ ∧
      ∃ early late, query.evaluate [] ⟨-1000001, 0⟩ db = (.ok early, db) ∧
        query.evaluate [] ⟨-1, -3600⟩ db = (.ok late, db) ∧
        session ∈ early.rows ∧ session ∉ late.rows := by
  intro t session db query
  have ht : t.HasFourDigitYear := by decide +kernel
  obtain ⟨hRead, -, -, hSessions⟩ := stamp_read_back ht
  obtain ⟨early, hEarly, hLive⟩ := hSessions ⟨-1000001, 0⟩ db
  obtain ⟨late, hLate, hExpired⟩ := hSessions ⟨-1, -3600⟩ db
  have hMem : session ∈ db.records .sessions := List.mem_singleton_self _
  have hField : session.get? "expires_at" = some (.text t.stamp) := by decide +kernel
  exact ⟨ht, by decide +kernel, hRead, early, late, hEarly, hLate,
    (hLive session hMem hField).2 (by decide), (hExpired session hMem hField).1 (by decide)⟩

end RecordStore
