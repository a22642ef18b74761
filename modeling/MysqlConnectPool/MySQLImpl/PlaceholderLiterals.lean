import MysqlConnectPool.MySQLImpl.PlaceholderLexing

/-! `execSqlInLoop` against the parameter markers of a prepared statement: the loop takes every
question mark of the template for a placeholder, the server only those in code. -/

namespace MysqlConnectPool.MySQLConnector

open Library.SqlLexer

/-- The template with the values at its parameter markers, which are the question marks that
the lexer reads as code. -/
def fillMarkers (executes : List UInt8 → Bool) : Mode → List UInt8 → List (List UInt8) → List UInt8
  | m, c :: template, v :: vs =>
    let (mark, next) := Library.SqlLexer.step executes m c template
    if c = questionMark ∧ mark.isCode then v ++ fillMarkers executes next template vs
    else c :: fillMarkers executes next template (v :: vs)
  | _, template, _ => template

def PlaceholdersInCode (executes : List UInt8 → Bool) (m : Mode) (n : Nat) (sql : List UInt8) :
    Prop :=
  ∀ i < sql.length, sql[i]? = some questionMark → (sql.take i).count questionMark < n →
    (marks executes m sql)[i]?.any Mark.isCode

instance (executes : List UInt8 → Bool) (m : Mode) (n : Nat) (sql : List UInt8) :
    Decidable (PlaceholdersInCode executes m n sql) := by
  unfold PlaceholdersInCode
  infer_instance

section Markers

variable {executes : List UInt8 → Bool} {m : Mode} {n : Nat} {c : UInt8} {rest v : List UInt8}
  {vs : List (List UInt8)}

@[simp] theorem fillMarkers_nil : fillMarkers executes m rest [] = rest := by
  cases rest <;> rfl

theorem fillMarkers_marker (h : (Library.SqlLexer.step executes m questionMark rest).1.isCode) :
    fillMarkers executes m (questionMark :: rest) (v :: vs) =
      v ++ fillMarkers executes (Library.SqlLexer.step executes m questionMark rest).2 rest vs := by
  simp only [fillMarkers, true_and]
  exact if_pos h

theorem fillMarkers_other
    (h : ¬(c = questionMark ∧ (Library.SqlLexer.step executes m c rest).1.isCode)) :
    fillMarkers executes m (c :: rest) vs =
      c :: fillMarkers executes (Library.SqlLexer.step executes m c rest).2 rest vs := by
  cases vs with
  | nil => simp
  | cons v vs =>
    simp only [fillMarkers]
    exact if_neg h

@[simp] theorem placeholdersInCode_nil : PlaceholdersInCode executes m n [] :=
  fun _ hi => by cases hi

@[simp] theorem placeholdersInCode_zero : PlaceholdersInCode executes m 0 rest :=
  fun _ _ _ hcount => absurd hcount (Nat.not_lt_zero _)

theorem placeholdersInCode_question :
    PlaceholdersInCode executes m (n + 1) (questionMark :: rest) ↔
      (Library.SqlLexer.step executes m questionMark rest).1.isCode ∧
        PlaceholdersInCode executes (Library.SqlLexer.step executes m questionMark rest).2 n rest := by
  rw [PlaceholdersInCode, List.length_cons, Nat.forall_lt_succ_left]
  simp [PlaceholdersInCode, marks]

theorem placeholdersInCode_other (hc : c ≠ questionMark) :
    PlaceholdersInCode executes m n (c :: rest) ↔
      PlaceholdersInCode executes (Library.SqlLexer.step executes m c rest).2 n rest := by
  rw [PlaceholdersInCode, List.length_cons, Nat.forall_lt_succ_left]
  simp [PlaceholdersInCode, marks, hc]

/-- Values that do not begin with a question mark show where they were put: the loop and a
prepared statement agree exactly when the placeholders that are filled are markers. -/
theorem fill_eq_fillMarkers_iff {sql : List UInt8}
    (hhead : ∀ v ∈ vs, v.head?.any (· ≠ questionMark))
    (hlength : vs.length = min n (sql.count questionMark)) :
    fill sql vs sql = fillMarkers executes m sql vs ↔ PlaceholdersInCode executes m n sql := by
  induction sql generalizing m n vs with
  | nil => simp [fillMarkers]
  | cons c rest ih =>
    by_cases hc : c = questionMark
    · subst hc
      rw [List.count_cons_self] at hlength
      cases n with
      | zero =>
        obtain rfl : vs = [] := by simpa using hlength
        simp
      | succ n =>
        cases vs with
        | nil => simp at hlength
        | cons v vs =>
          obtain ⟨hv, hvs⟩ := List.forall_mem_cons.mp hhead
          have hrest : vs.length = min n (rest.count questionMark) := by
            simpa [Nat.succ_min_succ] using hlength
          rw [fill_placeholder, placeholdersInCode_question]
          by_cases hmark : (Library.SqlLexer.step executes m questionMark rest).1.isCode
          · rw [fillMarkers_marker hmark, List.append_cancel_left_eq, ih hvs hrest]
            simp only [hmark, true_and]
          · -- the prepared statement keeps the question mark, with which no value begins
            rw [fillMarkers_other fun h => hmark h.2]
            refine iff_of_false (fun heq => ?_) fun h => hmark h.1
            cases v with
            | nil => simp at hv
            | cons d v =>
              obtain rfl : d = questionMark := (List.cons.inj heq).1
              simp at hv
    · rw [List.count_cons_of_ne hc] at hlength
      rw [fill_other hc, fillMarkers_other fun h => hc h.1, List.cons_inj_right, ih hhead hlength,
        placeholdersInCode_other hc]

end Markers

section Values

variable {mysql_real_escape_string : List UInt8 → List UInt8}

theorem head_to_string (n : Int) : (to_string n).head?.any (· ≠ questionMark) := by
  unfold to_string
  split
  · rfl
  · cases hd : (Nat.toDigits 10 n.natAbs).map (fun c => c.toNat.toUInt8) with
    | nil => exact absurd (List.map_eq_nil_iff.mp hd) Nat.toDigits_ne_nil
    | cons d ds =>
      have hdigit := isDigit_digits n.natAbs d (hd ▸ List.mem_cons_self ..)
      have hne : d ≠ questionMark := by
        rintro rfl
        exact absurd hdigit (by decide)
      simpa using hne

theorem HasValue.head {p : (Nat → UInt8) × Int × Int} {value : List UInt8}
    (h : HasValue mysql_real_escape_string p value) : value.head?.any (· ≠ questionMark) := by
  obtain ⟨parameter, length, format⟩ := p
  simp only [HasValue, appendParameter] at h
  cases hf : FieldType.ofInt format with
  | none => simp [hf] at h
  | some f =>
    rw [hf] at h
    cases f with
    | MySqlTiny | MySqlShort | MySqlLong | MySqlLongLong =>
      obtain rfl := Option.some.inj h
      exact head_to_string _
    | MySqlNull | DrogonDefaultValue =>
      obtain rfl := Option.some.inj h
      rfl
    | MySqlString =>
      dsimp only at h
      split at h
      · split at h
        · obtain rfl := Option.some.inj h
          rfl
        · cases h
      · cases h

end Values

/-- The vectors that the assertions let through, with the parameters that find a question mark
given values `vs`: the statement is the template with these at its first question marks, in a
literal or a comment as elsewhere.  It is what a prepared statement makes of them exactly when
these question marks are markers. -/
theorem every_question_mark_is_placeholder (executes : List UInt8 → Bool)
    (mysql_real_escape_string : List UInt8 → List UInt8) (sql : List UInt8) (paraNum : Nat)
    (v : ParameterVectors)
    (hassert : paraNum = v.parameters.length ∧ paraNum = v.length.length ∧
      paraNum = v.format.length ∧ sql ≠ [])
    (vs : List (List UInt8)) (hvs : List.Forall₂ (HasValue mysql_real_escape_string)
      (v.zipped.take (sql.count questionMark)) vs) :
    preparedSql mysql_real_escape_string sql paraNum v = some (fill sql vs sql) ∧
      (fill sql vs sql = fillMarkers executes (.code false) sql vs ↔
        PlaceholdersInCode executes (.code false) paraNum sql) := by
  refine ⟨preparedSql_eq_fill mysql_real_escape_string hassert hvs, ?_⟩
  have hhead : ∀ value ∈ vs, value.head?.any (· ≠ questionMark) :=
    ((List.forall₂_and_left vs _).mp (hvs.flip.imp fun _ _ h => ⟨HasValue.head h, h⟩)).1
  refine fill_eq_fillMarkers_iff hhead ?_
  obtain ⟨hparameters, hlength, hformat, _⟩ := hassert
  rw [← hvs.length_eq, List.length_take, Nat.min_comm, ParameterVectors.zipped, List.length_zip,
    List.length_zip, ← hparameters, ← hlength, ← hformat, Nat.min_self, Nat.min_self]

def seven : ParameterVectors where
  parameters := [fun _ => 7]
  length := [0]
  format := [0]

theorem every_question_mark_is_placeholder_literal :
    preparedSql (List.flatMap escapeByte) (ascii "a = ? AND b = '?'") 1 seven =
        some (ascii "a = 7 AND b = '?'") ∧
      ascii "a = 7 AND b = '?'" =
        fillMarkers (fun _ => true) (.code false) (ascii "a = ? AND b = '?'") [ascii "7"] := by
  have h := every_question_mark_is_placeholder (fun _ => true) (List.flatMap escapeByte)
    (ascii "a = ? AND b = '?'") 1 seven (by decide) [ascii "7"] (.cons (by decide : _ = _) .nil)
  exact ⟨h.1, h.2.mpr (by decide)⟩

/-- The question mark in the literal takes the parameter, and the marker stays. -/
theorem literal_takes_parameter :
    appendParameter (List.flatMap escapeByte) (fun _ => 7) 0 0 = some (ascii "7") ∧
      preparedSql (List.flatMap escapeByte) (ascii "a = '?' AND b = ?") 1 seven =
        some (ascii "a = '7' AND b = ?") ∧
      fillMarkers (fun _ => true) (.code false) (ascii "a = '?' AND b = ?") [ascii "7"] =
        ascii "a = '?' AND b = 7" :=
  ⟨by decide, by decide, by decide⟩

end MysqlConnectPool.MySQLConnector
