import Mathlib.Data.List.Forall2
import MysqlConnectPool.MySQLImpl.Placeholder
import MysqlConnectPool.Library.SqlLexer

/-! What a MySQL lexer sees in the statement that `execSqlInLoop` builds. -/

universe u

namespace MysqlConnectPool.MySQLConnector

open Library.SqlLexer

def fill {α : Type u} : List UInt8 → List (List α) → List α → List α
  | c :: template, w :: ws, x :: xs =>
    if c = questionMark then w ++ fill template ws xs else x :: fill template (w :: ws) xs
  | _, _, xs => xs

section Fill

variable {α : Type u} {template : List UInt8} {xs : List α} {ws : List (List α)} {w : List α} {x : α}

@[simp] theorem fill_nil_left : fill [] ws xs = xs := by cases ws <;> rfl

@[simp] theorem fill_nil : fill template [] xs = xs := by cases template <;> rfl

@[simp] theorem fill_placeholder :
    fill (questionMark :: template) (w :: ws) (x :: xs) = w ++ fill template ws xs := rfl

theorem fill_other {c : UInt8} (h : c ≠ questionMark) :
    fill (c :: template) ws (x :: xs) = x :: fill template ws xs := by
  cases ws with
  | nil => simp
  | cons w ws => simp [fill, h]

theorem fill_eq_self {t : List UInt8} (ws : List (List UInt8))
    (h : t.findIdx? (· = questionMark) = none) : fill t ws t = t := by
  induction t with
  | nil => simp
  | cons c t ih =>
    simp only [List.findIdx?_eq_none_iff, List.mem_cons, forall_eq_or_imp,
      decide_eq_false_iff_not] at h ih
    rw [fill_other h.1, ih h.2]

theorem count_findIdx {t : List UInt8} {k : Nat} (h : t.findIdx? (· = questionMark) = some k) :
    t.count questionMark = (t.drop (k + 1)).count questionMark + 1 := by
  induction t generalizing k with
  | nil => cases h
  | cons c t ih =>
    rw [List.findIdx?_cons] at h
    by_cases hc : c = questionMark
    · obtain rfl : 0 = k := by simpa [hc] using h
      simp [hc]
    · rw [if_neg (by simpa using hc)] at h
      obtain ⟨j, hj, rfl⟩ := Option.map_eq_some_iff.mp h
      rw [List.count_cons_of_ne hc, ih hj, List.drop_succ_cons]

theorem fill_take :
    fill template (ws.take (template.count questionMark)) xs = fill template ws xs := by
  induction template generalizing ws xs with
  | nil => simp
  | cons c template ih =>
    cases xs with
    | nil => cases ws <;> simp [fill]
    | cons x xs =>
      by_cases hc : c = questionMark
      · subst hc
        cases ws with
        | nil => simp
        | cons w ws =>
          rw [List.count_cons_self, List.take_succ_cons, fill_placeholder, fill_placeholder, ih]
      · rw [List.count_cons_of_ne hc, fill_other hc, fill_other hc, ih]

theorem fill_findIdx {t : List UInt8} {k : Nat} (v : List UInt8) (vs : List (List UInt8))
    (h : t.findIdx? (· = questionMark) = some k) :
    fill t (v :: vs) t = t.take k ++ v ++ fill (t.drop (k + 1)) vs (t.drop (k + 1)) := by
  induction t generalizing k with
  | nil => cases h
  | cons c t ih =>
    rw [List.findIdx?_cons] at h
    by_cases hc : c = questionMark
    · obtain rfl : 0 = k := by simpa [hc] using h
      subst hc
      rfl
    · rw [if_neg (by simpa using hc)] at h
      obtain ⟨j, hj, rfl⟩ := Option.map_eq_some_iff.mp h
      rw [fill_other hc, ih hj]
      rfl

end Fill

section Loop

variable (mysql_real_escape_string : List UInt8 → List UInt8)

def HasValue (p : (Nat → UInt8) × Int × Int) (v : List UInt8) : Prop :=
  appendParameter mysql_real_escape_string p.1 p.2.1 p.2.2 = some v

theorem placeholderLoop_eq {sql : List UInt8} {ps : List ((Nat → UInt8) × Int × Int)}
    {vs : List (List UInt8)} (pos : Nat) (sql_ : List UInt8)
    (h : List.Forall₂ (HasValue mysql_real_escape_string)
      (ps.take ((sql.drop pos).count questionMark)) vs) :
    (placeholderLoop mysql_real_escape_string sql ps pos sql_).map (appendRest sql) =
      some (sql_ ++ fill (sql.drop pos) vs (sql.drop pos)) := by
  induction ps generalizing pos sql_ vs with
  | nil =>
    obtain rfl : vs = [] := by simpa using h
    rw [fill_nil]
    by_cases hpos : pos < sql.length
    · simp [placeholderLoop, appendRest, hpos]
    · simp [placeholderLoop, appendRest, hpos, List.drop_eq_nil_of_le (Nat.le_of_not_lt hpos)]
  | cons p ps ih =>
    obtain ⟨parameter, length, format⟩ := p
    cases hf : (sql.drop pos).findIdx? (· = questionMark) with
    | none => simp [placeholderLoop, find, hf, appendRest, fill_eq_self _ hf]
    | some k =>
      have hdrop : (sql.drop pos).drop (k + 1) = sql.drop (pos + k + 1) := by
        rw [List.drop_drop, Nat.add_assoc]
      rw [count_findIdx hf, hdrop, List.take_succ_cons] at h
      cases h with
      | @cons _ v _ vs hv h =>
        have hvalue : appendParameter mysql_real_escape_string parameter length format = some v :=
          hv
        have hfind : find sql pos = some (pos + k) := by rw [find, hf]; rfl
        rw [fill_findIdx v vs hf, hdrop, placeholderLoop, hfind]
        dsimp only
        rw [hvalue, Option.bind_some, ih _ _ h, substr, Nat.add_sub_cancel_left]
        simp only [List.append_assoc]

theorem preparedSql_eq_fill {sql : List UInt8} {n : Nat} {v : ParameterVectors}
    (hassert : n = v.parameters.length ∧ n = v.length.length ∧ n = v.format.length ∧ sql ≠ [])
    {vs : List (List UInt8)} (hvs : List.Forall₂ (HasValue mysql_real_escape_string)
      (v.zipped.take (sql.count questionMark)) vs) :
    preparedSql mysql_real_escape_string sql n v = some (fill sql vs sql) := by
  rw [preparedSql, if_pos hassert]
  split
  · exact placeholderLoop_eq mysql_real_escape_string 0 [] hvs
  · rename_i hn
    obtain ⟨hparameters, _, _, _⟩ := hassert
    have hnil : v.parameters = [] := List.length_eq_zero_iff.mp (by omega)
    have hzipped : v.zipped = [] := by rw [ParameterVectors.zipped, hnil, List.zip_nil_left]
    obtain rfl : vs = [] := by simpa [hzipped] using hvs
    rw [fill_nil]

end Loop

section Values

variable {mysql_real_escape_string : List UInt8 → List UInt8} {executes : List UInt8 → Bool}

def escapeByte (c : UInt8) : List UInt8 :=
  if c = 0 then [backslash, 48]
  else if c = 10 then [backslash, 110]
  else if c = 13 then [backslash, 114]
  else if c = 26 then [backslash, 90]
  else if c = singleQuote ∨ c = doubleQuote ∨ c = backslash then [backslash, c]
  else [c]

theorem escapeByte_cases (c : UInt8) :
    (∃ d, escapeByte c = [backslash, d] ∧ unescape d = [c]) ∨
      (escapeByte c = [c] ∧ c ≠ singleQuote ∧ c ≠ backslash) := by
  unfold escapeByte
  split_ifs with h0 h10 h13 h26 hself
  · exact Or.inl ⟨48, rfl, by rw [h0]; rfl⟩
  · exact Or.inl ⟨110, rfl, by rw [h10]; rfl⟩
  · exact Or.inl ⟨114, rfl, by rw [h13]; rfl⟩
  · exact Or.inl ⟨90, rfl, by rw [h26]; rfl⟩
  · refine Or.inl ⟨c, rfl, ?_⟩
    rcases hself with rfl | rfl | rfl <;> rfl
  · exact Or.inr ⟨rfl, fun h => hself (Or.inl h), fun h => hself (Or.inr (Or.inr h))⟩

theorem length_escape_le (content : List UInt8) :
    (content.flatMap escapeByte).length ≤ 2 * content.length := by
  induction content with
  | nil => simp
  | cons c content ih =>
    have hc : (escapeByte c).length ≤ 2 := by
      rcases escapeByte_cases c with ⟨d, h, _⟩ | ⟨h, _, _⟩ <;> simp [h]
    simp only [List.flatMap_cons, List.length_append, List.length_cons]
    omega

theorem sealed_escape (content : List UInt8) : Sealed .single (content.flatMap escapeByte) := by
  induction content with
  | nil => exact Sealed.nil
  | cons c content ih =>
    rw [List.flatMap_cons]
    rcases escapeByte_cases c with ⟨d, h, _⟩ | ⟨h, hq, hb⟩
    · rw [h]
      exact Sealed.escape d ih
    · rw [h]
      exact Sealed.byte hq hb ih

theorem decode_escape_eq (content : List UInt8) :
    decode .single (content.flatMap escapeByte) = content := by
  induction content with
  | nil => rfl
  | cons c content ih =>
    rw [List.flatMap_cons]
    rcases escapeByte_cases c with ⟨d, h, hd⟩ | ⟨h, hq, hb⟩
    · rw [h]
      change decode .single (backslash :: d :: content.flatMap escapeByte) = c :: content
      rw [decode_escape rfl, hd, ih]
      rfl
    · rw [h]
      change decode .single (c :: content.flatMap escapeByte) = c :: content
      rw [decode_byte hq hb, ih]

theorem isPlain_of_isDigit {c : UInt8} (h : isDigit c = true) : isPlain c = true := by
  simp only [isDigit, decide_eq_true_eq] at h
  have hne : ∀ d : UInt8, isDigit d = false → c ≠ d := by
    rintro d hd rfl
    simp [isDigit, h] at hd
  have hquote : Quote.ofByte c = none := by
    rw [Quote.ofByte, if_neg (hne singleQuote rfl), if_neg (hne doubleQuote rfl),
      if_neg (hne backquote rfl)]
  simp only [isPlain, hquote, Option.isNone_none, decide_eq_true_eq]
  exact ⟨trivial, hne sharp rfl, hne dash rfl, hne slash rfl⟩

theorem isDigit_digits (n : Nat) (c : UInt8)
    (h : c ∈ (Nat.toDigits 10 n).map fun c => c.toNat.toUInt8) : isDigit c = true := by
  obtain ⟨d, hd, rfl⟩ := List.mem_map.mp h
  have hdigit := Nat.isDigit_of_mem_toDigits (by decide) (by decide) hd
  simp only [Char.isDigit, ge_iff_le, Bool.and_eq_true, decide_eq_true_eq,
    UInt32.le_iff_toNat_le] at hdigit
  have hlow : 48 ≤ d.toNat := hdigit.1
  have hhigh : d.toNat ≤ 57 := hdigit.2
  have hbyte : d.toNat.toUInt8.toNat = d.toNat := Nat.mod_eq_of_lt (by omega)
  simp only [isDigit, UInt8.le_iff_toNat_le, hbyte, decide_eq_true_eq]
  exact ⟨hlow, hhigh⟩

/-- How the value of a parameter with this type lies in the statement: a string is one literal
with single quotes around its bytes, the rest is outside. -/
def Occupies (f : FieldType) (content value : List UInt8) (ms : List Mark) : Prop :=
  if f = .MySqlString then IsQuoted .single content value ms
  else value ≠ [] ∧ ms = List.replicate value.length .outside

/-- In every text in which a delimiter or the end follows the value, the lexer marks the value
as it does on its own and goes on in plain code. -/
def LexesAs (executes : List UInt8 → Bool) (value : List UInt8) (ms : List Mark) : Prop :=
  ∀ rest : List UInt8, rest.head?.all isDelimiter →
    marks executes (.code false) (value ++ rest) = ms ++ marks executes (.code false) rest

theorem lexesAs_plain {value : List UInt8} (h : ∀ c ∈ value, isPlain c = true) :
    LexesAs executes value (List.replicate value.length .outside) :=
  fun rest _ => marks_plain h rest

theorem lexesAs_to_string (n : Int) :
    LexesAs executes (to_string n) (List.replicate (to_string n).length .outside) := by
  have hdigits := isDigit_digits n.natAbs
  unfold to_string
  split
  · intro rest _
    cases hd : (Nat.toDigits 10 n.natAbs).map (fun c => c.toNat.toUInt8) with
    | nil => exact absurd (List.map_eq_nil_iff.mp hd) Nat.toDigits_ne_nil
    | cons d ds =>
      rw [hd] at hdigits
      have hdash : d ≠ dash := by
        rintro rfl
        exact absurd (hdigits dash (List.mem_cons_self ..)) (by decide)
      have hplain : marks executes (.code false) ((d :: ds) ++ rest) = _ :=
        marks_plain (fun c hc => isPlain_of_isDigit (hdigits c hc)) rest
      change marks executes (.code false) (dash :: d :: (ds ++ rest)) = _
      rw [marks_dash hdash]
      exact congrArg (Mark.outside :: ·) hplain
  · exact lexesAs_plain fun c hc => isPlain_of_isDigit (hdigits c hc)

theorem lexesAs_quoted {body : List UInt8} (h : Sealed .single body) :
    LexesAs executes (quote :: (body ++ [quote]))
      (.opens (.quoted .single) ::
        (List.replicate body.length (.inside (.quoted .single)) ++ [.closes (.quoted .single)])) := by
  intro rest hrest
  refine marks_quoted rfl h ?_
  intro hhead
  rw [hhead] at hrest
  exact absurd hrest (by decide)

theorem to_string_ne_nil (n : Int) : to_string n ≠ [] := by
  intro h
  have hdigits := (List.append_eq_nil_iff.mp h).2
  exact absurd (List.map_eq_nil_iff.mp hdigits) Nat.toDigits_ne_nil

theorem occupies_outside {f : FieldType} (hf : f ≠ .MySqlString) {value : List UInt8}
    (hvalue : value ≠ []) (content : List UInt8) :
    Occupies f content value (List.replicate value.length .outside) := by
  rw [Occupies, if_neg hf]
  exact ⟨hvalue, rfl⟩

theorem occupies_quoted (content : List UInt8) :
    Occupies .MySqlString content (quote :: (content.flatMap escapeByte ++ [quote]))
      (.opens (.quoted .single) :: (List.replicate (content.flatMap escapeByte).length
        (.inside (.quoted .single)) ++ [.closes (.quoted .single)])) where
  marks_eq := by simp
  content_eq := ⟨_, rfl, decode_escape_eq content⟩

theorem appendParameter_lexes (executes : List UInt8 → Bool) (hescape : ∀ content,
      mysql_real_escape_string content = content.flatMap escapeByte)
    (parameter : Nat → UInt8) {length format : Int} (hlength : 0 ≤ length ∧ length < 2 ^ 30)
    {f : FieldType} (hf : FieldType.ofInt format = some f) :
    ∃ value ms, HasValue mysql_real_escape_string (parameter, length, format) value ∧
      LexesAs executes value ms ∧ Occupies f (bytes length.toNat parameter) value ms := by
  simp only [HasValue, appendParameter, hf]
  have number : f ≠ .MySqlString → ∀ n : Int, ∃ value ms, some (to_string n) = some value ∧
      LexesAs executes value ms ∧ Occupies f (bytes length.toNat parameter) value ms :=
    fun hne n => ⟨_, _, rfl, lexesAs_to_string n, occupies_outside hne (to_string_ne_nil n) _⟩
  cases f with
  | MySqlTiny => exact number (by decide) _
  | MySqlShort => exact number (by decide) _
  | MySqlLong => exact number (by decide) _
  | MySqlLongLong => exact number (by decide) _
  | MySqlNull =>
    exact ⟨_, _, rfl, lexesAs_plain (List.all_eq_true.mp (by decide)), occupies_outside (by decide) (by decide) _⟩
  | MySqlString =>
    have hlen := length_escape_le (bytes length.toNat parameter)
    have hbytes : (bytes length.toNat parameter).length = length.toNat := by simp [bytes]
    rw [hbytes] at hlen
    dsimp only
    rw [if_pos (by omega), hescape, if_pos hlen]
    exact ⟨_, _, rfl, lexesAs_quoted (sealed_escape _), occupies_quoted _⟩
  | DrogonDefaultValue =>
    exact ⟨_, _, rfl, lexesAs_plain (List.all_eq_true.mp (by decide)), occupies_outside (by decide) (by decide) _⟩

end Values

section Templates

variable {executes : List UInt8 → Bool}

/-- Each of the first `n` question marks lies outside and is delimited on both sides by white
space, a comma, a parenthesis, an equals sign or an end of the text. -/
def WellPlaced (executes : List UInt8 → Bool) (m : Mode) (n : Nat) (sql : List UInt8) : Prop :=
  ∀ i < sql.length, sql[i]? = some questionMark → (sql.take i).count questionMark < n →
    (marks executes m sql)[i]? = some .outside ∧
      (i = 0 ∨ sql[i - 1]?.all isDelimiter) ∧ sql[i + 1]?.all isDelimiter

instance (m : Mode) (n : Nat) (sql : List UInt8) : Decidable (WellPlaced executes m n sql) := by
  unfold WellPlaced
  infer_instance

theorem WellPlaced.rest {m : Mode} {n k : Nat} {c : UInt8} {rest : List UInt8}
    (h : WellPlaced executes m n (c :: rest))
    (hn : ∀ j, j < k → (if c = questionMark then j + 1 else j) < n) :
    WellPlaced executes (Library.SqlLexer.step executes m c rest).2 k rest := by
  intro i hi hc hcount
  have hcount' : ((c :: rest).take (i + 1)).count questionMark < n := by
    have := hn _ hcount
    simpa [List.count_cons, apply_ite] using this
  obtain ⟨hout, hbefore, hbehind⟩ := h (i + 1) (by simpa using hi) (by simpa using hc) hcount'
  refine ⟨by simpa [marks] using hout, ?_, by simpa using hbehind⟩
  cases i with
  | zero => exact Or.inl rfl
  | succ i => exact Or.inr (by simpa using hbefore)

theorem WellPlaced.head {m : Mode} {n : Nat} {rest : List UInt8}
    (h : WellPlaced executes m (n + 1) (questionMark :: rest)) :
    (Library.SqlLexer.step executes m questionMark rest).1 = .outside ∧ rest.head?.all isDelimiter := by
  obtain ⟨hout, _, hbehind⟩ := h 0 (by simp) rfl (by simp)
  exact ⟨by simpa [marks] using hout, by simpa [List.head?_eq_getElem?] using hbehind⟩

theorem WellPlaced.before {m : Mode} {n : Nat} {c : UInt8} {rest : List UInt8}
    (h : WellPlaced executes m (n + 1) (c :: questionMark :: rest)) (hc : c ≠ questionMark) :
    isDelimiter c = true := by
  obtain ⟨_, hbefore, _⟩ := h 1 (by simp) rfl (by simp [hc])
  simpa using hbefore

theorem step_fill {m : Mode} {n : Nat} {c : UInt8} {rest : List UInt8}
    (h : WellPlaced executes m (n + 1) (c :: rest)) (hc : c ≠ questionMark)
    (vs : List (List UInt8)) :
    Library.SqlLexer.step executes m c rest = Library.SqlLexer.step executes m c (fill rest vs rest) := by
  cases rest with
  | nil => simp
  | cons d rest =>
    by_cases hd : d = questionMark
    · subst hd
      exact step_delimiter (h.before hc) m _ _
    · rw [fill_other hd]
      have hagree : Agree (d :: rest) (d :: fill rest vs rest) := by
        refine ⟨rfl, ?_⟩
        cases rest with
        | nil => simp
        | cons e rest =>
          by_cases he : e = questionMark
          · subst he
            have hrest := h.rest (k := n + 1) (fun j hj => by rwa [if_neg hc])
            refine Or.inl (fun x hx => ?_)
            obtain rfl : d = x := Option.some.inj hx
            exact hrest.before hd
          · rw [fill_other he]
            exact Or.inr rfl
      exact hagree.step m c

theorem marks_fill {m : Mode} {template : List UInt8} {vs : List (List UInt8)}
    {ws : List (List Mark)} (hm : m.Proper) (h : WellPlaced executes m vs.length template)
    (hvs : List.Forall₂ (LexesAs executes) vs ws) :
    marks executes m (fill template vs template) = fill template ws (marks executes m template) := by
  induction template generalizing m vs ws with
  | nil => simp
  | cons c rest ih =>
    cases hvs with
    | nil => simp
    | @cons v w vs ws hv hvs =>
      by_cases hc : c = questionMark
      · subst hc
        obtain ⟨hout, hbehind⟩ := h.head
        obtain ⟨rfl, hnext⟩ := step_outside hm hout
        have hrest := h.rest (k := vs.length) (fun j hj => by simpa using hj)
        rw [hnext] at hrest
        have hfollow : (fill rest vs rest).head?.all isDelimiter := by
          cases rest with
          | nil => simp
          | cons d rest =>
            have hd : d ≠ questionMark := delimiter_ne hbehind rfl
            rw [fill_other hd]
            exact hbehind
        rw [fill_placeholder, hv _ hfollow, ih (m := .code false) trivial hrest hvs, marks, hnext, fill_placeholder]
      · have hrest := h.rest (k := (v :: vs).length) (fun j hj => by rwa [if_neg hc])
        have hstep := step_fill (n := vs.length) h hc (v :: vs)
        rw [fill_other hc, marks, ← hstep, ih (step_proper hm c rest) hrest (.cons hv hvs), marks,
          fill_other hc]

def SameOutline (ws ws' : List Mark) : Prop := ∀ ms, outline (ws ++ ms) = outline (ws' ++ ms)

theorem Occupies.sameOutline {f : FieldType} {content content' value value' : List UInt8}
    {ms ms' : List Mark} (h : Occupies f content value ms) (h' : Occupies f content' value' ms') :
    SameOutline ms ms' := by
  intro rest
  unfold Occupies at h h'
  split at h
  · rename_i hf
    rw [if_pos hf] at h'
    rw [h.marks_eq, h'.marks_eq, List.cons_append, List.cons_append]
    apply outline_cons_congr
    rw [List.append_assoc, List.append_assoc, outline_inside, outline_inside]
  · rename_i hf
    rw [if_neg hf] at h'
    obtain ⟨hne, rfl⟩ := h
    obtain ⟨hne', rfl⟩ := h'
    obtain ⟨n, hn⟩ := Nat.exists_eq_succ_of_ne_zero (mt List.length_eq_zero_iff.mp hne)
    obtain ⟨n', hn'⟩ := Nat.exists_eq_succ_of_ne_zero (mt List.length_eq_zero_iff.mp hne')
    rw [hn, hn', outline_outside, outline_outside]

theorem outline_fill {template : List UInt8} {ws ws' : List (List Mark)} {ms : List Mark}
    (h : List.Forall₂ SameOutline ws ws') :
    outline (fill template ws ms) = outline (fill template ws' ms) := by
  induction template generalizing ws ws' ms with
  | nil => simp
  | cons c rest ih =>
    cases h with
    | nil => rfl
    | cons hw hws =>
      cases ms with
      | nil => rfl
      | cons x ms =>
        by_cases hc : c = questionMark
        · subst hc
          rw [fill_placeholder, fill_placeholder, hw]
          exact outline_append_congr (ih hws) _
        · rw [fill_other hc, fill_other hc]
          exact outline_cons_congr (ih (.cons hw hws)) x

end Templates

section Vectors

variable {mysql_real_escape_string : List UInt8 → List UInt8} {executes : List UInt8 → Bool}

/-- What callers pass: vectors of one size, lengths that can be doubled, and known types. -/
structure ParameterVectors.Supported (v : ParameterVectors) (paraNum : Nat) : Prop where
  parameters_length : v.parameters.length = paraNum
  length_length : v.length.length = paraNum
  format_length : v.format.length = paraNum
  length_range : ∀ l ∈ v.length, 0 ≤ l ∧ l < 2 ^ 30
  format_known : ∀ f ∈ v.format, (FieldType.ofInt f).isSome

def Placed (p : (Nat → UInt8) × Int × Int) (place : List UInt8 × List Mark) : Prop :=
  ∃ f, FieldType.ofInt p.2.2 = some f ∧ Occupies f (bytes p.2.1.toNat p.1) place.1 place.2

theorem ParameterVectors.Supported.map_format {v : ParameterVectors} {n : Nat}
    (h : v.Supported n) : v.zipped.map (fun p => p.2.2) = v.format := by
  have hinner : v.zipped.map Prod.snd = v.length.zip v.format := by
    apply List.map_snd_zip
    simp [h.parameters_length, h.length_length, h.format_length]
  have houter : (v.length.zip v.format).map Prod.snd = v.format := by
    apply List.map_snd_zip
    simp [h.length_length, h.format_length]
  rw [← houter, ← hinner, List.map_map]
  rfl

theorem ParameterVectors.Supported.length_zipped {v : ParameterVectors} {n : Nat}
    (h : v.Supported n) : v.zipped.length = n := by
  rw [← h.format_length, ← h.map_format, List.length_map]

theorem ParameterVectors.Supported.exists_places {v : ParameterVectors} {n : Nat}
    (h : v.Supported n) (executes : List UInt8 → Bool) (hescape : ∀ content,
      mysql_real_escape_string content = content.flatMap escapeByte) :
    ∃ places : List (List UInt8 × List Mark),
      List.Forall₂ (fun p place => HasValue mysql_real_escape_string p place.1) v.zipped places ∧
      List.Forall₂ (LexesAs executes) (places.map Prod.fst) (places.map Prod.snd) ∧
      List.Forall₂ Placed v.zipped places := by
  have hmem : ∀ p ∈ v.zipped, (0 ≤ p.2.1 ∧ p.2.1 < 2 ^ 30) ∧ (FieldType.ofInt p.2.2).isSome := by
    intro p hp
    have hinner := List.of_mem_zip (List.of_mem_zip hp).2
    exact ⟨h.length_range _ hinner.1, h.format_known _ hinner.2⟩
  generalize v.zipped = ps at hmem ⊢
  induction ps with
  | nil => exact ⟨[], .nil, .nil, .nil⟩
  | cons p ps ih =>
    obtain ⟨places, hvalues, hlexes, hplaced⟩ := ih (fun q hq => hmem q (List.mem_cons_of_mem p hq))
    obtain ⟨hlength, hknown⟩ := hmem p (List.mem_cons_self ..)
    obtain ⟨f, hf⟩ := Option.isSome_iff_exists.mp hknown
    obtain ⟨value, ms, hvalue, hlex, hocc⟩ :=
      appendParameter_lexes executes hescape p.1 hlength hf
    exact ⟨(value, ms) :: places, .cons hvalue hvalues, .cons hlex hlexes,
      .cons ⟨f, hf, hocc⟩ hplaced⟩

theorem preparedSql_eq {v : ParameterVectors} {n : Nat} (h : v.Supported n) {sql : List UInt8}
    (hsql : sql ≠ []) {vs : List (List UInt8)}
    (hvs : List.Forall₂ (HasValue mysql_real_escape_string) v.zipped vs) :
    preparedSql mysql_real_escape_string sql n v = some (fill sql vs sql) := by
  have hassert : n = v.parameters.length ∧ n = v.length.length ∧ n = v.format.length ∧ sql ≠ [] :=
    ⟨h.parameters_length.symm, h.length_length.symm, h.format_length.symm, hsql⟩
  have htake := List.forall₂_take (sql.count questionMark) hvs
  rw [preparedSql_eq_fill mysql_real_escape_string hassert htake, fill_take]

theorem sameOutline_places {ps ps' : List ((Nat → UInt8) × Int × Int)}
    {places places' : List (List UInt8 × List Mark)}
    (hsame : List.Forall₂ (fun p p' => p.2.2 = p'.2.2) ps ps')
    (h : List.Forall₂ Placed ps places) (h' : List.Forall₂ Placed ps' places') :
    List.Forall₂ SameOutline (places.map Prod.snd) (places'.map Prod.snd) := by
  induction hsame generalizing places places' with
  | nil =>
    cases h
    cases h'
    exact .nil
  | cons hp _ ih =>
    cases h with
    | cons hplaced h =>
      cases h' with
      | cons hplaced' h' =>
        obtain ⟨f, hf, hocc⟩ := hplaced
        obtain ⟨f', hf', hocc'⟩ := hplaced'
        obtain rfl : f = f' := by
          rw [hp, hf'] at hf
          exact (Option.some.inj hf).symm
        exact .cons (hocc.sameOutline hocc') (ih h h')

/-- The values do not change the structure of the statement.  `sql_` is the template with each
value in its place; its marks are those of the template with those of the values in their
places; and all vectors with these types give one outline. -/
theorem parameters_keep_structure (executes : List UInt8 → Bool)
    (mysql_real_escape_string : List UInt8 → List UInt8)
    (hescape : ∀ content, mysql_real_escape_string content = content.flatMap escapeByte)
    (sql : List UInt8) (hsql : sql ≠ []) (paraNum : Nat)
    (hplaced : WellPlaced executes (.code false) paraNum sql)
    (v : ParameterVectors) (hv : v.Supported paraNum) :
    ∃ sql_ places,
      preparedSql mysql_real_escape_string sql paraNum v = some sql_ ∧
      sql_ = fill sql (places.map Prod.fst) sql ∧
      marks executes (.code false) sql_ =
        fill sql (places.map Prod.snd) (marks executes (.code false) sql) ∧
      List.Forall₂ Placed v.zipped places ∧
      ∀ v' : ParameterVectors, v'.Supported paraNum → v'.format = v.format →
        ∃ sql_', preparedSql mysql_real_escape_string sql paraNum v' = some sql_' ∧
          outline (marks executes (.code false) sql_') =
            outline (marks executes (.code false) sql_) := by
  have hmain : ∀ u : ParameterVectors, u.Supported paraNum → ∃ places,
      preparedSql mysql_real_escape_string sql paraNum u =
        some (fill sql (places.map Prod.fst) sql) ∧
      marks executes (.code false) (fill sql (places.map Prod.fst) sql) =
        fill sql (places.map Prod.snd) (marks executes (.code false) sql) ∧
      List.Forall₂ Placed u.zipped places := by
    intro u hu
    obtain ⟨places, hvalues, hlexes, hplaces⟩ := hu.exists_places executes hescape
    have hlength : paraNum = (places.map Prod.fst).length := by
      rw [List.length_map, ← hplaces.length_eq, hu.length_zipped]
    refine ⟨places, preparedSql_eq hu hsql (List.forall₂_map_right_iff.mpr hvalues), ?_, hplaces⟩
    exact marks_fill (m := .code false) trivial (hlength ▸ hplaced) hlexes
  obtain ⟨places, hprepared, hmarks, hplaces⟩ := hmain v hv
  refine ⟨_, places, hprepared, rfl, hmarks, hplaces, ?_⟩
  intro v' hv' hformat
  obtain ⟨places', hprepared', hmarks', hplaces'⟩ := hmain v' hv'
  refine ⟨_, hprepared', ?_⟩
  have hsame : List.Forall₂ (fun p p' => p.2.2 = p'.2.2) v'.zipped v.zipped := by
    have heq : v'.zipped.map (fun p => p.2.2) = v.zipped.map (fun p => p.2.2) := by
      rw [hv'.map_format, hv.map_format, hformat]
    rw [← List.forall₂_eq_eq_eq, List.forall₂_map_left_iff, List.forall₂_map_right_iff] at heq
    exact heq
  rw [hmarks, hmarks', outline_fill (sameOutline_places hsame hplaces' hplaces)]

def quoteAndNumber : ParameterVectors where
  parameters := [fun k => (ascii "' OR 1=1 -- ?").getD k 0, fun _ => 255]
  length := [13, 0]
  format := [5, 0]

theorem parameters_keep_structure_quote :
    preparedSql (List.flatMap escapeByte) (ascii "a = ? AND b IN (?, '?')") 2 quoteAndNumber =
        some (ascii "a = '\\' OR 1=1 -- ?' AND b IN (-1, '?')") ∧
      ∃ places, marks (fun _ => true) (.code false)
          (ascii "a = '\\' OR 1=1 -- ?' AND b IN (-1, '?')") =
        fill (ascii "a = ? AND b IN (?, '?')") (places.map Prod.snd)
          (marks (fun _ => true) (.code false) (ascii "a = ? AND b IN (?, '?')")) ∧
        List.Forall₂ Placed quoteAndNumber.zipped places := by
  have hsql : preparedSql (List.flatMap escapeByte) (ascii "a = ? AND b IN (?, '?')") 2
      quoteAndNumber = some (ascii "a = '\\' OR 1=1 -- ?' AND b IN (-1, '?')") := by decide
  obtain ⟨sql_, places, h, _, hmarks, hplaced, _⟩ :=
    parameters_keep_structure (fun _ => true) (List.flatMap escapeByte) (fun _ => rfl)
      (ascii "a = ? AND b IN (?, '?')") (by decide) 2 (by decide) quoteAndNumber
      ⟨rfl, rfl, rfl, by decide, by decide⟩
  obtain rfl := Option.some.inj (hsql.symm.trans h)
  exact ⟨hsql, places, hmarks, hplaced⟩

end Vectors

end MysqlConnectPool.MySQLConnector
