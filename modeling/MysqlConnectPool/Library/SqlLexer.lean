import Mathlib.Data.List.Basic

/-! The lexical rules of MySQL in its default SQL mode: literals in single or double quotes
with backslash escapes, identifiers in backquotes, a doubled quote inside either, comments
from `#` or `-- ` to the end of the line, and comments between slash-star and star-slash.  A comment
that begins with an exclamation mark and a version holds code where the server executes it. -/

namespace MysqlConnectPool.Library.SqlLexer

abbrev lineFeed : UInt8 := 10
abbrev bang : UInt8 := 33
abbrev doubleQuote : UInt8 := 34
abbrev sharp : UInt8 := 35
abbrev singleQuote : UInt8 := 39
abbrev star : UInt8 := 42
abbrev dash : UInt8 := 45
abbrev slash : UInt8 := 47
abbrev backslash : UInt8 := 92
abbrev backquote : UInt8 := 96

def isDigit (c : UInt8) : Bool := 48 ≤ c ∧ c ≤ 57

def isSpaceOrControl (c : UInt8) : Bool := c ≤ 32 ∨ c = 127

def isDelimiter (c : UInt8) : Bool := c ∈ [9, 10, 11, 12, 13, 32, 44, 40, 41, 61]

inductive Quote
  | single
  | double
  | back
  deriving DecidableEq

def Quote.byte : Quote → UInt8
  | .single => singleQuote
  | .double => doubleQuote
  | .back => backquote

def Quote.ofByte (c : UInt8) : Option Quote :=
  if c = singleQuote then some .single
  else if c = doubleQuote then some .double
  else if c = backquote then some .back
  else none

def Quote.escapes : Quote → Bool
  | .back => false
  | _ => true

inductive Region
  | quoted (q : Quote)
  | sharp
  | dashes
  | block
  | version
  deriving DecidableEq

inductive Mark
  | outside
  | opens (r : Region)
  | inside (r : Region)
  | closes (r : Region)
  deriving DecidableEq

def Mark.isInside : Mark → Bool
  | .inside _ => true
  | _ => false

def Mark.isCode : Mark → Bool
  | .outside | .inside .version => true
  | _ => false

/-- `version` is set in the code of a version comment.  `fixed` gives its mark to `more`
bytes and one. -/
inductive Mode
  | code (version : Bool)
  | quoted (q : Quote) (version : Bool)
  | line (r : Region) (version : Bool)
  | block (version : Bool)
  | digits (version : Bool) (read : List UInt8)
  | fixed (mark : Mark) (more : Nat) (next : Mode)
  deriving DecidableEq

def beginsDashes : List UInt8 → Bool
  | c :: rest => c = dash ∧ rest.head?.all isSpaceOrControl
  | [] => false

def stepBlock (version : Bool) (c : UInt8) (rest : List UInt8) : Mark × Mode :=
  if c = star ∧ rest.head? = some slash then
    (.closes .block, .fixed (.closes .block) 0 (.code version))
  else (.inside .block, .block version)

def stepCode (version : Bool) (c : UInt8) (rest : List UInt8) : Mark × Mode :=
  match Quote.ofByte c with
  | some q => (.opens (.quoted q), .quoted q version)
  | none =>
    if c = sharp then (.opens .sharp, .line .sharp version)
    else if c = dash ∧ beginsDashes rest then
      (.opens .dashes, .fixed (.opens .dashes) 0 (.line .dashes version))
    else if c = slash ∧ rest.head? = some star then
      if rest[1]? = some bang then
        (.opens .version, .fixed (.opens .version) 1 (.digits version []))
      else (.opens .block, .fixed (.opens .block) 0 (.block version))
    else if version ∧ c = star ∧ rest.head? = some slash then
      (.closes .version, .fixed (.closes .version) 0 (.code false))
    else (if version then .inside .version else .outside, .code version)

def stepQuoted (q : Quote) (version : Bool) (c : UInt8) (rest : List UInt8) : Mark × Mode :=
  if (c = backslash ∧ q.escapes) ∨ (c = q.byte ∧ rest.head? = some q.byte) then
    (.inside (.quoted q), .fixed (.inside (.quoted q)) 0 (.quoted q version))
  else if c = q.byte then (.closes (.quoted q), .code version)
  else (.inside (.quoted q), .quoted q version)

/-- `executes` is the server's decision on the version number that it read. -/
def step (executes : List UInt8 → Bool) : Mode → UInt8 → List UInt8 → Mark × Mode
  | .code version, c, rest => stepCode version c rest
  | .quoted q version, c, rest => stepQuoted q version c rest
  | .line r version, c, _ =>
    if c = lineFeed then (.closes r, .code version) else (.inside r, .line r version)
  | .block version, c, rest => stepBlock version c rest
  | .digits version read, c, rest =>
    if isDigit c then (.inside .version, .digits version (read ++ [c]))
    else if executes read then stepCode true c rest
    else stepBlock version c rest
  | .fixed mark 0 next, _, _ => (mark, next)
  | .fixed mark (n + 1) next, _, _ => (mark, .fixed mark n next)

def marks (executes : List UInt8 → Bool) (m : Mode) : List UInt8 → List Mark
  | [] => []
  | c :: rest =>
    (step executes m c rest).1 :: marks executes (step executes m c rest).2 rest

def unescape (c : UInt8) : List UInt8 :=
  if c = 48 then [0]
  else if c = 98 then [8]
  else if c = 110 then [10]
  else if c = 114 then [13]
  else if c = 116 then [9]
  else if c = 90 then [26]
  else if c = 37 ∨ c = 95 then [backslash, c]
  else [c]

def decode (q : Quote) : List UInt8 → List UInt8
  | [] => []
  | [c] => [c]
  | c :: d :: rest =>
    if c = backslash ∧ q.escapes then unescape d ++ decode q rest
    else if c = q.byte ∧ d = q.byte then c :: decode q rest
    else c :: decode q (d :: rest)

/-- The bytes `text`, marked `ms`, are one literal or identifier in quotes with this value. -/
structure IsQuoted (q : Quote) (content : List UInt8) (text : List UInt8) (ms : List Mark) : Prop where
  marks_eq : ms = .opens (.quoted q) ::
    (List.replicate (text.length - 2) (.inside (.quoted q)) ++ [.closes (.quoted q)])
  content_eq : ∃ body, text = q.byte :: (body ++ [q.byte]) ∧ decode q body = content

/-- The lexical structure: where each region opens and closes, and that there is text
between them. -/
def outline : List Mark → List Mark
  | [] => []
  | m :: ms =>
    if m.isInside ∨ (outline ms).head? = some m then outline ms else m :: outline ms

variable {executes : List UInt8 → Bool}

/-! A delimiter has no say in what stands before it and reads nothing behind it. -/

theorem delimiter_ne {c d : UInt8} (h : isDelimiter c = true) (hd : isDelimiter d = false) :
    c ≠ d := by
  rintro rfl
  rw [h] at hd
  cases hd

def Agree (rest rest' : List UInt8) : Prop :=
  rest.head? = rest'.head? ∧
    ((∀ c, rest.head? = some c → isDelimiter c = true) ∨ rest[1]? = rest'[1]?)

theorem Agree.beginsDashes {rest rest' : List UInt8} (h : Agree rest rest') :
    beginsDashes rest = beginsDashes rest' := by
  obtain ⟨hhead, htail⟩ := h
  cases rest with
  | nil =>
    cases rest' with
    | nil => rfl
    | cons _ _ => cases hhead
  | cons c rest =>
    cases rest' with
    | nil => cases hhead
    | cons c' rest' =>
      obtain rfl : c = c' := Option.some.inj hhead
      rcases htail with hdel | htail
      · have hc : c ≠ dash := delimiter_ne (hdel c rfl) rfl
        simp [SqlLexer.beginsDashes, hc]
      · have ht : rest.head? = rest'.head? := by
          simpa [List.head?_eq_getElem?] using htail
        simp [SqlLexer.beginsDashes, ht]

theorem Agree.stepBlock {rest rest' : List UInt8} (h : Agree rest rest') (version : Bool)
    (c : UInt8) : stepBlock version c rest = stepBlock version c rest' := by
  simp only [SqlLexer.stepBlock, h.1]

theorem Agree.stepCode {rest rest' : List UInt8} (h : Agree rest rest') (version : Bool)
    (c : UInt8) : stepCode version c rest = stepCode version c rest' := by
  have hbang : rest.head? = some star →
      (rest[1]? = some bang ↔ rest'[1]? = some bang) := by
    intro hs
    rcases h.2 with hdel | htail
    · exact absurd (hdel _ hs) (by decide)
    · rw [htail]
  simp only [SqlLexer.stepCode, h.beginsDashes]
  cases Quote.ofByte c with
  | some q => rfl
  | none =>
    by_cases hs : rest.head? = some star
    · simp only [hbang hs, h.1]
    · have hs' : rest'.head? ≠ some star := h.1 ▸ hs
      simp only [hs', and_false, if_false, h.1]

theorem Agree.stepQuoted {rest rest' : List UInt8} (h : Agree rest rest') (q : Quote)
    (version : Bool) (c : UInt8) :
    stepQuoted q version c rest = stepQuoted q version c rest' := by
  simp only [SqlLexer.stepQuoted, h.1]

theorem Agree.step {rest rest' : List UInt8} (h : Agree rest rest') (m : Mode) (c : UInt8) :
    step executes m c rest = step executes m c rest' := by
  cases m with
  | code version => exact h.stepCode version c
  | quoted q version => exact h.stepQuoted q version c
  | line r version => rfl
  | block version => exact h.stepBlock version c
  | digits version read => simp only [SqlLexer.step, h.stepCode, h.stepBlock]
  | fixed mark more next =>
    cases more with
    | zero => rfl
    | succ n => rfl

theorem step_delimiter {c : UInt8} (h : isDelimiter c = true) (m : Mode) (rest rest' : List UInt8) :
    step executes m c rest = step executes m c rest' := by
  have hblock : ∀ version, stepBlock version c rest = stepBlock version c rest' := by
    intro version
    simp [stepBlock, delimiter_ne h (d := star) rfl]
  have hcode : ∀ version, stepCode version c rest = stepCode version c rest' := by
    intro version
    simp [stepCode, delimiter_ne h (d := dash) rfl, delimiter_ne h (d := slash) rfl,
      delimiter_ne h (d := star) rfl]
  cases m with
  | code version => exact hcode version
  | quoted q version =>
    have hq : c ≠ q.byte := by cases q <;> exact delimiter_ne h rfl
    simp [step, stepQuoted, hq]
  | line r version => rfl
  | block version => exact hblock version
  | digits version read => simp only [step, hcode, hblock]
  | fixed mark more next =>
    cases more with
    | zero => rfl
    | succ n => rfl

def Mode.Proper : Mode → Prop
  | .fixed mark _ next => mark ≠ .outside ∧ next.Proper
  | _ => True

theorem step_proper {m : Mode} (h : m.Proper) (c : UInt8) (rest : List UInt8) :
    (step executes m c rest).2.Proper := by
  have hblock : ∀ version, (stepBlock version c rest).2.Proper := by
    intro version
    unfold stepBlock
    split <;> simp [Mode.Proper]
  have hcode : ∀ version, (stepCode version c rest).2.Proper := by
    intro version
    unfold stepCode
    repeat' split
    all_goals simp [Mode.Proper]
  cases m with
  | code version => exact hcode version
  | quoted q version =>
    simp only [step, stepQuoted]
    repeat' split
    all_goals simp [Mode.Proper]
  | line r version =>
    simp only [step]
    split <;> simp [Mode.Proper]
  | block version => exact hblock version
  | digits version read =>
    simp only [step]
    split
    · trivial
    · split
      · exact hcode true
      · exact hblock version
  | fixed mark more next =>
    cases more with
    | zero => exact h.2
    | succ n => exact h

theorem step_outside {m : Mode} (hm : m.Proper) {c : UInt8} {rest : List UInt8}
    (h : (step executes m c rest).1 = .outside) :
    m = .code false ∧ (step executes m c rest).2 = .code false := by
  have hblock : ∀ version, (stepBlock version c rest).1 ≠ .outside := by
    intro version
    unfold stepBlock
    split <;> simp
  have hcode : ∀ version, (stepCode version c rest).1 = .outside →
      version = false ∧ (stepCode version c rest).2 = .code false := by
    intro version
    unfold stepCode
    repeat' split
    all_goals simp_all
  cases m with
  | code version =>
    obtain ⟨rfl, hnext⟩ := hcode version h
    exact ⟨rfl, hnext⟩
  | quoted q version =>
    simp only [step, stepQuoted] at h
    repeat' split at h
    all_goals cases h
  | line r version =>
    simp only [step] at h
    split at h <;> cases h
  | block version => exact absurd h (hblock version)
  | digits version read =>
    simp only [step] at h
    split at h
    · cases h
    · split at h
      · cases (hcode true h).1
      · exact absurd h (hblock version)
  | fixed mark more next =>
    cases more with
    | zero => exact absurd h hm.1
    | succ n => exact absurd h hm.1

def isPlain (c : UInt8) : Bool :=
  (Quote.ofByte c).isNone ∧ c ≠ sharp ∧ c ≠ dash ∧ c ≠ slash

theorem step_plain {c : UInt8} (h : isPlain c = true) (rest : List UInt8) :
    step executes (.code false) c rest = (.outside, .code false) := by
  simp only [isPlain, Option.isNone_iff_eq_none, ne_eq, decide_eq_true_eq] at h
  obtain ⟨hq, hsharp, hdash, hslash⟩ := h
  simp [step, stepCode, hq, hsharp, hdash, hslash]

theorem marks_plain {word : List UInt8} (h : ∀ c ∈ word, isPlain c = true) (rest : List UInt8) :
    marks executes (.code false) (word ++ rest) =
      List.replicate word.length .outside ++ marks executes (.code false) rest := by
  induction word with
  | nil => rfl
  | cons c word ih =>
    have hc : step executes (.code false) c (word ++ rest) = (.outside, .code false) :=
      step_plain (h c (List.mem_cons_self ..)) (word ++ rest)
    have hw := ih (fun d hd => h d (List.mem_cons_of_mem c hd))
    simp only [List.cons_append, marks, hc, hw, List.length_cons, List.replicate_succ]

theorem marks_dash {d : UInt8} (h : d ≠ dash) (rest : List UInt8) :
    marks executes (.code false) (dash :: d :: rest) =
      .outside :: marks executes (.code false) (d :: rest) := by
  have hq : Quote.ofByte dash = none := rfl
  have hsharp : dash ≠ sharp := by decide
  have hslash : dash ≠ slash := by decide
  have hs : step executes (.code false) dash (d :: rest) = (.outside, .code false) := by
    simp [step, stepCode, hq, hsharp, hslash, beginsDashes, h]
  rw [marks, hs]

inductive Sealed (q : Quote) : List UInt8 → Prop
  | nil : Sealed q []
  | byte : c ≠ q.byte → c ≠ backslash → Sealed q body → Sealed q (c :: body)
  | escape : (d : UInt8) → Sealed q body → Sealed q (backslash :: d :: body)

theorem marks_sealed {q : Quote} (hq : q.escapes = true) {body : List UInt8} (h : Sealed q body)
    (version : Bool) {rest : List UInt8} (hrest : rest.head? ≠ some q.byte) :
    marks executes (.quoted q version) (body ++ q.byte :: rest) =
      List.replicate body.length (.inside (.quoted q)) ++
        .closes (.quoted q) :: marks executes (.code version) rest := by
  induction h with
  | nil =>
    have hb : q.byte ≠ backslash := by cases q <;> decide
    simp [marks, step, stepQuoted, hrest, hb]
  | byte hc hb _ ih =>
    simp only [List.cons_append, marks, step, stepQuoted, hc, hb, false_and, or_self, if_false,
      ih, List.length_cons, List.replicate_succ]
  | escape d _ ih =>
    simp only [List.cons_append, marks, step, stepQuoted, hq, and_self, true_or, if_true,
      ih, List.length_cons, List.replicate_succ]

theorem marks_quoted {q : Quote} (hq : q.escapes = true) {body : List UInt8} (h : Sealed q body)
    {rest : List UInt8} (hrest : rest.head? ≠ some q.byte) :
    marks executes (.code false) (q.byte :: (body ++ [q.byte]) ++ rest) =
      .opens (.quoted q) :: (List.replicate body.length (.inside (.quoted q)) ++
        [.closes (.quoted q)]) ++ marks executes (.code false) rest := by
  have hs : step executes (.code false) q.byte (body ++ [q.byte] ++ rest) =
      (.opens (.quoted q), .quoted q false) := by
    cases q <;> rfl
  rw [List.cons_append, marks, hs, List.append_assoc, List.singleton_append,
    marks_sealed hq h false hrest]
  simp

theorem decode_escape {q : Quote} (hq : q.escapes = true) (d : UInt8) (rest : List UInt8) :
    decode q (backslash :: d :: rest) = unescape d ++ decode q rest := by
  simp [decode, hq]

theorem decode_byte {q : Quote} {c : UInt8} (hc : c ≠ q.byte) (hb : c ≠ backslash)
    (rest : List UInt8) : decode q (c :: rest) = c :: decode q rest := by
  cases rest with
  | nil => rfl
  | cons d rest => simp [decode, hc, hb]

/-! The outline of a text does not depend on how long its parts are. -/

theorem outline_cons_congr {ms ms' : List Mark} (h : outline ms = outline ms') (m : Mark) :
    outline (m :: ms) = outline (m :: ms') := by
  simp only [outline, h]

theorem outline_append_congr {ms ms' : List Mark} (h : outline ms = outline ms') (l : List Mark) :
    outline (l ++ ms) = outline (l ++ ms') := by
  induction l with
  | nil => exact h
  | cons m l ih => exact outline_cons_congr ih m

theorem outline_inside (r : Region) (n : Nat) (ms : List Mark) :
    outline (List.replicate n (.inside r) ++ ms) = outline ms := by
  induction n with
  | zero => rfl
  | succ n ih =>
    rw [List.replicate_succ, List.cons_append, outline, ih]
    exact if_pos (Or.inl rfl)

theorem outline_outside (n : Nat) (ms : List Mark) :
    outline (List.replicate (n + 1) .outside ++ ms) = outline (.outside :: ms) := by
  induction n with
  | zero => rfl
  | succ n ih =>
    have hhead : (outline (.outside :: ms)).head? = some .outside := by
      by_cases h : (outline ms).head? = some .outside
      · simp [outline, Mark.isInside, h]
      · simp [outline, Mark.isInside, h]
    rw [List.replicate_succ, List.cons_append, outline, ih, if_pos (Or.inr hhead)]

end MysqlConnectPool.Library.SqlLexer
