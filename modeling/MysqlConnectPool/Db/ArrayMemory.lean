import MysqlConnectPool.Db.ArrayTokens

/-! The parser on positions in memory, where every character that is read has to exist. -/

namespace MysqlConnectPool.ArrayParser

/-- `*here`, in a text that a NUL terminates and behind which nothing may be read. -/
def charAt (input : List Byte) (here : Nat) : Except Failure UInt8 :=
  match input[here]? with
  | some c => .ok c
  | none => if here = input.length then .ok 0 else .error .readsPastEnd

theorem charAt_le {input : List Byte} {here : Nat} {c : UInt8} (h : charAt input here = .ok c) :
    here ≤ input.length := by
  rw [charAt] at h
  split at h
  · next hget => exact Nat.le_of_lt (List.getElem?_eq_some_iff.mp hget).1
  · split_ifs at h with hend
    exact Nat.le_of_eq hend

def scanSingleQuotedAt (input : List Byte) (begin here : Nat) : Except Failure Nat :=
  match h : charAt input here with
  | .error e => .error e
  | .ok c =>
    if c = 0 then .error (.nullByte (input.drop begin))
    else if c = singleQuote then
      (charAt input (here + 1)).bind fun d =>
        if d ≠ singleQuote then .ok (here + 1) else scanSingleQuotedAt input begin (here + 2)
    else if c = backslash then
      (charAt input (here + 1)).bind fun d =>
        if d = 0 then .error (.endsInEscape (input.drop begin))
        else scanSingleQuotedAt input begin (here + 2)
    else scanSingleQuotedAt input begin (here + 1)
termination_by input.length + 1 - here
decreasing_by all_goals have := charAt_le h; omega

def scanDoubleQuotedAt (input : List Byte) (begin here : Nat) : Except Failure Nat :=
  match h : charAt input here with
  | .error e => .error e
  | .ok c =>
    if c = 0 then .error (.nullByte (input.drop begin))
    else if c = backslash then
      (charAt input (here + 1)).bind fun d =>
        if d = 0 then .error (.endsInEscape (input.drop begin))
        else scanDoubleQuotedAt input begin (here + 2)
    else if c = doubleQuote then .ok (here + 1)
    else scanDoubleQuotedAt input begin (here + 1)
termination_by input.length + 1 - here
decreasing_by all_goals have := charAt_le h; omega

def scanUnquotedAt (input : List Byte) (p : Nat) : Except Failure Nat :=
  match h : charAt input p with
  | .error e => .error e
  | .ok c =>
    if c ≠ comma ∧ c ≠ semicolon ∧ c ≠ rightBrace then scanUnquotedAt input (p + 1) else .ok p
termination_by input.length + 1 - p
decreasing_by have := charAt_le h; omega

def unescapeAt (input : List Byte) (escapes : UInt8 → Bool) (fin here : Nat)
    (output : List UInt8) : Except Failure (List UInt8) :=
  if here + 1 < fin then
    (charAt input here).bind fun c =>
      unescapeAt input escapes fin (if escapes c then here + 2 else here + 1) (output ++ [c])
  else .ok output
termination_by fin - here
decreasing_by split <;> omega

def copyAt (input : List Byte) (begin fin : Nat) : Except Failure (List UInt8) :=
  (List.range' begin (fin - begin)).mapM (charAt input)

def tokenAt (input : List Byte) (pos_ : Nat) : Except Failure ((Juncture × List UInt8) × Nat) := do
  let c ← charAt input pos_
  if c = 0 then .ok ((.done, []), pos_)
  else if c = leftBrace then .ok ((.row_start, []), pos_ + 1)
  else if c = rightBrace then .ok ((.row_end, []), pos_ + 1)
  else if c = singleQuote then do
    let fin ← scanSingleQuotedAt input pos_ (pos_ + 1)
    let value ← unescapeAt input (fun c => c = singleQuote || c = backslash) fin (pos_ + 1) []
    .ok ((.string_value, value), fin)
  else if c = doubleQuote then do
    let fin ← scanDoubleQuotedAt input pos_ (pos_ + 1)
    let value ← unescapeAt input (fun c => c = backslash) fin (pos_ + 1) []
    .ok ((.string_value, value), fin)
  else do
    let fin ← scanUnquotedAt input pos_
    let value ← copyAt input pos_ fin
    if value = null.map Subtype.val then .ok ((.null_value, []), fin)
    else .ok ((.string_value, value), fin)

def skipSeparatorAt (input : List Byte) (fin : Nat) : Except Failure Nat := do
  let c ← charAt input fin
  .ok (if c = comma ∨ c = semicolon then fin + 1 else fin)

/-- `getNext`, with `pos_` as a position or null. -/
def getNextAt (input : List Byte) :
    Option Nat → Except Failure ((Juncture × List UInt8) × Option Nat)
  | none => .ok ((.done, []), none)
  | some pos_ => do
    let (found, fin) ← tokenAt input pos_
    let fin ← skipSeparatorAt input fin
    .ok (found, some fin)

/-! The loops on positions do what those on texts do. -/

def position (input rest : List Byte) : Nat := input.length - rest.length

section Scan

variable {input rest : List Byte} {begin here : Nat} {c : Byte}

theorem charAt_of_cons (h : input.drop here = c :: rest) : charAt input here = .ok c := by
  have hget : input[here]? = some c := by
    rw [← List.head?_drop, h, List.head?_cons]
  rw [charAt, hget]

theorem charAt_of_nil (hle : here ≤ input.length) (h : input.drop here = []) :
    charAt input here = .ok 0 := by
  have hend : here = input.length := Nat.le_antisymm hle (List.drop_eq_nil_iff.mp h)
  rw [charAt, List.getElem?_eq_none (by omega)]
  exact if_pos hend

theorem drop_succ_of_cons (h : input.drop here = c :: rest) : input.drop (here + 1) = rest := by
  rw [← List.drop_drop, h, List.drop_one, List.tail_cons]

theorem lt_of_drop_cons (h : input.drop here = c :: rest) : here < input.length := by
  by_contra hle
  rw [List.drop_eq_nil_iff.mpr (by omega)] at h
  cases h

theorem position_of_drop (hle : here ≤ input.length) (h : input.drop here = rest) :
    position input rest = here := by
  rw [position, ← h, List.length_drop]
  omega

theorem scanSingleQuotedAt_of_ok {c : UInt8} (h : charAt input here = .ok c) :
    scanSingleQuotedAt input begin here =
      if c = 0 then .error (.nullByte (input.drop begin))
      else if c = singleQuote then
        (charAt input (here + 1)).bind fun d =>
          if d ≠ singleQuote then .ok (here + 1) else scanSingleQuotedAt input begin (here + 2)
      else if c = backslash then
        (charAt input (here + 1)).bind fun d =>
          if d = 0 then .error (.endsInEscape (input.drop begin))
          else scanSingleQuotedAt input begin (here + 2)
      else scanSingleQuotedAt input begin (here + 1) := by
  rw [scanSingleQuotedAt]
  split
  · next herror => cases h.symm.trans herror
  · next hok =>
    cases h.symm.trans hok
    rfl

theorem scanDoubleQuotedAt_of_ok {c : UInt8} (h : charAt input here = .ok c) :
    scanDoubleQuotedAt input begin here =
      if c = 0 then .error (.nullByte (input.drop begin))
      else if c = backslash then
        (charAt input (here + 1)).bind fun d =>
          if d = 0 then .error (.endsInEscape (input.drop begin))
          else scanDoubleQuotedAt input begin (here + 2)
      else if c = doubleQuote then .ok (here + 1)
      else scanDoubleQuotedAt input begin (here + 1) := by
  rw [scanDoubleQuotedAt]
  split
  · next herror => cases h.symm.trans herror
  · next hok =>
    cases h.symm.trans hok
    rfl

theorem scanUnquotedAt_of_ok {c : UInt8} (h : charAt input here = .ok c) :
    scanUnquotedAt input here =
      if c ≠ comma ∧ c ≠ semicolon ∧ c ≠ rightBrace then scanUnquotedAt input (here + 1)
      else .ok here := by
  rw [scanUnquotedAt]
  split
  · next herror => cases h.symm.trans herror
  · next hok =>
    cases h.symm.trans hok
    rfl

theorem scanSingleQuotedAt_eq (begin : Nat) {text : List Byte} (hle : here ≤ input.length)
    (htext : input.drop here = text) :
    scanSingleQuotedAt input begin here =
      (scanSingleQuoted (input.drop begin) text).map (position input) := by
  induction text using scanSingleQuoted.induct generalizing here with
  | case1 =>
    rw [scanSingleQuotedAt_of_ok (charAt_of_nil hle htext), if_pos rfl]
    rfl
  | case2 =>
    have hlt := lt_of_drop_cons htext
    have hnext := drop_succ_of_cons htext
    rw [scanSingleQuotedAt_of_ok (charAt_of_cons htext), if_neg (by decide), if_pos rfl,
      charAt_of_nil hlt hnext, scanSingleQuoted_close (by decide)]
    exact congrArg Except.ok (position_of_drop hlt hnext).symm
  | case3 rest ih =>
    have hnext := drop_succ_of_cons htext
    have hlt := lt_of_drop_cons hnext
    rw [scanSingleQuotedAt_of_ok (charAt_of_cons htext), if_neg (by decide), if_pos rfl,
      charAt_of_cons hnext, scanSingleQuoted_doubled]
    exact ih hlt (drop_succ_of_cons hnext)
  | case4 d rest hd =>
    have hnext := drop_succ_of_cons htext
    have hlt := lt_of_drop_cons htext
    rw [scanSingleQuotedAt_of_ok (charAt_of_cons htext), if_neg (by decide), if_pos rfl,
      charAt_of_cons hnext, scanSingleQuoted_close (by simpa using hd)]
    refine (if_pos fun h => hd (Subtype.ext h)).trans ?_
    exact congrArg Except.ok (position_of_drop hlt hnext).symm
  | case5 =>
    rw [scanSingleQuotedAt_of_ok (charAt_of_cons htext), if_neg (by decide), if_neg (by decide),
      if_pos rfl, charAt_of_nil (lt_of_drop_cons htext) (drop_succ_of_cons htext)]
    rfl
  | case6 d rest _ ih =>
    have hnext := drop_succ_of_cons htext
    rw [scanSingleQuotedAt_of_ok (charAt_of_cons htext), if_neg (by decide), if_neg (by decide),
      if_pos rfl, charAt_of_cons hnext, scanSingleQuoted_escaped]
    refine (if_neg d.2).trans ?_
    exact ih (lt_of_drop_cons hnext) (drop_succ_of_cons hnext)
  | case7 c rest hq hb ih =>
    rw [scanSingleQuotedAt_of_ok (charAt_of_cons htext), if_neg c.2,
      if_neg fun h => hq (Subtype.ext h), if_neg fun h => hb (Subtype.ext h),
      scanSingleQuoted_plain hq hb]
    exact ih (lt_of_drop_cons htext) (drop_succ_of_cons htext)

theorem scanDoubleQuotedAt_eq (begin : Nat) {text : List Byte} (hle : here ≤ input.length)
    (htext : input.drop here = text) :
    scanDoubleQuotedAt input begin here =
      (scanDoubleQuoted (input.drop begin) text).map (position input) := by
  induction text using scanDoubleQuoted.induct generalizing here with
  | case1 =>
    rw [scanDoubleQuotedAt_of_ok (charAt_of_nil hle htext), if_pos rfl]
    rfl
  | case2 =>
    rw [scanDoubleQuotedAt_of_ok (charAt_of_cons htext), if_neg (by decide), if_pos rfl,
      charAt_of_nil (lt_of_drop_cons htext) (drop_succ_of_cons htext)]
    rfl
  | case3 d rest ih =>
    have hnext := drop_succ_of_cons htext
    rw [scanDoubleQuotedAt_of_ok (charAt_of_cons htext), if_neg (by decide), if_pos rfl,
      charAt_of_cons hnext, scanDoubleQuoted_escaped]
    refine (if_neg d.2).trans ?_
    exact ih (lt_of_drop_cons hnext) (drop_succ_of_cons hnext)
  | case4 rest _ =>
    rw [scanDoubleQuotedAt_of_ok (charAt_of_cons htext), if_neg (by decide), if_neg (by decide),
      if_pos rfl, scanDoubleQuoted_close]
    exact congrArg Except.ok
      (position_of_drop (lt_of_drop_cons htext) (drop_succ_of_cons htext)).symm
  | case5 c rest hb hq ih =>
    rw [scanDoubleQuotedAt_of_ok (charAt_of_cons htext), if_neg c.2,
      if_neg fun h => hb (Subtype.ext h), if_neg fun h => hq (Subtype.ext h),
      scanDoubleQuoted_plain hq hb]
    exact ih (lt_of_drop_cons htext) (drop_succ_of_cons htext)

theorem charAt_past_end : charAt input (input.length + 1) = .error .readsPastEnd := by
  rw [charAt, List.getElem?_eq_none (by omega)]
  exact if_neg (by omega)

/-- Only this scanner does not test for the NUL. -/
theorem scanUnquotedAt_eq {text : List Byte} (hle : here ≤ input.length)
    (htext : input.drop here = text) :
    scanUnquotedAt input here = (scan_unquoted_string text).map (position input) := by
  induction text generalizing here with
  | nil =>
    obtain rfl : here = input.length := Nat.le_antisymm hle (List.drop_eq_nil_iff.mp htext)
    rw [scanUnquotedAt_of_ok (charAt_of_nil hle htext), if_pos (by decide), scanUnquotedAt]
    split
    · next herror =>
      cases herror.symm.trans charAt_past_end
      rfl
    · next hok => cases hok.symm.trans charAt_past_end
  | cons c rest ih =>
    have hstop : (c.1 ≠ comma ∧ c.1 ≠ semicolon ∧ c.1 ≠ rightBrace) ↔
        ¬ (c = comma ∨ c = semicolon ∨ c = rightBrace) := by
      simp [Subtype.ext_iff]
    rw [scanUnquotedAt_of_ok (charAt_of_cons htext), scan_unquoted_string]
    by_cases hc : c = comma ∨ c = semicolon ∨ c = rightBrace
    · rw [if_pos hc, if_neg fun h => hstop.mp h hc]
      exact congrArg Except.ok (position_of_drop hle htext).symm
    · rw [if_neg hc, if_pos (hstop.mpr hc)]
      exact ih (lt_of_drop_cons htext) (drop_succ_of_cons htext)

end Scan

section Copy

variable {input : List Byte} {here fin : Nat}

def segment (input : List Byte) (fin here : Nat) : List Byte :=
  (input.drop here).take (fin - (here + 1))

theorem segment_succ (input : List Byte) (fin here : Nat) :
    segment input fin (here + 1) = (segment input fin here).tail := by
  rw [segment, segment, ← List.drop_one, List.drop_take, List.drop_drop, Nat.sub_sub]

theorem unescapeAt_of_nil {escapes : UInt8 → Bool} (hfin : fin ≤ input.length)
    (h : segment input fin here = []) (output : List UInt8) :
    unescapeAt input escapes fin here output = .ok output := by
  have hend : ¬ here + 1 < fin := by
    intro hlt
    have hlength := congrArg List.length h
    rw [segment, List.length_take, List.length_drop, List.length_nil] at hlength
    omega
  rw [unescapeAt, if_neg hend]

theorem unescapeAt_of_cons {escapes : UInt8 → Bool} {c : Byte} {rest : List Byte}
    (h : segment input fin here = c :: rest) (output : List UInt8) :
    unescapeAt input escapes fin here output =
      unescapeAt input escapes fin (if escapes c then here + 2 else here + 1) (output ++ [c.1]) := by
  have hlt : here + 1 < fin := by
    by_contra hge
    rw [segment, Nat.sub_eq_zero_of_le (by omega), List.take_zero] at h
    cases h
  obtain ⟨text, htext⟩ : ∃ text, input.drop here = c :: text := by
    rw [segment] at h
    cases htext : input.drop here with
    | nil =>
      rw [htext, List.take_nil] at h
      cases h
    | cons d text =>
      obtain ⟨n, hn⟩ := Nat.exists_eq_add_one_of_ne_zero (by omega : fin - (here + 1) ≠ 0)
      rw [htext, hn, List.take_succ_cons, List.cons.injEq] at h
      exact ⟨text, by rw [h.1]⟩
  rw [unescapeAt, if_pos hlt, charAt_of_cons htext]
  rfl

theorem unescapeAt_eq {escapes : UInt8 → Bool} (hfin : fin ≤ input.length) {text : List Byte}
    (htext : segment input fin here = text) (output : List UInt8) :
    unescapeAt input escapes fin here output =
      .ok (output ++ (unescape (fun c => escapes c) text).map Subtype.val) := by
  induction text using unescape.induct generalizing here output with
  | case1 => rw [unescapeAt_of_nil hfin htext, unescape, List.map_nil, List.append_nil]
  | case2 c =>
    have hnext : segment input fin (here + 1) = [] := by rw [segment_succ, htext, List.tail_cons]
    have hnext' : segment input fin (here + 2) = [] := by
      rw [segment_succ, hnext, List.tail_nil]
    have hsegment : segment input fin (if escapes c then here + 2 else here + 1) = [] := by
      split
      · exact hnext'
      · exact hnext
    rw [unescapeAt_of_cons htext, unescapeAt_of_nil hfin hsegment, unescape]
    rfl
  | case3 c d rest ih ih' =>
    have hnext : segment input fin (here + 1) = d :: rest := by
      rw [segment_succ, htext, List.tail_cons]
    have hnext' : segment input fin (here + 2) = rest := by
      rw [segment_succ, hnext, List.tail_cons]
    rw [unescapeAt_of_cons htext, unescape]
    split
    · rw [ih hnext', List.map_cons, List.append_assoc, List.singleton_append]
    · rw [ih' hnext, List.map_cons, List.append_assoc, List.singleton_append]

theorem between_drop (begin : Nat) (hfin : fin ≤ input.length) :
    between (input.drop begin) (input.drop fin) = (input.drop begin).take (fin - begin) := by
  rw [between, List.length_drop, List.length_drop]
  congr 1
  omega

theorem between_quotes (begin : Nat) (hfin : fin ≤ input.length) :
    (between (input.drop begin) (input.drop fin)).tail.dropLast =
      segment input fin (begin + 1) := by
  rw [between_drop begin hfin, ← List.drop_one, List.drop_take, List.drop_drop,
    List.dropLast_eq_take, List.take_take, segment, List.length_take, List.length_drop]
  congr 1
  omega

theorem mapM_charAt (n : Nat) {begin : Nat} (hle : begin + n ≤ input.length) :
    (List.range' begin n).mapM (charAt input) =
      .ok (((input.drop begin).take n).map Subtype.val) := by
  induction n generalizing begin with
  | zero => rfl
  | succ n ih =>
    obtain ⟨c, rest, htext⟩ : ∃ c rest, input.drop begin = c :: rest :=
      List.exists_cons_of_ne_nil (by rw [ne_eq, List.drop_eq_nil_iff]; omega)
    rw [List.range'_succ, List.mapM_cons, charAt_of_cons htext, ih (by omega),
      drop_succ_of_cons htext, htext]
    rfl

theorem copyAt_eq {begin : Nat} (hle : begin ≤ fin) (hfin : fin ≤ input.length) :
    copyAt input begin fin =
      .ok ((between (input.drop begin) (input.drop fin)).map Subtype.val) := by
  rw [copyAt, mapM_charAt _ (by omega), between_drop begin hfin]

end Copy

/-! One call. -/

section Next

variable {input rest : List Byte} {pos_ fin : Nat}

theorem drop_position (h : rest <:+ input.drop pos_) : input.drop (position input rest) = rest :=
  (List.suffix_iff_eq_drop.mp (h.trans (List.drop_suffix _ _))).symm

theorem skipSeparatorAt_eq (hfin : fin ≤ input.length) :
    skipSeparatorAt input fin = .ok (position input (skipSeparator (input.drop fin))) := by
  cases htext : input.drop fin with
  | nil =>
    rw [skipSeparatorAt, charAt_of_nil hfin htext]
    exact congrArg Except.ok (position_of_drop hfin htext).symm
  | cons c rest =>
    have hskip : (c.1 = comma ∨ c.1 = semicolon) ↔ (c = comma ∨ c = semicolon) := by
      rw [Subtype.val_inj, Subtype.val_inj]
    rw [skipSeparatorAt, charAt_of_cons htext, skipSeparator]
    refine congrArg Except.ok ?_
    by_cases hc : c = comma ∨ c = semicolon
    · rw [if_pos hc, if_pos (hskip.mpr hc)]
      exact (position_of_drop (lt_of_drop_cons htext) (drop_succ_of_cons htext)).symm
    · rw [if_neg hc, if_neg (mt hskip.mp hc)]
      exact (position_of_drop hfin htext).symm

def lift (input : List Byte) (next : (Juncture × List Byte) × Option Position) :
    (Juncture × List UInt8) × Option Nat :=
  ((next.1.1, next.1.2.map Subtype.val), next.2.map (position input))

theorem getNextAt_of_token {found : Juncture} (value : List Byte)
    (h : tokenAt input pos_ = .ok ((found, value.map Subtype.val), fin))
    (hfin : fin ≤ input.length) :
    getNextAt input (some pos_) =
      .ok (lift input ((found, value), some (skipSeparator (input.drop fin)))) := by
  rw [getNextAt, h]
  change (skipSeparatorAt input fin).bind _ = _
  rw [skipSeparatorAt_eq hfin]
  rfl

theorem getNextAt_of_error {e : Failure} (h : tokenAt input pos_ = .error e) :
    getNextAt input (some pos_) = .error e := by
  rw [getNextAt, h]
  rfl

theorem tokenAt_of_ok {c : UInt8} (h : charAt input pos_ = .ok c) : tokenAt input pos_ =
    if c = 0 then .ok ((.done, []), pos_)
    else if c = leftBrace then .ok ((.row_start, []), pos_ + 1)
    else if c = rightBrace then .ok ((.row_end, []), pos_ + 1)
    else if c = singleQuote then
      (scanSingleQuotedAt input pos_ (pos_ + 1)).bind fun fin =>
        (unescapeAt input (fun c => c = singleQuote || c = backslash) fin (pos_ + 1) []).bind
          fun value => .ok ((.string_value, value), fin)
    else if c = doubleQuote then
      (scanDoubleQuotedAt input pos_ (pos_ + 1)).bind fun fin =>
        (unescapeAt input (fun c => c = backslash) fin (pos_ + 1) []).bind
          fun value => .ok ((.string_value, value), fin)
    else
      (scanUnquotedAt input pos_).bind fun fin => (copyAt input pos_ fin).bind fun value =>
        if value = null.map Subtype.val then .ok ((.null_value, []), fin)
        else .ok ((.string_value, value), fin) := by
  rw [tokenAt, h]
  rfl

theorem position_le (input rest : List Byte) : position input rest ≤ input.length :=
  Nat.sub_le _ _

theorem unescapeAt_token (escapes : UInt8 → Bool) (h : rest <:+ input.drop pos_) :
    unescapeAt input escapes (position input rest) (pos_ + 1) [] =
      .ok ((unescape (fun c => escapes c) (between (input.drop pos_) rest).tail.dropLast).map
        Subtype.val) := by
  have hbetween := between_quotes pos_ (position_le input rest)
  rw [drop_position h] at hbetween
  rw [unescapeAt_eq (position_le input rest) hbetween.symm, List.nil_append]

theorem parse_single_quoted_val (begin fin : Position) :
    parse_single_quoted_string begin fin =
      unescape (fun c => c.1 = singleQuote || c.1 = backslash)
        (between begin fin).tail.dropLast := by
  rw [parse_single_quoted_string]
  congr 1
  funext c
  simp only [Subtype.ext_iff]

theorem parse_double_quoted_val (begin fin : Position) :
    parse_double_quoted_string begin fin =
      unescape (fun c => c.1 = backslash) (between begin fin).tail.dropLast := by
  rw [parse_double_quoted_string]
  congr 1
  funext c
  simp only [Subtype.ext_iff]

theorem ext_ne {c d : Byte} (h : c ≠ d) : c.1 ≠ d.1 := fun h' => h (Subtype.ext h')

theorem getNextAt_of_rest {found : Juncture} (value : List Byte) (h : rest <:+ input.drop pos_)
    (htoken : tokenAt input pos_ = .ok ((found, value.map Subtype.val), position input rest)) :
    getNextAt input (some pos_) = .ok (lift input ((found, value), some (skipSeparator rest))) := by
  rw [getNextAt_of_token value htoken (position_le input rest), drop_position h]

theorem getNextAt_of_scan {escapes : UInt8 → Bool} {scan : Except Failure Position}
    (hsuffix : ∀ fin, scan = .ok fin → fin <:+ input.drop pos_)
    (htoken : tokenAt input pos_ = (scan.map (position input)).bind fun fin =>
      (unescapeAt input escapes fin (pos_ + 1) []).bind fun value =>
        .ok ((.string_value, value), fin)) :
    getNextAt input (some pos_) =
      (scan.bind fun fin => .ok ((.string_value,
        unescape (fun c => escapes c) (between (input.drop pos_) fin).tail.dropLast),
        some (skipSeparator fin))).map (lift input) := by
  cases scan with
  | error e => exact getNextAt_of_error htoken
  | ok fin =>
    have hfin := hsuffix fin rfl
    change _ = (unescapeAt input _ (position input fin) _ _).bind _ at htoken
    rw [unescapeAt_token _ hfin] at htoken
    exact getNextAt_of_rest _ hfin htoken

theorem getNextAt_of_unquoted (hpos : pos_ ≤ input.length)
    (htoken : tokenAt input pos_ = (scanUnquotedAt input pos_).bind fun fin =>
      (copyAt input pos_ fin).bind fun value =>
        if value = null.map Subtype.val then .ok ((.null_value, []), fin)
        else .ok ((.string_value, value), fin)) :
    getNextAt input (some pos_) =
      ((scan_unquoted_string (input.drop pos_)).bind fun fin =>
        if between (input.drop pos_) fin = null then
          .ok ((.null_value, []), some (skipSeparator fin))
        else .ok ((.string_value, between (input.drop pos_) fin), some (skipSeparator fin))).map
          (lift input) := by
  rw [scanUnquotedAt_eq hpos rfl] at htoken
  cases hscan : scan_unquoted_string (input.drop pos_) with
  | error e =>
    rw [hscan] at htoken
    exact getNextAt_of_error htoken
  | ok fin =>
    have hsuffix := scan_unquoted_suffix hscan
    have hle : pos_ ≤ position input fin := by
      have := hsuffix.length_le
      rw [List.length_drop] at this
      rw [position]
      omega
    have hnull : (between (input.drop pos_) fin).map Subtype.val = null.map Subtype.val ↔
        between (input.drop pos_) fin = null := List.map_inj_right Subtype.val_injective
    rw [hscan] at htoken
    change _ = (copyAt input pos_ (position input fin)).bind _ at htoken
    rw [copyAt_eq hle (position_le input fin), drop_position hsuffix] at htoken
    change _ = (if _ then _ else _) at htoken
    change _ = Except.map _ (if _ then _ else _)
    by_cases hvalue : between (input.drop pos_) fin = null
    · rw [if_pos (hnull.mpr hvalue)] at htoken
      rw [if_pos hvalue]
      exact getNextAt_of_rest [] hsuffix htoken
    · rw [if_neg (mt hnull.mp hvalue)] at htoken
      rw [if_neg hvalue]
      exact getNextAt_of_rest _ hsuffix htoken

/-- A call on positions is one on the text from there. -/
theorem getNextAt_eq (hpos : pos_ ≤ input.length) :
    getNextAt input (some pos_) =
      (getNext (some (input.drop pos_))).map (lift input) := by
  cases htext : input.drop pos_ with
  | nil =>
    have htoken := tokenAt_of_ok (charAt_of_nil hpos htext)
    rw [if_pos rfl] at htoken
    rw [getNextAt_of_token [] htoken hpos, htext]
    rfl
  | cons c rest =>
    have hlt := lt_of_drop_cons htext
    have hnext := drop_succ_of_cons htext
    have htoken := tokenAt_of_ok (charAt_of_cons htext)
    rw [if_neg c.2] at htoken
    rw [getNext]
    by_cases hleft : c = leftBrace
    · rw [if_pos hleft]
      rw [if_pos (congrArg Subtype.val hleft)] at htoken
      rw [getNextAt_of_token [] htoken hlt, hnext]
      rfl
    rw [if_neg hleft]
    rw [if_neg (ext_ne hleft)] at htoken
    by_cases hright : c = rightBrace
    · rw [if_pos hright]
      rw [if_pos (congrArg Subtype.val hright)] at htoken
      rw [getNextAt_of_token [] htoken hlt, hnext]
      rfl
    rw [if_neg hright]
    rw [if_neg (ext_ne hright)] at htoken
    by_cases hsingle : c = singleQuote
    · rw [if_pos (congrArg Subtype.val hsingle), scanSingleQuotedAt_eq pos_ hlt hnext] at htoken
      rw [if_pos hsingle, getNextAt_of_scan (fun fin hfin => ?_) htoken, htext]
      · simp only [parse_single_quoted_val]
        rfl
      · rw [htext]
        exact (scanSingleQuoted_suffix hfin).trans (List.suffix_cons c rest)
    rw [if_neg hsingle]
    rw [if_neg (ext_ne hsingle)] at htoken
    by_cases hdouble : c = doubleQuote
    · rw [if_pos (congrArg Subtype.val hdouble), scanDoubleQuotedAt_eq pos_ hlt hnext] at htoken
      rw [if_pos hdouble, getNextAt_of_scan (fun fin hfin => ?_) htoken, htext]
      · simp only [parse_double_quoted_val]
        rfl
      · rw [htext]
        exact (scanDoubleQuoted_suffix hfin).trans (List.suffix_cons c rest)
    rw [if_neg hdouble]
    rw [if_neg (ext_ne hdouble)] at htoken
    rw [getNextAt_of_unquoted hpos htoken, htext]
    rfl

end Next

/-! Calls one after another. -/

/-- The positions at which calls begin, until one returns `done` or throws. -/
inductive Reached (input : List Byte) : Nat → Prop
  | start : Reached input 0
  | next {pos_ fin : Nat} {found : Juncture × List UInt8} :
    Reached input pos_ → getNextAt input (some pos_) = .ok (found, some fin) →
    found.1 ≠ .done → Reached input fin

section Calls

variable {input : List Byte} {pos_ : Nat}

theorem getNextAt_of_unclosed (hpos : pos_ ≤ input.length) (h : Unclosed (input.drop pos_)) :
    ∃ what, getNextAt input (some pos_) = .error (.ArgumentError what) := by
  obtain ⟨what, hwhat⟩ := getNext_of_unclosed h
  exact ⟨what, by rw [getNextAt_eq hpos, hwhat]; rfl⟩

theorem getNextAt_of_undelimited (hpos : pos_ ≤ input.length)
    (h : Undelimited (input.drop pos_)) :
    getNextAt input (some pos_) = .error .readsPastEnd := by
  rw [getNextAt_eq hpos, getNext_of_undelimited h]
  rfl

theorem getNextAt_at_end : getNextAt input (some input.length) =
    .ok ((.done, []), some input.length) := by
  have hend := position_of_drop (Nat.le_refl input.length) List.drop_length
  rw [getNextAt_eq (Nat.le_refl _), List.drop_length, getNext]
  change Except.ok (_, some (position input [])) = _
  rw [hend]
  rfl

theorem getNextAt_moves (hpos : pos_ < input.length) (hclosed : ¬ Unclosed (input.drop pos_))
    (hdelimited : ¬ Undelimited (input.drop pos_)) :
    ∃ found fin, getNextAt input (some pos_) =
        .ok ((found.1, found.2.map Subtype.val), some fin) ∧
      getNext (some (input.drop pos_)) = .ok (found, some (input.drop fin)) ∧
      found.1 ≠ .done ∧ pos_ < fin ∧ fin ≤ input.length := by
  obtain ⟨c, rest, htext⟩ : ∃ c rest, input.drop pos_ = c :: rest :=
    List.exists_cons_of_ne_nil (by rw [ne_eq, List.drop_eq_nil_iff]; omega)
  rw [htext] at hclosed hdelimited
  obtain ⟨found, fin, hnext, hfound, hsuffix⟩ := getNext_returns hclosed hdelimited
  have hrest : fin <:+ input.drop pos_ := htext ▸ hsuffix.trans (List.suffix_cons c rest)
  refine ⟨found, position input fin, by rw [getNextAt_eq (by omega), htext, hnext]; rfl,
    by rw [htext, hnext, drop_position hrest], hfound, ?_, position_le input fin⟩
  have hlength := congrArg List.length htext
  have hfin := hsuffix.length_le
  rw [List.length_drop, List.length_cons] at hlength
  rw [position]
  omega

theorem getNextAt_ok {found : Juncture × List UInt8} {next : Option Nat}
    (hpos : pos_ ≤ input.length) (h : getNextAt input (some pos_) = .ok (found, next))
    (hfound : found.1 ≠ .done) : ∃ fin, next = some fin ∧ pos_ < fin ∧ fin ≤ input.length := by
  obtain hlt | rfl := Nat.lt_or_eq_of_le hpos
  · by_cases hclosed : Unclosed (input.drop pos_)
    · obtain ⟨what, hwhat⟩ := getNextAt_of_unclosed hpos hclosed
      cases h.symm.trans hwhat
    by_cases hdelimited : Undelimited (input.drop pos_)
    · cases h.symm.trans (getNextAt_of_undelimited hpos hdelimited)
    obtain ⟨found', fin, hnext, -, -, hfin⟩ := getNextAt_moves hlt hclosed hdelimited
    cases h.symm.trans hnext
    exact ⟨fin, rfl, hfin⟩
  · cases h.symm.trans getNextAt_at_end
    exact absurd rfl hfound

theorem Reached.le (h : Reached input pos_) : pos_ ≤ input.length := by
  induction h with
  | start => exact Nat.zero_le _
  | next _ hnext hfound ih =>
    obtain ⟨fin, hfin, -, hle⟩ := getNextAt_ok ih hnext hfound
    cases hfin
    exact hle

theorem getNextAt_readsPastEnd_iff (hpos : pos_ ≤ input.length) :
    getNextAt input (some pos_) = .error .readsPastEnd ↔ Undelimited (input.drop pos_) := by
  refine ⟨fun h => ?_, getNextAt_of_undelimited hpos⟩
  by_contra hdelimited
  obtain hlt | rfl := Nat.lt_or_eq_of_le hpos
  · by_cases hclosed : Unclosed (input.drop pos_)
    · obtain ⟨what, hwhat⟩ := getNextAt_of_unclosed hpos hclosed
      cases h.symm.trans hwhat
    · obtain ⟨found, fin, hnext, -⟩ := getNextAt_moves hlt hclosed hdelimited
      cases h.symm.trans hnext
  · cases h.symm.trans getNextAt_at_end

end Calls

/-- No call reads or moves past the terminating NUL exactly when every unquoted token that is
reached has a separator or a closing brace behind it. -/
theorem reads_inside_iff (input : List Byte) :
    (∀ pos_, Reached input pos_ →
        pos_ ≤ input.length ∧ getNextAt input (some pos_) ≠ .error .readsPastEnd) ↔
      ∀ pos_, Reached input pos_ → ¬ Undelimited (input.drop pos_) := by
  refine forall₂_congr fun pos_ hpos => ?_
  rw [ne_eq, getNextAt_readsPastEnd_iff hpos.le]
  exact and_iff_right hpos.le

/-- The text `a`. -/
theorem reads_past_end : ∃ pos_, Reached [⟨97, by decide⟩] pos_ ∧
    getNextAt [⟨97, by decide⟩] (some pos_) = .error .readsPastEnd := by
  refine ⟨0, .start, getNextAt_of_undelimited (by decide) ?_⟩
  refine ⟨by decide, by decide, by decide, by decide, fun d hd => ?_⟩
  rw [List.mem_singleton.mp hd]
  unfold IsDelimiter
  decide

end MysqlConnectPool.ArrayParser
