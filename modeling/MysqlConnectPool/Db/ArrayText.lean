import MysqlConnectPool.Db.ArrayParser

/-! Arrays as text, and what the parser makes of the text. -/

namespace MysqlConnectPool.ArrayParser

inductive Elements
  | nil
  | null (rest : Elements)
  | string (s : List Byte) (rest : Elements)
  | array (elements rest : Elements)

def escape : List Byte → List Byte
  | [] => []
  | c :: s => if c = doubleQuote ∨ c = backslash then backslash :: c :: escape s else c :: escape s

def Elements.join (element : List Byte) (rest : Elements) (text : List Byte) : List Byte :=
  match rest with
  | .nil => element
  | _ => element ++ comma :: text

def Elements.render : Elements → List Byte
  | .nil => []
  | .null rest => rest.join ArrayParser.null rest.render
  | .string s rest => rest.join (doubleQuote :: (escape s ++ [doubleQuote])) rest.render
  | .array elements rest => rest.join (leftBrace :: (elements.render ++ [rightBrace])) rest.render

def Elements.events : Elements → List (Juncture × List Byte)
  | .nil => []
  | .null rest => (.null_value, []) :: rest.events
  | .string s rest => (.string_value, s) :: rest.events
  | .array elements rest => (.row_start, []) :: (elements.events ++ (.row_end, []) :: rest.events)

def Elements.mapStrings (f : List Byte → List Byte) : Elements → Elements
  | .nil => .nil
  | .null rest => .null (rest.mapStrings f)
  | .string s rest => .string (f s) (rest.mapStrings f)
  | .array elements rest => .array (elements.mapStrings f) (rest.mapStrings f)

def Elements.unquoted : Elements → Prop
  | .nil => True
  | .null rest => rest.unquoted
  | .string s rest => doubleQuote ∉ s ∧ rest.unquoted
  | .array elements rest => elements.unquoted ∧ rest.unquoted

/-- The unescaper turns an escaped double quote into a backslash. -/
def garble (s : List Byte) : List Byte := s.map fun c => if c = doubleQuote then backslash else c

theorem garble_cons (c : Byte) (s : List Byte) :
    garble (c :: s) = (if c = doubleQuote then backslash else c) :: garble s := rfl

theorem garble_eq_self {s : List Byte} : garble s = s ↔ doubleQuote ∉ s := by
  induction s with
  | nil => simp [garble]
  | cons c s ih =>
    have hne : backslash ≠ doubleQuote := by decide
    rw [garble_cons, List.cons.injEq, ih, List.mem_cons, not_or]
    refine and_congr_left fun _ => ?_
    by_cases hc : c = doubleQuote
    · subst hc
      simp [hne]
    · simp [hc, Ne.symm hc]

theorem length_events_mapStrings (elements : Elements) (f : List Byte → List Byte) :
    (elements.mapStrings f).events.length = elements.events.length := by
  induction elements with
  | nil => rfl
  | null rest ih | string s rest ih => simp [Elements.mapStrings, Elements.events, ih]
  | array elements rest ih ih' => simp [Elements.mapStrings, Elements.events, ih, ih']

theorem mapStrings_events {elements : Elements} :
    (elements.mapStrings garble).events = elements.events ↔ elements.unquoted := by
  induction elements with
  | nil => simp [Elements.mapStrings, Elements.events, Elements.unquoted]
  | null rest ih => simpa [Elements.mapStrings, Elements.events, Elements.unquoted] using ih
  | string s rest ih =>
    simp [Elements.mapStrings, Elements.events, Elements.unquoted, ih, garble_eq_self]
  | array elements rest ih ih' =>
    have hlength : (elements.mapStrings garble).events.length = elements.events.length :=
      length_events_mapStrings elements garble
    simp only [Elements.mapStrings, Elements.events, Elements.unquoted, List.cons.injEq, true_and]
    constructor
    · intro h
      obtain ⟨h, h'⟩ := List.append_inj h hlength
      exact ⟨ih.mp h, ih'.mp (List.cons.inj h').2⟩
    · rintro ⟨h, h'⟩
      rw [ih.mpr h, ih'.mpr h']

section Scan

variable {begin tail : List Byte} {c d : Byte}

theorem scanDoubleQuoted_close : scanDoubleQuoted begin (doubleQuote :: tail) = .ok tail := by
  have hne : doubleQuote ≠ backslash := by decide
  rw [scanDoubleQuoted.eq_def]
  simp [hne]

theorem scanDoubleQuoted_escaped :
    scanDoubleQuoted begin (backslash :: c :: tail) = scanDoubleQuoted begin tail := by
  rw [scanDoubleQuoted.eq_def]
  simp

theorem scanDoubleQuoted_plain (hq : c ≠ doubleQuote) (hb : c ≠ backslash) :
    scanDoubleQuoted begin (c :: tail) = scanDoubleQuoted begin tail := by
  rw [scanDoubleQuoted.eq_def]
  simp [hq, hb]

theorem scanDoubleQuoted_escape (s : List Byte) :
    scanDoubleQuoted begin (escape s ++ doubleQuote :: tail) = .ok tail := by
  induction s with
  | nil => exact scanDoubleQuoted_close
  | cons c s ih =>
    by_cases hc : c = doubleQuote ∨ c = backslash
    · rw [escape, if_pos hc]
      exact scanDoubleQuoted_escaped.trans ih
    · obtain ⟨hq, hb⟩ := not_or.mp hc
      rw [escape, if_neg hc]
      exact (scanDoubleQuoted_plain hq hb).trans ih

theorem unescape_escaped {escapes : Byte → Bool} (h : escapes c = true) :
    unescape escapes (c :: d :: tail) = c :: unescape escapes tail := by
  rw [unescape, if_pos h]

theorem unescape_plain {escapes : Byte → Bool} (h : escapes c = false) :
    unescape escapes (c :: tail) = c :: unescape escapes tail := by
  cases tail with
  | nil => rfl
  | cons d tail => rw [unescape, h, if_neg Bool.false_ne_true]

theorem unescape_escape (s : List Byte) :
    unescape (fun c => c = backslash) (escape s) = garble s := by
  induction s with
  | nil => rfl
  | cons c s ih =>
    rw [garble_cons, escape]
    by_cases hc : c = doubleQuote ∨ c = backslash
    · rw [if_pos hc, unescape_escaped (decide_eq_true rfl), ih]
      rcases hc with hc | hc <;> simp [hc]
    · obtain ⟨hq, hb⟩ := not_or.mp hc
      rw [if_neg hc, unescape_plain (decide_eq_false hb), ih, if_neg hq]

theorem between_append (token tail : List Byte) : between (token ++ tail) tail = token := by
  simp [between]

theorem scan_unquoted_null (tail : List Byte) (hc : c = comma ∨ c = rightBrace) :
    scan_unquoted_string (null ++ c :: tail) = .ok (c :: tail) := by
  change scan_unquoted_string (_ :: _ :: _ :: _ :: c :: tail) = _
  rw [scan_unquoted_string, if_neg (by decide), scan_unquoted_string, if_neg (by decide),
    scan_unquoted_string, if_neg (by decide), scan_unquoted_string, if_neg (by decide),
    scan_unquoted_string, if_pos (hc.imp_right Or.inr)]

end Scan

section Next

variable {tail : List Byte}

theorem getNext_row_start :
    getNext (some (leftBrace :: tail)) = .ok ((.row_start, []), some (skipSeparator tail)) := by
  rw [getNext, if_pos rfl]

theorem getNext_row_end :
    getNext (some (rightBrace :: tail)) = .ok ((.row_end, []), some (skipSeparator tail)) := by
  rw [getNext, if_neg (by decide), if_pos rfl]

theorem getNext_string (s : List Byte) :
    getNext (some (doubleQuote :: (escape s ++ doubleQuote :: tail))) =
      .ok ((.string_value, garble s), some (skipSeparator tail)) := by
  have hbegin : doubleQuote :: (escape s ++ doubleQuote :: tail) =
      (doubleQuote :: (escape s ++ [doubleQuote])) ++ tail := by simp
  rw [getNext, if_neg (by decide), if_neg (by decide), if_neg (by decide), if_pos rfl,
    scan_double_quoted_string, List.tail_cons, scanDoubleQuoted_escape]
  change Except.ok ((Juncture.string_value, parse_double_quoted_string _ tail), _) = _
  rw [parse_double_quoted_string, hbegin, between_append, List.tail_cons, List.dropLast_concat,
    unescape_escape]

theorem getNext_null {c : Byte} (hc : c = comma ∨ c = rightBrace) :
    getNext (some (null ++ c :: tail)) = .ok ((.null_value, []), some (skipSeparator (c :: tail))) := by
  have hscan := scan_unquoted_null tail hc
  have hbetween := between_append null (c :: tail)
  change getNext (some (_ :: _ :: _ :: _ :: c :: tail)) = _
  rw [getNext, if_neg (by decide), if_neg (by decide), if_neg (by decide), if_neg (by decide)]
  change (scan_unquoted_string (null ++ c :: tail)).bind _ = _
  rw [hscan]
  change (if between (null ++ c :: tail) (c :: tail) = null then _ else _) = _
  rw [hbetween, if_pos rfl]

end Next

section Read

def prepend (events : List (Juncture × List Byte))
    (r : Option (Except Failure (List (Juncture × List Byte)))) :
    Option (Except Failure (List (Juncture × List Byte))) :=
  r.map fun e => e.map (events ++ ·)

theorem prepend_nil (r : Option (Except Failure (List (Juncture × List Byte)))) :
    prepend [] r = r := by
  rcases r with _ | _ | _ <;> rfl

theorem prepend_prepend (e e' : List (Juncture × List Byte))
    (r : Option (Except Failure (List (Juncture × List Byte)))) :
    prepend e (prepend e' r) = prepend (e ++ e') r := by
  rcases r with _ | _ | events
  · rfl
  · rfl
  · simp [prepend, Except.map]

theorem getAll_next {found : Juncture × List Byte} {pos_ pos' : Option Position} {fuel : Nat}
    (h : getNext pos_ = .ok (found, pos')) (hfound : found.1 ≠ .done) :
    getAll (fuel + 1) pos_ = prepend [found] (getAll fuel pos') := by
  rw [getAll, h]
  dsimp only
  rw [if_neg hfound]
  rfl

theorem join_append (element tail : List Byte) (rest : Elements) :
    ∃ c t, rest.join element rest.render ++ rightBrace :: tail = element ++ c :: t ∧
      (c = comma ∨ c = rightBrace) ∧ skipSeparator (c :: t) = rest.render ++ rightBrace :: tail := by
  cases rest with
  | nil => exact ⟨rightBrace, tail, rfl, Or.inr rfl, by rw [skipSeparator, if_neg (by decide)]; rfl⟩
  | null | string | array =>
    refine ⟨comma, _, ?_, Or.inl rfl, by rw [skipSeparator, if_pos (Or.inl rfl)]⟩
    simp [Elements.join]

theorem skipSeparator_render (elements : Elements) (tail : List Byte) :
    skipSeparator (elements.render ++ rightBrace :: tail) = elements.render ++ rightBrace :: tail := by
  have hskip : ∀ {d u}, d ≠ comma ∧ d ≠ semicolon → skipSeparator (d :: u) = d :: u :=
    fun hd => by rw [skipSeparator, if_neg (not_or.mpr hd)]
  cases elements with
  | nil => exact hskip (by decide)
  | null rest =>
    obtain ⟨c, t, htext, _, _⟩ := join_append null tail rest
    rw [Elements.render, htext]
    exact hskip (by decide)
  | string s rest =>
    obtain ⟨c, t, htext, _, _⟩ := join_append (doubleQuote :: (escape s ++ [doubleQuote])) tail rest
    rw [Elements.render, htext]
    exact hskip (by decide)
  | array elements rest =>
    obtain ⟨c, t, htext, _, _⟩ :=
      join_append (leftBrace :: (elements.render ++ [rightBrace])) tail rest
    rw [Elements.render, htext]
    exact hskip (by decide)

/-- The calls that read the elements, up to the brace that closes them. -/
theorem getAll_elements (elements : Elements) (tail : List Byte) (fuel : Nat) :
    getAll ((elements.mapStrings garble).events.length + fuel)
        (some (elements.render ++ rightBrace :: tail)) =
      prepend (elements.mapStrings garble).events (getAll fuel (some (rightBrace :: tail))) := by
  induction elements generalizing tail fuel with
  | nil =>
    rw [Elements.mapStrings, Elements.events, List.length_nil, Nat.zero_add, prepend_nil]
    rfl
  | null rest ih =>
    obtain ⟨c, t, htext, hc, hskip⟩ := join_append null tail rest
    rw [Elements.mapStrings, Elements.events, Elements.render, htext, List.length_cons,
      Nat.add_right_comm, getAll_next (getNext_null hc) nofun, hskip, ih, prepend_prepend,
      List.singleton_append]
  | string s rest ih =>
    obtain ⟨c, t, htext, _, hskip⟩ :=
      join_append (doubleQuote :: (escape s ++ [doubleQuote])) tail rest
    have hstring : (doubleQuote :: (escape s ++ [doubleQuote])) ++ c :: t =
        doubleQuote :: (escape s ++ doubleQuote :: c :: t) := by simp
    rw [Elements.mapStrings, Elements.events, Elements.render, htext, hstring, List.length_cons,
      Nat.add_right_comm, getAll_next (getNext_string s) nofun, hskip, ih, prepend_prepend,
      List.singleton_append]
  | array elements rest ih ih' =>
    obtain ⟨c, t, htext, _, hskip⟩ :=
      join_append (leftBrace :: (elements.render ++ [rightBrace])) tail rest
    have harray : (leftBrace :: (elements.render ++ [rightBrace])) ++ c :: t =
        leftBrace :: (elements.render ++ rightBrace :: c :: t) := by simp
    have hcalls : ((Elements.array elements rest).mapStrings garble).events.length + fuel =
        (elements.mapStrings garble).events.length +
          ((rest.mapStrings garble).events.length + fuel + 1) + 1 := by
      simp only [Elements.mapStrings, Elements.events, List.length_cons, List.length_append]
      omega
    rw [hcalls, Elements.render, htext, harray, getAll_next getNext_row_start nofun,
      skipSeparator_render, ih, getAll_next getNext_row_end nofun, hskip, ih', prepend_prepend,
      prepend_prepend, prepend_prepend]
    simp [Elements.mapStrings, Elements.events]

theorem length_join_ge (element : List Byte) (rest : Elements) :
    element.length + rest.render.length ≤ (rest.join element rest.render).length := by
  cases rest with
  | nil => exact Nat.le_refl _
  | null | string | array =>
    simp only [Elements.join, List.length_append, List.length_cons]
    omega

theorem length_events_le (elements : Elements) : elements.events.length ≤ elements.render.length := by
  induction elements with
  | nil => exact Nat.le_refl 0
  | null rest ih =>
    have h := length_join_ge null rest
    have hnull : null.length = 4 := rfl
    rw [Elements.events, Elements.render, List.length_cons]
    omega
  | string s rest ih =>
    have h := length_join_ge (doubleQuote :: (escape s ++ [doubleQuote])) rest
    rw [List.length_cons] at h
    rw [Elements.events, Elements.render, List.length_cons]
    omega
  | array elements rest ih ih' =>
    have h := length_join_ge (leftBrace :: (elements.render ++ [rightBrace])) rest
    simp only [List.length_cons, List.length_append, List.length_nil] at h
    simp only [Elements.events, Elements.render, List.length_cons, List.length_append]
    omega

end Read

def Elements.text (elements : Elements) : List Byte := leftBrace :: (elements.render ++ [rightBrace])

def Elements.allEvents (elements : Elements) : List (Juncture × List Byte) :=
  (.row_start, []) :: (elements.events ++ [(.row_end, []), (.done, [])])

theorem getAll_text (elements : Elements) {fuel : Nat} (hfuel : elements.text.length < fuel) :
    getAll fuel (some elements.text) = some (.ok (elements.mapStrings garble).allEvents) := by
  have hlength := length_events_le elements
  rw [← length_events_mapStrings elements garble] at hlength
  obtain ⟨n, hn⟩ : ∃ n, fuel = (elements.mapStrings garble).events.length + (n + 1 + 1) + 1 := by
    simp only [Elements.text, List.length_cons, List.length_append, List.length_nil] at hfuel
    exact ⟨fuel - (elements.mapStrings garble).events.length - 3, by omega⟩
  rw [hn, Elements.text, getAll_next getNext_row_start nofun, skipSeparator_render, getAll_elements,
    getAll_next getNext_row_end nofun]
  change prepend _ (prepend _ (prepend _ (getAll (n + 1) (some [])))) = _
  rw [getAll, getNext]
  simp [prepend, Except.map, Elements.allEvents]

/-- The text of an array reads back as the array exactly when no string in it has a double
quote. -/
theorem array_round_trip_iff (elements : Elements) {fuel : Nat}
    (hfuel : elements.text.length < fuel) :
    getAll fuel (some elements.text) = some (.ok elements.allEvents) ↔ elements.unquoted := by
  rw [getAll_text elements hfuel, Option.some.injEq, Except.ok.injEq, Elements.allEvents,
    Elements.allEvents, List.cons.injEq, List.append_left_inj, mapStrings_events]
  exact and_iff_right rfl

def nested : Elements :=
  .string [⟨97, by decide⟩, backslash, ⟨98, by decide⟩] (.array (.null .nil) .nil)

theorem array_round_trip_iff_nested :
    getAll 18 (some nested.text) = some (.ok nested.allEvents) :=
  (array_round_trip_iff nested (by decide)).mpr ⟨by decide, trivial, trivial⟩

/-- The array of the one string `"` reads back as that of one backslash. -/
theorem array_garbled :
    getAll 7 (some (Elements.string [doubleQuote] .nil).text) =
        some (.ok [(.row_start, []), (.string_value, [backslash]), (.row_end, []), (.done, [])]) ∧
      getAll 7 (some (Elements.string [doubleQuote] .nil).text) ≠
        some (.ok (Elements.string [doubleQuote] .nil).allEvents) := by
  have h := getAll_text (.string [doubleQuote] .nil)
    (show (Elements.string [doubleQuote] .nil).text.length < 7 by decide)
  refine ⟨h, ?_⟩
  rw [h]
  decide

end MysqlConnectPool.ArrayParser
