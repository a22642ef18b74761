import MysqlConnectPool.Db.ArrayText

/-! Elements in single quotes. -/

namespace MysqlConnectPool.ArrayParser

def escapeSingle : List Byte → List Byte
  | [] => []
  | c :: s =>
    if c = singleQuote ∨ c = backslash then c :: c :: escapeSingle s else c :: escapeSingle s

section Scan

variable {begin tail : List Byte} {c : Byte}

theorem scanSingleQuoted_close (h : tail.head? ≠ some singleQuote) :
    scanSingleQuoted begin (singleQuote :: tail) = .ok tail := by
  cases tail with
  | nil => rw [scanSingleQuoted, if_pos rfl]
  | cons d tail =>
    have hd : d ≠ singleQuote := fun hd => h (congrArg some hd)
    rw [scanSingleQuoted.eq_def]
    simp [hd]

theorem scanSingleQuoted_doubled :
    scanSingleQuoted begin (singleQuote :: singleQuote :: tail) = scanSingleQuoted begin tail := by
  rw [scanSingleQuoted.eq_def]
  simp

theorem scanSingleQuoted_escaped :
    scanSingleQuoted begin (backslash :: c :: tail) = scanSingleQuoted begin tail := by
  have hne : backslash ≠ singleQuote := by decide
  rw [scanSingleQuoted.eq_def]
  simp [hne]

theorem scanSingleQuoted_plain (hq : c ≠ singleQuote) (hb : c ≠ backslash) :
    scanSingleQuoted begin (c :: tail) = scanSingleQuoted begin tail := by
  rw [scanSingleQuoted.eq_def]
  simp [hq, hb]

theorem scanSingleQuoted_escapeSingle (s : List Byte) (h : tail.head? ≠ some singleQuote) :
    scanSingleQuoted begin (escapeSingle s ++ singleQuote :: tail) = .ok tail := by
  induction s with
  | nil => exact scanSingleQuoted_close h
  | cons c s ih =>
    by_cases hc : c = singleQuote ∨ c = backslash
    · rw [escapeSingle, if_pos hc, List.cons_append, List.cons_append]
      rcases hc with rfl | rfl
      · exact scanSingleQuoted_doubled.trans ih
      · exact scanSingleQuoted_escaped.trans ih
    · obtain ⟨hq, hb⟩ := not_or.mp hc
      rw [escapeSingle, if_neg hc, List.cons_append]
      exact (scanSingleQuoted_plain hq hb).trans ih

theorem unescape_escapeSingle (s : List Byte) :
    unescape (fun c => c = singleQuote || c = backslash) (escapeSingle s) = s := by
  induction s with
  | nil => rfl
  | cons c s ih =>
    by_cases hc : c = singleQuote ∨ c = backslash
    · rw [escapeSingle, if_pos hc, unescape_escaped (by simpa using hc), ih]
    · rw [escapeSingle, if_neg hc, unescape_plain (by simpa using hc), ih]

end Scan

/-- A string in single quotes comes back as it was. -/
theorem getNext_single_quoted (s rest : List Byte) (hrest : rest.head? ≠ some singleQuote) :
    getNext (some (singleQuote :: (escapeSingle s ++ singleQuote :: rest))) =
      .ok ((.string_value, s), some (skipSeparator rest)) := by
  have hbegin : singleQuote :: (escapeSingle s ++ singleQuote :: rest) =
      (singleQuote :: (escapeSingle s ++ [singleQuote])) ++ rest := by simp
  rw [getNext, if_neg (by decide), if_neg (by decide), if_pos rfl, scan_single_quoted_string,
    List.tail_cons, scanSingleQuoted_escapeSingle s hrest]
  change Except.ok ((Juncture.string_value, parse_single_quoted_string _ rest), _) = _
  rw [parse_single_quoted_string, hbegin, between_append, List.tail_cons, List.dropLast_concat,
    unescape_escapeSingle]

theorem getNext_single_quoted_end :
    getNext (some [singleQuote, singleQuote, singleQuote, backslash, backslash, singleQuote,
        comma, rightBrace]) =
      .ok ((.string_value, [singleQuote, backslash]), some [rightBrace]) :=
  getNext_single_quoted [singleQuote, backslash] [comma, rightBrace] (by decide)

end MysqlConnectPool.ArrayParser
