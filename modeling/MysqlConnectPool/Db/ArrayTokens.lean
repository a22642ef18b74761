import MysqlConnectPool.Db.SingleQuoted

/-! One call of `getNext`, on every text. -/

namespace MysqlConnectPool.ArrayParser

inductive ClosedSingle : List Byte → Prop
  | close {rest : List Byte} : rest.head? ≠ some singleQuote → ClosedSingle (singleQuote :: rest)
  | doubled {rest : List Byte} :
    ClosedSingle rest → ClosedSingle (singleQuote :: singleQuote :: rest)
  | escaped (c : Byte) {rest : List Byte} :
    ClosedSingle rest → ClosedSingle (backslash :: c :: rest)
  | plain {c : Byte} {rest : List Byte} :
    c ≠ singleQuote → c ≠ backslash → ClosedSingle rest → ClosedSingle (c :: rest)

inductive ClosedDouble : List Byte → Prop
  | close (rest : List Byte) : ClosedDouble (doubleQuote :: rest)
  | escaped (c : Byte) {rest : List Byte} :
    ClosedDouble rest → ClosedDouble (backslash :: c :: rest)
  | plain {c : Byte} {rest : List Byte} :
    c ≠ doubleQuote → c ≠ backslash → ClosedDouble rest → ClosedDouble (c :: rest)

/-- A quoted token without its closing quote. -/
def Unclosed : List Byte → Prop
  | [] => False
  | c :: rest =>
    c = singleQuote ∧ ¬ ClosedSingle rest ∨ c = doubleQuote ∧ ¬ ClosedDouble rest

def IsDelimiter (c : Byte) : Prop := c = comma ∨ c = semicolon ∨ c = rightBrace

/-- An unquoted token that neither a separator nor a closing brace ends. -/
def Undelimited : List Byte → Prop
  | [] => False
  | c :: rest =>
    c ≠ leftBrace ∧ c ≠ rightBrace ∧ c ≠ singleQuote ∧ c ≠ doubleQuote ∧
      ∀ d ∈ c :: rest, ¬ IsDelimiter d

section Scan

variable {begin text fin : List Byte}

theorem scanSingleQuoted_of_closed (begin : List Byte) (h : ClosedSingle text) :
    ∃ fin, scanSingleQuoted begin text = .ok fin ∧ fin <:+ text := by
  induction h with
  | close hrest => exact ⟨_, scanSingleQuoted_close hrest, List.suffix_cons _ _⟩
  | doubled _ ih =>
    obtain ⟨fin, hfin, hsuffix⟩ := ih
    exact ⟨fin, scanSingleQuoted_doubled.trans hfin,
      (hsuffix.trans (List.suffix_cons _ _)).trans (List.suffix_cons _ _)⟩
  | escaped _ _ ih =>
    obtain ⟨fin, hfin, hsuffix⟩ := ih
    exact ⟨fin, scanSingleQuoted_escaped.trans hfin,
      (hsuffix.trans (List.suffix_cons _ _)).trans (List.suffix_cons _ _)⟩
  | plain hq hb _ ih =>
    obtain ⟨fin, hfin, hsuffix⟩ := ih
    exact ⟨fin, (scanSingleQuoted_plain hq hb).trans hfin, hsuffix.trans (List.suffix_cons _ _)⟩

theorem scanSingleQuoted_of_not_closed (begin : List Byte) (h : ¬ ClosedSingle text) :
    ∃ what, scanSingleQuoted begin text = .error (.ArgumentError what) := by
  induction text using scanSingleQuoted.induct with
  | case1 => exact ⟨_, rfl⟩
  | case2 => exact absurd (.close (by decide)) h
  | case3 rest ih =>
    obtain ⟨what, hwhat⟩ := ih fun hrest => h (.doubled hrest)
    exact ⟨what, scanSingleQuoted_doubled.trans hwhat⟩
  | case4 d rest hd => exact absurd (.close (by simpa using hd)) h
  | case5 => exact ⟨_, rfl⟩
  | case6 d rest _ ih =>
    obtain ⟨what, hwhat⟩ := ih fun hrest => h (.escaped d hrest)
    exact ⟨what, scanSingleQuoted_escaped.trans hwhat⟩
  | case7 c rest hq hb ih =>
    obtain ⟨what, hwhat⟩ := ih fun hrest => h (.plain hq hb hrest)
    exact ⟨what, (scanSingleQuoted_plain hq hb).trans hwhat⟩

theorem scanDoubleQuoted_of_closed (begin : List Byte) (h : ClosedDouble text) :
    ∃ fin, scanDoubleQuoted begin text = .ok fin ∧ fin <:+ text := by
  induction h with
  | close rest => exact ⟨rest, scanDoubleQuoted_close, List.suffix_cons _ _⟩
  | escaped _ _ ih =>
    obtain ⟨fin, hfin, hsuffix⟩ := ih
    exact ⟨fin, scanDoubleQuoted_escaped.trans hfin,
      (hsuffix.trans (List.suffix_cons _ _)).trans (List.suffix_cons _ _)⟩
  | plain hq hb _ ih =>
    obtain ⟨fin, hfin, hsuffix⟩ := ih
    exact ⟨fin, (scanDoubleQuoted_plain hq hb).trans hfin, hsuffix.trans (List.suffix_cons _ _)⟩

theorem scanDoubleQuoted_of_not_closed (begin : List Byte) (h : ¬ ClosedDouble text) :
    ∃ what, scanDoubleQuoted begin text = .error (.ArgumentError what) := by
  induction text using scanDoubleQuoted.induct with
  | case1 => exact ⟨_, rfl⟩
  | case2 => exact ⟨_, rfl⟩
  | case3 d rest ih =>
    obtain ⟨what, hwhat⟩ := ih fun hrest => h (.escaped d hrest)
    exact ⟨what, scanDoubleQuoted_escaped.trans hwhat⟩
  | case4 rest _ => exact absurd (.close rest) h
  | case5 c rest hb hq ih =>
    obtain ⟨what, hwhat⟩ := ih fun hrest => h (.plain hq hb hrest)
    exact ⟨what, (scanDoubleQuoted_plain hq hb).trans hwhat⟩

theorem suffix_of_scan {scan : Except Failure Position} {closed : Prop}
    (hok : closed → ∃ fin, scan = .ok fin ∧ fin <:+ text)
    (herror : ¬ closed → ∃ e, scan = .error e) (h : scan = .ok fin) : fin <:+ text := by
  by_cases hclosed : closed
  · obtain ⟨fin', hfin', hsuffix⟩ := hok hclosed
    cases h.symm.trans hfin'
    exact hsuffix
  · obtain ⟨e, he⟩ := herror hclosed
    cases h.symm.trans he

theorem scanSingleQuoted_suffix (h : scanSingleQuoted begin text = .ok fin) : fin <:+ text := by
  refine suffix_of_scan (scanSingleQuoted_of_closed begin) (fun hclosed => ?_) h
  obtain ⟨what, hwhat⟩ := scanSingleQuoted_of_not_closed begin hclosed
  exact ⟨_, hwhat⟩

theorem scanDoubleQuoted_suffix (h : scanDoubleQuoted begin text = .ok fin) : fin <:+ text := by
  refine suffix_of_scan (scanDoubleQuoted_of_closed begin) (fun hclosed => ?_) h
  obtain ⟨what, hwhat⟩ := scanDoubleQuoted_of_not_closed begin hclosed
  exact ⟨_, hwhat⟩

theorem scan_unquoted_of_delimiter (h : ∃ d ∈ text, IsDelimiter d) :
    ∃ fin, scan_unquoted_string text = .ok fin ∧ fin <:+ text ∧
      ∃ c rest, fin = c :: rest ∧ IsDelimiter c := by
  induction text with
  | nil =>
    obtain ⟨d, hd, -⟩ := h
    exact absurd hd List.not_mem_nil
  | cons c rest ih =>
    by_cases hc : IsDelimiter c
    · exact ⟨c :: rest, if_pos hc, List.suffix_refl _, c, rest, rfl, hc⟩
    · obtain ⟨d, hd, hdelimiter⟩ := h
      obtain rfl | hd := List.mem_cons.mp hd
      · exact absurd hdelimiter hc
      obtain ⟨fin, hfin, hsuffix, hhead⟩ := ih ⟨d, hd, hdelimiter⟩
      exact ⟨fin, (if_neg hc).trans hfin, hsuffix.trans (List.suffix_cons _ _), hhead⟩

theorem scan_unquoted_of_no_delimiter (h : ∀ d ∈ text, ¬ IsDelimiter d) :
    scan_unquoted_string text = .error .readsPastEnd := by
  induction text with
  | nil => rfl
  | cons c rest ih =>
    rw [List.forall_mem_cons] at h
    exact (if_neg h.1).trans (ih h.2)

theorem scan_unquoted_suffix (h : scan_unquoted_string text = .ok fin) : fin <:+ text := by
  have hok : (∃ d ∈ text, IsDelimiter d) → ∃ fin, scan_unquoted_string text = .ok fin ∧
      fin <:+ text := by
    intro hdelimiter
    obtain ⟨fin', hfin', hsuffix, -⟩ := scan_unquoted_of_delimiter hdelimiter
    exact ⟨fin', hfin', hsuffix⟩
  refine suffix_of_scan hok (fun hnone => ?_) h
  push Not at hnone
  exact ⟨_, scan_unquoted_of_no_delimiter hnone⟩

end Scan

section Next

variable {text rest : List Byte} {c : Byte}

theorem skipSeparator_suffix (text : List Byte) : skipSeparator text <:+ text := by
  cases text with
  | nil => exact List.suffix_refl _
  | cons c rest =>
    rw [skipSeparator]
    split_ifs
    · exact List.suffix_cons _ _
    · exact List.suffix_refl _

theorem getNext_of_unclosed (h : Unclosed text) :
    ∃ what, getNext (some text) = .error (.ArgumentError what) := by
  cases text with
  | nil => exact h.elim
  | cons c rest =>
    rcases h with ⟨rfl, hrest⟩ | ⟨rfl, hrest⟩
    · obtain ⟨what, hwhat⟩ := scanSingleQuoted_of_not_closed (singleQuote :: rest) hrest
      refine ⟨what, ?_⟩
      rw [getNext, if_neg (by decide), if_neg (by decide), if_pos rfl, scan_single_quoted_string,
        List.tail_cons, hwhat]
      rfl
    · obtain ⟨what, hwhat⟩ := scanDoubleQuoted_of_not_closed (doubleQuote :: rest) hrest
      refine ⟨what, ?_⟩
      rw [getNext, if_neg (by decide), if_neg (by decide), if_neg (by decide), if_pos rfl,
        scan_double_quoted_string, List.tail_cons, hwhat]
      rfl

theorem getNext_of_undelimited (h : Undelimited text) :
    getNext (some text) = .error .readsPastEnd := by
  cases text with
  | nil => exact h.elim
  | cons c rest =>
    obtain ⟨hleft, hright, hsingle, hdouble, hnone⟩ := h
    rw [getNext, if_neg hleft, if_neg hright, if_neg hsingle, if_neg hdouble,
      scan_unquoted_of_no_delimiter hnone]
    rfl

theorem getNext_returns (hclosed : ¬ Unclosed (c :: rest)) (hdelimited : ¬ Undelimited (c :: rest)) :
    ∃ found fin, getNext (some (c :: rest)) = .ok (found, some fin) ∧ found.1 ≠ .done ∧
      fin <:+ rest := by
  rw [getNext]
  by_cases hleft : c = leftBrace
  · rw [if_pos hleft]
    exact ⟨_, _, rfl, by simp, skipSeparator_suffix rest⟩
  by_cases hright : c = rightBrace
  · rw [if_neg hleft, if_pos hright]
    exact ⟨_, _, rfl, by simp, skipSeparator_suffix rest⟩
  by_cases hsingle : c = singleQuote
  · have hrest : ClosedSingle rest := by
      by_contra hrest
      exact hclosed (Or.inl ⟨hsingle, hrest⟩)
    obtain ⟨fin, hfin, hsuffix⟩ := scanSingleQuoted_of_closed (c :: rest) hrest
    rw [if_neg hleft, if_neg hright, if_pos hsingle, scan_single_quoted_string, List.tail_cons,
      hfin]
    exact ⟨_, _, rfl, by simp, (skipSeparator_suffix fin).trans hsuffix⟩
  by_cases hdouble : c = doubleQuote
  · have hrest : ClosedDouble rest := by
      by_contra hrest
      exact hclosed (Or.inr ⟨hdouble, hrest⟩)
    obtain ⟨fin, hfin, hsuffix⟩ := scanDoubleQuoted_of_closed (c :: rest) hrest
    rw [if_neg hleft, if_neg hright, if_neg hsingle, if_pos hdouble, scan_double_quoted_string,
      List.tail_cons, hfin]
    exact ⟨_, _, rfl, by simp, (skipSeparator_suffix fin).trans hsuffix⟩
  have hdelimiter : ∃ d ∈ c :: rest, IsDelimiter d := by
    by_contra hnone
    push Not at hnone
    exact hdelimited ⟨hleft, hright, hsingle, hdouble, hnone⟩
  obtain ⟨fin, hfin, hsuffix, d, fin', rfl, hd⟩ := scan_unquoted_of_delimiter hdelimiter
  -- An empty token stands before a separator, which is skipped.
  have hskip : skipSeparator (d :: fin') <:+ rest := by
    rcases List.suffix_cons_iff.mp hsuffix with heq | hsuffix
    · obtain ⟨rfl, rfl⟩ := List.cons.inj heq
      have hrest : skipSeparator (d :: fin') = fin' :=
        if_pos (hd.imp_right fun h => h.resolve_right hright)
      exact ⟨[], hrest⟩
    · exact (skipSeparator_suffix _).trans hsuffix
  rw [if_neg hleft, if_neg hright, if_neg hsingle, if_neg hdouble, hfin]
  by_cases hnull : between (c :: rest) (d :: fin') = null
  · exact ⟨_, _, if_pos hnull, by simp, hskip⟩
  · exact ⟨_, _, if_neg hnull, by simp, hskip⟩

end Next

end MysqlConnectPool.ArrayParser
