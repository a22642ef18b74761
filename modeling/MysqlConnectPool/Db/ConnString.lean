import MysqlConnectPool.Db.DbConnection

/-! Connection strings with quoted values, and what the parser makes of them. -/

namespace MysqlConnectPool.DbConnection

open Library.Regex

structure Pair where
  key : List UInt8
  value : List UInt8
  key_ne : key ≠ []
  key_word : ∀ c ∈ key, isWord c
  value_ne : value ≠ []

structure QuotedPair extends Pair where
  value_line : newline ∉ value

def escape : List UInt8 → List UInt8
  | [] => []
  | c :: s => if c = quote ∨ c = backslash then backslash :: c :: escape s else c :: escape s

def QuotedPair.text (p : QuotedPair) : List UInt8 :=
  p.key ++ equalsSign :: quote :: (escape p.value ++ [quote])

def quotedText (pairs : List QuotedPair) : List UInt8 :=
  [space].intercalate (pairs.map QuotedPair.text)

def paramsOf (pairs : List Pair) : Params :=
  pairs.foldr (fun p params => params.insert p.key p.value) ∅

theorem escape_ne_nil {s : List UInt8} (h : s ≠ []) : escape s ≠ [] := by
  obtain ⟨c, s, rfl⟩ := List.exists_cons_of_ne_nil h
  rw [escape]
  split <;> simp

theorem newline_notMem_escape {s : List UInt8} (h : newline ∉ s) : newline ∉ escape s := by
  induction s with
  | nil => exact h
  | cons c s ih =>
    rw [List.mem_cons, not_or] at h
    rw [escape]
    split
    · simp [h.1, ih h.2, show newline ≠ backslash by decide]
    · simp [h.1, ih h.2]

theorem unescape_escape (s : List UInt8) :
    unescape true false (escape s ++ [quote]) = s := by
  induction s with
  | nil => rfl
  | cons c s ih =>
    obtain ⟨d, rest, hrest⟩ := List.exists_cons_of_ne_nil
      (show escape s ++ [quote] ≠ [] by simp)
    rw [escape]
    split
    · rw [List.cons_append, List.cons_append, unescape]
      simp [ih]
    · next hc =>
      rw [List.cons_append, hrest, unescape]
      simp only [not_or] at hc
      simp [hc.2, ← hrest, ih]

theorem isQuoted_append (s : List UInt8) : isQuoted (quote :: (s ++ [quote])) := by
  rw [isQuoted, ← List.cons_append, List.getLast?_append]
  simp

theorem unescape_quote (s : List UInt8) : unescape true true (quote :: s) = unescape true false s := by
  rw [unescape.eq_def]
  simp

theorem valueOf_quoted (s : List UInt8) : valueOf (quote :: (escape s ++ [quote])) = s := by
  rw [valueOf, isQuoted_append, unescape_quote, unescape_escape]

section Greedy

variable {accepts : UInt8 → Bool} {β : Type*} {k : Match UInt8 → Option β}
  {groups : Nat → List UInt8} {s : List UInt8} {last : UInt8} {b : β}

theorem first_escapable_some {c : UInt8} (hc : accepts c) (hk : k ⟨s, groups⟩ = some b) :
    (escapable accepts).first k ⟨c :: s, groups⟩ = some b := by
  rw [escapable, Pattern.first_alt, Pattern.first_char_cons _ _ rfl, if_pos hc]
  exact (congrArg (Option.or · _) hk).trans rfl

/-- Characters of a class are taken to the end of the text; then the last is given back, where
what follows needs it. -/
theorem first_star_escapable (hs : ∀ c ∈ s, accepts c) (hlast : accepts last)
    (hescape : last ≠ backslash) (hnone : k ⟨[], groups⟩ = none)
    (hsome : k ⟨[last], groups⟩ = some b) :
    (Pattern.star (escapable accepts)).first k ⟨s ++ [last], groups⟩ = some b := by
  induction s with
  | nil =>
    have hend : (Pattern.star (escapable accepts)).first k ⟨[], groups⟩ = none := by
      rw [Pattern.first_star _ rfl, escapable, Pattern.first_alt,
        Pattern.first_char_nil _ _ rfl, Pattern.first_seq, Pattern.first_char_nil _ _ rfl, hnone]
      rfl
    have hlast : (escapable accepts).first ((Pattern.star (escapable accepts)).first k)
        ⟨[last], groups⟩ = none := by
      rw [escapable, Pattern.first_alt, Pattern.first_char_cons _ _ rfl, if_pos hlast,
        Pattern.first_seq, Pattern.first_char_cons _ _ rfl, if_neg (by simpa using hescape)]
      exact (congrArg (Option.or · none) hend).trans rfl
    rw [List.nil_append, Pattern.first_star _ rfl, hlast, Option.none_or, hsome]
  | cons c s ih =>
    rw [List.cons_append, Pattern.first_star _ rfl,
      first_escapable_some (hs c List.mem_cons_self)
        (ih fun c hc => hs c (List.mem_cons_of_mem _ hc)), Option.some_or]

end Greedy

theorem first_rawValue {s : List UInt8} (hne : s ≠ []) (hs : newline ∉ s) {β : Type*}
    {k : Match UInt8 → Option β} {groups : Nat → List UInt8} {b : β}
    (hk : k ⟨[], groups⟩ = some b) :
    rawValue.first k ⟨quote :: (s ++ [quote]), groups⟩ = some b := by
  obtain ⟨c, s, rfl⟩ := List.exists_cons_of_ne_nil hne
  have haccepts : ∀ d ∈ c :: s, (decide (d ≠ newline)) = true :=
    fun d hd => decide_eq_true fun h => hs (h ▸ hd)
  have hquoted : (Pattern.seq (.char (· = quote))
      (.seq (escapable (· ≠ newline)).plus (.char (· = quote)))).first k
      ⟨quote :: (c :: s ++ [quote]), groups⟩ = some b := by
    rw [Pattern.first_seq, Pattern.first_char_cons _ _ rfl, if_pos (by decide), Pattern.first_seq,
      Pattern.first_plus]
    refine first_escapable_some (haccepts c List.mem_cons_self) ?_
    refine first_star_escapable (fun d hd => haccepts d (List.mem_cons_of_mem _ hd))
      (by decide) (by decide) (Pattern.first_char_nil _ _ rfl) ?_
    rw [Pattern.first_char_cons _ _ rfl, if_pos (by decide)]
    exact hk
  rw [rawValue, Pattern.first_alt, hquoted, Option.some_or]

theorem parseConnString_pair {key s : List UInt8} (hkey : key ≠ []) (hword : ∀ c ∈ key, isWord c)
    (hne : s ≠ []) (hs : newline ∉ s) :
    parseConnString (key ++ equalsSign :: quote :: (s ++ [quote])) =
      Finmap.insert key (valueOf (quote :: (s ++ [quote]))) ∅ := by
  have hfirst : re.first some (.start (key ++ equalsSign :: quote :: (s ++ [quote]))) = some
      ⟨[], Function.update (Function.update (fun _ => []) 1 key) 2 (quote :: (s ++ [quote]))⟩ :=
    first_re hkey hword (by simp [quote, space])
      (first_rawValue hne hs (by simp [Match.capture, List.take_of_length_le]))
  rw [parseConnString, parseFrom_of_some (Pattern.search_of_first _ hfirst),
    parseFrom_of_none search_nil]
  simp

theorem quotedText_cons (p : QuotedPair) (pairs : List QuotedPair) :
    ∃ s, s ≠ [] ∧ newline ∉ s ∧ (pairs = [] → s = escape p.value) ∧
      quotedText (p :: pairs) = p.key ++ equalsSign :: quote :: (s ++ [quote]) := by
  induction pairs generalizing p with
  | nil =>
    exact ⟨escape p.value, escape_ne_nil p.value_ne, newline_notMem_escape p.value_line,
      fun _ => rfl, by simp [quotedText, QuotedPair.text, List.intercalate]⟩
  | cons q pairs ih =>
    obtain ⟨s, -, hs, -, htext⟩ := ih q
    refine ⟨escape p.value ++ quote :: space :: (q.key ++ equalsSign :: quote :: s), by simp,
      ?_, nofun, ?_⟩
    · have hkey : newline ∉ q.key := fun h => absurd (q.key_word _ h) (by decide)
      have hvalue : newline ∉ escape p.value := newline_notMem_escape p.value_line
      simp only [List.mem_append, List.mem_cons, not_or]
      exact ⟨hvalue, by decide, by decide, hkey, by decide, by decide, hs⟩
    · rw [quotedText] at htext ⊢
      rw [List.map_cons, List.map_cons, List.intercalate_cons_cons, ← List.map_cons, htext]
      simp [QuotedPair.text]

/-- A quoted connection string reads back as its pairs exactly when there is at most one. -/
theorem quoted_round_trip_iff (pairs : List QuotedPair)
    (hkeys : (pairs.map fun p => p.key).Nodup) :
    parseConnString (quotedText pairs) = paramsOf (pairs.map QuotedPair.toPair) ↔
      pairs.length ≤ 1 := by
  cases pairs with
  | nil => exact iff_of_true (parseFrom_of_none search_nil) (by simp)
  | cons p pairs =>
    obtain ⟨s, hne, hs, hone, htext⟩ := quotedText_cons p pairs
    rw [htext, parseConnString_pair p.key_ne p.key_word hne hs]
    cases pairs with
    | nil =>
      rw [hone rfl, valueOf_quoted]
      exact iff_of_true rfl (by simp)
    | cons q pairs =>
      refine iff_of_false (fun h => ?_) (by simp)
      have hpq : q.key ≠ p.key := fun hpq => by simp [hpq] at hkeys
      have hq := congrArg (Finmap.lookup q.key) h
      simp [paramsOf, Finmap.lookup_insert_of_ne _ hpq] at hq

def quoteInA : QuotedPair := ⟨⟨[97], [quote], nofun, by simp [isWord], nofun⟩, by decide⟩

def dInC : QuotedPair := ⟨⟨[99], [100], nofun, by simp [isWord], nofun⟩, by decide⟩

theorem quoted_round_trip_iff_one :
    parseConnString (quotedText [quoteInA]) = paramsOf [quoteInA.toPair] :=
  (quoted_round_trip_iff [quoteInA] (by simp)).mpr (by simp)

/-- The value of the first key is the whole of `'\'' c='d'`. -/
theorem two_quoted_pairs_garbled :
    parseConnString (quotedText [quoteInA, dInC]) =
        Finmap.insert [97] [39, 39, 32, 99, 61, 39, 100] ∅ ∧
      parseConnString (quotedText [quoteInA, dInC]) ≠
        paramsOf [quoteInA.toPair, dInC.toPair] := by
  have h : parseConnString (quotedText [quoteInA, dInC]) =
      Finmap.insert [97] [39, 39, 32, 99, 61, 39, 100] ∅ :=
    @parseConnString_pair [97] [92, 39, 39, 32, 99, 61, 39, 100] nofun (by simp [isWord]) nofun
      (by decide)
  refine ⟨h, ?_⟩
  rw [h]
  intro hparams
  have hlookup := congrArg (Finmap.lookup [99]) hparams
  rw [Finmap.lookup_insert_of_ne _ (by decide)] at hlookup
  exact absurd hlookup (by decide)

end MysqlConnectPool.DbConnection
