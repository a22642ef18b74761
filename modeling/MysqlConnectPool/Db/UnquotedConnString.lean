import MysqlConnectPool.Db.ConnString

/-! Connection strings whose values have no quotes around them. -/

namespace MysqlConnectPool.DbConnection

open Library.Regex

structure UnquotedPair extends Pair where
  value_solid : ∀ c ∈ value, isSpace c = false

def UnquotedPair.text (p : UnquotedPair) : List UInt8 := p.key ++ equalsSign :: escape p.value

def unquotedText (pairs : List UnquotedPair) : List UInt8 :=
  [space].intercalate (pairs.map UnquotedPair.text)

theorem solid_escape {s : List UInt8} (h : ∀ c ∈ s, isSpace c = false) :
    ∀ c ∈ escape s, isSpace c = false := by
  induction s with
  | nil => nofun
  | cons c s ih =>
    have hs := ih fun d hd => h d (List.mem_cons_of_mem c hd)
    have hc := h c List.mem_cons_self
    rw [escape]
    split
    · exact List.forall_mem_cons.mpr ⟨rfl, List.forall_mem_cons.mpr ⟨hc, hs⟩⟩
    · exact List.forall_mem_cons.mpr ⟨hc, hs⟩

theorem head?_escape (s : List UInt8) : (escape s).head? ≠ some quote := by
  cases s with
  | nil => nofun
  | cons c s =>
    rw [escape]
    split
    · simp [backslash, quote]
    · next hc =>
      simp only [not_or] at hc
      simpa using hc.1

theorem unescape_escape_unquoted (first : Bool) (s : List UInt8) :
    unescape false first (escape s) = s := by
  induction s generalizing first with
  | nil => rfl
  | cons c s ih =>
    rw [escape]
    split
    · rw [unescape]
      simp [ih]
    · next hc =>
      simp only [not_or] at hc
      cases hs : escape s with
      | nil =>
        have hnil : s = [] := by
          by_contra hne
          exact escape_ne_nil hne hs
        rw [hnil, unescape]
        simp
      | cons d rest =>
        rw [unescape]
        simp [hc.2, ← hs, ih]

theorem valueOf_unquoted (s : List UInt8) : valueOf (escape s) = s := by
  have hquoted : isQuoted (escape s) = false := by
    simp [isQuoted, head?_escape]
  rw [valueOf, hquoted, unescape_escape_unquoted]

section Greedy

variable {β : Type*} {k : Match UInt8 → Option β} {groups : Nat → List UInt8} {b : β}
  {rest : List UInt8}

theorem first_escapable_none (hrest : ∀ c ∈ rest.head?, isSpace c = true)
    (k : Match UInt8 → Option β) :
    (escapable (!isSpace ·)).first k ⟨rest, groups⟩ = none := by
  rw [escapable, Pattern.first_alt, Pattern.first_seq]
  cases rest with
  | nil => rw [Pattern.first_char_nil _ _ rfl, Pattern.first_char_nil _ _ rfl, Option.none_or]
  | cons c rest =>
    have hc := hrest c rfl
    have hbackslash : c ≠ backslash := fun h => absurd (h ▸ hc) (by decide)
    rw [Pattern.first_char_cons _ _ rfl, Pattern.first_char_cons _ _ rfl, if_neg (by simp [hc]),
      if_neg (by simpa using hbackslash), Option.none_or]

theorem first_star_solid {s : List UInt8} (hs : ∀ c ∈ s, isSpace c = false)
    (hrest : ∀ c ∈ rest.head?, isSpace c = true) (hk : k ⟨rest, groups⟩ = some b) :
    (Pattern.star (escapable (!isSpace ·))).first k ⟨s ++ rest, groups⟩ = some b := by
  induction s with
  | nil =>
    rw [List.nil_append, Pattern.first_star _ rfl, first_escapable_none hrest, Option.none_or, hk]
  | cons c s ih =>
    rw [List.cons_append, Pattern.first_star _ rfl,
      first_escapable_some (by simp [hs c List.mem_cons_self])
        (ih fun d hd => hs d (List.mem_cons_of_mem c hd)), Option.some_or]

theorem first_rawValue_solid {s : List UInt8} (hne : s ≠ []) (hquote : s.head? ≠ some quote)
    (hs : ∀ c ∈ s, isSpace c = false) (hrest : ∀ c ∈ rest.head?, isSpace c = true)
    (hk : k ⟨rest, groups⟩ = some b) : rawValue.first k ⟨s ++ rest, groups⟩ = some b := by
  obtain ⟨c, s, rfl⟩ := List.exists_cons_of_ne_nil hne
  have hc : c ≠ quote := fun h => hquote (congrArg some h)
  have hunquoted : (escapable (!isSpace ·)).plus.first k ⟨c :: s ++ rest, groups⟩ = some b := by
    rw [Pattern.first_plus]
    exact first_escapable_some (by simp [hs c List.mem_cons_self])
      (first_star_solid (fun d hd => hs d (List.mem_cons_of_mem c hd)) hrest hk)
  rw [rawValue, Pattern.first_alt, Pattern.first_seq, Pattern.first_char_cons _ _ rfl,
    if_neg (by simpa using hc), Option.none_or, hunquoted]

end Greedy

theorem parseFrom_pair (p : UnquotedPair) (params : Params) {rest : List UInt8}
    (hrest : ∀ c ∈ rest.head?, isSpace c = true) :
    parseFrom params (p.text ++ rest) = parseFrom (params.insert p.key p.value) rest := by
  have hne := escape_ne_nil p.value_ne
  have hsolid := solid_escape p.value_solid
  have hspace : (escape p.value ++ rest).head? ≠ some space := by
    obtain ⟨c, s, hs⟩ := List.exists_cons_of_ne_nil hne
    rw [hs] at hsolid ⊢
    exact fun h => absurd (hsolid c List.mem_cons_self) (by simp_all [isSpace])
  have hfirst : re.first some (.start (p.text ++ rest)) = some ⟨rest,
      Function.update (Function.update (fun _ => []) 1 p.key) 2 (escape p.value)⟩ := by
    rw [UnquotedPair.text, List.append_assoc, List.cons_append]
    refine first_re p.key_ne p.key_word hspace
      (first_rawValue_solid hne (head?_escape p.value) hsolid hrest ?_)
    simp [Match.capture]
  rw [parseFrom_of_some (Pattern.search_of_first _ hfirst)]
  simp [valueOf_unquoted]

theorem parseFrom_space (params : Params) (text : List UInt8) :
    parseFrom params (space :: text) = parseFrom params text := by
  have hsearch : re.search (space :: text) = re.search text := by
    refine Pattern.search_cons_of_none _ ?_
    rw [re, Pattern.first_seq, Pattern.first_group, Pattern.first_plus,
      Pattern.first_char_cons _ _ rfl, if_neg (by decide)]
  cases h : re.search text with
  | none => rw [parseFrom_of_none (hsearch.trans h), parseFrom_of_none h]
  | some what => rw [parseFrom_of_some (hsearch.trans h), parseFrom_of_some h]

theorem foldr_insert_comm {key : List UInt8} (value : List UInt8) (params : Params)
    {pairs : List UnquotedPair} (hkey : key ∉ pairs.map fun p => p.key) :
    pairs.foldr (fun p params => params.insert p.key p.value) (params.insert key value) =
      (pairs.foldr (fun p params => params.insert p.key p.value) params).insert key value := by
  induction pairs with
  | nil => rfl
  | cons p pairs ih =>
    rw [List.map_cons, List.mem_cons, not_or] at hkey
    rw [List.foldr_cons, ih hkey.2, Finmap.insert_insert_of_ne _ hkey.1, List.foldr_cons]

/-- The pairs are read one after the other, each from its own key on. -/
theorem parseFrom_unquotedText {pairs : List UnquotedPair}
    (hkeys : (pairs.map fun p => p.key).Nodup) (params : Params) :
    parseFrom params (unquotedText pairs) =
      pairs.foldr (fun p params => params.insert p.key p.value) params := by
  induction pairs generalizing params with
  | nil => exact parseFrom_of_none search_nil
  | cons p pairs ih =>
    obtain ⟨hp, hkeys⟩ := List.nodup_cons.mp hkeys
    have hrest : parseFrom params (unquotedText (p :: pairs)) =
        parseFrom (params.insert p.key p.value) (unquotedText pairs) := by
      cases pairs with
      | nil =>
        have h := @parseFrom_pair p params [] nofun
        simpa [unquotedText, List.intercalate] using h
      | cons q pairs =>
        rw [← parseFrom_space _ (unquotedText (q :: pairs)),
          ← parseFrom_pair p params (by simp [isSpace])]
        simp [unquotedText, List.intercalate_cons_cons]
    rw [hrest, ih hkeys, foldr_insert_comm _ _ hp, List.foldr_cons]

/-- An unquoted connection string reads back as its pairs. -/
theorem unquoted_round_trip (pairs : List UnquotedPair)
    (hkeys : (pairs.map fun p => p.key).Nodup) :
    parseConnString (unquotedText pairs) = paramsOf (pairs.map UnquotedPair.toPair) := by
  rw [parseConnString, parseFrom_unquotedText hkeys, paramsOf, List.foldr_map]

def equalsInB : UnquotedPair := ⟨⟨[98], [101, equalsSign, quote], nofun, by simp [isWord], nofun⟩, by
  simp [isSpace, equalsSign, quote, space]⟩

def quoteInE : UnquotedPair := ⟨⟨[101], [quote, backslash], nofun, by simp [isWord], nofun⟩, by
  simp [isSpace, quote, backslash, space]⟩

theorem unquoted_round_trip_two :
    parseConnString (unquotedText [equalsInB, quoteInE]) =
      paramsOf [equalsInB.toPair, quoteInE.toPair] :=
  unquoted_round_trip [equalsInB, quoteInE] (by simp [equalsInB, quoteInE])

end MysqlConnectPool.DbConnection
