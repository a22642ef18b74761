import MysqlConnectPool.Db.ArrayMemory
import MysqlConnectPool.Db.Field

/-! Texts that are empty or end in a closing brace. -/

namespace MysqlConnectPool.ArrayParser

def Ended (text : List Byte) : Prop := text = [] ∨ text.getLast? = some rightBrace

theorem Ended.suffix {text rest : List Byte} (h : Ended text) (hrest : rest <:+ text) :
    Ended rest := by
  rw [List.suffix_iff_eq_drop] at hrest
  rcases h with rfl | hlast
  · exact Or.inl (by rw [hrest, List.drop_nil])
  · rw [hrest, Ended, List.drop_eq_nil_iff, List.getLast?_drop]
    split_ifs with hle
    · exact Or.inl hle
    · exact Or.inr hlast

theorem Ended.delimited {text : List Byte} (h : Ended text) : ¬ Undelimited text := by
  cases text with
  | nil => exact id
  | cons c rest =>
    rintro ⟨-, -, -, -, hnone⟩
    have hlast : (c :: rest).getLast? = some rightBrace := h.resolve_left (List.cons_ne_nil c rest)
    exact hnone rightBrace (List.mem_of_getLast? hlast) (Or.inr (Or.inr rfl))

theorem asArray_loop_step (read : List Byte → T) {arrParser next : Option Position}
    {found : Juncture × List Byte} (hnext : getNext arrParser = .ok (found, next))
    (hfound : found.1 ≠ .done) (ret : List (Option T)) :
    ∃ ret', ∀ fuel,
      Field.asArray.loop read (fuel + 1) arrParser ret = Field.asArray.loop read fuel next ret' := by
  by_cases hstring : found.1 = .string_value
  · refine ⟨ret ++ [some (read found.2)], fun fuel => ?_⟩
    rw [Field.asArray.loop, hnext]
    dsimp only
    rw [if_neg hfound, if_pos hstring]
  by_cases hnull : found.1 = .null_value
  · refine ⟨ret ++ [none], fun fuel => ?_⟩
    rw [Field.asArray.loop, hnext]
    dsimp only
    rw [if_neg hfound, if_neg hstring, if_pos hnull]
  · refine ⟨ret, fun fuel => ?_⟩
    rw [Field.asArray.loop, hnext]
    dsimp only
    rw [if_neg hfound, if_neg hstring, if_neg hnull]

section Reached

variable {input : List Byte} {pos_ : Nat}

theorem Reached.loop (read : List Byte → T) (h : Reached input pos_) :
    ∃ calls ret, calls ≤ pos_ ∧ ∀ fuel,
      Field.asArray.loop read (fuel + calls) (some input) [] =
        Field.asArray.loop read fuel (some (input.drop pos_)) ret := by
  induction h with
  | start => exact ⟨0, [], Nat.le_refl 0, fun _ => rfl⟩
  | @next pos_ fin found hpos hnext hfound ih =>
    obtain ⟨calls, ret, hcalls, hloop⟩ := ih
    have hclosed : ¬ Unclosed (input.drop pos_) := fun hu => by
      obtain ⟨what, hwhat⟩ := getNextAt_of_unclosed hpos.le hu
      cases hnext.symm.trans hwhat
    have hdelimited : ¬ Undelimited (input.drop pos_) := fun hu => by
      cases hnext.symm.trans (getNextAt_of_undelimited hpos.le hu)
    have hlt : pos_ < input.length := by
      refine Nat.lt_of_le_of_ne hpos.le fun heq => hfound ?_
      subst heq
      cases hnext.symm.trans getNextAt_at_end
      rfl
    obtain ⟨found', fin', hat, hstep, hfound', hmoves, -⟩ :=
      getNextAt_moves hlt hclosed hdelimited
    cases hnext.symm.trans hat
    obtain ⟨ret', hret'⟩ := asArray_loop_step read hstep hfound' ret
    refine ⟨calls + 1, ret', by omega, fun fuel => ?_⟩
    rw [← hret', ← hloop, Nat.add_right_comm, Nat.add_assoc]

/-- Every call of the loop moves on, so from a position that is reached as many calls as there are
characters left and one more are enough.  Where the loop ends, a position has been reached. -/
theorem Reached.ends (read : List Byte → T) (h : Ended input) {fuel : Nat}
    (hpos : Reached input pos_) (hfuel : input.length - pos_ < fuel) (ret : List (Option T)) :
    (∃ what, Field.asArray.loop read fuel (some (input.drop pos_)) ret =
        some (.error (.ArgumentError what)) ∧
      ∃ last, Reached input last ∧ Unclosed (input.drop last)) ∨
    ∃ ret', Field.asArray.loop read fuel (some (input.drop pos_)) ret = some (.ok ret') ∧
      ∃ last next, Reached input last ∧ getNextAt input (some last) = .ok ((.done, []), next) := by
  induction fuel generalizing pos_ ret with
  | zero => exact absurd hfuel (Nat.not_lt_zero _)
  | succ fuel ih =>
    obtain hlt | rfl := Nat.lt_or_eq_of_le hpos.le
    · by_cases hclosed : Unclosed (input.drop pos_)
      · obtain ⟨what, hwhat⟩ := getNext_of_unclosed hclosed
        rw [Field.asArray.loop, hwhat]
        exact Or.inl ⟨what, rfl, pos_, hpos, hclosed⟩
      · have hended : Ended (input.drop pos_) := h.suffix (List.drop_suffix _ _)
        obtain ⟨found, fin, hat, hnext, hfound, hmoves, hfin⟩ :=
          getNextAt_moves hlt hclosed hended.delimited
        obtain ⟨ret', hret'⟩ := asArray_loop_step read hnext hfound ret
        rw [hret']
        exact ih (hpos.next hat hfound) (by omega) ret'
    · rw [Field.asArray.loop, List.drop_length]
      exact Or.inr ⟨ret, rfl, _, _, hpos, getNextAt_at_end⟩

theorem Reached.call (read : List Byte → T) (hpos : Reached input pos_) :
    ∃ fuel ret, Field.asArray read (input.length + 1) (some input) =
      Field.asArray.loop read (fuel + 1) (some (input.drop pos_)) ret := by
  obtain ⟨calls, ret, hcalls, hloop⟩ := hpos.loop read
  refine ⟨input.length - calls, ret, ?_⟩
  rw [← hloop, Field.asArray]
  have hle := hpos.le
  congr 1
  omega

theorem Reached.throws (read : List Byte → T) (hpos : Reached input pos_)
    (hclosed : Unclosed (input.drop pos_)) :
    ∃ what, Field.asArray read (input.length + 1) (some input) =
      some (.error (.ArgumentError what)) := by
  obtain ⟨fuel, ret, hloop⟩ := hpos.call read
  obtain ⟨what, hwhat⟩ := getNext_of_unclosed hclosed
  exact ⟨what, by rw [hloop, Field.asArray.loop, hwhat]⟩

theorem Reached.returns (read : List Byte → T) (hpos : Reached input pos_) {next : Option Nat}
    (hdone : getNextAt input (some pos_) = .ok ((.done, []), next)) :
    ∃ ret, Field.asArray read (input.length + 1) (some input) = some (.ok ret) := by
  obtain ⟨fuel, ret, hloop⟩ := hpos.call read
  have hnext := getNextAt_eq hpos.le
  rw [hdone] at hnext
  cases htext : getNext (some (input.drop pos_)) with
  | error e =>
    rw [htext] at hnext
    cases hnext
  | ok found =>
    obtain ⟨found, fin⟩ := found
    rw [htext] at hnext
    have hfound : found.1 = .done := (congrArg (fun r => r.1.1) (Except.ok.inj hnext)).symm
    refine ⟨ret, ?_⟩
    rw [hloop, Field.asArray.loop, htext]
    exact if_pos hfound

theorem Reached.throws_iff (h : Ended input) (hpos : Reached input pos_) :
    (∃ what, getNextAt input (some pos_) = .error (.ArgumentError what)) ↔
      Unclosed (input.drop pos_) := by
  refine ⟨?_, getNextAt_of_unclosed hpos.le⟩
  rintro ⟨what, hwhat⟩
  by_contra hclosed
  obtain hlt | rfl := Nat.lt_or_eq_of_le hpos.le
  · have hended : Ended (input.drop pos_) := Ended.suffix h (List.drop_suffix _ _)
    obtain ⟨found, fin, hnext, -⟩ := getNextAt_moves hlt hclosed hended.delimited
    cases hwhat.symm.trans hnext
  · cases hwhat.symm.trans getNextAt_at_end

end Reached

/-- In as many calls as the text has characters and one more, parsing ends: with an error exactly
where a quoted token that is not closed is reached, else with `done`.  Every call moves on, and
throws where a quoted token is not closed and nowhere else. -/
theorem array_parsing_ends (read : List Byte → T) (input : List Byte)
    (h : input = [] ∨ input.getLast? = some rightBrace) :
    ((∃ what, Field.asArray read (input.length + 1) (some input) =
        some (.error (.ArgumentError what))) ↔
      ∃ pos_, Reached input pos_ ∧ Unclosed (input.drop pos_)) ∧
    ((∃ ret, Field.asArray read (input.length + 1) (some input) = some (.ok ret)) ↔
      ∃ pos_ next, Reached input pos_ ∧ getNextAt input (some pos_) = .ok ((.done, []), next)) ∧
    ((∃ what, Field.asArray read (input.length + 1) (some input) =
        some (.error (.ArgumentError what))) ∨
      ∃ ret, Field.asArray read (input.length + 1) (some input) = some (.ok ret)) ∧
    (∀ pos_ found next, Reached input pos_ →
      getNextAt input (some pos_) = .ok (found, next) → found.1 ≠ .done →
        ∃ fin, next = some fin ∧ pos_ < fin ∧ fin ≤ input.length) ∧
    (∀ pos_, Reached input pos_ →
      ((∃ what, getNextAt input (some pos_) = .error (.ArgumentError what)) ↔
        Unclosed (input.drop pos_))) ∧
    ∀ pos_, Reached input pos_ →
      getNextAt input (some pos_) = (getNext (some (input.drop pos_))).map (lift input) := by
  have hends := Reached.start.ends read h (Nat.lt_succ_self _) []
  refine ⟨⟨?_, fun ⟨pos_, hpos, hclosed⟩ => hpos.throws read hclosed⟩,
    ⟨?_, fun ⟨pos_, next, hpos, hdone⟩ => hpos.returns read hdone⟩, ?_,
    fun pos_ found next hpos hnext hfound => getNextAt_ok hpos.le hnext hfound,
    fun pos_ hpos => hpos.throws_iff h, fun pos_ hpos => getNextAt_eq hpos.le⟩
  · rintro ⟨what, hwhat⟩
    obtain ⟨-, -, hlast⟩ | ⟨ret, hret, -⟩ := hends
    · exact hlast
    · cases hwhat.symm.trans hret
  · rintro ⟨ret, hret⟩
    obtain ⟨what, hwhat, -⟩ | ⟨-, -, hlast⟩ := hends
    · cases hret.symm.trans hwhat
    · exact hlast
  · obtain ⟨what, hwhat, -⟩ | ⟨ret, hret, -⟩ := hends
    · exact Or.inl ⟨what, hwhat⟩
    · exact Or.inr ⟨ret, hret⟩

theorem array_parsing_ends_quoted :
    ∃ what, Field.asArray id 4 (some [leftBrace, doubleQuote, rightBrace]) =
      some (.error (.ArgumentError what)) := by
  have hnext : getNextAt [leftBrace, doubleQuote, rightBrace] (some 0) =
      .ok ((.row_start, []), some 1) := rfl
  refine (array_parsing_ends id [leftBrace, doubleQuote, rightBrace] (by decide)).1.mpr ⟨1, ?_, ?_⟩
  · exact .next .start hnext (by decide)
  · refine Or.inr ⟨rfl, fun hclosed => ?_⟩
    cases hclosed with
    | plain _ _ hrest => cases hrest

end MysqlConnectPool.ArrayParser
