import Mathlib.Data.List.TakeWhile
import MysqlConnectPool.Db.ArrayText
import MysqlConnectPool.Utils.Hex

/-! Fields as arrays and as binary data. -/

namespace MysqlConnectPool

open ArrayParser

namespace Field

def isSpace (c : Byte) : Bool := c.1 = 32 || (9 ≤ c.1 && c.1 ≤ 13)

/-- `ss >> val` for a `std::string`: white space is skipped, then everything up to the next one is
read. -/
def extract (s : List Byte) : List Byte := (s.dropWhile isSpace).takeWhile fun c => !isSpace c

/-- The loop of `asArray`, for a `T` that `read` extracts; it is still running when the calls are
used up. -/
def asArray.loop (read : List Byte → T) :
    Nat → Option Position → List (Option T) → Option (Except Failure (List (Option T)))
  | 0, _, _ => none
  | fuel + 1, arrParser, ret =>
    match getNext arrParser with
    | .error e => some (.error e)
    | .ok (arrVal, arrParser) =>
      if arrVal.1 = .done then some (.ok ret)
      else if arrVal.1 = .string_value then
        asArray.loop read fuel arrParser (ret ++ [some (read arrVal.2)])
      else if arrVal.1 = .null_value then asArray.loop read fuel arrParser (ret ++ [none])
      else asArray.loop read fuel arrParser ret

/-- An entry is `none` where the source has a null pointer. -/
def asArray (read : List Byte → T) (fuel : Nat) (value : Option Position) :
    Option (Except Failure (List (Option T))) :=
  asArray.loop read fuel value []

/-- `as<std::string>`; the object identifier of binary data is 17.  The assertion on its digits
fails where the value is `none`. -/
def asString (oid : Nat) (data : List Int8) : Option (List Int8) :=
  if oid ≠ 17 then some data
  else if data.length < 2 ∨ data.getD 0 0 ≠ utils.char '\\' ∨ data.getD 1 0 ≠ utils.char 'x' then
    some []
  else utils.hexToBinaryString (data.drop 2)

def asVector (oid : Nat) (data : List Int8) : Option (List Int8) :=
  if oid ≠ 17 then some data
  else if data.length < 2 ∨ data.getD 0 0 ≠ utils.char '\\' ∨ data.getD 1 0 ≠ utils.char 'x' then
    some []
  else utils.hexToBinaryVector (data.drop 2)

theorem asString_eq_asVector (oid : Nat) (data : List Int8) : asString oid data = asVector oid data := by
  rw [asString, asVector, utils.hexToBinaryString_eq_hexToBinaryVector]

theorem asString_of_encodes {bytes text : List Int8} (h : utils.Encodes bytes text) :
    asString 17 (utils.char '\\' :: utils.char 'x' :: text) = some bytes := by
  rw [asString, if_neg (not_not.mpr rfl), if_neg (by simp)]
  exact utils.hexToBinaryString_of_encodes h

/-! The vector as a view of the calls. -/

def element (read : List Byte → T) : Juncture × List Byte → Option (Option T)
  | (.string_value, s) => some (some (read s))
  | (.null_value, _) => some none
  | _ => none

theorem loop_of_getAll (read : List Byte → T) {fuel : Nat} {arrParser : Option Position}
    {events : List (Juncture × List Byte)} (ret : List (Option T))
    (h : getAll fuel arrParser = some (.ok events)) :
    asArray.loop read fuel arrParser ret =
      some (.ok (ret ++ events.filterMap (element read))) := by
  induction fuel generalizing arrParser events ret with
  | zero => cases h
  | succ fuel ih =>
    rw [getAll] at h
    rw [asArray.loop]
    cases hnext : getNext arrParser with
    | error e =>
      rw [hnext] at h
      cases h
    | ok next =>
      obtain ⟨⟨found, value⟩, arrParser⟩ := next
      rw [hnext] at h
      dsimp only at h ⊢
      by_cases hdone : found = .done
      · subst hdone
        rw [if_pos rfl] at h ⊢
        cases h
        simp [element]
      · rw [if_neg hdone] at h ⊢
        obtain ⟨r, hr, hevents⟩ := Option.map_eq_some_iff.mp h
        cases r with
        | error e => cases hevents
        | ok rest =>
          cases hevents
          simp only [ih _ hr]
          cases found with
          | done => exact absurd rfl hdone
          | string_value | null_value | row_start | row_end =>
            simp [element, List.filterMap_cons]

/-! The text of an array of strings. -/

def elementText : Option (List Byte) → List Byte
  | none => ArrayParser.null
  | some s => doubleQuote :: (s ++ [doubleQuote])

def arrayText (elements : List (Option (List Byte))) : List Byte :=
  leftBrace :: ([comma].intercalate (elements.map elementText) ++ [rightBrace])

def toElements : List (Option (List Byte)) → Elements
  | [] => .nil
  | none :: elements => .null (toElements elements)
  | some s :: elements => .string s (toElements elements)

def Plain (elements : List (Option (List Byte))) : Prop :=
  ∀ s, some s ∈ elements → doubleQuote ∉ s ∧ backslash ∉ s

theorem Plain.tail {element : Option (List Byte)} {elements : List (Option (List Byte))}
    (h : Plain (element :: elements)) : Plain elements :=
  fun s hs => h s (List.mem_cons_of_mem _ hs)

theorem escape_plain {s : List Byte} (h : doubleQuote ∉ s ∧ backslash ∉ s) : escape s = s := by
  induction s with
  | nil => rfl
  | cons c s ih =>
    simp only [List.mem_cons, not_or] at h
    rw [escape, if_neg (not_or.mpr ⟨Ne.symm h.1.1, Ne.symm h.2.1⟩), ih ⟨h.1.2, h.2.2⟩]

theorem render_toElements {elements : List (Option (List Byte))} (h : Plain elements) :
    (toElements elements).render = [comma].intercalate (elements.map elementText) := by
  induction elements with
  | nil => rfl
  | cons element elements ih =>
    have hjoin : ∀ text, (toElements elements).join text (toElements elements).render =
        [comma].intercalate (text :: elements.map elementText) := by
      intro text
      rw [ih h.tail]
      cases elements with
      | nil => exact (List.intercalate_singleton).symm
      | cons element' elements =>
        rw [List.map_cons, List.intercalate_cons_cons]
        cases element' <;> simp [toElements, Elements.join]
    cases element with
    | none => exact hjoin _
    | some s =>
      rw [toElements, Elements.render, escape_plain (h s List.mem_cons_self), hjoin]
      rfl

theorem events_toElements (read : List Byte → T) {elements : List (Option (List Byte))}
    (h : Plain elements) :
    ((toElements elements).mapStrings garble).events.filterMap (element read) =
      elements.map (Option.map read) := by
  induction elements with
  | nil => rfl
  | cons element' elements ih =>
    cases element' with
    | none =>
      rw [toElements, Elements.mapStrings, Elements.events, List.filterMap_cons, ih h.tail]
      rfl
    | some s =>
      rw [toElements, Elements.mapStrings, Elements.events, List.filterMap_cons, ih h.tail,
        garble_eq_self.mpr (h s List.mem_cons_self).1]
      rfl

theorem asArray_arrayText (read : List Byte → T) {elements : List (Option (List Byte))}
    (h : Plain elements) {fuel : Nat} (hfuel : (arrayText elements).length < fuel) :
    asArray read fuel (some (arrayText elements)) =
      some (.ok (elements.map (Option.map read))) := by
  have htext : arrayText elements = (toElements elements).text := by
    rw [arrayText, Elements.text, render_toElements h]
  rw [htext] at hfuel ⊢
  rw [asArray, loop_of_getAll read [] (getAll_text _ hfuel), List.nil_append, Elements.allEvents,
    List.filterMap_cons, List.filterMap_append, events_toElements read h]
  simp [element]

theorem extract_eq_self_iff {s : List Byte} :
    extract s = s ↔ ∀ c ∈ s, isSpace c = false := by
  constructor
  · intro h c hc
    rw [← h] at hc
    simpa using List.mem_takeWhile_imp hc
  · intro h
    have hdrop : s.dropWhile isSpace = s := by
      cases s with
      | nil => rfl
      | cons c s => rw [List.dropWhile_cons_of_neg (by simp [h c List.mem_cons_self])]
    rw [extract, hdrop]
    exact List.takeWhile_eq_self_iff.mpr fun c hc => by rw [h c hc, Bool.not_false]

/-- `asArray<std::string>` gives every string back exactly when none has white space. -/
theorem asArray_string_iff (elements : List (Option (List Byte)))
    (h : Plain elements) {fuel : Nat} (hfuel : (arrayText elements).length < fuel) :
    asArray extract fuel (some (arrayText elements)) = some (.ok elements) ↔
      ∀ s, some s ∈ elements → ∀ c ∈ s, isSpace c = false := by
  have hself : elements.map (Option.map extract) = elements ↔
      ∀ element ∈ elements, element.map extract = element := by
    rw [← List.map_eq_map_iff, List.map_id']
  rw [asArray_arrayText extract h hfuel, Option.some.injEq, Except.ok.injEq, hself]
  constructor
  · intro hmap s hs
    exact extract_eq_self_iff.mp (Option.some.inj (hmap _ hs))
  · intro hspace element helement
    cases element with
    | none => rfl
    | some s => rw [Option.map_some, extract_eq_self_iff.mpr (hspace s helement)]

theorem asArray_string_iff_a :
    asArray extract 14 (some (arrayText [some [⟨97, by decide⟩], none, some []])) =
      some (.ok [some [⟨97, by decide⟩], none, some []]) := by
  refine (asArray_string_iff [some [⟨97, by decide⟩], none, some []] ?_ (by decide)).mpr ?_
  · intro s hs
    obtain rfl | rfl : s = [⟨97, by decide⟩] ∨ s = [] := by simpa using hs
    · decide
    · decide
  · intro s hs c hc
    obtain rfl | rfl : s = [⟨97, by decide⟩] ∨ s = [] := by simpa using hs
    · rw [List.mem_singleton.mp hc]
      rfl
    · exact absurd hc List.not_mem_nil

def spaced : List Byte := [⟨49, by decide⟩, ⟨32, by decide⟩, ⟨50, by decide⟩]

/-- Of the string `1 2` only the `1` is left. -/
theorem asArray_string_cut :
    asArray extract 8 (some (arrayText [some spaced])) =
        some (.ok [some [⟨49, by decide⟩]]) ∧
      asArray extract 8 (some (arrayText [some spaced])) ≠ some (.ok [some spaced]) := by
  have hplain : Plain [some spaced] := by
    intro s hs
    obtain rfl : s = spaced := by simpa using hs
    decide
  have h := asArray_arrayText extract hplain (show _ < 8 by decide)
  rw [h]
  constructor
  · rfl
  · intro heq
    cases heq

end Field

end MysqlConnectPool
