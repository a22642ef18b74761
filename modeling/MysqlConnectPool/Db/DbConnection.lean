import Mathlib.Data.Finmap
import MysqlConnectPool.Library.Regex

/-! The parser of connection strings. -/

namespace MysqlConnectPool.DbConnection

open Library.Regex

def newline : UInt8 := 10
def space : UInt8 := 32
def quote : UInt8 := 39
def equalsSign : UInt8 := 61
def backslash : UInt8 := 92

def isWord (c : UInt8) : Bool := 48 ≤ c ∧ c ≤ 57 ∨ 65 ≤ c ∧ c ≤ 90 ∨ c = 95 ∨ 97 ≤ c ∧ c ≤ 122

def isSpace (c : UInt8) : Bool := 9 ≤ c ∧ c ≤ 13 ∨ c = space

def escapable (accepts : UInt8 → Bool) : Pattern UInt8 :=
  .alt (.char accepts) (.seq (.char (· = backslash)) (.char accepts))

def spaces : Pattern UInt8 := .star (.char (· = space))

def rawValue : Pattern UInt8 :=
  .alt
    (.seq (.char (· = quote)) (.seq (escapable (· ≠ newline)).plus (.char (· = quote))))
    (escapable (!isSpace ·)).plus

/-- `(\w+) *= *('(?:[^\n]|\\[^\n])+'|(?:\S|\\\S)+)` -/
def re : Pattern UInt8 :=
  .seq (.group 1 (Pattern.char isWord).plus)
    (.seq spaces (.seq (.char (· = equalsSign)) (.seq spaces (.group 2 rawValue))))

theorem re_consumes : re.consumes := rfl

def unescape (quoted : Bool) : Bool → List UInt8 → List UInt8
  | _, [] => []
  | first, c :: rest =>
    if quoted ∧ (first ∨ rest = []) then unescape quoted false rest
    else
      match rest with
      | [] => [c]
      | d :: rest =>
        if c = backslash then d :: unescape quoted false rest
        else c :: unescape quoted false (d :: rest)

def isQuoted (rawValue : List UInt8) : Bool :=
  rawValue.head? = some quote ∧ rawValue.getLast? = some quote

def valueOf (rawValue : List UInt8) : List UInt8 := unescape (isQuoted rawValue) true rawValue

abbrev Params := Finmap fun _ : List UInt8 => List UInt8

def parseFrom (params : Params) (str : List UInt8) : Params :=
  match _h : re.search str with
  | none => params
  | some what => parseFrom (params.insert (what.groups 1) (valueOf (what.groups 2))) what.rest
  termination_by str.length
  decreasing_by exact re.search_length_lt re_consumes _h

def parseConnString (connInfo : List UInt8) : Params := parseFrom ∅ connInfo

theorem parseFrom_of_none {params : Params} {str : List UInt8} (h : re.search str = none) :
    parseFrom params str = params := by
  rw [parseFrom]
  split
  · rfl
  · next what hwhat => rw [h] at hwhat; cases hwhat

theorem parseFrom_of_some {params : Params} {str : List UInt8} {what : Match UInt8}
    (h : re.search str = some what) :
    parseFrom params str =
      parseFrom (params.insert (what.groups 1) (valueOf (what.groups 2))) what.rest := by
  rw [parseFrom]
  split
  · next hnone => rw [h] at hnone; cases hnone
  · next what' hwhat => rw [h] at hwhat; cases hwhat; rfl

theorem search_nil : re.search [] = none := rfl

theorem first_re {key raw : List UInt8} (hne : key ≠ []) (hkey : ∀ c ∈ key, isWord c)
    (hraw : raw.head? ≠ some space) {β : Type*} {k : Match UInt8 → Option β} {b : β}
    (hk : rawValue.first
      (fun m => k (Match.capture 2 ⟨raw, Function.update (fun _ => []) 1 key⟩ m))
      ⟨raw, Function.update (fun _ => []) 1 key⟩ = some b) :
    re.first k (.start (key ++ equalsSign :: raw)) = some b := by
  have hcapture : (Match.start (key ++ equalsSign :: raw)).capture 1
      ⟨equalsSign :: raw, fun _ => []⟩ =
      ⟨equalsSign :: raw, Function.update (fun _ => []) 1 key⟩ := by
    simp [Match.capture, Match.start]
  rw [re, Pattern.first_seq, Pattern.first_group]
  refine Pattern.first_plus_run isWord _ rfl hne hkey (by simp [isWord, equalsSign]) ?_
  refine Eq.trans (congrArg _ hcapture) ?_
  rw [Pattern.first_seq]
  refine Pattern.first_star_run _ _ (List.nil_append _).symm nofun
    (by simp [equalsSign, space]) ?_
  rw [Pattern.first_seq, Pattern.first_char_cons _ _ rfl, if_pos (by decide), Pattern.first_seq]
  refine Pattern.first_star_run _ _ (List.nil_append _).symm nofun ?_ ?_
  · intro c hc
    exact decide_eq_false fun h => hraw (by rw [← h]; exact hc)
  · rw [Pattern.first_group]
    exact hk

end MysqlConnectPool.DbConnection
