import Mathlib.Data.Finmap
import MysqlConnectPool.MySQLImpl.Placeholder

/-! A stored result of the client library, as the driver keeps it. -/

namespace MysqlConnectPool

/-- A result that has been stored: the names of its fields, and rows with a value or null in each
field.  Containers hold fewer than `2 ^ 63` entries. -/
structure MYSQL_RES where
  fields : List (List UInt8)
  rows : List (List (Option (List UInt8)))
  length_row : ∀ row ∈ rows, row.length = fields.length
  fields_lt : fields.length < 2 ^ 63
  rows_lt : rows.length < 2 ^ 63

structure RangeError where
  what : List UInt8
  deriving DecidableEq

namespace MySQLResultImpl

def tolower (c : UInt8) : UInt8 := if 65 ≤ c ∧ c ≤ 90 then c + 32 else c

abbrev FieldsMap := Finmap fun _ : List UInt8 => Nat

def mapFields : Nat → List (List UInt8) → FieldsMap → FieldsMap
  | _, [], fieldsMap => fieldsMap
  | i, name :: names, fieldsMap => mapFields (i + 1) names (fieldsMap.insert (name.map tolower) i)

def fetchLengths (row : List (Option (List UInt8))) : List Nat :=
  row.map fun value => (value.getD []).length

end MySQLResultImpl

open MySQLResultImpl

structure MySQLResultImpl where
  rowsNumber_ : Nat
  fieldArray_ : List (List UInt8)
  fieldsNumber_ : Nat
  affectedRows_ : Nat
  insertId_ : Nat
  fieldsMapPtr_ : Option FieldsMap
  rowsPtr_ : List (List (Option (List UInt8)) × List Nat)

namespace MySQLResultImpl

/-- The constructor; there is no stored result behind a statement that returns none. -/
def make (result_ : Option MYSQL_RES) (affectedRows insertId : Nat) : MySQLResultImpl where
  rowsNumber_ := (result_.map fun r => r.rows.length).getD 0
  fieldArray_ := (result_.map fun r => r.fields).getD []
  fieldsNumber_ := (result_.map fun r => r.fields.length).getD 0
  affectedRows_ := affectedRows
  insertId_ := insertId
  fieldsMapPtr_ :=
    match result_ with
    | some r => if 0 < r.fields.length then some (mapFields 0 r.fields ∅) else none
    | none => none
  rowsPtr_ :=
    match result_ with
    | some r => r.rows.map fun row => (row, fetchLengths row)
    | none => []

def size (s : MySQLResultImpl) : Nat := s.rowsNumber_

def columns (s : MySQLResultImpl) : Nat := s.fieldsNumber_

def columnName (s : MySQLResultImpl) (number : Nat) : Option (List UInt8) :=
  if number < s.fieldsNumber_ then s.fieldArray_[number]? else none

def columnNumber (s : MySQLResultImpl) (colName : List UInt8) : Except RangeError Nat :=
  match s.fieldsMapPtr_ with
  | none => .ok (2 ^ 64 - 1)
  | some fieldsMap =>
    match fieldsMap.lookup (colName.map tolower) with
    | some i => .ok i
    | none => .error ⟨MySQLConnector.ascii "no column named " ++ colName⟩

section ColumnNumber

variable {s : MySQLResultImpl} {fieldsMap : FieldsMap} {colName : List UInt8}
  (hmap : s.fieldsMapPtr_ = some fieldsMap)
include hmap

theorem columnNumber_of_some {i : Nat} (h : fieldsMap.lookup (colName.map tolower) = some i) :
    s.columnNumber colName = .ok i := by
  simp only [columnNumber, hmap, h]

theorem columnNumber_of_none (h : fieldsMap.lookup (colName.map tolower) = none) :
    s.columnNumber colName = .error ⟨MySQLConnector.ascii "no column named " ++ colName⟩ := by
  simp only [columnNumber, hmap, h]

end ColumnNumber

/-- The pointer is null where the inner value is `none`; an assertion fails, or a vector is read
behind its end, where the outer one is. -/
def getValue (s : MySQLResultImpl) (row column : Nat) : Option (Option (List UInt8)) :=
  if s.rowsNumber_ = 0 ∨ s.fieldsNumber_ = 0 then some none
  else if row < s.rowsNumber_ ∧ column < s.fieldsNumber_ then
    s.rowsPtr_[row]?.bind fun r => r.1[column]?
  else none

def isNull (s : MySQLResultImpl) (row column : Nat) : Option Bool :=
  (s.getValue row column).map Option.isNone

def getLength (s : MySQLResultImpl) (row column : Nat) : Option Nat :=
  if s.rowsNumber_ = 0 ∨ s.fieldsNumber_ = 0 then some 0
  else if row < s.rowsNumber_ ∧ column < s.fieldsNumber_ then
    s.rowsPtr_[row]?.bind fun r => r.2[column]?
  else none

variable {r : MYSQL_RES} {affectedRows insertId : Nat}

@[simp] theorem size_make : (make (some r) affectedRows insertId).size = r.rows.length := rfl

@[simp] theorem columns_make : (make (some r) affectedRows insertId).columns = r.fields.length := rfl

theorem lt_fields {i j : Nat} (hi : i < r.rows.length) (hj : j < (r.rows[i]).length) :
    j < r.fields.length := by
  rwa [r.length_row _ (List.getElem_mem hi)] at hj

theorem getValue_make {i j : Nat} (hi : i < r.rows.length) (hj : j < (r.rows[i]).length) :
    (make (some r) affectedRows insertId).getValue i j = some (r.rows[i])[j] := by
  have hcol := lt_fields hi hj
  refine (if_neg ?_).trans ((if_pos ⟨hi, hcol⟩).trans (by simp [make, hi, hj]))
  simp only [make, Option.map_some, Option.getD_some]
  omega

theorem getLength_make {i j : Nat} (hi : i < r.rows.length) (hj : j < (r.rows[i]).length) :
    (make (some r) affectedRows insertId).getLength i j = some ((r.rows[i])[j].getD []).length := by
  have hcol := lt_fields hi hj
  refine (if_neg ?_).trans ((if_pos ⟨hi, hcol⟩).trans (by simp [make, hi, hj, fetchLengths]))
  simp only [make, Option.map_some, Option.getD_some]
  omega

theorem getValue_of_empty {s : MySQLResultImpl} (h : s.rowsNumber_ = 0 ∨ s.fieldsNumber_ = 0) (i j : Nat) :
    s.getValue i j = some none := if_pos h

theorem lookup_mapFields (names : List (List UInt8)) (i : Nat) (fieldsMap : FieldsMap) (key : List UInt8) :
    (∃ j, ∃ h : j < names.length, (names[j]).map tolower = key ∧
        (∀ k (hk : k < names.length), j < k → (names[k]).map tolower ≠ key) ∧
        (mapFields i names fieldsMap).lookup key = some (i + j)) ∨
      (∀ j (h : j < names.length), (names[j]).map tolower ≠ key) ∧
        (mapFields i names fieldsMap).lookup key = fieldsMap.lookup key := by
  induction names generalizing i fieldsMap with
  | nil => exact Or.inr ⟨fun j h => absurd h (Nat.not_lt_zero j), rfl⟩
  | cons name names ih =>
    rcases ih (i + 1) (fieldsMap.insert (name.map tolower) i) with ⟨j, hj, hkey, hlast, hlookup⟩ |
      ⟨hnone, hlookup⟩
    · refine Or.inl ⟨j + 1, Nat.succ_lt_succ hj, hkey, fun k hk hjk => ?_, ?_⟩
      · obtain ⟨k, rfl⟩ := Nat.exists_eq_succ_of_ne_zero (Nat.ne_zero_of_lt hjk)
        exact hlast k (Nat.lt_of_succ_lt_succ hk) (Nat.lt_of_succ_lt_succ hjk)
      · rw [mapFields, hlookup, Nat.add_right_comm, Nat.add_assoc]
    · by_cases hname : name.map tolower = key
      · refine Or.inl ⟨0, Nat.succ_pos _, hname, fun k hk hk0 => ?_, ?_⟩
        · obtain ⟨k, rfl⟩ := Nat.exists_eq_succ_of_ne_zero (Nat.ne_zero_of_lt hk0)
          exact hnone k (Nat.lt_of_succ_lt_succ hk)
        · rw [mapFields, hlookup, hname, Finmap.lookup_insert, Nat.add_zero]
      · refine Or.inr ⟨fun j hj => ?_, ?_⟩
        · cases j with
          | zero => exact hname
          | succ j => exact hnone j (Nat.lt_of_succ_lt_succ hj)
        · rw [mapFields, hlookup, Finmap.lookup_insert_of_ne _ (Ne.symm hname)]

end MySQLResultImpl

end MysqlConnectPool
