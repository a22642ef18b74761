import MysqlConnectPool.Library.Traversal
import MysqlConnectPool.MySQLImpl.MySQLResultImpl

/-! Results, rows and fields, and the iterators over them.  A row is a position in its result and
a field one in its row, so that the iterators are rows and fields themselves.  Positions of
type `long` are integers here: their moves do not overflow. -/

namespace MysqlConnectPool

open Library.Traversal MySQLResultImpl

def toLong (n : Nat) : Int := if n < 2 ^ 63 then n else n - 2 ^ 64

def toSize (i : Int) : Nat := (i % 2 ^ 64).toNat

theorem toLong_of_lt {n : Nat} (h : n < 2 ^ 63) : toLong n = n := if_pos h

theorem toSize_natCast {n : Nat} (h : n < 2 ^ 63) : toSize n = n := by
  unfold toSize
  omega

abbrev Result := MySQLResultImpl

structure Row where
  result_ : Result
  index_ : Int
  end_ : Nat

structure Field where
  row_ : Nat
  column_ : Int
  result_ : Result

def Row.make (r : Result) (index : Nat) : Row := ⟨r, toLong index, r.columns⟩

def Field.make (row : Row) (columnNum : Nat) : Field :=
  ⟨toSize row.index_, toLong columnNum, row.result_⟩

namespace Field

def name (f : Field) : Option (List UInt8) := f.result_.columnName (toSize f.column_)

def isNull (f : Field) : Option Bool := f.result_.isNull f.row_ (toSize f.column_)

def asStringView (f : Field) : Option (Option (List UInt8)) :=
  (f.result_.getValue f.row_ (toSize f.column_)).bind fun first =>
    (f.result_.getLength f.row_ (toSize f.column_)).map fun length => first.map (·.take length)

def read (f : Field) : Option (Option (List UInt8)) :=
  f.isNull.bind fun null => if null then some none else f.asStringView

def move (m : Move) (f : Field) : Field := { f with column_ := m.apply f.column_ }

end Field

namespace Row

def size (row : Row) : Nat := row.end_

def get (row : Row) (index : Nat) : Option Field :=
  if index < row.end_ then some (.make row index) else none

def «at» (row : Row) (index : Nat) : Except RangeError Field :=
  if index ≥ row.end_ then .error ⟨MySQLConnector.ascii "Row index is out of range"⟩
  else .ok (.make row index)

def named (row : Row) (columnName : List UInt8) : Except RangeError Field :=
  (row.result_.columnNumber columnName).map (.make row)

def begin (row : Row) : Field := .make row 0

def «end» (row : Row) : Field := .make row row.size

/-- The reverse iterators keep the position that they read, one before their base. -/
def rbegin (row : Row) : Field := row.end.move .decrement

def rend (row : Row) : Field := row.begin.move .decrement

def move (m : Move) (row : Row) : Row := { row with index_ := m.apply row.index_ }

def readAll (row : Row) : Option (List (Option (List UInt8))) :=
  visit (fun it : Field => it.column_ = row.end.column_) (·.move .increment) Field.read (row.size + 1)
    row.begin

def readBackwards (row : Row) : Option (List (Option (List UInt8))) :=
  visit (fun it : Field => it.column_ = row.rend.column_) (·.move (Move.mirror .increment)) Field.read
    (row.size + 1) row.rbegin

end Row

namespace MySQLResultImpl

def get (r : Result) (index : Nat) : Option Row := if index < r.size then some (.make r index) else none

def «at» (r : Result) (index : Nat) : Except RangeError Row :=
  if index ≥ r.size then .error ⟨MySQLConnector.ascii "Result index is out of range"⟩
  else .ok (.make r index)

def front (r : Result) : Row := .make r 0

/-- The index of an empty result wraps. -/
def back (r : Result) : Row := .make r (toSize (r.size - 1))

def begin (r : Result) : Row := .make r 0

def «end» (r : Result) : Row := .make r r.size

def rbegin (r : Result) : Row := r.end.move .decrement

def rend (r : Result) : Row := r.begin.move .decrement

def readAll (r : Result) : Option (List (List (Option (List UInt8)))) :=
  visit (fun it : Row => it.index_ = r.end.index_) (·.move .increment) Row.readAll (r.size + 1) r.begin

def readBackwards (r : Result) : Option (List (List (Option (List UInt8)))) :=
  visit (fun it : Row => it.index_ = r.rend.index_) (·.move (Move.mirror .increment)) Row.readBackwards
    (r.size + 1) r.rbegin

end MySQLResultImpl

variable {r : MYSQL_RES} {affectedRows insertId : Nat}

theorem read_make {i j : Nat} (hi : i < r.rows.length) (hj : j < (r.rows[i]).length) :
    Field.read ⟨i, j, .make (some r) affectedRows insertId⟩ = some (r.rows[i])[j] := by
  have hj' : toSize (j : Int) = j := toSize_natCast (Nat.lt_trans (lt_fields hi hj) r.fields_lt)
  simp only [Field.read, Field.isNull, Field.asStringView, MySQLResultImpl.isNull, hj',
    getValue_make hi hj, getLength_make hi hj, Option.map_some, Option.bind_some]
  cases (r.rows[i])[j] with
  | none => rfl
  | some value => simp

def MYSQL_RES.row (r : MYSQL_RES) (affectedRows insertId i : Nat) : Row :=
  ⟨.make (some r) affectedRows insertId, i, r.fields.length⟩

theorem row_make {i : Nat} (hi : i < r.rows.length) :
    Row.make (make (some r) affectedRows insertId) i = r.row affectedRows insertId i := by
  rw [Row.make, toLong_of_lt (Nat.lt_trans hi r.rows_lt)]
  rfl

theorem readAll_row {i : Nat} (hi : i < r.rows.length) :
    (r.row affectedRows insertId i).readAll = some r.rows[i] := by
  have hlength := r.length_row _ (List.getElem_mem hi)
  have hrow : toSize (i : Int) = i := toSize_natCast (Nat.lt_trans hi r.rows_lt)
  have hbegin : (r.row affectedRows insertId i).begin =
      ⟨i, (0 : Nat), .make (some r) affectedRows insertId⟩ := by
    simp [Row.begin, Field.make, MYSQL_RES.row, hrow, toLong]
  have hend : (r.row affectedRows insertId i).end.column_ = r.fields.length := toLong_of_lt r.fields_lt
  rw [Row.readAll, hbegin, hend]
  refine visit_eq (fun k : Nat => Field.mk i k (.make (some r) affectedRows insertId))
    (fun k hk => read_make hi hk) (fun k _ => rfl) (fun k _ => ?_) ?_
  · rw [hlength]
    exact decide_eq_decide.mpr Int.ofNat_inj
  · rw [hlength]
    exact Nat.lt_succ_self _

theorem readBackwards_row {i : Nat} (hi : i < r.rows.length) :
    (r.row affectedRows insertId i).readBackwards = some (r.rows[i]).reverse := by
  have hlength := r.length_row _ (List.getElem_mem hi)
  have hrow : toSize (i : Int) = i := toSize_natCast (Nat.lt_trans hi r.rows_lt)
  have hbegin : (r.row affectedRows insertId i).rbegin =
      ⟨i, (r.fields.length : Int) - 1 - (0 : Nat), .make (some r) affectedRows insertId⟩ := by
    simp [Row.rbegin, Row.end, Field.make, Field.move, Move.apply, Row.size, MYSQL_RES.row, hrow,
      toLong_of_lt r.fields_lt]
  have hend : (r.row affectedRows insertId i).rend.column_ = -1 := rfl
  rw [Row.readBackwards, hbegin, hend]
  refine visit_eq (fun k : Nat =>
      Field.mk i ((r.fields.length : Int) - 1 - k) (.make (some r) affectedRows insertId))
    (fun k hk => ?_) (fun k _ => ?_) (fun k hk => ?_) ?_
  · rw [List.length_reverse] at hk
    have hcolumn : (r.fields.length : Int) - 1 - k = ((r.rows[i].length - 1 - k : Nat) : Int) := by
      omega
    simp only [hcolumn, List.getElem_reverse]
    exact read_make hi (by omega)
  · simp only [Field.move, Move.mirror, Move.apply, Field.mk.injEq, true_and, and_true]
    omega
  · rw [List.length_reverse, hlength] at hk ⊢
    exact decide_eq_decide.mpr (by dsimp only; omega)
  · rw [List.length_reverse, hlength]
    exact Nat.lt_succ_self _

namespace MySQLResultImpl

/-- The loops over the rows and their fields read the table, forwards and backwards: each entry once
and in order, and nothing else; without a stored result they read nothing. -/
theorem loops_read_table (result_ : Option MYSQL_RES) (affectedRows insertId : Nat) :
    (make result_ affectedRows insertId).readAll = some ((result_.map MYSQL_RES.rows).getD []) ∧
    (make result_ affectedRows insertId).readBackwards =
      some (((result_.map MYSQL_RES.rows).getD []).map List.reverse).reverse := by
  cases result_ with
  | none => exact ⟨rfl, rfl⟩
  | some r =>
    constructor
    · refine visit_eq (fun k : Nat => r.row affectedRows insertId k) (fun k hk => readAll_row hk)
        (fun k _ => rfl) (fun k hk => ?_) (Nat.lt_succ_self _)
      have hend : (make (some r) affectedRows insertId).end.index_ = r.rows.length :=
        toLong_of_lt r.rows_lt
      rw [hend]
      exact decide_eq_decide.mpr Int.ofNat_inj
    · have hbegin : (make (some r) affectedRows insertId).rbegin =
          ⟨make (some r) affectedRows insertId, (r.rows.length : Int) - 1 - (0 : Nat), r.fields.length⟩ := by
        simp [MySQLResultImpl.rbegin, MySQLResultImpl.end, Row.make, Row.move, Move.apply,
          toLong_of_lt r.rows_lt]
      have hend : (make (some r) affectedRows insertId).rend.index_ = -1 := rfl
      rw [MySQLResultImpl.readBackwards, hbegin, hend]
      refine visit_eq (fun k : Nat =>
          Row.mk (make (some r) affectedRows insertId) ((r.rows.length : Int) - 1 - k) r.fields.length)
        (fun k hk => ?_) (fun k _ => ?_) (fun k hk => ?_) ?_
      · simp only [Option.map_some, Option.getD_some, List.length_reverse, List.length_map] at hk ⊢
        have hindex : (r.rows.length : Int) - 1 - k = ((r.rows.length - 1 - k : Nat) : Int) := by
          omega
        rw [hindex, List.getElem_reverse, List.getElem_map]
        simp only [List.length_map]
        exact readBackwards_row (by omega)
      · simp only [Row.move, Move.mirror, Move.apply, Row.mk.injEq, true_and, and_true]
        omega
      · simp only [Option.map_some, Option.getD_some, List.length_reverse, List.length_map] at hk ⊢
        exact decide_eq_decide.mpr (by omega)
      · simp only [Option.map_some, Option.getD_some, List.length_reverse, List.length_map]
        exact Nat.lt_succ_self _

theorem foldl_move (ms : List Move) (row : Row) :
    ms.foldl (fun row m => row.move m) row =
      { row with index_ := row.index_ + (ms.map Move.distance).sum } := by
  induction ms generalizing row with
  | nil => simp
  | cons m ms ih =>
    rw [List.foldl_cons, ih, List.map_cons, List.sum_cons]
    cases m <;> simp only [Row.move, Move.apply, Move.distance, Row.mk.injEq, true_and, and_true] <;> omega

theorem foldl_move_mirror (ms : List Move) (row : Row) :
    ms.foldl (fun row m => row.move m.mirror) row =
      { row with index_ := row.index_ - (ms.map Move.distance).sum } := by
  have hindex := Move.foldl_mirror ms row.index_
  rw [← hindex]
  induction ms generalizing row with
  | nil => rfl
  | cons m ms ih =>
    rw [List.foldl_cons, List.foldl_cons, ih _ (Move.foldl_mirror ms _)]
    rfl

/-- All ways to an entry lead to the same field: `at` and `operator[]`, and iterators from both ends
after whatever moves go as far; behind the ends `at` throws. -/
theorem access_paths_agree (r : MYSQL_RES) (affectedRows insertId i j : Nat) :
    (i < r.rows.length → j < r.fields.length → ∃ f : Field,
      ((make (some r) affectedRows insertId).«at» i).bind (·.«at» j) = .ok f ∧
      ((make (some r) affectedRows insertId).get i).bind (·.get j) = some f ∧
      (∀ ms : List Move, (ms.map Move.distance).sum = i →
        (ms.foldl (fun row m => row.move m) (make (some r) affectedRows insertId).begin).get j = some f) ∧
      (∀ ms : List Move, (ms.map Move.distance).sum = r.rows.length - 1 - i →
        (ms.foldl (fun row m => row.move m.mirror) (make (some r) affectedRows insertId).rbegin).get j =
          some f) ∧
      f.name = r.fields[j]? ∧ f.read = r.rows[i]?.bind fun row => row[j]?) ∧
    (r.rows.length ≤ i → (make (some r) affectedRows insertId).«at» i =
      .error ⟨MySQLConnector.ascii "Result index is out of range"⟩) ∧
    (i < r.rows.length → r.fields.length ≤ j →
      ((make (some r) affectedRows insertId).«at» i).bind (·.«at» j) =
        .error ⟨MySQLConnector.ascii "Row index is out of range"⟩) := by
  have hat : i < r.rows.length →
      (make (some r) affectedRows insertId).«at» i = .ok (r.row affectedRows insertId i) := by
    intro hi
    rw [MySQLResultImpl.at, size_make, if_neg (Nat.not_le.mpr hi), row_make hi]
  refine ⟨fun hi hj => ?_, fun hi => if_pos hi, fun hi hj => ?_⟩
  · have hi' : i < 2 ^ 63 := Nat.lt_trans hi r.rows_lt
    have hj' : j < 2 ^ 63 := Nat.lt_trans hj r.fields_lt
    have hfield : Field.make (r.row affectedRows insertId i) j =
        ⟨i, j, make (some r) affectedRows insertId⟩ := by
      rw [Field.make, MYSQL_RES.row, toSize_natCast hi', toLong_of_lt hj']
    have hget : (r.row affectedRows insertId i).get j = some ⟨i, j, make (some r) affectedRows insertId⟩ :=
      (if_pos hj).trans (congrArg some hfield)
    refine ⟨⟨i, j, make (some r) affectedRows insertId⟩, ?_, ?_, fun ms hms => ?_,
      fun ms hms => ?_, ?_, ?_⟩
    · rw [hat hi]
      exact (if_neg (Nat.not_le.mpr hj)).trans (congrArg Except.ok hfield)
    · rw [MySQLResultImpl.get, size_make, if_pos hi, row_make hi, Option.bind_some, hget]
    · have hbegin : (make (some r) affectedRows insertId).begin.index_ = 0 := rfl
      rw [foldl_move, hms, hbegin, Int.zero_add]
      exact hget
    · have hend : (make (some r) affectedRows insertId).rbegin.index_ = r.rows.length - 1 := by
        simp [MySQLResultImpl.rbegin, MySQLResultImpl.end, Row.make, Row.move, Move.apply,
          toLong_of_lt r.rows_lt]
      have hindex : (r.rows.length : Int) - 1 - (r.rows.length - 1 - i) = i := by omega
      rw [foldl_move_mirror, hms, hend, hindex]
      exact hget
    · rw [Field.name, toSize_natCast hj']
      exact if_pos hj
    · have hlength := r.length_row _ (List.getElem_mem hi)
      rw [read_make hi (hlength ▸ hj), List.getElem?_eq_getElem hi, Option.bind_some,
        List.getElem?_eq_getElem (hlength ▸ hj)]
  · rw [hat hi]
    exact if_pos hj

/-- A field by its name: the last of those whose names differ from it in case at most; if there are
fields but no such one, the error has the name as it was given. -/
theorem named_field (r : MYSQL_RES) (affectedRows insertId : Nat) (columnName : List UInt8) :
    (∃ j, ∃ hj : j < r.fields.length, (r.fields[j]).map tolower = columnName.map tolower ∧
      (∀ k (hk : k < r.fields.length), j < k → (r.fields[k]).map tolower ≠ columnName.map tolower) ∧
      ∀ i, i < r.rows.length → ∃ f : Field, (r.row affectedRows insertId i).named columnName = .ok f ∧
        f.name = some r.fields[j] ∧ f.read = r.rows[i]?.bind fun row => row[j]?) ∨
    (∀ j (hj : j < r.fields.length), (r.fields[j]).map tolower ≠ columnName.map tolower) ∧
      ∀ i, i < r.rows.length → r.fields ≠ [] → (r.row affectedRows insertId i).named columnName =
        .error ⟨MySQLConnector.ascii "no column named " ++ columnName⟩ := by
  have hmap (hne : r.fields ≠ []) :
      (make (some r) affectedRows insertId).fieldsMapPtr_ = some (mapFields 0 r.fields ∅) :=
    if_pos (List.length_pos_iff.mpr hne)
  rcases lookup_mapFields r.fields 0 ∅ (columnName.map tolower) with ⟨j, hj, hname, hlast, hlookup⟩ |
    ⟨hnone, hlookup⟩
  · refine Or.inl ⟨j, hj, hname, hlast, fun i hi => ?_⟩
    have hj' : j < 2 ^ 63 := Nat.lt_trans hj r.fields_lt
    have hlength := r.length_row _ (List.getElem_mem hi)
    refine ⟨⟨i, j, make (some r) affectedRows insertId⟩, ?_, ?_, ?_⟩
    · rw [Nat.zero_add] at hlookup
      have hcolumn := columnNumber_of_some (hmap (List.ne_nil_of_length_pos (Nat.zero_lt_of_lt hj))) hlookup
      have hfield : Field.make (r.row affectedRows insertId i) j =
          ⟨i, j, make (some r) affectedRows insertId⟩ := by
        rw [Field.make, MYSQL_RES.row, toSize_natCast (Nat.lt_trans hi r.rows_lt), toLong_of_lt hj']
      rw [Row.named, MYSQL_RES.row, hcolumn]
      exact congrArg Except.ok hfield
    · rw [Field.name, toSize_natCast hj']
      exact (if_pos hj).trans (List.getElem?_eq_getElem hj)
    · rw [read_make hi (hlength ▸ hj), List.getElem?_eq_getElem hi, Option.bind_some,
        List.getElem?_eq_getElem (hlength ▸ hj)]
  · refine Or.inr ⟨hnone, fun i hi hne => ?_⟩
    rw [Row.named, MYSQL_RES.row,
      columnNumber_of_none (hmap hne) (hlookup.trans (Finmap.lookup_empty _))]
    rfl

def twoByTwo : MYSQL_RES where
  fields := [MySQLConnector.ascii "id", MySQLConnector.ascii "Id"]
  rows := [[some [49], none], [some [50], some [51]]]
  length_row := by simp
  fields_lt := by simp
  rows_lt := by simp

theorem named_field_twoByTwo :
    (∃ f : Field, (twoByTwo.row 0 0 1).named (MySQLConnector.ascii "ID") = .ok f ∧
      f.read = some (some [51])) ∧
    (twoByTwo.row 0 0 1).named (MySQLConnector.ascii "x") =
      .error ⟨MySQLConnector.ascii "no column named " ++ MySQLConnector.ascii "x"⟩ := by
  constructor
  · rcases named_field twoByTwo 0 0 (MySQLConnector.ascii "ID") with ⟨j, hj, -, hlast, hrow⟩ | ⟨hnone, -⟩
    · have hj1 : j = 1 := by
        by_contra hne
        have hj2 : j < 2 := hj
        exact hlast 1 (by decide) (by omega) (by decide)
      subst hj1
      obtain ⟨f, hf, -, hread⟩ := hrow 1 (by decide)
      exact ⟨f, hf, hread⟩
    · exact (hnone 0 (by decide) (by decide)).elim
  · rcases named_field twoByTwo 0 0 (MySQLConnector.ascii "x") with ⟨j, hj, hname, -⟩ | ⟨-, hrow⟩
    · have hj2 : j < 2 := hj
      have hno : ∀ j (h : j < 2), (twoByTwo.fields[j]).map tolower ≠
          (MySQLConnector.ascii "x").map tolower := by decide
      exact absurd hname (hno j hj2)
    · exact hrow 1 (by decide) (by decide)

theorem front_back (r : MYSQL_RES) (affectedRows insertId : Nat) :
    (r.rows ≠ [] → (make (some r) affectedRows insertId).front.readAll = r.rows.head? ∧
      (make (some r) affectedRows insertId).back.readAll = r.rows.getLast?) ∧
    (r.rows = [] → ∀ j, (Field.make (make (some r) affectedRows insertId).front j).read = some none ∧
      (Field.make (make (some r) affectedRows insertId).back j).read = some none) := by
  refine ⟨fun hne => ?_, fun hempty j => ?_⟩
  · have hpos := List.length_pos_iff.mpr hne
    have hback : toSize ((r.rows.length : Int) - 1) = r.rows.length - 1 := by
      have hlast : (r.rows.length : Int) - 1 = ((r.rows.length - 1 : Nat) : Int) := by omega
      rw [hlast, toSize_natCast (Nat.lt_of_le_of_lt (Nat.sub_le _ _) r.rows_lt)]
    have hlast : r.rows.length - 1 < r.rows.length := Nat.sub_lt hpos Nat.one_pos
    rw [front, row_make hpos, readAll_row hpos, back, size_make, hback, row_make hlast,
      readAll_row hlast, List.getLast?_eq_getElem?, List.getElem?_eq_getElem hlast,
      List.head?_eq_getElem?, List.getElem?_eq_getElem hpos]
    exact ⟨rfl, rfl⟩
  · have hnull : ∀ f : Field, f.result_ = make (some r) affectedRows insertId → f.read = some none := by
      intro f hf
      have hzero : (make (some r) affectedRows insertId).rowsNumber_ = 0 := by simp [make, hempty]
      rw [Field.read, Field.isNull, isNull, hf, getValue_of_empty (Or.inl hzero)]
      rfl
    exact ⟨hnull _ rfl, hnull _ rfl⟩

example : (make (some twoByTwo) 0 0).readBackwards = some [[some [51], some [50]], [none, some [49]]] := by
  decide

end MySQLResultImpl

end MysqlConnectPool
