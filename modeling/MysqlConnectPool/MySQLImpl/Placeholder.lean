import Mathlib.Algebra.Order.Ring.Int
import Mathlib.Data.List.Basic

/-! The placeholder loop of `execSqlInLoop`.  `mysql_real_escape_string` is a parameter,
from the bytes it reads to the bytes it writes.  `none` stands for a failed assertion, an
exception, an abort or a write behind the buffer. -/

namespace MysqlConnectPool.MySQLConnector

inductive FieldType
  | MySqlTiny
  | MySqlShort
  | MySqlLong
  | MySqlLongLong
  | MySqlNull
  | MySqlString
  | DrogonDefaultValue
  deriving DecidableEq

def FieldType.ofInt : Int → Option FieldType
  | 0 => some .MySqlTiny
  | 1 => some .MySqlShort
  | 2 => some .MySqlLong
  | 3 => some .MySqlLongLong
  | 4 => some .MySqlNull
  | 5 => some .MySqlString
  | 6 => some .DrogonDefaultValue
  | _ => none

abbrev questionMark : UInt8 := 63
abbrev quote : UInt8 := 39

def ascii (s : String) : List UInt8 := s.toList.map fun c => c.toNat.toUInt8

def bytes (n : Nat) (p : Nat → UInt8) : List UInt8 := (List.range n).map p

def readSigned (n : Nat) (p : Nat → UInt8) : Int :=
  Int.bmod ((bytes n p).foldr (fun b acc => b.toNat + 256 * acc) 0 : Nat) (2 ^ (8 * n))

def to_string (n : Int) : List UInt8 :=
  (if n < 0 then [45] else []) ++ (Nat.toDigits 10 n.natAbs).map fun c => c.toNat.toUInt8

variable (mysql_real_escape_string : List UInt8 → List UInt8)

def appendParameter (parameter : Nat → UInt8) (length format : Int) : Option (List UInt8) :=
  match FieldType.ofInt format with
  | some .MySqlTiny => some (to_string (readSigned 1 parameter))
  | some .MySqlShort => some (to_string (readSigned 2 parameter))
  | some .MySqlLong => some (to_string (readSigned 4 parameter))
  | some .MySqlLongLong => some (to_string (readSigned 8 parameter))
  | some .MySqlNull => some (ascii "NULL")
  | some .MySqlString =>
    -- `length[i] * 2` is an `int`, and a negative one makes the constructor of `to` throw
    if 0 ≤ length ∧ length * 2 < 2 ^ 31 then
      let to_ := mysql_real_escape_string (bytes length.toNat parameter)
      if to_.length ≤ 2 * length.toNat then some (quote :: (to_ ++ [quote])) else none
    else none
  | some .DrogonDefaultValue => some (ascii "default")
  | none => none

def find (sql : List UInt8) (pos : Nat) : Option Nat :=
  ((sql.drop pos).findIdx? (· = questionMark)).map (pos + ·)

def substr (sql : List UInt8) (pos n : Nat) : List UInt8 := (sql.drop pos).take n

/-- The passes for the parameters that are left, from `pos` with `sql_` built so far; the
position is `none` for `npos`, after the `break`. -/
def placeholderLoop (sql : List UInt8) :
    List ((Nat → UInt8) × Int × Int) → Nat → List UInt8 → Option (Option Nat × List UInt8)
  | [], pos, sql_ => some (some pos, sql_)
  | (parameter, length, format) :: rest, pos, sql_ =>
    match find sql pos with
    | none => some (none, sql_ ++ sql.drop pos)
    | some seekPos =>
      (appendParameter mysql_real_escape_string parameter length format).bind fun value =>
        placeholderLoop sql rest (seekPos + 1) (sql_ ++ substr sql pos (seekPos - pos) ++ value)

def appendRest (sql : List UInt8) : Option Nat × List UInt8 → List UInt8
  | (some pos, sql_) => if pos < sql.length then sql_ ++ sql.drop pos else sql_
  | (none, sql_) => sql_

structure ParameterVectors where
  parameters : List (Nat → UInt8)
  length : List Int
  format : List Int

def ParameterVectors.zipped (v : ParameterVectors) : List ((Nat → UInt8) × Int × Int) :=
  v.parameters.zip (v.length.zip v.format)

def preparedSql (sql : List UInt8) (paraNum : Nat) (v : ParameterVectors) : Option (List UInt8) :=
  if paraNum = v.parameters.length ∧ paraNum = v.length.length ∧ paraNum = v.format.length ∧
      sql ≠ [] then
    if 0 < paraNum then
      (placeholderLoop mysql_real_escape_string sql v.zipped 0 []).map (appendRest sql)
    else some sql
  else none

end MysqlConnectPool.MySQLConnector
