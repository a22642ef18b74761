import MysqlConnectPool.MySQLImpl.Placeholder

/-! The parser of SQL arrays, on C strings. -/

namespace MysqlConnectPool.ArrayParser

abbrev Byte := { c : UInt8 // c ≠ 0 }

/-- A pointer into the text: the characters from there to the terminating NUL. -/
abbrev Position := List Byte

def comma : Byte := ⟨44, by decide⟩
def semicolon : Byte := ⟨59, by decide⟩
def leftBrace : Byte := ⟨123, by decide⟩
def rightBrace : Byte := ⟨125, by decide⟩
def singleQuote : Byte := ⟨39, by decide⟩
def doubleQuote : Byte := ⟨34, by decide⟩
def backslash : Byte := ⟨92, by decide⟩

def null : List Byte := [⟨78, by decide⟩, ⟨85, by decide⟩, ⟨76, by decide⟩, ⟨76, by decide⟩]

/-- `readsPastEnd` is no exception but a read behind the terminating NUL. -/
inductive Failure
  | ArgumentError (what : List UInt8)
  | readsPastEnd
  deriving DecidableEq

inductive Juncture
  | row_start
  | row_end
  | null_value
  | string_value
  | done
  deriving DecidableEq

def Failure.nullByte (begin : Position) : Failure :=
  .ArgumentError (MySQLConnector.ascii "Null byte in SQL string: " ++ begin.map Subtype.val)

def Failure.endsInEscape (begin : Position) : Failure :=
  .ArgumentError (MySQLConnector.ascii "SQL string ends in escape: " ++ begin.map Subtype.val)

def scanSingleQuoted (begin : Position) : Position → Except Failure Position
  | [] => .error (.nullByte begin)
  | c :: here =>
    if c = singleQuote then
      match here with
      | [] => .ok []
      | d :: here => if d = singleQuote then scanSingleQuoted begin here else .ok (d :: here)
    else if c = backslash then
      match here with
      | [] => .error (.endsInEscape begin)
      | _ :: here => scanSingleQuoted begin here
    else scanSingleQuoted begin here

def scan_single_quoted_string (begin : Position) : Except Failure Position :=
  scanSingleQuoted begin begin.tail

def scanDoubleQuoted (begin : Position) : Position → Except Failure Position
  | [] => .error (.nullByte begin)
  | c :: here =>
    if c = backslash then
      match here with
      | [] => .error (.endsInEscape begin)
      | _ :: here => scanDoubleQuoted begin here
    else if c = doubleQuote then .ok here
    else scanDoubleQuoted begin here

def scan_double_quoted_string (begin : Position) : Except Failure Position :=
  scanDoubleQuoted begin begin.tail

def between (begin fin : Position) : List Byte := begin.take (begin.length - fin.length)

/-- The loop of the two unescapers, which push the escaping character. -/
def unescape (escapes : Byte → Bool) : List Byte → List Byte
  | [] => []
  | [c] => [c]
  | c :: d :: here => c :: if escapes c then unescape escapes here else unescape escapes (d :: here)

def parse_single_quoted_string (begin fin : Position) : List Byte :=
  unescape (fun c => c = singleQuote || c = backslash) (between begin fin).tail.dropLast

def parse_double_quoted_string (begin fin : Position) : List Byte :=
  unescape (fun c => c = backslash) (between begin fin).tail.dropLast

def scan_unquoted_string : Position → Except Failure Position
  | [] => .error .readsPastEnd
  | c :: p => if c = comma ∨ c = semicolon ∨ c = rightBrace then .ok (c :: p) else scan_unquoted_string p

def skipSeparator : Position → Position
  | [] => []
  | c :: fin => if c = comma ∨ c = semicolon then fin else c :: fin

/-- The position is `none` where `pos_` is the null pointer. -/
def getNext : Option Position → Except Failure ((Juncture × List Byte) × Option Position)
  | none => .ok ((.done, []), none)
  | some [] => .ok ((.done, []), some [])
  | some (c :: rest) =>
    if c = leftBrace then .ok ((.row_start, []), some (skipSeparator rest))
    else if c = rightBrace then .ok ((.row_end, []), some (skipSeparator rest))
    else if c = singleQuote then do
      let fin ← scan_single_quoted_string (c :: rest)
      .ok ((.string_value, parse_single_quoted_string (c :: rest) fin), some (skipSeparator fin))
    else if c = doubleQuote then do
      let fin ← scan_double_quoted_string (c :: rest)
      .ok ((.string_value, parse_double_quoted_string (c :: rest) fin), some (skipSeparator fin))
    else do
      let fin ← scan_unquoted_string (c :: rest)
      let value := between (c :: rest) fin
      if value = null then .ok ((.null_value, []), some (skipSeparator fin))
      else .ok ((.string_value, value), some (skipSeparator fin))

def getAll : Nat → Option Position → Option (Except Failure (List (Juncture × List Byte)))
  | 0, _ => none
  | fuel + 1, pos_ =>
    match getNext pos_ with
    | .error e => some (.error e)
    | .ok (found, pos_) =>
      if found.1 = .done then some (.ok [found])
      else (getAll fuel pos_).map fun r => r.map (found :: ·)

end MysqlConnectPool.ArrayParser
