import MysqlConnectPool.MySQLImpl.LifeCycle

/-! Whether a timer that fires belongs to the wait that asked for it. -/

namespace MysqlConnectPool.MySQLConnector

open Library Handler System

section Calls

variable {cfg : Config} {s : State} {Q : Unit → State → Prop} {E : State → Prop}

end Calls

section Timer

variable {cfg : Config} {s : State} {n : Nat}

end Timer

end MysqlConnectPool.MySQLConnector
