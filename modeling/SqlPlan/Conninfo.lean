import SqlPlan.Decimal.Integer

/-!
# Connection strings

A connection string for a database server: `host[:port]/dbname[?argument&argument]`, where an
argument is `username=…` or `password=…`. There is exactly one slash. Of the pieces between colons
and between question marks only the first two are read.
-/

namespace SqlPlan

/-- How to reach a database server. -/
structure Conninfo where
  /-- the name of the machine -/
  host : Bytes
  /-- the port it listens on -/
  port : Int := 3306
  /-- the database -/
  dbname : Bytes
  /-- who asks -/
  user : Bytes := []
  /-- the password -/
  password : Bytes := []
deriving DecidableEq

/-- Why a text is no connection string. -/
inductive ConninfoError where
  /-- the host or the database is missing, or there is not exactly one slash -/
  | malformed (s : Bytes)
  /-- the port is no number, or too large a one -/
  | port (e : Decimal.ReadError)
  /-- an argument without exactly one equals sign -/
  | malformedArgument (s : Bytes)
  /-- an argument of another name -/
  | unknownArgument (name : Bytes)
deriving DecidableEq

namespace Conninfo

/-- the slash before the database -/
def slash : UInt8 := 47

/-- the colon before the port -/
def colon : UInt8 := 58

/-- the ampersand between arguments -/
def ampersand : UInt8 := 38

/-- Reads one argument. -/
def argument (info : Conninfo) (s : Bytes) : Except ConninfoError Conninfo :=
  match Bytes.split Byte.equals s with
  | [name, v] =>
    if name = ascii "username" then .ok { info with user := v }
    else if name = ascii "password" then .ok { info with password := v }
    else .error (.unknownArgument name)
  | _ => .error (.malformedArgument s)

/-- The port among the pieces after the host. -/
def readPort : List Bytes → Except ConninfoError Int
  | [] => .ok 3306
  | p :: _ => (Decimal.readLeadingInt32 p).mapError .port

/-- The arguments among the pieces after the database. -/
def readArguments (info : Conninfo) : List Bytes → Except ConninfoError Conninfo
  | [] => .ok info
  | a :: _ => (Bytes.split ampersand a).foldlM argument info

/-- Reads a connection string. -/
def parse (s : Bytes) : Except ConninfoError Conninfo :=
  match Bytes.split slash s with
  | [left, right] =>
    match Bytes.split colon left, Bytes.split Byte.question right with
    | host :: ports, dbname :: arguments => do
      if host.isEmpty || dbname.isEmpty then throw (.malformed s)
      let port ← readPort ports
      readArguments { host, port, dbname } arguments
    | _, _ => .error (.malformed s)
  | _ => .error (.malformed s)

end Conninfo

/-- The message of a connection string's error, which ends where the text has a NUL byte. -/
def ConninfoError.message (e : ConninfoError) : Bytes :=
  Bytes.upToNul <| match e with
    | .malformed s => ascii "malformed mysql conninfo: " ++ s
    | .port e => e.message
    | .malformedArgument s => ascii "malformed mysql conninfo argument: " ++ s
    | .unknownArgument name => ascii "unknown mysql conninfo argument: " ++ name

/-- The class of a connection string's error. -/
def ConninfoError.kind : ConninfoError → ErrorClass
  | .port e => e.kind
  | _ => .invalidArgument

end SqlPlan
