import SqlPlan.Cache
import SqlPlan.Embedded

/-!
# Options

Options have the form `--name` or `--name=value` with one of six names; a value is any text
without a carriage return. From the options follow the executor's database and its loggers, and
whether there is a cache.
-/

namespace SqlPlan

/-- The values of the options that were given, by name. -/
abbrev Options := ByteMap Bytes

/-- Why options do not lead to an executor. -/
inductive OptionError where
  /-- an argument that is no option -/
  | unknown (argument : Bytes)
  /-- no database was chosen -/
  | noBackend
  /-- a database was chosen that this build has no client for -/
  | unsupported
  /-- the busy timeout is no number, or too large a one -/
  | busyTimeout (e : Decimal.ReadError)
deriving DecidableEq

/-- The message of an option error. -/
def OptionError.message : OptionError → Bytes
  | .unknown argument => ascii "Cannot parse option: " ++ argument
  | .noBackend => ascii "no backend selected, use --sqlite[=path] or --mysql=conninfo"
  | .unsupported => ascii "Sorry, querysmith was compiled without MySQL support."
  | .busyTimeout e => e.message

/-- The class of an option error. -/
def OptionError.kind : OptionError → ErrorClass
  | .unknown _ | .noBackend => .invalidArgument
  | .unsupported => .unavailable
  | .busyTimeout e => e.kind

namespace Options

/-- the option that chooses the embedded database -/
def sqlite : Bytes := ascii "sqlite"

/-- the option that chooses a database server -/
def mysql : Bytes := ascii "mysql"

/-- the option for the time to wait for locks -/
def busyTimeout : Bytes := ascii "busy-timeout"

/-- the option for a log of everything -/
def verbose : Bytes := ascii "verbose"

/-- the option for a dump of the statements -/
def dumpQueries : Bytes := ascii "dump-queries"

/-- the option against the cache -/
def noCache : Bytes := ascii "no-cache"

/-- The names of all options. -/
def names : List Bytes := [sqlite, mysql, busyTimeout, verbose, dumpQueries, noCache]

/-- What follows the name of an option: nothing, or an equals sign and the value. -/
def value? : Bytes → Option Bytes
  | [] => some []
  | b :: s => if b = Byte.equals && !s.contains Byte.carriageReturn then some s else none

/-- An option read as the given name. -/
def readAs? (s name : Bytes) : Option (Bytes × Bytes) :=
  if name.isPrefixOf s then (value? (s.drop name.length)).map fun v => (name, v) else none

/-- An argument as an option. -/
def readOne? (argument : Bytes) : Option (Bytes × Bytes) :=
  match argument with
  | 45 :: 45 :: s => names.findSome? (readAs? s)
  | _ => none

/-- The options of some arguments; of options with one name, the last counts. -/
def parse (arguments : List Bytes) : Except OptionError Options :=
  arguments.foldlM
    (fun o a => match readOne? a with
      | some (name, v) => .ok (o.insert name v)
      | none => .error (.unknown a))
    .empty

/-- Where the embedded database is, and how long to wait for its locks. -/
structure Location where
  /-- the file -/
  path : Bytes
  /-- the time to wait, in milliseconds -/
  busyTimeout : Int
deriving DecidableEq

/-- The time to wait for locks. -/
def waitTime (o : Options) : Except OptionError Int :=
  match o.find? busyTimeout with
  | none => .ok Embedded.defaultBusyTimeout
  | some s => (Decimal.readLeadingInt32 s).mapError .busyTimeout

/-- The database that the options choose. -/
def location (o : Options) : Except OptionError Location :=
  match o.find? sqlite with
  | some path => do
    let busyTimeout ← waitTime o
    return { path := if path.isEmpty then Embedded.inMemory else path, busyTimeout }
  | none => .error (if o.contains mysql then .unsupported else .noBackend)

/-- The loggers that the options ask for: one on the error output always, and a dump of the
statements on the standard output on demand. -/
def loggers (o : Options) : List Logger :=
  .console (o.contains verbose) {} ::
    if o.contains dumpQueries then [.dumper .standardOutput] else []

/-- A new cache, unless the options are against it. -/
def cache (o : Options) : Option QueryCache := if o.contains noCache then none else some {}

end Options

end SqlPlan
