import SqlPlan.Failure
import SqlPlan.ResultSet
import SqlPlan.Statement

/-!
# Loggers

An executor tells its loggers of four events. A logger does two things with an event: it changes
its own state (`Logger.observe`) and writes on the console (`Logger.writes`); the second does not
depend on the first. The statistics count what was executed and what failed, the failures both by
the first line of their message and by their class.
-/

namespace SqlPlan

/-- What loggers are told. -/
inductive Event where
  /-- a statement was compiled -/
  | compiled (st : Statement)
  /-- a compiled query was found in a cache -/
  | cacheHit (fingerprint : Bytes)
  /-- a statement was executed -/
  | executed (st : Statement) (r : ResultSet)
  /-- a statement failed -/
  | failed (st : Statement) (f : Failure)

/-- Text written to the two output streams of a program. -/
structure Console where
  /-- the standard output -/
  out : Bytes := []
  /-- the error output -/
  err : Bytes := []
deriving DecidableEq, Inhabited

namespace Console

/-- What was written first, and then more. -/
def append (a b : Console) : Console := ⟨a.out ++ b.out, a.err ++ b.err⟩

instance : Append Console := ⟨append⟩

/-- The end of a line. -/
def lineEnd : Bytes := [Byte.newline]

/-- A line on the standard output. -/
def outLine (s : Bytes) : Console := ⟨s ++ lineEnd, []⟩

/-- A line on the error output. -/
def errLine (s : Bytes) : Console := ⟨[], s ++ lineEnd⟩

end Console

/-- Counts of what happened. -/
structure Stats where
  /-- statements executed -/
  queries : Nat := 0
  /-- statements compiled -/
  compiles : Nat := 0
  /-- compiled queries found in a cache -/
  cacheHits : Nat := 0
  /-- rows of the executed statements -/
  rows : Nat := 0
  /-- time of the executed statements, in milliseconds -/
  totalMs : Float := Float.ofBits 0
  /-- failures by the first line of their message -/
  errors : ByteMap Nat := {}
  /-- failures by the name of their class -/
  classes : ByteMap Nat := {}
deriving DecidableEq, Inhabited

namespace Stats

/-- The first line of a message. -/
def firstLine (s : Bytes) : Bytes := s.takeWhile (· != Byte.newline)

/-- Counts an event. -/
def observe (s : Stats) : Event → Stats
  | .compiled _ => { s with compiles := s.compiles + 1 }
  | .cacheHit _ => { s with cacheHits := s.cacheHits + 1 }
  | .executed _ r =>
    { s with queries := s.queries + 1, rows := s.rows + r.rows.length,
             totalMs := s.totalMs + r.durationMs }
  | .failed _ f =>
    { s with errors := s.errors.increment (firstLine f.message)
             classes := s.classes.increment f.kind.name }

/-- The sum of all counts of a map. -/
def total (m : ByteMap Nat) : Nat := m.entries.foldr (fun e n => e.2 + n) 0

/-- How many bytes of a long text a line of a log shows. -/
def width : Nat := 80

/-- The failures with the most frequent ones first; equally frequent ones stay in byte order. -/
def ranking (s : Stats) : List (Bytes × Nat) := s.errors.entries.mergeSort fun a b => b.2 ≤ a.2

/-- The share of failures among all statements, in single precision. -/
def errorRate (s : Stats) : Float :=
  let failures := total s.errors
  let all := s.queries + failures
  (Float32.ofNat failures / Float32.ofNat (if all = 0 then 1 else all)).toFloat

/-- The report on the counts, line by line. -/
def reportLines (s : Stats) : List Bytes :=
  [[], ascii "[STATS] queries: " ++ Decimal.natText s.queries ++
      ascii " compiled: " ++ Decimal.natText s.compiles ++
      ascii " cache hits: " ++ Decimal.natText s.cacheHits ++
      ascii " rows: " ++ Decimal.natText s.rows ++
      if s.queries = 0 then []
      else ascii " avg ms: " ++ Decimal.short (s.totalMs / Float.ofNat s.queries)] ++
    s.ranking.map (fun e => Decimal.natText e.2 ++ ascii "\t" ++ e.1.take width) ++
    [ascii "[STATS] error rate: " ++ Decimal.short s.errorRate]

/-- The report on the counts. -/
def report (s : Stats) : Console := ⟨[], s.reportLines.flatMap (· ++ Console.lineEnd)⟩

end Stats

/-- Where a dump of statements goes. -/
inductive Sink where
  /-- to a text of its own -/
  | buffer (text : Bytes)
  /-- to the standard output -/
  | standardOutput
deriving DecidableEq

/-- A logger. -/
inductive Logger where
  /-- one that does nothing -/
  | silent
  /-- one that counts -/
  | stats (s : Stats)
  /-- one that writes down every executed statement, its parameters filled in -/
  | dumper (sink : Sink)
  /-- one that counts and writes failures on the error output, and everything if it is verbose -/
  | console (verbose : Bool) (s : Stats)
deriving DecidableEq

namespace Logger

/-- The line that a dump has for a statement. -/
def dumpText (st : Statement) : Bytes := st.expanded ++ ascii ";"

/-- A logger after an event. -/
def observe (l : Logger) (e : Event) : Logger :=
  match l, e with
  | .silent, _ => .silent
  | .stats s, e => .stats (s.observe e)
  | .dumper (.buffer text), .executed st _ =>
    .dumper (.buffer (text ++ dumpText st ++ Console.lineEnd))
  | .dumper sink, _ => .dumper sink
  | .console verbose s, e => .console verbose (s.observe e)

/-- The lines of a console logger for a failure. -/
def failureLines (verbose : Bool) (st : Statement) (f : Failure) : Console :=
  Console.errLine (ascii "[ERROR][" ++ f.kind.name ++ ascii "] " ++ f.message) ++
    if verbose then Console.errLine (ascii "[ERROR] statement: " ++ st.expanded) else {}

/-- The line of a verbose logger for an executed statement. -/
def queryLine (st : Statement) (r : ResultSet) : Console :=
  Console.errLine <| ascii "[QUERY] " ++ st.sql ++ ascii " rows=" ++
    Decimal.natText r.rows.length ++ ascii " changes=" ++ Decimal.intText r.changes ++
    ascii " ms=" ++ Decimal.short r.durationMs

/-- What a logger writes on the console for an event. -/
def writes (l : Logger) (e : Event) : Console :=
  match l, e with
  | .dumper .standardOutput, .executed st _ => Console.outLine (dumpText st)
  | .console verbose _, .failed st f => failureLines verbose st f
  | .console true _, .executed st r => queryLine st r
  | .console true _, .cacheHit fp =>
    Console.errLine (ascii "[CACHE] hit " ++ fp.take Stats.width)
  | _, _ => {}

/-- The counts of a logger that counts. -/
def stats? : Logger → Option Stats
  | .stats s | .console _ s => some s
  | .silent | .dumper _ => none

end Logger

end SqlPlan
