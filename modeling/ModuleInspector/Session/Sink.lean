import ModuleInspector.Text.Hex

/-!
# Sinks

A sink receives what a command prints. It takes a number of bytes in all and then fails, and its
flush may fail. Lines are written one after the other up to the first failure, so a sink always
holds a beginning of what was written to it.
-/

namespace ModuleInspector

/-- The ways a sink fails. -/
inductive WriteError
  | full
  | flushFailed
  deriving DecidableEq

/-- The message of a failure. -/
def WriteError.message : WriteError → String
  | full => "sink is full"
  | flushFailed => "flush failed"

/-- A sink with the bytes it has received and the number of times it was flushed. Without a
capacity it takes everything. -/
structure Sink where
  capacity : Option Nat
  flushFails : Bool
  received : List UInt8
  flushes : Nat
  deriving DecidableEq

namespace Sink

/-- A sink before anything is written to it. -/
def empty (capacity : Option Nat) (flushFails : Bool) : Sink := ⟨capacity, flushFails, [], 0⟩

/-- A sink that takes everything. -/
def unlimited : Sink := empty none false

/-- Whether the sink can take all the bytes. -/
def fits (s : Sink) (data : List UInt8) : Bool :=
  s.capacity.all fun capacity => s.received.length + data.length ≤ capacity

/-- The bytes that the sink takes of those that are offered. -/
def taken (s : Sink) (data : List UInt8) : List UInt8 :=
  match s.capacity with
  | none => data
  | some capacity => data.take (capacity - s.received.length)

/-- Writes bytes. A sink that cannot take all of them takes what it can and fails. -/
def write (s : Sink) (data : List UInt8) : Option WriteError × Sink :=
  (if s.fits data then none else some .full, { s with received := s.received ++ s.taken data })

/-- Flushes the sink. -/
def flush (s : Sink) : Option WriteError × Sink :=
  (if s.flushFails then some .flushFailed else none, { s with flushes := s.flushes + 1 })

/-- The bytes of a line. -/
def lineBytes (line : String) : List UInt8 := Text.bytes (line ++ "\n")

/-- Writes lines up to the first failure. -/
def writeLines (s : Sink) : List String → Option WriteError × Sink
  | [] => (none, s)
  | line :: lines =>
    match s.write (lineBytes line) with
    | (some e, s) => (some e, s)
    | (none, s) => s.writeLines lines

/-- Writes lines and flushes the sink once all of them are written. -/
def print (s : Sink) (lines : List String) : Option WriteError × Sink :=
  match s.writeLines lines with
  | (some e, s) => (some e, s)
  | (none, s) => s.flush

end Sink

end ModuleInspector
