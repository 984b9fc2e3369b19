import ModuleInspector.Proofs.Text.Bytes
import ModuleInspector.Session.Execution
import Mathlib.Logic.Function.Defs

/-!
# All or nothing

A command either prints all its lines on the output sink or leaves this sink alone and prints one
message on the other one. A sink that fails on the way has received a beginning of what was
printed, cut at the very byte where it was full, and only complete output is flushed.
-/

namespace ModuleInspector

namespace Sink

/-- How many of the offered bytes the sink takes: all of them, or as many as its capacity
leaves. -/
def room (s : Sink) (offered : Nat) : Nat :=
  match s.capacity with
  | none => offered
  | some capacity => min (capacity - s.received.length) offered

/-- The sink when it has received what it takes of the offered bytes. -/
def receive (s : Sink) (offered : List UInt8) : Sink :=
  { s with received := s.received ++ offered.take (s.room offered.length) }

theorem room_le (s : Sink) (offered : Nat) : s.room offered ≤ offered := by
  unfold room
  split <;> omega

@[simp] theorem room_zero (s : Sink) : s.room 0 = 0 := Nat.le_zero.mp (s.room_le 0)

@[simp] theorem receive_nil (s : Sink) : s.receive [] = s := by simp [receive]

/-- The room for two offers is that for the first and, behind what it leaves, for the second. -/
theorem room_add (s : Sink) (first : List UInt8) (second : Nat) :
    s.room (first.length + second) = s.room first.length + (s.receive first).room second := by
  cases hcapacity : s.capacity with
  | none => simp [room, receive, hcapacity]
  | some capacity =>
    simp only [room, receive, hcapacity, List.length_append, List.length_take]
    omega

/-- A sink that has not taken all of an offer takes nothing more. -/
theorem room_receive_of_lt {s : Sink} {first : List UInt8}
    (hfull : s.room first.length < first.length) (second : Nat) :
    (s.receive first).room second = 0 := by
  cases hcapacity : s.capacity with
  | none => simp [room, hcapacity] at hfull
  | some capacity =>
    simp only [room, receive, hcapacity, List.length_append, List.length_take] at hfull ⊢
    omega

/-- Two offers after each other are received like one. -/
theorem receive_append (s : Sink) (first second : List UInt8) :
    s.receive (first ++ second) = (s.receive first).receive second := by
  have htake : (first ++ second).take (s.room (first ++ second).length) =
      first.take (s.room first.length) ++
        second.take ((s.receive first).room second.length) := by
    rw [List.length_append, room_add]
    rcases Nat.eq_or_lt_of_le (s.room_le first.length) with hall | hfull
    · rw [hall, List.take_length_add_append, List.take_length]
    · rw [room_receive_of_lt hfull, List.take_zero, List.append_nil, Nat.add_zero,
        List.take_append_of_le_length (Nat.le_of_lt hfull)]
  unfold receive at htake ⊢
  rw [htake, List.append_assoc]

/-- A sink that has not taken all of an offer receives nothing more. -/
theorem receive_append_of_lt {s : Sink} {first : List UInt8}
    (hfull : s.room first.length < first.length) (second : List UInt8) :
    s.receive (first ++ second) = s.receive first := by
  rw [receive_append, receive, room_receive_of_lt hfull, List.take_zero, List.append_nil]

/-- A line has at least the byte of its end. -/
theorem length_lineBytes_pos (line : String) : 0 < (lineBytes line).length := by
  have hnewline : (Text.bytes "\n").length = 1 := by decide
  rw [lineBytes, Text.bytes_append, List.length_append, hnewline]
  omega

/-- Writing a line fails exactly when there is no room for all of it. -/
theorem write_lineBytes (s : Sink) (line : String) :
    s.write (lineBytes line) =
      (if s.room (lineBytes line).length = (lineBytes line).length then none else some .full,
        s.receive (lineBytes line)) := by
  have hline := length_lineBytes_pos line
  cases hcapacity : s.capacity with
  | none => simp [write, fits, taken, receive, room, hcapacity]
  | some capacity =>
    have htake : (lineBytes line).take (capacity - s.received.length) =
        (lineBytes line).take (min (capacity - s.received.length) (lineBytes line).length) := by
      rw [← List.take_take, List.take_length]
    have hfits : s.received.length + (lineBytes line).length ≤ capacity ↔
        min (capacity - s.received.length) (lineBytes line).length = (lineBytes line).length := by
      omega
    simp only [write, fits, taken, receive, room, hcapacity, Option.all_some, decide_eq_true_eq,
      htake, hfits]

/-- The bytes of lines after each other. -/
def linesBytes (lines : List String) : List UInt8 := lines.flatMap lineBytes

/-- Whether the sink takes all bytes of the lines. -/
def TakesAll (s : Sink) (lines : List String) : Prop :=
  s.room (linesBytes lines).length = (linesBytes lines).length

instance (s : Sink) (lines : List String) : Decidable (s.TakesAll lines) :=
  inferInstanceAs (Decidable (_ = _))

@[simp] theorem linesBytes_cons (line : String) (lines : List String) :
    linesBytes (line :: lines) = lineBytes line ++ linesBytes lines := rfl

/-- A sink takes all lines when it takes all of the first one and then all the others. -/
theorem takesAll_cons {s : Sink} {line : String} {lines : List String} :
    s.TakesAll (line :: lines) ↔
      s.room (lineBytes line).length = (lineBytes line).length ∧
        (s.receive (lineBytes line)).TakesAll lines := by
  have hfirst := s.room_le (lineBytes line).length
  have hrest := (s.receive (lineBytes line)).room_le (linesBytes lines).length
  unfold TakesAll
  rw [linesBytes_cons, List.length_append, room_add]
  omega

/-- Lines are received like their bytes in one piece, and writing them fails exactly when the sink
does not take all of these. By induction on the lines: behind a line that was cut off the sink
receives nothing more, so stopping there and going on come to the same. -/
theorem writeLines_eq (s : Sink) (lines : List String) :
    s.writeLines lines =
      (if s.TakesAll lines then none else some .full, s.receive (linesBytes lines)) := by
  induction lines generalizing s with
  | nil => simp [writeLines, TakesAll, linesBytes]
  | cons line lines ih =>
    rw [writeLines, write_lineBytes, linesBytes_cons]
    rcases Nat.eq_or_lt_of_le (s.room_le (lineBytes line).length) with hall | hfull
    · simp only [takesAll_cons, hall, if_true, true_and, ih, receive_append]
    · simp only [takesAll_cons, Nat.ne_of_lt hfull, if_false, false_and,
        receive_append_of_lt hfull]

/-- Printing lines receives them like their bytes in one piece, and flushes the sink only when it
took all of them. -/
theorem print_eq (s : Sink) (lines : List String) :
    s.print lines =
      if s.TakesAll lines then (s.receive (linesBytes lines)).flush
      else (some .full, s.receive (linesBytes lines)) := by
  rw [print, writeLines_eq]
  by_cases hall : s.TakesAll lines
  · rw [if_pos hall, if_pos hall]
  · rw [if_neg hall, if_neg hall]

/-- A printed sink has received what it takes of the bytes of the lines. -/
theorem received_print (s : Sink) (lines : List String) :
    (s.print lines).2.received =
      s.received ++ (linesBytes lines).take (s.room (linesBytes lines).length) := by
  rw [print_eq]
  split_ifs <;> rfl

/-- A printed sink was flushed when it took all bytes of the lines. -/
theorem flushes_print (s : Sink) (lines : List String) :
    (s.print lines).2.flushes = s.flushes + if s.TakesAll lines then 1 else 0 := by
  rw [print_eq]
  split_ifs <;> rfl

/-- Printing succeeds when the sink takes all bytes of the lines and can be flushed. -/
theorem isSome_print_iff (s : Sink) (lines : List String) :
    (s.print lines).1.isSome ↔ ¬(s.TakesAll lines ∧ s.flushFails = false) := by
  rw [print_eq]
  by_cases hall : s.TakesAll lines
  · cases hflush : s.flushFails <;> simp [hall, flush, receive, hflush]
  · simp [hall]

end Sink

/-- The name of a command names it. -/
theorem Command.ofName?_name (command : Command) : ofName? command.name = some command := by
  cases command <;> decide

/-- Different commands have different names. -/
theorem Command.name_injective : Function.Injective Command.name := by
  intro command other hname
  have hsame := congrArg ofName? hname
  rw [ofName?_name, ofName?_name] at hsame
  exact Option.some.inj hsame

/-- A text names the command whose name it is in lower case. -/
theorem Command.ofName?_eq_some_iff {text : String} {command : Command} :
    ofName? text = some command ↔ command.name = Text.lowerAscii text := by
  constructor
  · intro hfound
    simpa using List.find?_some hfound
  · intro hname
    have hlisted : command ∈ all := by cases command <;> decide
    cases hfound : ofName? text with
    | none => exact absurd hname (by simpa using List.find?_eq_none.mp hfound command hlisted)
    | some other =>
      have hother : other.name = Text.lowerAscii text := by simpa using List.find?_some hfound
      rw [name_injective (hother.trans hname.symm)]

namespace Execution

/-- What is left of a command that failed with a message, by the sinks before it: the status is 1,
the output sink is as it was, and the error sink has received what it takes of the message. -/
structure Fails (e : Execution) (message : String) (out err : Sink) : Prop where
  status : e.status = 1
  out : e.out = out
  received : e.err.received = err.received ++
    (Sink.lineBytes message).take (err.room (Sink.lineBytes message).length)

/-- What is left of a command that succeeded with lines: the error sink is as it was, and the
output sink has received what it takes of the lines. If it took them all it was flushed once, and
the status is 0 exactly if that flush succeeded too. -/
structure Succeeds (e : Execution) (lines : List String) (out err : Sink) : Prop where
  err : e.err = err
  received : e.out.received = out.received ++
    (Sink.linesBytes lines).take (out.room (Sink.linesBytes lines).length)
  flushes : e.out.flushes = out.flushes + (if out.TakesAll lines then 1 else 0)
  status : e.status = if out.TakesAll lines ∧ out.flushFails = false then 0 else 1

end Execution

variable {m : Module} {text : String} {o : Options}

/-- A failure prints its message. -/
theorem fails_execute {e : QueryError} (hanswer : Query.answer (Catalog.of m) text o = .error e)
    (out err : Sink) : (execute m text o out err).Fails e.message out err := by
  have hmessage : Sink.linesBytes [e.message] = Sink.lineBytes e.message :=
    List.flatMap_singleton ..
  unfold execute
  rw [hanswer]
  exact
    { status := rfl
      out := rfl
      received := hmessage ▸ err.received_print [e.message] }

/-- A success prints its lines. -/
theorem succeeds_execute {lines : List String}
    (hanswer : Query.answer (Catalog.of m) text o = .ok lines) (out err : Sink) :
    (execute m text o out err).Succeeds lines out err := by
  unfold execute
  rw [hanswer]
  exact
    { err := rfl
      received := out.received_print lines
      flushes := out.flushes_print lines
      status := by simp only [Execution.ofAnswer, out.isSome_print_iff lines, ite_not] }

/-- A command is all or nothing. A text names the command whose name it is in lower case. When it
names none, the execution fails with a message that says so; when the command fails, the execution
fails with its message; and when the command succeeds, the execution succeeds with all its lines. -/
theorem execute_allOrNothing (m : Module) (text : String) (o : Options) (out err : Sink) :
    (∀ command, Command.ofName? text = some command ↔ command.name = Text.lowerAscii text) ∧
    match Command.ofName? text with
    | none => (execute m text o out err).Fails ("Unknown command: " ++ text) out err
    | some command =>
      match Query.run (Catalog.of m) command o with
      | .error e => (execute m text o out err).Fails e.message out err
      | .ok lines => (execute m text o out err).Succeeds lines out err := by
  refine ⟨fun command => Command.ofName?_eq_some_iff, ?_⟩
  cases hcommand : Command.ofName? text with
  | none =>
    have hanswer : Query.answer (Catalog.of m) text o = .error (.unknownCommand text) := by
      rw [Query.answer, hcommand]
    exact fails_execute hanswer out err
  | some command =>
    have hanswer : Query.answer (Catalog.of m) text o = Query.run (Catalog.of m) command o := by
      rw [Query.answer, hcommand]
    dsimp only
    cases hrun : Query.run (Catalog.of m) command o with
    | error e => exact fails_execute (hanswer.trans hrun) out err
    | ok lines => exact succeeds_execute (hanswer.trans hrun) out err

end ModuleInspector
