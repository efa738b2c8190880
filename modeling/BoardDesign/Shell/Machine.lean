import BoardDesign.Shell.Syntax
import BoardDesign.Tool.Process
/-!
The state of a running script, and how it writes, waits and is interrupted.

Time is counted from the start of the process. Commands take a little time and sleeping takes as
long as it says; at the horizon the script is left where it is.
-/

namespace BoardDesign.Shell

/-- Where a descriptor of a command leads. -/
inductive Sink where
  | stream (s : Stream)
  | file (path : String)
  | nowhere
  /-- To whoever uses the output. -/
  | caught
deriving DecidableEq, Repr

/-- What a command finds around it. -/
structure Surroundings where
  interrupt : Option Nat
  horizon : Nat
  pid : Nat
  out : Sink
  err : Sink
  input : List UInt8
  /-- Somebody looks at the status of the command. -/
  isChecked : Bool

structure Machine where
  world : World
  vars : Table String
  /-- The variables that programs get. -/
  exported : Table Unit
  name : String
  params : List String
  status : Nat
  /-- A command that fails ends the script, unless somebody looks at its status. -/
  strict : Bool
  time : Nat
  /-- What is done on an interrupt; an interrupt is ignored if that is nothing, and ends the script
  if it is not set. -/
  trap : Option String
  interrupted : Bool
  /-- When the background jobs end. -/
  jobs : List Nat
  output : List (Stream × List UInt8)
  caught : List UInt8

/-- How a script goes on after a command. -/
inductive Flow where
  | next
  /-- Out of loops, and on with the last of them or not. -/
  | leave (loops : Nat) (again : Bool)
  | exit
  | died (signal : Nat)
  /-- The horizon is reached. -/
  | cut
deriving DecidableEq, Repr

namespace Machine

def setStatus (m : Machine) (status : Nat) : Machine := { m with status := status }

def ofBool (m : Machine) (b : Bool) : Machine := m.setStatus (if b then 0 else 1)

/-- Bytes put at the end of a file that is there. -/
def appendFile (w : World) (path : String) (bytes : List UInt8) : World :=
  match w.bytesAt path with
  | .ok old =>
    match w.write path (old ++ bytes) with
    | .ok w => w
    | .error _ => w
  | .error _ => w

def write (m : Machine) (sink : Sink) (bytes : List UInt8) : Machine :=
  match sink with
  | .stream s => if bytes.isEmpty then m else { m with output := m.output ++ [(s, bytes)] }
  | .file path => { m with world := appendFile m.world path bytes }
  | .nowhere => m
  | .caught => { m with caught := m.caught ++ bytes }

def say (m : Machine) (sink : Sink) (text : String) : Machine :=
  m.write sink (Text.Utf8.bytes text)

/-- A complaint of a utility, and the status of failure. -/
def complain (m : Machine) (s : Surroundings) (text : String) (status : Nat) : Machine :=
  (m.say s.err (text ++ "\n")).setStatus status

/-- An interrupt has come that nothing was done about yet. -/
def pending (m : Machine) (s : Surroundings) : Bool :=
  !m.interrupted && s.interrupt.any (· ≤ m.time)

/-- Time goes by that an interrupt does not shorten. -/
def spend (m : Machine) (s : Surroundings) (time : Nat) : Flow × Machine :=
  let time := m.time + time
  if s.horizon < time then (.cut, { m with time := s.horizon }) else (.next, { m with time := time })

/-- The status of a command that an interrupt has ended. -/
def interruptStatus : Nat := 128 + Tool.interruptSignal

/-- Time goes by until a moment, or until an interrupt that is not ignored. -/
def sleepUntil (m : Machine) (s : Surroundings) (target : Nat) : Flow × Machine :=
  let shortened := match s.interrupt with
    | some t =>
      if m.interrupted || m.trap = some "" || target < t then none else some (max m.time t)
    | none => none
  match shortened with
  | some t => (.next, { m with time := t, status := interruptStatus })
  | none =>
    if s.horizon < target then (.cut, { m with time := s.horizon })
    else (.next, { m with time := max m.time target, status := 0 })

def sleep (m : Machine) (s : Surroundings) (time : Nat) : Flow × Machine :=
  m.sleepUntil s (m.time + time)

/-- The path of a file from anywhere. -/
def absolute (w : World) (path : String) : String :=
  if File.Path.isAbsolute path then path else File.Path.join (World.locationText w.here) path

/-- A world in which the program stands in another directory. -/
def changeDir (w : World) (path : String) : Except File.Fault World := do
  let l ← w.locate path
  if w.isDirAt l then .ok { w with here := l } else .error .notDirectory

/-- The machine of a subshell after it has ended, with all that belongs to the outer one. -/
def back (outer inner : Machine) : Machine :=
  { inner with
    world := { inner.world with here := outer.world.here }
    vars := outer.vars
    exported := outer.exported
    name := outer.name
    params := outer.params
    strict := outer.strict
    trap := outer.trap
    interrupted := outer.interrupted
    jobs := outer.jobs }

/-- The value of a parameter; none if it is not set. -/
def param? (m : Machine) (s : Surroundings) (name : String) : Option String :=
  match name with
  | "?" => some (Decimal.natText m.status)
  | "$" => some (Decimal.natText s.pid)
  | "#" => some (Decimal.natText m.params.length)
  | "0" => some m.name
  | "@" => some (Text.joinWith " " m.params)
  | "*" => some (Text.joinWith " " m.params)
  | "!" => some (Decimal.natText (s.pid + m.jobs.length))
  | name =>
    if name.toList.all Text.isDigit then m.params[Text.decimalValue name.toList - 1]?
    else m.vars.get? name

/-- The variables that a program gets. -/
def environment (m : Machine) : Table String :=
  Table.ofList (m.vars.toList.filter fun e => (m.exported.get? e.1).isSome)

end Machine

end BoardDesign.Shell
