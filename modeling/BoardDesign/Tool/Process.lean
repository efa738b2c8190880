import BoardDesign.Decimal.Shortest
import BoardDesign.File.World
import BoardDesign.Table
/-!
Processes as those who start them see them.

What a program does is not known here: a launcher says it, and everything that runs programs is
given one.
-/

namespace BoardDesign.Tool

inductive ExitStatus where
  | code (n : Nat)
  | signal (n : Nat)
deriving DecidableEq, Repr

def interruptSignal : Nat := 2

def killSignal : Nat := 9

namespace ExitStatus

def isSuccess (s : ExitStatus) : Bool := s == .code 0

def code? : ExitStatus → Option Int
  | .code n => some n
  | .signal _ => none

/-- The names of the signals from 1 on. -/
def signalNames : List String :=
  ["SIGHUP", "SIGINT", "SIGQUIT", "SIGILL", "SIGTRAP", "SIGABRT", "SIGBUS", "SIGFPE", "SIGKILL",
    "SIGUSR1", "SIGSEGV", "SIGUSR2", "SIGPIPE", "SIGALRM", "SIGTERM", "SIGSTKFLT", "SIGCHLD",
    "SIGCONT", "SIGSTOP", "SIGTSTP", "SIGTTIN", "SIGTTOU", "SIGURG", "SIGXCPU", "SIGXFSZ",
    "SIGVTALRM", "SIGPROF", "SIGWINCH", "SIGIO", "SIGPWR", "SIGSYS"]

def signalName? : Nat → Option String
  | 0 => none
  | n + 1 => signalNames[n]?

def text : ExitStatus → String
  | .code n => "exit status: " ++ Decimal.natText n
  | .signal n =>
    let name := ((signalName? n).map fun name => " (" ++ name ++ ")").getD ""
    "signal: " ++ Decimal.natText n ++ name

/-- Ended by the signal of an interrupt, or with the code that shells give for that. -/
def isInterrupt (s : ExitStatus) : Bool :=
  s == .signal interruptSignal || s == .code (128 + interruptSignal)

end ExitStatus

/-- A program to be started. -/
structure Invocation where
  program : String
  args : List String
  cwd : String
  env : Table String
deriving DecidableEq, Repr

/-- What has become of a process. -/
structure Progress where
  /-- When it ended, in milliseconds after its start, and how. -/
  ended : Option (Nat × ExitStatus)
  output : List (Stream × List UInt8)
  world : World

/-- A started process. -/
structure Process where
  /-- What becomes of the process by a time if it is interrupted at another time or never. -/
  progress : Option Nat → Nat → Progress
  /-- By this time the process has ended if nobody interferes. -/
  lifetime : Nat

/-- What happens when a program is started. -/
abbrev Launcher := Invocation → World → Except File.Fault Process

/-- All that was written to a stream. -/
def outputOf (s : Stream) (output : List (Stream × List UInt8)) : List UInt8 :=
  (output.filter fun c => c.1 == s).flatMap (·.2)

def allOutput (output : List (Stream × List UInt8)) : List UInt8 := output.flatMap (·.2)

end BoardDesign.Tool
