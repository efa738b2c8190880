import BoardDesign.Tool.Process
/-!
Watching a process until it ends.

The watcher looks at the process from time to time. Whatever it sees first counts: that the
process has ended, or a reason to stop it. To stop a process its whole group is sent an interrupt,
and when the process has ended or the grace period is over, all that is left of the group is
killed. `supervise` decides all that from what is seen, so it can be reasoned about without any
process.
-/

namespace BoardDesign.Tool

/-- What is seen at one look at a process. -/
structure Poll where
  exited : Option ExitStatus
  /-- Ctrl-C was pressed. -/
  ctrlC : Bool
  /-- A stop was requested. -/
  stop : Bool
  timeUp : Bool
deriving DecidableEq, Repr

inductive Signal where
  | interrupt
  | kill
deriving DecidableEq, Repr

inductive Ending where
  /-- Ended without being asked to. -/
  | exited (status : ExitStatus)
  /-- Ended after an interrupt, within the grace period. -/
  | interrupted (status : ExitStatus)
  | killed
deriving DecidableEq, Repr

structure Supervised where
  ending : Ending
  /-- What the group was sent, in order. -/
  signals : List Signal
deriving DecidableEq, Repr

def Poll.wantsStop (p : Poll) : Bool := p.ctrlC || p.stop || p.timeUp

/-- What is done once the group has been sent some signals, look by look in the grace period.
However the grace period ends, all that is left of the group is killed. -/
def windDown (sent : List Signal) : List (Option ExitStatus) → Supervised
  | [] => ⟨.killed, sent ++ [.kill]⟩
  | none :: rest => windDown sent rest
  | some status :: _ => ⟨.interrupted status, sent ++ [.kill]⟩

/-- What is done from look `index` on; `grace` gives the looks of a grace period that begins at a
look. None if nothing ever happens. -/
def superviseFrom (grace : Nat → List (Option ExitStatus)) (index : Nat) :
    List Poll → Option Supervised
  | [] => none
  | p :: rest =>
    match p.exited with
    | some status => some ⟨.exited status, []⟩
    | none => if p.wantsStop then some (windDown [.interrupt] (grace index)) else
        superviseFrom grace (index + 1) rest

def supervise (grace : Nat → List (Option ExitStatus)) (polls : List Poll) : Option Supervised :=
  superviseFrom grace 0 polls

/-! Real processes are looked at in regular intervals. -/

/-- Milliseconds from one look to the next one. -/
def pollInterval : Nat := 20

/-- What limits a process. Times are in milliseconds. -/
structure Limits where
  timeout : Option Nat
  /-- The time between an interrupt and the kill. -/
  grace : Nat
  /-- When a stop is requested. -/
  stop : Option Nat
deriving DecidableEq, Repr

def defaultGrace : Nat := 5000

/-- The first of two times. -/
def earlier : Option Nat → Option Nat → Option Nat
  | some a, some b => some (min a b)
  | some a, none => some a
  | none, b => b

/-- How many looks there are before a time, and the first one after it. -/
def looks (time : Nat) : Nat := time / pollInterval + 2

namespace Progress

/-- The status of the process at a time, if it has ended. -/
def statusAt (p : Progress) (time : Nat) : Option ExitStatus :=
  p.ended.bind fun e => if e.1 ≤ time then some e.2 else none

end Progress

namespace Process

/-- The process without interference, up to the time when something happens. -/
def undisturbed (p : Process) (l : Limits) : Progress :=
  match earlier l.timeout l.stop with
  | some t => p.progress none (min (t + pollInterval) p.lifetime)
  | none => p.progress none p.lifetime

def pollAt (l : Limits) (run : Progress) (index : Nat) : Poll :=
  let time := index * pollInterval
  { exited := run.statusAt time
    ctrlC := false
    stop := l.stop.any (· ≤ time)
    timeUp := l.timeout.any (· ≤ time) }

/-- The looks at the process until something has happened. -/
def polls (l : Limits) (run : Progress) : List Poll :=
  let last := match run.ended, earlier l.timeout l.stop with
    | some e, some t => min e.1 t
    | some e, none => e.1
    | none, some t => t
    | none, none => 0
  (List.range (looks last)).map (pollAt l run)

/-- How many looks a grace period has room for. -/
def graceLooks (grace : Nat) : Nat := (grace + pollInterval - 1) / pollInterval

/-- The process after an interrupt at a look, to the end of the grace period. -/
def interruptedAt (p : Process) (l : Limits) (index : Nat) : Progress :=
  let time := index * pollInterval
  p.progress (some time) (time + l.grace)

/-- The looks in the grace period after an interrupt, as far as they matter. -/
def gracePolls (p : Process) (l : Limits) (index : Nat) : List (Option ExitStatus) :=
  let time := index * pollInterval
  let run := p.interruptedAt l index
  let count := match run.ended with
    | some e => min (graceLooks l.grace) (looks (e.1 - time))
    | none => graceLooks l.grace
  (List.range count).map fun i => run.statusAt (time + i * pollInterval)

/-- The index of the look at which the process ended or was interrupted. -/
def decisive (polls : List Poll) : Nat :=
  polls.findIdx fun q => q.exited.isSome || q.wantsStop

/-- The process watched to its end, and what had become of it by then. -/
def supervised (p : Process) (l : Limits) : Ending × Progress :=
  let run := p.undisturbed l
  let looks := polls l run
  match supervise (p.gracePolls l) looks with
  | some ⟨.exited status, _⟩ => (.exited status, run)
  | some ⟨ending, _⟩ => (ending, p.interruptedAt l (decisive looks))
  | none => (.killed, run)

end Process

end BoardDesign.Tool
