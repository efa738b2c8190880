import BoardDesign.Shell.Run
/-!
The launcher of programs that are scripts or utilities.
-/

namespace BoardDesign.Shell

open Tool (Invocation Process Progress ExitStatus Launcher)

/-- By this time a process is ended that has not ended by itself, in milliseconds. -/
def lifetime : Nat := backgroundTime

/-- More commands than a script runs in its lifetime. -/
def runFuel : Nat := 8000

/-- A process at its start. -/
def startMachine (w : World) (program : String) (env : Table String) : Machine :=
  { world := w
    vars := env
    exported := env.map fun _ => ()
    name := program
    params := []
    status := 0
    strict := false
    time := 0
    trap := none
    interrupted := false
    jobs := []
    output := []
    caught := [] }

/-- When and how a process ended, if it has by a time. -/
def ending? (time : Nat) (flow : Flow) (m : Machine) : Option (Nat × ExitStatus) :=
  let found := match flow with
    | .cut => if lifetime ≤ time then some (lifetime, ExitStatus.signal Tool.killSignal) else none
    | .died signal => some (m.time + 1, .signal signal)
    | _ => some (m.time, .code m.status)
  found.bind fun e => if e.1 ≤ time then some e else none

/-- What becomes of a program by a time. -/
def progressOf (w : World) (start : Machine) (e : Executable) (path : String)
    (args : List String) (interrupt : Option Nat) (time : Nat) : Progress :=
  let s : Surroundings :=
    { interrupt := interrupt
      horizon := time
      pid := w.processes.foldl max 0 + 1
      out := .stream .out
      err := .stream .err
      input := []
      isChecked := false }
  let (flow, m) := match settle runFuel s (start.spend s 1) with
    | (.next, m) => settle runFuel s (runProgram runFuel s m e path args)
    | r => r
  let ended := ending? time flow m
  { ended := ended
    output := m.output
    world := { m.world with
      here := w.here
      clock := w.clock + (ended.map (·.1)).getD time } }

/-- Whether a text cannot be passed to a program. -/
def hasNul (s : String) : Bool := s.toList.contains '\x00'

/-- The program that runs an executable file has to be there, too. -/
def checkInterpreter (w : World) : Executable → Except File.Fault Unit
  | .utility _ => .ok ()
  | .script interpreter _ => do
    let _ ← findProgram w "" interpreter
    .ok ()

/-- Programs started with an environment, of which an invocation may replace parts. -/
def launcher (base : Table String) : Launcher := fun inv w => do
  if hasNul inv.program || inv.args.any hasNul then .error .nulInArgument
  let env := base.overlay inv.env
  let inner ← Machine.changeDir w inv.cwd
  let path ← findProgram inner ((env.get? "PATH").getD usualPath) inv.program
  let e ← executableAt inner path
  checkInterpreter inner e
  let start := startMachine inner inv.program env
  .ok ⟨progressOf w start e path inv.args, lifetime⟩

end BoardDesign.Shell
