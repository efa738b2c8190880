import BoardDesign.Proofs.Workspace.LockFile

/-!
# Processes that contend for the lock of a board

Any number of processes share a world. Each one acquires the lock, changes what it says and gives
it up step by step, and any steps of others may come between its own. A process may die at any
time and leaves what it has written.

* `Activity`: what a process does about the lock, with the work that is left;
* `System.move`: a call, a step or a death; `System.follow`: a run;
* `System.Exclusive`: no two running processes hold the lock;
* `Start`: where runs begin, whatever lock file is there;
* `Steals`: a process that acquires removes the lock file of a running process.
-/

namespace BoardDesign.Workspace

open Stage (Error)

inductive Activity where
  | idle
  | acquiring (rest : Work (Except Error Lock))
  | holding (l : Lock)
  /-- The lock says already what its file is to say. -/
  | changing (l : Lock) (rest : Work (Except Error Lock))
  | releasing (l : Lock) (rest : Work Unit)

namespace Activity

def ofAcquire : Work (Except Error Lock) → Activity
  | .done (.ok l) => .holding l
  | .done (.error _) => .idle
  | .step act next => .acquiring (.step act next)

def ofChange (l : Lock) : Work (Except Error Lock) → Activity
  | .done (.ok l) => .holding l
  | .done (.error _) => .holding l
  | .step act next => .changing l (.step act next)

def ofRelease (l : Lock) : Work Unit → Activity
  | .done () => .idle
  | .step act next => .releasing l (.step act next)

/-- From the return of the call that acquires it to the end of its release a lock is held. -/
def holds : Activity → Bool
  | .idle | .acquiring _ => false
  | .holding _ | .changing .. | .releasing .. => true

/-- The next step of the work that is going on. -/
def next? : Activity → World → Option (Activity × World)
  | .acquiring (.step act next), w => some (ofAcquire (next w), act w)
  | .changing l (.step act next), w => some (ofChange l (next w), act w)
  | .releasing l (.step act next), w => some (ofRelease l (next w), act w)
  | _, _ => none

end Activity

structure System where
  world : World
  /-- What the process of each number does. -/
  activity : Nat → Activity

inductive Move where
  | acquire (p : Nat) (stage : Stage)
  | setStage (p : Nat) (stage : Stage)
  | release (p : Nat)
  /-- The next step of a call that is going on. -/
  | work (p : Nat)
  | die (p : Nat)
deriving DecidableEq, Repr

/-- The process that moves. -/
def Move.mover : Move → Nat
  | .acquire p _ | .setStage p _ | .release p | .work p | .die p => p

namespace System

def change (s : System) (p : Nat) (a : Activity) (w : World) : System :=
  ⟨w, fun q => if q = p then a else s.activity q⟩

/-- What a running process can do. A call begins where the process is ready for it. -/
def act (locksDir board : String) (s : System) : Move → Option System
  | .acquire p stage =>
    match s.activity p with
    | .idle => some (s.change p (.ofAcquire (Lock.acquire p locksDir board stage)) s.world)
    | _ => none
  | .setStage p stage =>
    match s.activity p with
    | .holding l =>
      let l' := { l with holder := { l.holder with stage := stage.id } }
      some (s.change p (.ofChange l' (l.setStage stage)) s.world)
    | _ => none
  | .release p =>
    match s.activity p with
    | .holding l => some (s.change p (.ofRelease l l.release) s.world)
    | _ => none
  | .work p => ((s.activity p).next? s.world).map fun r => s.change p r.1 r.2
  | .die p =>
    some { s with
      world := { s.world with processes := s.world.processes.filter fun q => q ≠ p } }

/-- A move of a process; the dead do not move. -/
def move (locksDir board : String) (s : System) (m : Move) : Option System :=
  if m.mover ∈ s.world.processes then s.act locksDir board m else none

/-- Moves one after the other. -/
def follow (locksDir board : String) (s : System) : List Move → Option System
  | [] => some s
  | m :: rest => (s.move locksDir board m).bind fun s => s.follow locksDir board rest

/-- No two running processes hold the lock. -/
def Exclusive (s : System) : Prop :=
  ∀ p q, p ∈ s.world.processes → q ∈ s.world.processes → (s.activity p).holds = true →
    (s.activity q).holds = true → p = q

end System

/-- Where runs begin: nobody is in the middle of a call, and who holds the lock has its file. The
lock file may as well name a process that does not run any more or be missing. -/
structure Start (locksDir board : String) (s : System) : Prop where
  files : s.world.files.Closed
  numbers : ∀ p ∈ s.world.processes, p < Nat.pow 2 32
  quiet : ∀ p ∈ s.world.processes, s.activity p = .idle ∨
    ∃ l n, s.activity p = .holding l ∧ l.path = Lock.pathFor locksDir board ∧ l.holder.pid = p ∧
      l.holder.token = World.tokenText n ∧ n < s.world.serial ∧
      Lock.named? l.path s.world = some l.holder

/-- A step of process `p` removes the lock file of process `q`, which runs. -/
structure Robs (path : String) (p q : Nat) (w w' : World) : Prop where
  other : q ≠ p
  runs : q ∈ w.processes
  named : ∃ h, Lock.named? path w = some h ∧ h.pid = q
  gone : Lock.named? path w' = none

/-- Process `p`, which is about to acquire the lock, robs process `q` with its next step. -/
structure Steals (locksDir board : String) (p q : Nat) (s s' : System) : Prop where
  acquiring : ∃ rest, s.activity p = .acquiring rest
  moves : s.move locksDir board (.work p) = some s'
  robs : Robs (Lock.pathFor locksDir board) p q s.world s'.world

/-- A new private file can be made in the directory of the locks. -/
def Usable (locksDir board : String) (w : World) : Prop :=
  w.isDir locksDir = true ∧ ∃ w', w.create
    (Lock.privatePath (Lock.pathFor locksDir board) (World.tokenText w.serial)) [] = .ok w'

end BoardDesign.Workspace
