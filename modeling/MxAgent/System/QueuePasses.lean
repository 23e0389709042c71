import MxAgent.Daemon.SchedulerPass

/-! The approval queue between two threads. The live handlers and the operator's
commands load the queue file, change one entry and save it; a scheduler pass loads the
file at its start, works on its copy, and saves the copy at its end. -/
namespace MxAgent.System.QueuePasses

open Protocol Daemon

/-- The live daemon, the running pass, if any, and the scheduler, whose gate has the pass's copy of
the queue. -/
structure State (σ δ : Type) where
  live : LiveState
  pass : Option Pass
  scheduler : TickState σ δ GateState

inductive Label (Key σ δ : Type) where
  | live (event : LiveEvent)
  | decide (env : DecideEnv) (requestId : String)
  | begin (read : IoResult) (stampedAt : Nat) (nowUnix : Int)
  | tick (agent : PassAgent Key σ δ)
  | sweep (env : LiveEnv) (roomId : String)
  | finish (write : IoResult)

section

variable {Key σ δ : Type} (crypto : Crypto Key) (regexNew : RegexNew) (order : EvictionOrder)

def State.stored (s : State σ δ) : ApprovalQueue := s.live.file.queue

def State.copy (s : State σ δ) : ApprovalQueue := s.scheduler.world.gate.queue

def State.withFile (s : State σ δ) (file : QueueFile) : State σ δ :=
  { s with live := { s.live with file } }

def State.withCopy (s : State σ δ) (queue : ApprovalQueue) : State σ δ :=
  { s with scheduler := { s.scheduler with world := { s.scheduler.world with
      gate := { s.scheduler.world.gate with queue } } } }

/-- One pass runs at a time: no second one begins, and nothing is ticked, swept or finished
outside. -/
def step (s : State σ δ) : Label Key σ δ → State σ δ
  | .live event => { s with live := (event.handle crypto regexNew order s.live).1 }
  | .decide env requestId => s.withFile (decideApprovalForSession env s.live.file requestId).2
  | .begin read stampedAt nowUnix =>
    match s.pass with
    | some _ => s
    | none =>
      let pass := Pass.load s.live.file read stampedAt nowUnix
      { s.withCopy pass.before with pass := some pass }
  | .tick agent =>
    match s.pass with
    | none => s
    | some pass =>
      { s with scheduler :=
          (schedulerPassForAgent crypto regexNew order pass agent s.scheduler).2 }
  | .sweep env roomId =>
    match s.pass with
    | none => s
    | some pass => s.withCopy (sweepExpiredLiveHolds env roomId pass.nowUnix s.copy).1
  | .finish write =>
    match s.pass with
    | none => s
    | some pass =>
      { s.withFile (pass.save s.copy write s.live.file) with pass := none }

end

end MxAgent.System.QueuePasses
