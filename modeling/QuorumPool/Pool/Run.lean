import QuorumPool.Pool.Get
import QuorumPool.Pool.Put
import QuorumPool.Pool.Checker
import QuorumPool.Pool.Shutdown

namespace QuorumPool

/-- What the task waits for the factory to do, at a pool; none if it waits for its turn only. -/
def Task.call? (t : Task) (p : Pool) : Option Call :=
  match t with
  | .get g =>
    match g.borrowing with
    | .discarding c => some (.close (.own c))
    | .validating c => some (.validate (.own c))
    | .dialing =>
      let i := p.visited g.start g.attempt
      some (.dial i (p.shard i).address)
  | .put c => some (.close (.own c))
  | .strayPut => some (.close .stray)
  | .verdict v => v.call?
  | .check c => some c.call
  | .shutdown (.draining _ c _) => some (.close (.own c))
  | .shutdown _ => none

namespace Pool

/-- The answer of a get. -/
def answerGet : Except PoolError ConnId → Answer
  | .ok c => .lent c
  | .error e => .refused e

/-- The answer of a put. -/
def answerPut : Except PoolError Unit → Answer
  | .ok () => .returned
  | .error e => .refused e

/-- The first step of a request. -/
def begin (p : Pool) : Request → Pool × Progress Task Answer
  | .get => p.get.map id (·.map .get answerGet)
  | .put c broken => (p.put c broken).map id (·.map (fun _ => .put c) answerPut)
  | .strayPut => (p, .waits .strayPut)
  | .mark i healthy => (p, (p.mark i healthy).map .verdict .changed)
  | .check address => (p, (p.check address).map .check .healthy)
  | .shutdown => p.shutdown.map id (·.map .shutdown fun _ => .shutDown)

/-- The next step of a task. The reply counts only for a task that waits for the factory. -/
def advance (p : Pool) (t : Task) (reply : Reply) : Pool × Progress Task Answer :=
  match t with
  | .get g => (p.resumeGet g reply).map id (·.map .get answerGet)
  | .put _ => (p, .done (answerPut reply))
  | .strayPut =>
    let (p, result) := p.resumeStrayPut reply
    (p, .done (answerPut result))
  | .verdict v => (p.resumeVerdict v reply).map id (·.map .verdict .changed)
  | .check c => (p.resumeCheck c reply).map id (·.map .check .healthy)
  | .shutdown s => (p.resumeShutdown s reply).map id (·.map .shutdown fun _ => .shutDown)

def task? (p : Pool) (id : TaskId) : Option Task := p.tasks.lookup id

/-- Writes down the call of a task that now waits in the given state. -/
def askFor (p : Pool) (t : Task) : Pool :=
  match t.call? p with
  | some call => p.ask call
  | none => p

/-- Begins a request: it is answered at once, or becomes a task in flight. -/
def start (p : Pool) (r : Request) : Pool × Progress TaskId Answer :=
  match p.begin r with
  | (p, .done a) => (p, .done a)
  | (p, .waits t) =>
    ({ p with tasks := p.tasks ++ [(p.nextTask, t)], nextTask := p.nextTask + 1 }.askFor t,
      .waits p.nextTask)

/-- Goes on with a task in flight, which answers when it is finished. Between two such steps any other
task may take its own, and within a step none does. -/
def resume (p : Pool) (id : TaskId) (reply : Reply) : Pool × Option Answer :=
  match p.task? id with
  | none => (p, none)
  | some t =>
    match p.advance t reply with
    | (p, .done a) => ({ p with tasks := p.tasks.filter (·.1 != id) }, some a)
    | (p, .waits t') =>
      let p := { p with tasks := p.tasks.map fun (i, u) => if i = id then (i, t') else (i, u) }
      (p.askFor t', none)

/-- What a task waits for the factory to do. -/
def call? (p : Pool) (id : TaskId) : Option Call := (p.task? id).bind (·.call? p)

/-- Whether a task that waits for its turn only can have it now. -/
def taskReady (p : Pool) (id : TaskId) : Bool :=
  match p.task? id with
  | some (.verdict (.deciding ..)) => true
  | some (.shutdown .queued) =>
    !p.shutdownUnderWay
      && (p.tasks.find? fun (_, t) => t = .shutdown .queued).any fun (first, _) => first = id
  | some (.shutdown .joining) => p.checker = .stopped
  | _ => false

end Pool

end QuorumPool
