import QuorumPool.Pool.Basic

namespace QuorumPool.Pool

/-- Closes the last `left` shards, waiting for each idle connection that has to be closed. -/
def closeLast (p : Pool) : (left : Nat) → Pool × Progress Closing Unit
  | 0 => (p.note (.poolShutDown p.shards.length), .done ())
  | left + 1 =>
    let i := p.shards.length - (left + 1)
    let p := p.modifyShard i fun s => { s with closed := true }
    match (p.shard i).idle with
    | c :: _ => ((p.dropIdle i).count i Tally.countClose, .waits (.draining i c 0))
    | [] => closeLast (p.note (.shardClosed (p.shard i).address 0)) left

/-- Goes on with the drain of a closed shard `i` after `drained` connections, and then with the
shards after it. -/
def closeOn (p : Pool) (i drained : Nat) : Pool × Progress Closing Unit :=
  match (p.shard i).idle with
  | c :: _ => ((p.dropIdle i).count i Tally.countClose, .waits (.draining i c drained))
  | [] =>
    closeLast (p.note (.shardClosed (p.shard i).address drained)) (p.shards.length - (i + 1))

/-- Whether a shutdown is at work. -/
def shutdownUnderWay (p : Pool) : Bool :=
  p.tasks.any fun (_, t) =>
    match t with
    | .shutdown .queued => false
    | .shutdown _ => true
    | _ => false

/-- Whether a shutdown waits for its turn. -/
def shutdownQueued (p : Pool) : Bool := p.tasks.any fun (_, t) => t = .shutdown .queued

/-- A shutdown whose turn has come: the first one starts the work, later ones find it done. -/
def enterShutdown (p : Pool) : Pool × Progress Closing Unit :=
  if p.closed then (p.note .alreadyShutDown, .done ())
  else ({ p with closed := true, stopping := true }, .waits .joining)

/-- A shutdown of the pool. -/
def shutdown (p : Pool) : Pool × Progress Closing Unit :=
  if p.shutdownUnderWay || p.shutdownQueued then (p, .waits .queued) else p.enterShutdown

/-- Goes on with a shutdown. -/
def resumeShutdown (p : Pool) : Closing → Reply → Pool × Progress Closing Unit
  | .queued, _ => if p.shutdownUnderWay then (p, .waits .queued) else p.enterShutdown
  | .joining, _ =>
    if p.checker = .stopped then p.closeLast p.shards.length else (p, .waits .joining)
  | .draining i _ drained, reply => (p.noteIdleClose i reply).closeOn i (drained + 1)

end QuorumPool.Pool
