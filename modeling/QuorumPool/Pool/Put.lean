import QuorumPool.Pool.Basic

namespace QuorumPool.Pool

/-- Takes back the loan of a connection of shard `i`. -/
def reclaim (p : Pool) (i : Nat) (c : ConnId) (broken : Bool) : Pool :=
  let p := p.modifyConn c fun conn => { conn with borrowed := false, lastUsed := p.now }
  let p := (p.recordOutcome i broken).count i (·.countPut broken)
  p.modifyShard i Shard.releaseSlot

/-- A return of connection `c`. It waits only while the connection is being closed. A sound
connection joins the idle queue of its shard if this takes idle connections and has room. The shard
is not asked again after that, as nothing comes between: in a program whose tasks give way only
where they wait, another look at the shard, and a drain if it is out of service by then, would never
find anything to do. -/
def put (p : Pool) (c : ConnId) (broken : Bool) : Pool × Progress Unit (Except PoolError Unit) :=
  match p.conns[c]? with
  | some { shard := i, borrowed := true, .. } =>
    let p := p.reclaim i c broken
    let s := p.shard i
    if broken || !s.acceptsIdle then (p.count i Tally.countClose, .waits ())
    else if s.idle.length < p.config.maxIdle then
      (p.modifyShard i fun s => { s with idle := s.idle ++ [c] }, .done (.ok ()))
    else
      (((p.note (.idleQueueFull s.address)).count i Tally.countEviction).count i Tally.countClose,
        .waits ())
  | _ => (p, .done (.error .invalidReturn))

/-- Goes on with the return of a connection that belongs to no live shard, once it is closed. -/
def resumeStrayPut (p : Pool) (reply : Reply) : Pool × Except PoolError Unit :=
  match reply with
  | .ok () => (p, .error .invalidReturn)
  | .error e => (p.note (.strayCloseFailed e), .error .invalidReturn)

end QuorumPool.Pool
