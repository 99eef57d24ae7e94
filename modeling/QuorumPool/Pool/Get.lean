import QuorumPool.Pool.Basic

namespace QuorumPool.Pool

/-- Closes an idle connection of shard `i` that will not be lent. -/
def discard (p : Pool) (i : Nat) (c : ConnId) :
    Pool × Progress Borrowing (Except PoolError ConnId) :=
  (p.count i Tally.countClose, .waits (.discarding c))

/-- Takes the next idle connection of shard `i`, which is lent if it is fresh and valid; when there is
none, dials within the limit. -/
def serve (p : Pool) (i : Nat) : Pool × Progress Borrowing (Except PoolError ConnId) :=
  let s := p.shard i
  match s.idle with
  | c :: _ =>
    let p := p.dropIdle i
    if p.isStale c then
      ((p.note (.staleEvicted s.address)).count i Tally.countEviction).discard i c
    else if p.config.testOnBorrow then (p, .waits (.validating c))
    else (p.lend i c, .done (.ok c))
  | [] =>
    if s.hasRoom p.config.maxActive then
      ((p.modifyShard i Shard.occupySlot).count i Tally.countDial, .waits .dialing)
    else (p, .done (.error .poolExhausted))

/-- A get at shard `i`. -/
def borrow (p : Pool) (i : Nat) : Pool × Progress Borrowing (Except PoolError ConnId) :=
  if (p.shard i).closed then (p, .done (.error (.shardClosed (p.shard i).address)))
  else (p.count i Tally.countGet).serve i

/-- Takes a freshly dialed connection into shard `i` and lends it; its slot was taken before the
dial. -/
def adopt (p : Pool) (i : Nat) : Pool :=
  let p := p.recordOutcome i false
  let conn : Conn := { shard := i, borrowed := true, lastUsed := p.now }
  let p := { p with conns := p.conns ++ [conn] }
  p.note (.dialed (p.shard i).address (p.shard i).active)

/-- Gives up a dial of shard `i` that failed. -/
def failDial (p : Pool) (i : Nat) (e : PoolError) : Pool :=
  let p := ((p.recordOutcome i true).count i Tally.countDialError).modifyShard i Shard.releaseSlot
  p.note (.dialFailed (p.shard i).address e)

/-- Goes on with a get at shard `i` after the factory's reply. -/
def resumeBorrow (p : Pool) (i : Nat) :
    Borrowing → Reply → Pool × Progress Borrowing (Except PoolError ConnId)
  | .discarding _, reply => (p.noteIdleClose i reply).serve i
  | .validating c, .ok () => (p.lend i c, .done (.ok c))
  | .validating c, .error e => (p.note (.validationFailed (p.shard i).address e)).discard i c
  | .dialing, .ok () => (p.adopt i, .done (.ok p.conns.length))
  | .dialing, .error e => (p.failDial i e, .done (.error e))

/-- The shard that a get visits in its attempt number `attempt`. -/
def visited (p : Pool) (start attempt : Nat) : Nat := (start + attempt) % p.shards.length

/-- Reports that a visit gave no connection, and turns the rotation past it. -/
def passOver (p : Pool) (i attempt : Nat) (e : PoolError) : Pool :=
  p.rotate.note (.attemptFailed (p.shard i).address attempt e)

/-- Visits shards from attempt number `attempt` on, at most `left` of them. Unavailable shards are
passed over. -/
def visit (p : Pool) (start attempt : Nat) :
    (left : Nat) → Pool × Progress Getting (Except PoolError ConnId)
  | 0 => (p, .done (.error (.retriesExhausted p.maxRetry)))
  | left + 1 =>
    let i := p.visited start attempt
    if (p.shard i).available then
      match p.borrow i with
      | (p, .waits s) => (p, .waits ⟨start, attempt, s⟩)
      | (p, .done (.ok c)) => (p, .done (.ok c))
      | (p, .done (.error e)) => visit (p.passOver i attempt e) start (attempt + 1) left
    else visit p.rotate start (attempt + 1) left

/-- A get on the pool. -/
def get (p : Pool) : Pool × Progress Getting (Except PoolError ConnId) :=
  if p.closed then (p, .done (.error .poolClosed))
  else visit p.rotate p.rotation 0 p.maxRetry

/-- Goes on with a get after the factory's reply. -/
def resumeGet (p : Pool) (g : Getting) (reply : Reply) :
    Pool × Progress Getting (Except PoolError ConnId) :=
  let i := p.visited g.start g.attempt
  match p.resumeBorrow i g.borrowing reply with
  | (p, .waits s) => (p, .waits { g with borrowing := s })
  | (p, .done (.ok c)) => (p, .done (.ok c))
  | (p, .done (.error e)) =>
    visit (p.passOver i g.attempt e) g.start (g.attempt + 1) (p.maxRetry - (g.attempt + 1))

end QuorumPool.Pool
