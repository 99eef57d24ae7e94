import QuorumPool.Pool.Basic

namespace QuorumPool.Pool

/-- The attempt after number `attempt`, if the configuration allows one. -/
def nextAttempt (p : Pool) (address : String) (attempt : Nat) : Progress Check Bool :=
  if attempt < p.config.healthCheckAttempts then .waits ⟨address, attempt + 1, .dialing⟩
  else .done false

/-- Starts a check of the address. -/
def check (p : Pool) (address : String) : Progress Check Bool := p.nextAttempt address 0

/-- Goes on with a check after the factory's reply. Every connection it dials is validated once
and then closed, and the first that validates ends the check. -/
def resumeCheck (p : Pool) (c : Check) (reply : Reply) : Pool × Progress Check Bool :=
  match c.checking, reply with
  | .dialing, .ok () => (p, .waits { c with checking := .validating })
  | .dialing, .error e =>
    (p.note (.probeDialFailed c.address c.attempt e), p.nextAttempt c.address c.attempt)
  | .validating, .ok () => (p, .waits { c with checking := .closing none })
  | .validating, .error e => (p, .waits { c with checking := .closing (some e) })
  | .closing failure, reply =>
    let p := match reply with
      | .ok () => p
      | .error e => p.note (.probeCloseFailed c.address e)
    match failure with
    | none => (p, .done true)
    | some e => (p.note (.probeInvalid c.address c.attempt e), p.nextAttempt c.address c.attempt)

/-- Takes the next connection out of the idle queue of shard `i` to close it, after `drained`
others. The drain of a demoted shard ends when the queue is empty. -/
def drain (p : Pool) (i drained : Nat) : Pool × Progress Verdict Bool :=
  let s := p.shard i
  match s.idle with
  | c :: _ => ((p.dropIdle i).count i Tally.countClose, .waits (.draining i c drained))
  | [] => (p.note (.drained s.address drained), .done true)

/-- Puts shard `i` back into service, if it was out. -/
def promote (p : Pool) (i : Nat) : Pool × Progress Verdict Bool :=
  if (p.shard i).available then (p, .done false)
  else
    let p := { p with numAvailable := p.numAvailable + 1 }
    let p := p.modifyShard i fun s => { s with available := true }
    (p.note (.promoted (p.shard i).address p.numAvailable), .done true)

/-- Takes shard `i` out of service, if it is in service and the quorum permits it. -/
def demote (p : Pool) (i : Nat) : Pool × Progress Verdict Bool :=
  let s := p.shard i
  let total := p.shards.length
  if !s.available then (p, .done false)
  else if !p.config.quorum.permitsDemotion p.numAvailable total then
    (p.note (.demotionRefused s.address p.numAvailable total), .done false)
  else
    let p := { p with numAvailable := p.numAvailable - 1 }
    let p := p.modifyShard i fun s => { s with available := false }
    (p.note (.demoted s.address p.numAvailable)).drain i 0

/-- Goes on with a verdict: decides it, or goes on with its drain after a close. It is decided in one
step, so that decisions never overlap. -/
def resumeVerdict (p : Pool) : Verdict → Reply → Pool × Progress Verdict Bool
  | .deciding i true, _ => p.promote i
  | .deciding i false, _ => p.demote i
  | .draining i _ drained, reply => (p.noteIdleClose i reply).drain i (drained + 1)

/-- A verdict on shard `i`, which is without effect when there is no such shard. -/
def mark (p : Pool) (i : Nat) (healthy : Bool) : Progress Verdict Bool :=
  if i < p.shards.length then .waits (.deciding i healthy) else .done false

end QuorumPool.Pool
