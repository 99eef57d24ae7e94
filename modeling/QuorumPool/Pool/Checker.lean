import QuorumPool.Pool.Verdict

namespace QuorumPool.Pool

/-- Starts an inspection of shard `i`. -/
def inspect (p : Pool) (i : Nat) : Inspection :=
  match p.check (p.shard i).address with
  | .waits c => .checking i c
  | .done healthy => .judging (.deciding i healthy)

/-- Goes on with an inspection, which ends with its verdict. -/
def resumeInspection (p : Pool) : Inspection → Reply → Pool × Progress Inspection Unit
  | .checking i c, reply =>
    match p.resumeCheck c reply with
    | (p, .waits c) => (p, .waits (.checking i c))
    | (p, .done healthy) => (p, .waits (.judging (.deciding i healthy)))
  | .judging v, reply =>
    match p.resumeVerdict v reply with
    | (p, .waits v) => (p, .waits (.judging v))
    | (p, .done _) => (p, .done ())

/-- Whether a sweep checks the shard: those that are available and not suspect are passed over. -/
def needsCheck (p : Pool) (s : Shard) : Bool := !s.available || s.isSuspect p.config.maxFails

/-- The first shard from number `i` on that a sweep checks. -/
def nextToSweep (p : Pool) (i : Nat) : Option Nat :=
  ((p.shards.drop i).findIdx? p.needsCheck).map (i + ·)

/-- Sweeps on from shard number `i`. -/
def sweepFrom (p : Pool) (i : Nat) : Progress Errand Unit :=
  match p.nextToSweep i with
  | some j => .waits (.sweep (p.inspect j))
  | none => .done ()

/-- Goes on with an errand. -/
def resumeErrand (p : Pool) (e : Errand) (reply : Reply) : Pool × Progress Errand Unit :=
  match e, p.resumeInspection e.inspection reply with
  | .recheck _, (p, .waits i) => (p, .waits (.recheck i))
  | .recheck _, (p, .done ()) => (p, .done ())
  | .sweep _, (p, .waits i) => (p, .waits (.sweep i))
  | .sweep _, (p, .done ()) => (p, p.sweepFrom (e.inspection.shard + 1))

/-- When the sweep after one that was due at `due` and starts now is due: one interval later, and
counted from now if this one is late by more than the slack. -/
def nextDue (p : Pool) (due : Duration) : Duration :=
  if due + p.tickSlack < p.now then p.now + p.config.healthCheckInterval
  else due + p.config.healthCheckInterval

/-- The checker's state when an errand stands as given; `due` is the next sweep's time. -/
def setErrand (p : Pool) (due : Duration) : Progress Errand Unit → Pool
  | .waits e =>
    let p := { p with checker := .working due e }
    match e.inspection.call? with
    | some call => p.ask call
    | none => p
  | .done () => { p with checker := .waiting due }

/-- Gives the health checker a turn in which no call of it is answered: it starts, stops, or takes
up the next errand; an errand that waits for a decision only gets it. -/
def turn (p : Pool) : Pool :=
  match p.checker with
  | .spawned =>
    let interval := p.config.healthCheckInterval
    { p with checker := .waiting (p.now + interval) }.note (.checkerStarted interval)
  | .waiting due =>
    if p.stopping then { p with checker := .stopped, suspects := [] }.note .checkerStopped
    else match p.suspects with
      | i :: rest =>
        let p := { p with suspects := rest }.note (.checkingSuspect (p.shard i).address)
        p.setErrand due (.waits (.recheck (p.inspect i)))
      | [] =>
        if due ≤ p.now then p.setErrand (p.nextDue due) (p.sweepFrom 0) else p
  | .working due e =>
    match e.inspection.call? with
    | some _ => p
    | none =>
      let (p, progress) := p.resumeErrand e (.ok ())
      p.setErrand due progress
  | .stopped => p

/-- Gives the health checker the factory's reply to its call. -/
def resumeChecker (p : Pool) (reply : Reply) : Pool :=
  match p.checker with
  | .working due e =>
    match e.inspection.call? with
    | some _ =>
      let (p, progress) := p.resumeErrand e reply
      p.setErrand due progress
    | none => p
  | _ => p

/-- What the health checker waits for the factory to do. -/
def checkerCall? (p : Pool) : Option Call :=
  match p.checker with
  | .working _ e => e.inspection.call?
  | _ => none

/-- Whether a turn would change anything now. -/
def checkerReady (p : Pool) : Bool :=
  match p.checker with
  | .spawned => true
  | .waiting due => p.stopping || !p.suspects.isEmpty || due ≤ p.now
  | .working _ e => e.inspection.call?.isNone
  | .stopped => false

end QuorumPool.Pool
