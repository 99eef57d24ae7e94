import QuorumPool.Pool.Run

namespace QuorumPool.Pool

/-- A factory with a state: its reply to a call, and its state after it. -/
abbrev Service (σ : Type) := σ → Call → σ × Reply

variable {σ : Type}

/-- The connections that wait in idle queues. -/
def idleCount (p : Pool) : Nat := p.shards.foldr (fun s total => s.idle.length + total) 0

/-- A bound on the steps of any one activity of the pool while no other changes it: each idle
connection is validated and closed at most once, each visit of a get dials at most once, and a check
makes at most three calls in each attempt. -/
def effort (p : Pool) : Nat :=
  2 * p.idleCount + p.maxRetry + 3 * p.config.healthCheckAttempts + 4

/-- A step of the health checker. -/
def stepChecker (serve : Service σ) (s : σ) (p : Pool) : σ × Pool :=
  match p.checkerCall? with
  | some call =>
    let (s, reply) := serve s call
    (s, p.resumeChecker reply)
  | none => (s, p.turn)

/-- Lets the health checker go on until it waits, for at most `fuel` steps. -/
def settle (serve : Service σ) : (fuel : Nat) → σ → Pool → σ × Pool
  | 0, s, p => (s, p)
  | fuel + 1, s, p =>
    if p.checkerReady || p.checkerCall?.isSome then
      let (s, p) := stepChecker serve s p
      settle serve fuel s p
    else (s, p)

/-- A bound on the steps that the health checker takes before it waits: it starts or stops, rechecks
every suspect, and makes one sweep over all shards. -/
def checkerEffort (p : Pool) : Nat := (p.suspects.length + p.shards.length + 2) * p.effort

/-- Goes on with a task until it answers, for at most `fuel` steps. A task that waits for the health
checker lets it go on. -/
def carry (serve : Service σ) (id : TaskId) : (fuel : Nat) → σ → Pool → σ × Pool × Option Answer
  | 0, s, p => (s, p, none)
  | fuel + 1, s, p =>
    match p.call? id with
    | some call =>
      let (s, reply) := serve s call
      match p.resume id reply with
      | (p, some a) => (s, p, some a)
      | (p, none) => carry serve id fuel s p
    | none =>
      if p.taskReady id then
        match p.resume id (.ok ()) with
        | (p, some a) => (s, p, some a)
        | (p, none) => carry serve id fuel s p
      else
        let (s, p) := settle serve p.checkerEffort s p
        carry serve id fuel s p

/-- Makes a request and goes through with it. -/
def perform (serve : Service σ) (s : σ) (p : Pool) (r : Request) : σ × Pool × Option Answer :=
  match p.start r with
  | (p, .done a) => (s, p, some a)
  | (p, .waits id) => carry serve id p.effort s p

/-- A get with nobody else around. -/
def getAlone (serve : Service σ) (s : σ) (p : Pool) : σ × Pool × Except PoolError ConnId :=
  match perform serve s p .get with
  | (s, p, some (.lent c)) => (s, p, .ok c)
  | (s, p, some (.refused e)) => (s, p, .error e)
  | (s, p, _) => (s, p, .error (.retriesExhausted p.maxRetry))

/-- A put with nobody else around. -/
def putAlone (serve : Service σ) (s : σ) (p : Pool) (c : ConnId) (broken : Bool) :
    σ × Pool × Except PoolError Unit :=
  match perform serve s p (.put c broken) with
  | (s, p, some (.refused e)) => (s, p, .error e)
  | (s, p, _) => (s, p, .ok ())

/-- A shutdown with nobody else around. -/
def shutdownAlone (serve : Service σ) (s : σ) (p : Pool) : σ × Pool :=
  let (s, p, _) := perform serve s p .shutdown
  (s, p)

end QuorumPool.Pool
