import QuorumPool.Rehearsal.World

namespace QuorumPool.Rehearsal

/-- A burst under way. -/
structure Burst where
  pool : PoolKey
  count : Nat
  giveBack : Option Bool
  stem : String
  index : Nat := 0
  /-- The reports so far, the latest first. -/
  reports : List Report := []

/-- What the answer of a task is for. -/
inductive Goal where
  | get (name : Option String)
  | put (object : ObjectId)
  | plain
  | burstGet (burst : Burst)
  | burstPut (burst : Burst)

/-- A single operation under way. A task runs at the pool `key`; `holder` is the pool whose user
the operation is. -/
inductive Doing where
  | todo (op : Op)
  | asleep (time : Duration)
  | tasked (holder key : PoolKey) (task : TaskId) (pending : Option Pending) (goal : Goal)
  | bursting (burst : Burst)
  | calling (job : Job) (pending : Pending) (name : Option String)
  | done (report : Report)

namespace Doing

/-- The pool that the operation is a user of. -/
def holder? : Doing → Option PoolKey
  | tasked holder .. => some holder
  | bursting b => some b.pool
  | _ => none

def report? : Doing → Option Report
  | done r => some r
  | _ => none

/-- Whether the operation can go on now. -/
def ready (w : World) : Doing → Bool
  | todo _ | bursting _ => true
  | asleep t => t ≤ w.now
  | tasked _ key task pending _ =>
    match pending with
    | some pending => w.reached pending
    | none => (w.pool? key).any (·.taskReady task)
  | calling _ pending _ => w.reached pending
  | done _ => false

/-- The moment that the operation waits for. -/
def deadline? : Doing → Option Duration
  | asleep t => some t
  | tasked _ _ _ (some pending) _ => pending.deadline?
  | calling _ pending _ => pending.deadline?
  | _ => none

end Doing

/-- The burst after another report, on to its next round. -/
def Burst.next (b : Burst) (report : Report) : Doing :=
  .bursting { b with index := b.index + 1, reports := report :: b.reports }

namespace World

/-- The report of a get: the connection as the backend knows it. -/
def reportLent (w : World) (key : PoolKey) (c : ConnId) : ObjectId × Report :=
  let o := (w.slots[key]?.bind (·.own[c]?)).getD 0
  let object := w.backend.object o
  (o, .lent object.label object.address)

/-- Begins the call that a task now waits for. -/
def callFor (w : World) (key : PoolKey) (task : TaskId) (goal : Goal) : World × Option Pending :=
  match w.slots[key]? with
  | none => (w, none)
  | some s =>
    match s.pool.call? task with
    | none => (w, none)
    | some call =>
      let stray := match goal with
        | .put o => o
        | _ => 0
      let (w, pending) := w.beginJob (w.jobOf key ((s.probes.lookup task).getD 0) stray call)
      (w, some pending)

/-- The job that a task's call is to the backend. -/
def jobFor (w : World) (key : PoolKey) (task : TaskId) (goal : Goal) : Option Job :=
  match w.slots[key]? with
  | none => none
  | some s =>
    let stray := match goal with
      | .put o => o
      | _ => 0
    (s.pool.call? task).map (w.jobOf key ((s.probes.lookup task).getD 0) stray)

/-- What becomes of an operation whose task has answered. A burst may have to give back what it
was lent. -/
def finish (w : World) (key : PoolKey) (goal : Goal) (a : Answer) : World × (Doing ⊕ Request × Goal) :=
  match goal, a with
  | .get name, .lent c =>
    let (o, report) := w.reportLent key c
    (w.nameConn name o, .inl (.done report))
  | .burstGet b, .lent c =>
    let (o, report) := w.reportLent key c
    match b.giveBack with
    | some broken =>
      (w, .inr (.put c broken, .burstPut { b with reports := report :: b.reports }))
    | none =>
      (w.nameConn (some (b.stem ++ toString b.index)) o, .inl (b.next report))
  | .burstGet b, .refused e => (w, .inl (b.next (.error e)))
  | .burstPut b, .refused e => (w, .inl (b.next (.error e)))
  | .burstPut b, _ => (w, .inl (.bursting { b with index := b.index + 1 }))
  | _, .returned => (w, .inl (.done .ok))
  | _, .shutDown => (w, .inl (.done .ok))
  | _, .refused e => (w, .inl (.done (.error e)))
  | _, .changed b => (w, .inl (.done (.flag b)))
  | _, .healthy b => (w, .inl (.done (.flag b)))
  | _, .lent _ => (w, .inl (.done .nothing))

/-- Makes a request at a pool and begins the call that it leads to. -/
def request (w : World) (holder key : PoolKey) (r : Request) (goal : Goal) :
    World × (Doing ⊕ Request × Goal) :=
  match w.pool? key with
  | none => (w, .inl (.done .noSuchPool))
  | some pool =>
    match pool.start r with
    | (pool, .done a) => (w.setPool key pool).finish key goal a
    | (pool, .waits task) =>
      let (w, pending) := (w.setPool key pool).callFor key task goal
      (w, .inl (.tasked holder key task pending goal))

/-- Makes a request, and then the one that its immediate answer leads to, if any. -/
def requestOn (w : World) (holder key : PoolKey) (r : Request) (goal : Goal) : World × Doing :=
  match w.request holder key r goal with
  | (w, .inl doing) => (w, doing)
  | (w, .inr (r, goal)) =>
    match w.request holder key r goal with
    | (w, .inl doing) => (w, doing)
    | (w, .inr _) => (w, .done .nothing)

/-- Hands a task its reply and begins the call it waits for next. -/
def deliver (w : World) (holder key : PoolKey) (task : TaskId) (goal : Goal) (deed : Deed) :
    World × Doing :=
  match w.pool? key with
  | none => (w, .done .noSuchPool)
  | some pool =>
    let w := match pool.call? task, deed with
      | some (.dial ..), .ok o => w.adopt key o
      | some (.probe _), .ok o =>
        w.modifySlot key fun s => { s with probes := (task, o) :: s.probes.filter (·.1 != task) }
      | _, _ => w
    match pool.resume task (replyOf deed) with
    | (pool, none) =>
      let (w, pending) := (w.setPool key pool).callFor key task goal
      (w, .tasked holder key task pending goal)
    | (pool, some a) =>
      match (w.setPool key pool).finish key goal a with
      | (w, .inl doing) => (w, doing)
      | (w, .inr (r, goal)) => w.requestOn holder key r goal

/-- Makes a request at the pool of a name. -/
def atPool (w : World) (name : String) (r : Request) (goal : Goal) : World × Doing :=
  match w.pools.lookup name with
  | none => (w, .done .noSuchPool)
  | some key => w.requestOn key key r goal

/-- Looks at the pool of a name. -/
def look (w : World) (name : String) (f : PoolKey → Pool → World × Report) : World × Doing :=
  match w.pools.lookup name with
  | none => (w, .done .noSuchPool)
  | some key =>
    match w.pool? key with
    | none => (w, .done .noSuchPool)
    | some pool =>
      let (w, report) := f key pool
      (w, .done report)

/-- Calls the backend about a connection known by name. -/
def callAbout (w : World) (name : String) (job : ObjectId → Job) : World × Doing :=
  match w.conns.lookup name with
  | none => (w, .done .noSuchConn)
  | some o =>
    let (w, pending) := w.beginJob (job o)
    (w, .calling (job o) pending none)

/-- Takes its name from a pool. -/
def unname (w : World) (name : String) : World :=
  match w.pools.lookup name with
  | none => w
  | some key =>
    { w.modifySlot key fun s => { s with named := false } with
      pools := w.pools.filter (·.1 != name) }

/-- The first step of an operation. `held` tells which pools have a user. -/
def begin (w : World) (held : PoolKey → Bool) : Op → World × Doing
  | .new name addresses config =>
    match Pool.create config addresses w.now with
    | .error e => (w, .done (.error e))
    | .ok pool =>
      let w := w.unname name
      let key := w.slots.length
      let w := { w with slots := w.slots ++ [({ pool } : Slot)], pools := (name, key) :: w.pools }
      (w.setPool key pool, .done .ok)
  | .get pool name => w.atPool pool .get (.get name)
  | .put pool conn broken =>
    match w.pools.lookup pool, w.conns.lookup conn with
    | none, _ => (w, .done .noSuchPool)
    | _, none => (w, .done .noSuchConn)
    | some holder, some o =>
      match w.liveOwner? held o with
      | some (key, c) => w.requestOn holder key (.put c broken) (.put o)
      | none => w.requestOn holder holder .strayPut (.put o)
  | .burst pool count giveBack stem =>
    match w.pools.lookup pool with
    | none => (w, .done .noSuchPool)
    | some key => (w, .bursting { pool := key, count, giveBack, stem })
  | .mark pool index healthy => w.atPool pool (.mark index healthy) .plain
  | .check pool address => w.atPool pool (.check address) .plain
  | .shutdown pool => w.atPool pool .shutdown .plain
  | .advance time => (w, .asleep (w.now + time))
  | .stats pool => w.look pool fun key p =>
    let (p, stats) := p.takeStats
    (w.setPool key p, .stats stats)
  | .shardStats pool index => w.look pool fun key p =>
    match p.takeShardStats index with
    | (p, some stats) => (w.setPool key p, .shardStats index stats.shard stats)
    | (_, none) => (w, .nothing)
  | .info pool => w.look pool fun _ p =>
    (w, .info (p.shards.map (·.address)) p.maxRetry p.config)
  | .drop pool => (w.unname pool, .done (.flag (w.pools.lookup pool).isSome))
  | .down address on =>
    let down := Backend.setMember on address w.backend.down
    ({ w with backend := { w.backend with down } }, .done .ok)
  | .unhealthy address on =>
    let unhealthy := Backend.setMember on address w.backend.unhealthy
    ({ w with backend := { w.backend with unhealthy } }, .done .ok)
  | .closeDelay delay =>
    ({ w with backend := { w.backend with closeDelay := delay } }, .done .ok)
  | .script address create validate close =>
    let backend := ((w.backend.addScript address .create create).addScript address .validate
      validate).addScript address .close close
    ({ w with backend }, .done .ok)
  | .detached label address name =>
    let (backend, o) := w.backend.make label address w.now
    ({ w with backend }.nameConn name o, .done .ok)
  | .create address name =>
    let (w, pending) := w.beginJob (.create address)
    (w, .calling (.create address) pending name)
  | .validate conn => w.callAbout conn .validate
  | .close conn => w.callAbout conn .close
  | .conn conn =>
    match w.conns.lookup conn with
    | none => (w, .done .noSuchConn)
    | some o => (w, .done (.conn (w.reportConn held o)))
  | .forget conn =>
    ({ w with conns := w.conns.filter (·.1 != conn) },
      .done (.flag (w.conns.lookup conn).isSome))
  | .counts addresses =>
    let b := w.backend
    (w, .done (.counts b.creates b.validates b.closes
      (addresses.map fun a => (a, b.createsOf a))))

/-- The next step of an operation that is ready. -/
def go (w : World) (held : PoolKey → Bool) : Doing → World × Doing
  | .todo op => w.begin held op
  | .asleep _ => (w, .done .ok)
  | .bursting b =>
    if b.index < b.count then w.requestOn b.pool b.pool .get (.burstGet b)
    else (w, .done (.list b.reports.reverse))
  | .tasked holder key task none goal => w.deliver holder key task goal (.ok 0)
  | .tasked holder key task (some (.ended deed)) goal => w.deliver holder key task goal deed
  | .tasked holder key task (some pending) goal =>
    match w.jobFor key task goal with
    | none => w.deliver holder key task goal (.ok 0)
    | some job =>
      let (w, pending) := w.proceedJob job pending
      (w, .tasked holder key task (some pending) goal)
  | .calling job (.ended deed) name =>
    match deed with
    | .error e => (w, .done (.error e))
    | .ok o =>
      match job with
      | .create _ =>
        let object := w.backend.object o
        (w.nameConn name o, .done (.lent object.label object.address))
      | _ => (w, .done .ok)
  | .calling job pending name =>
    let (w, pending) := w.proceedJob job pending
    (w, .calling job pending name)
  | .done report => (w, .done report)

/-- Whether the health checker of a pool can go on now. -/
def checkerReady (w : World) (s : Slot) : Bool :=
  match s.checkerPending with
  | some pending => w.reached pending
  | none => s.pool.checkerReady

/-- The moment that the health checker of a pool waits for. -/
def checkerDeadline? (s : Slot) : Option Duration :=
  match s.checkerPending with
  | some pending => pending.deadline?
  | none =>
    match s.pool.checker with
    | .waiting due => some due
    | _ => none

/-- Puts the pool's state after a step of its health checker into its slot, and begins the call
that the checker waits for. -/
def settleChecker (w : World) (key : PoolKey) (pool : Pool) : World :=
  let w := w.setPool key pool
  match pool.checkerCall?, w.slots[key]? with
  | some call, some s =>
    let (w, pending) := w.beginJob (w.jobOf key s.checkerProbe 0 call)
    w.modifySlot key fun s => { s with checkerPending := some pending }
  | _, _ => w.modifySlot key fun s => { s with checkerPending := none }

/-- A step of the health checker of a pool. -/
def goChecker (w : World) (key : PoolKey) (s : Slot) : World :=
  match s.checkerPending with
  | none => w.settleChecker key s.pool.turn
  | some (.ended deed) =>
    let w := match s.pool.checkerCall?, deed with
      | some (.probe _), .ok o => w.modifySlot key fun s => { s with checkerProbe := o }
      | _, _ => w
    w.settleChecker key (s.pool.resumeChecker (replyOf deed))
  | some pending =>
    match s.pool.checkerCall? with
    | none => w.settleChecker key s.pool
    | some call =>
      let (w, pending) := w.proceedJob (w.jobOf key s.checkerProbe 0 call) pending
      w.modifySlot key fun s => { s with checkerPending := some pending }

end World

/-- Whose turn it is: an operation's, or a health checker's. Checkers that are to stop come after
the others. -/
inductive Turn where
  | op (index : Nat)
  | checker (index : Nat)

/-- Operations under way in the world. -/
structure Stage where
  world : World
  doings : List Doing
  turn : Turn := .op 0

namespace Stage

/-- Which pools have a user among the operations. -/
def held (s : Stage) (key : PoolKey) : Bool := s.doings.any fun d => d.holder? == some key

def finished (s : Stage) : Bool := s.doings.all fun d => d.report?.isSome

/-- Gives up the pools that have lost their name and have no user. -/
def abandonUnheld (s : Stage) : Stage :=
  let slots := s.world.slots.mapIdx fun key slot =>
    if !slot.named && !slot.pool.stopping && !s.held key then
      { slot with pool := slot.pool.abandon }
    else slot
  { s with world := { s.world with slots } }

/-- The next moment that somebody waits for. -/
def nextMoment (s : Stage) : Option Duration :=
  let moments := s.doings.filterMap (·.deadline?) ++ s.world.slots.filterMap World.checkerDeadline?
  moments.foldl (fun best t =>
    match best with
    | none => some t
    | some b => some (if t < b then t else b)) none

/-- The next turn of operation `k`. -/
def stepOp (s : Stage) (k : Nat) : Stage :=
  match s.doings[k]? with
  | none => { s with turn := .checker 0 }
  | some doing =>
    if doing.ready s.world then
      let (world, doing) := s.world.go s.held doing
      { s with world, doings := s.doings.set k doing }.abandonUnheld
    else { s with turn := .op (k + 1) }

/-- The end of a round: nothing is left to do, or the operations go on, now or at the next moment
that somebody waits for. -/
def endRound (s : Stage) : Option Stage :=
  if s.finished then none
  else if s.doings.any (·.ready s.world) then some { s with turn := .op 0 }
  else (s.nextMoment).map fun t => { s with world := s.world.setTime t, turn := .op 0 }

/-- The next step; none when the operations are done and the health checkers wait. Operations come
first, in their order, then the health checkers, and the clock moves on only when all of them
wait. -/
def step (s : Stage) : Option Stage :=
  match s.turn with
  | .op k => some (s.stepOp k)
  | .checker j =>
    let n := s.world.slots.length
    match s.world.slots[j % n]? with
    | none => s.endRound
    | some slot =>
      if 2 * n ≤ j then s.endRound
      else if s.world.checkerReady slot && slot.pool.stopping == (n ≤ j) then
        some { s with world := s.world.goChecker (j % n) slot }
      else some { s with turn := .checker (j + 1) }

/-- Steps until there is none, at most `fuel` of them. -/
def run : (fuel : Nat) → Stage → Stage
  | 0, s => s
  | fuel + 1, s =>
    match s.step with
    | none => s
    | some s => run fuel s

end Stage

/-- What is to be said about a shard after a step. -/
structure ShardView where
  available : Bool
  closed : Bool
  suspect : Bool
  fails : Nat
  active : Nat
  idle : Nat

/-- What is to be said about a pool after a step. -/
structure PoolView where
  available : Nat
  closed : Bool
  shards : List ShardView

def viewOf (p : Pool) : PoolView :=
  { available := p.numAvailable, closed := p.closed
    shards := p.shards.map fun s =>
      { available := s.available, closed := s.closed, suspect := s.isSuspect p.config.maxFails
        fails := s.fails, active := s.active, idle := s.idle.length } }

/-- A step of a rehearsal: the report, the time after it, the calls and events it brought, and the
pools after it. -/
structure StepReport where
  report : Report
  time : Duration
  calls : List String
  log : List Event
  pools : List (String × PoolView)

namespace World

/-- The steps that one plan may take. -/
def patience : Nat := 1000000000

/-- Performs a plan. -/
def perform (w : World) (plan : Plan) : World × StepReport :=
  let w := { w with calls := [], log := [] }
  let s := Stage.run patience { world := w, doings := plan.ops.map .todo }
  let w := s.world
  let reports := s.doings.map fun d => d.report?.getD .nothing
  let pools := w.pools.filterMap fun (name, key) => (w.pool? key).map fun p => (name, viewOf p)
  (w, { report := (plan.gather reports).1, time := w.now, calls := w.calls.reverse
        log := w.log.reverse, pools })

/-- Performs plans one after the other. -/
def performAll (w : World) : List Plan → List StepReport
  | [] => []
  | plan :: plans =>
    let (w, report) := w.perform plan
    report :: w.performAll plans

end World

end QuorumPool.Rehearsal
