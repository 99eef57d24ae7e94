import QuorumPool.Rehearsal.Op

namespace QuorumPool.Rehearsal

/-- Names a pool, also one that has lost its name. -/
abbrev PoolKey := Nat

/-- A pool in the world, with what its connections are to the backend. -/
structure Slot where
  pool : Pool
  /-- Whether the pool is still known by its name. -/
  named : Bool := true
  /-- The backend's connections for those the pool dialed for lending. -/
  own : List ObjectId := []
  /-- The connection that a checking task holds. -/
  probes : List (TaskId × ObjectId) := []
  checkerProbe : ObjectId := 0
  /-- The call of the health checker. -/
  checkerPending : Option Pending := none

/-- The world. -/
structure World where
  now : Duration := .zero
  slots : List Slot := []
  pools : List (String × PoolKey) := []
  backend : Backend := {}
  conns : List (String × ObjectId) := []
  /-- The pool and the number there of each connection that a pool dialed for lending. -/
  owners : List (ObjectId × PoolKey × ConnId) := []
  /-- Calls of the current step, the latest first. -/
  calls : List String := []
  /-- Events of the current step, the latest first. -/
  log : List Event := []

namespace World

def modifySlot (w : World) (key : PoolKey) (f : Slot → Slot) : World :=
  { w with slots := w.slots.modify key f }

/-- Puts the pool's new state into its slot and collects the events it reported. -/
def setPool (w : World) (key : PoolKey) (pool : Pool) : World :=
  let (pool, entries) := pool.takeJournal
  let events := entries.filterMap fun
    | .event e => some e
    | .call _ => none
  { w.modifySlot key fun s => { s with pool } with log := events.reverse ++ w.log }

def pool? (w : World) (key : PoolKey) : Option Pool := w.slots[key]?.map (·.pool)

def nameConn (w : World) (name : Option String) (o : ObjectId) : World :=
  match name with
  | some name => { w with conns := (name, o) :: w.conns.filter (·.1 != name) }
  | none => w

/-- Begins a call to the backend. -/
def beginJob (w : World) (job : Job) : World × Pending :=
  let w := { w with calls := job.text w.backend :: w.calls }
  let (backend, pending) := w.backend.begin w.now job
  ({ w with backend }, pending)

/-- Goes on with a call whose wait is over. -/
def proceedJob (w : World) (job : Job) (pending : Pending) : World × Pending :=
  let (backend, pending) := w.backend.proceed w.now job pending
  ({ w with backend }, pending)

/-- Whether a wait of a call is over. -/
def reached (w : World) (pending : Pending) : Bool :=
  match pending.deadline? with
  | some t => t ≤ w.now
  | none => true

/-- What a pool's call is to the backend; `probe` and `stray` are the connections that the caller
holds. -/
def jobOf (w : World) (key : PoolKey) (probe stray : ObjectId) : Call → Job
  | .dial _ address | .probe address => .create address
  | .validate t => .validate (target t)
  | .close t => .close (target t)
where
  target : Target → ObjectId
    | .own c => (w.slots[key]?.bind (·.own[c]?)).getD 0
    | .probe => probe
    | .stray => stray

/-- The reply to a pool's call. -/
def replyOf : Deed → Reply
  | .ok _ => .ok ()
  | .error e => .error e

/-- Notes that a pool's dial gave it connection `o` for lending. -/
def adopt (w : World) (key : PoolKey) (o : ObjectId) : World :=
  let number := (w.slots[key]?.map (·.own.length)).getD 0
  { w.modifySlot key fun s => { s with own := s.own ++ [o] } with
    owners := (o, key, number) :: w.owners }

/-- Whether shard `i` of a pool is alive: some user holds the pool (`held`), the health checker is
not done, or a return to the shard is under way. -/
def shardAlive (w : World) (held : Bool) (key : PoolKey) (i : Nat) : Bool :=
  match w.slots[key]? with
  | none => false
  | some s =>
    held || s.named || s.pool.checker != .stopped
      || s.pool.tasks.any fun (_, t) =>
        match t with
        | .put c => (s.pool.conns[c]?.any fun conn => conn.shard == i)
        | _ => false

/-- The owner of a connection, if the shard it belongs to is alive. `held` tells which pools have a
user. -/
def liveOwner? (w : World) (held : PoolKey → Bool) (o : ObjectId) : Option (PoolKey × ConnId) :=
  match w.owners.lookup o with
  | none => none
  | some (key, c) =>
    match (w.pool? key).bind (·.conns[c]?) with
    | some conn => if w.shardAlive (held key) key conn.shard then some (key, c) else none
    | none => none

/-- What is to be said about a connection. -/
def reportConn (w : World) (held : PoolKey → Bool) (o : ObjectId) : ConnReport :=
  let object := w.backend.object o
  let conn? := (w.owners.lookup o).bind fun (key, c) => (w.pool? key).bind (·.conns[c]?)
  let borrowed := conn?.any (·.borrowed)
  let attached := (w.liveOwner? held o).isSome
  { label := object.label, address := object.address, closed := object.closed, borrowed, attached
    lastUsed := (conn?.map (·.lastUsed)).getD object.made
    debug := object.debug
    pooled := Text.record "PooledObject"
      [("borrowed", Text.bool borrowed), ("last_used", "<instant>"),
       ("attached", Text.bool attached)] }

/-- Lets the clock show `now`. -/
def setTime (w : World) (now : Duration) : World :=
  { w with now, slots := w.slots.map fun s => { s with pool := s.pool.setTime now } }

end World

end QuorumPool.Rehearsal
