import QuorumPool.Redis.Pool

namespace QuorumPool

/-- The pools of a program, or what stands for them: one that is found without a name, and others in
ascending order of their names. -/
structure Registry (π : Type) where
  default : Option π := none
  named : List (String × π) := []

namespace Registry

variable {π : Type} {C : Client}

/-- The name under which the default pool is found, unless a named pool has it. -/
def defaultName : String := "default"

/-- All pools, the default one first. -/
def pools (r : Registry π) : List π := r.default.toList ++ r.named.map (·.2)

def size (r : Registry π) : Nat := r.pools.length

def isEmpty (r : Registry π) : Bool := r.pools.isEmpty

def getDefault (r : Registry π) : Except Failure π :=
  match r.default with
  | some p => .ok p
  | none => .error (.unknownPool defaultName)

/-- The pool of a name. -/
def get (r : Registry π) (name : String) : Except Failure π :=
  match r.named.lookup name with
  | some p => .ok p
  | none => if name = defaultName then r.getDefault else .error (.unknownPool name)

/-- Puts a pool into its place among those that ascend by their names, in place of one with the
same name. -/
def insertNamed (name : String) (p : π) : List (String × π) → List (String × π)
  | [] => [(name, p)]
  | (m, q) :: rest =>
    if name < m then (name, p) :: (m, q) :: rest
    else if name = m then (name, p) :: rest
    else (m, q) :: insertNamed name p rest

def insert (r : Registry π) (name : String) (p : π) : Registry π :=
  { r with named := insertNamed name p r.named }

/-- Builds the pools that are found by their names, in order, up to the first that cannot be
built. -/
def buildNamed (s : Scene C) (r : Registry (RedisPool C)) :
    List PoolSettings → Scene C × Registry (RedisPool C) × Except Failure Unit
  | [] => (s, r, .ok ())
  | t :: rest =>
    match RedisPool.ofSettings s t with
    | (s, .error e) => (s, r, .error e)
    | (s, .ok p) => buildNamed s (r.insert t.name p) rest

/-- Builds all pools, up to the first that cannot be built. -/
def build (s : Scene C) (settings : RedisSettings) :
    Scene C × Registry (RedisPool C) × Except Failure Unit :=
  match settings.default with
  | none => buildNamed s {} settings.connection
  | some d =>
    match RedisPool.ofSettings s d with
    | (s, .error e) => (s, {}, .error e)
    | (s, .ok p) => buildNamed s { default := some p } settings.connection

/-- Does something with every pool that is found by its name, one after the other. -/
def eachNamed (f : Scene C → RedisPool C → Scene C × RedisPool C) (s : Scene C) :
    List (String × RedisPool C) → Scene C × List (String × RedisPool C)
  | [] => (s, [])
  | (name, p) :: rest =>
    let (s, p) := f s p
    let (s, rest) := eachNamed f s rest
    (s, (name, p) :: rest)

/-- Does something with every pool, one after the other. -/
def each (f : Scene C → RedisPool C → Scene C × RedisPool C) (s : Scene C)
    (r : Registry (RedisPool C)) : Scene C × Registry (RedisPool C) :=
  let (s, default) := match r.default with
    | none => (s, none)
    | some p =>
      let (s, p) := f s p
      (s, some p)
  let (s, named) := eachNamed f s r.named
  (s, { default, named })

/-- Shuts all pools down. -/
def shutdown (s : Scene C) (r : Registry (RedisPool C)) : Scene C × Registry (RedisPool C) :=
  let (s, closed) := each (fun s p => p.close s) s r
  (if r.isEmpty then s else s.note (.registryShutDown r.size), closed)

/-- The registry that settings describe; an empty one if they are not enabled. If one pool cannot be
built, those built before it are shut down again. -/
def init (s : Scene C) (settings : RedisSettings) :
    Scene C × Except Failure (Registry (RedisPool C)) :=
  if !settings.enabled then (s.note .registryDisabled, .ok {})
  else match settings.validate with
    | .error e => (s, .error e)
    | .ok () =>
      match build s settings with
      | (s, r, .error e) => ((shutdown s r).1, .error e)
      | (s, r, .ok ()) => (s.note (.registryStarted r.size), .ok r)

end Registry

end QuorumPool
