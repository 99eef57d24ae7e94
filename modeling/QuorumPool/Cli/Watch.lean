import QuorumPool.Log.Snapshot
import QuorumPool.Redis.Registry

namespace QuorumPool.Cli

variable {C : Client}

/-- Reports a snapshot of a pool's shards. -/
def report (s : Scene C) (p : RedisPool C) : Scene C × RedisPool C :=
  let (pool, stats) := p.pool.takeStats
  (s.note (.statistics p.name (ShardStats.line stats)), { p with pool })

/-- Reports snapshots of all pools as often as given. Nobody borrows a connection meanwhile, so that
the health checkers find nothing to do. -/
def observe (s : Scene C) (r : Registry (RedisPool C)) :
    (times : Nat) → Scene C × Registry (RedisPool C)
  | 0 => (s, r)
  | times + 1 =>
    let (s, r) := r.each report s
    observe s r times

/-- Builds the pools, reports `times` snapshots until it is interrupted, and shuts the pools down.
Without pools there is nothing to wait for. -/
def watch (s : Scene C) (settings : RedisSettings) (times : Nat) :
    Scene C × Except Failure (List String) :=
  match Registry.init s settings with
  | (s, .error e) => (s, .error e)
  | (s, .ok r) =>
    if r.isEmpty then (s, .ok ["No Redis pools configured"])
    else
      let (s, r) := r.each (fun s p => p.settle s) s
      let (s, r) := observe s r times
      ((Registry.shutdown (s.note .shuttingDown) r).1, .ok [])

end QuorumPool.Cli
