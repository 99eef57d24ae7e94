import QuorumPool.Document.Json.Writer
import QuorumPool.Stats

namespace QuorumPool.ShardStats

/-- The snapshot as a table of its figures. -/
def document (s : ShardStats) : Document.Value :=
  let figures : List (String × Nat) :=
    [("num_active", s.numActive), ("num_idle", s.numIdle), ("num_get", s.tally.gets),
     ("num_put", s.tally.puts), ("num_broken", s.tally.broken), ("num_dial", s.tally.dials),
     ("num_dial_error", s.tally.dialErrors), ("num_evict", s.tally.evictions),
     ("num_close", s.tally.closes)]
  .table
    ([("shard", .string s.shard), ("available", .bool s.available)]
      ++ figures.map fun (name, n) => (name, .integer n))

/-- The snapshots of a pool's shards on one line. -/
def line (stats : List ShardStats) : String :=
  Document.Json.write (.array (stats.map document))

end QuorumPool.ShardStats
