import QuorumPool.Proofs.Borrowing
import QuorumPool.Proofs.Echoes

namespace QuorumPool

/-- The calls that a get may still wait for at the shard that it visits, apart from those for the
connections that are idle. A connection that was taken from the queue is validated and closed. -/
def Borrowing.left : Borrowing → Nat
  | dialing => 1
  | discarding _ => 2
  | validating _ => 3

/-- The calls that a get may still wait for when it may make as many visits as given, apart from
those for the connections that are idle. -/
def Getting.left (budget : Nat) (g : Getting) : Nat :=
  g.borrowing.left + (budget - (g.attempt + 1))

namespace Pool

variable {p q : Pool} {i : Nat} {e : PoolError} {l : List Change}

theorem Does.maxRetry (hdoes : p.Does l q) : q.maxRetry = p.maxRetry := by
  rw [Pool.maxRetry, hdoes.config, hdoes.length, Pool.maxRetry]

theorem Peer.idleCount (hpeer : p.Peer q) : q.idleCount = p.idleCount := by
  have hqueues : q.shards.map Shard.idle = p.shards.map Shard.idle := by
    refine List.ext_getElem (by simp [hpeer.length]) fun j hj hj' => ?_
    simp only [List.length_map] at hj hj'
    have hidle := hpeer.idle j
    rw [shard_eq_getElem hj, shard_eq_getElem hj'] at hidle
    simpa using hidle
  have hcount (r : Pool) :
      r.idleCount = (r.shards.map Shard.idle).foldr (fun l total => l.length + total) 0 := by
    rw [List.foldr_map, Pool.idleCount]
  rw [hcount, hqueues, ← hcount]

section Tasks

variable {id : TaskId} {g : Getting}

end Tasks

end Pool

end QuorumPool
