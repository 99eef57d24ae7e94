import QuorumPool.Proofs.Echoes
import QuorumPool.Proofs.Releases
import QuorumPool.Proofs.ShardPut

namespace QuorumPool.Pool

variable {p q : Pool} {i : Nat} {c : ConnId} {id : TaskId} {t : Task}

section Tasks

end Tasks

section Slots

private theorem lentOf_of_extends (hextends : p.Extends q) (hlent : ∀ c, q.isLent c = p.isLent c)
    (i : Nat) : q.lentOf i = p.lentOf i := by
  have hfree (r : Pool) {c : Nat} (hc : r.isLent c = false) :
      (r.conns[c]?).any (·.isLentBy i) = false := by
    rw [isLent] at hc
    cases hconn : r.conns[c]? with
    | none => rfl
    | some conn => simp_all [Conn.isLentBy]
  refine lentOf_congr fun c => ?_
  cases hc : p.isLent c with
  | false => rw [hfree p hc, hfree q ((hlent c).trans hc)]
  | true =>
    obtain ⟨j, used, hp⟩ := exists_conn_of_isLent hc
    obtain ⟨j', used', hq⟩ := exists_conn_of_isLent ((hlent c).trans hc)
    have hhome := hextends.home c j (by rw [home, hp, Option.map_some])
    rw [home, hq, Option.map_some, Option.some_inj] at hhome
    simp only [hp, hq, Option.any_some, Conn.isLentBy]
    rw [show j' = j from hhome]

/-- Where the same connections are lent and the same tasks are in flight, as many slots are
taken. -/
theorem Slotted.active_congr (hp : p.Slotted .free p.held) (hq : q.Slotted .free q.held)
    (hextends : p.Extends q) (hlength : q.shards.length = p.shards.length)
    (htasks : q.tasks = p.tasks) (hlent : ∀ c, q.isLent c = p.isLent c) (i : Nat) :
    (q.shard i).active = (p.shard i).active := by
  by_cases hi : i < p.shards.length
  · rw [hp.active_eq hi, hq.active_eq (hlength ▸ hi), lentOf_of_extends hextends hlent, dialing,
      dialing, htasks, hlength]
  · rw [shard_of_length_le (Nat.le_of_not_lt hi),
      shard_of_length_le (hlength ▸ Nat.le_of_not_lt hi)]

end Slots

/-- The same connections are lent, the same tasks are in flight, and as many slots are taken. -/
structure Restored (p q : Pool) : Prop where
  active : ∀ i, (q.shard i).active = (p.shard i).active
  isLent : ∀ c, q.isLent c = p.isLent c
  tasks : q.tasks = p.tasks

section Return

variable {σ : Type}

end Return

end QuorumPool.Pool
