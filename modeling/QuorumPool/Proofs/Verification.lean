import QuorumPool.Redis.Handshake

namespace QuorumPool

namespace Client

variable {C : Client}

/-- The network after addresses were tried, one after the other, each with a dialer of its own. -/
def afterTrials (C : Client) (n : C.Network) : List (Dialer × String) → C.Network
  | [] => n
  | (d, address) :: rest => C.afterTrials (d.trial n address).1 rest

/-- Trying an address with a dialer comes out the same whatever was tried before. -/
def Steady (C : Client) (n : C.Network) : Prop :=
  ∀ trials (d : Dialer) address,
    (d.trial (C.afterTrials n trials) address).2 = (d.trial n address).2

/-- A network that has become of another by trials of addresses. -/
def Tried (C : Client) (n m : C.Network) : Prop := ∃ trials, m = C.afterTrials n trials

variable {n m : C.Network}

theorem Tried.refl (n : C.Network) : C.Tried n n := ⟨[], rfl⟩

private theorem afterTrials_append (n : C.Network) (trials more : List (Dialer × String)) :
    C.afterTrials n (trials ++ more) = C.afterTrials (C.afterTrials n trials) more := by
  induction trials generalizing n with
  | nil => rfl
  | cons trial rest ih => exact ih _

theorem Tried.trial (htried : C.Tried n m) (d : Dialer) (address : String) :
    C.Tried n (d.trial m address).1 := by
  obtain ⟨trials, rfl⟩ := htried
  refine ⟨trials ++ [(d, address)], ?_⟩
  rw [afterTrials_append]
  rfl

end Client

namespace Dialer

variable {C : Client} {d : Dialer}

end Dialer

end QuorumPool
