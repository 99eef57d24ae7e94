import Mathlib
import QuorumPool.Cli.Check
import QuorumPool.Proofs.Verification
import QuorumPool.Redis.Registry
import QuorumPool.Settings.Decode

namespace QuorumPool

variable {C : Client}

section Settings

theorem PoolSettings.validate_eq_ok_iff {s : PoolSettings} :
    s.validate = .ok () ↔ s.faults = [] := by
  unfold validate
  cases s.faults <;> simp

theorem RedisSettings.validate_eq_ok_iff {s : RedisSettings} :
    s.validate = .ok () ↔ s.faults = [] := by
  unfold validate
  cases s.faults <;> simp

/-- A pool that breaks no rule has an address. -/
theorem PoolSettings.addresses_ne_nil {s : PoolSettings} (hvalid : s.validate = .ok ()) :
    s.addresses ≠ [] := by
  have hfaults := validate_eq_ok_iff.mp hvalid
  simp only [faults, List.append_eq_nil_iff, ite_eq_right_iff, List.cons_ne_self,
    imp_false] at hfaults
  simpa using hfaults.1.1

theorem RedisSettings.namedFaults_eq_nil {earlier : List String} {pools : List PoolSettings}
    (hfaults : namedFaults earlier pools = []) : ∀ s ∈ pools, s.validate = .ok () := by
  induction pools generalizing earlier with
  | nil => simp
  | cons s rest ih =>
    simp only [namedFaults, List.append_eq_nil_iff] at hfaults
    obtain ⟨⟨⟨hown, -⟩, -⟩, hrest⟩ := hfaults
    intro t ht
    obtain rfl | ht := List.mem_cons.mp ht
    · exact PoolSettings.validate_eq_ok_iff.mpr (List.map_eq_nil_iff.mp hown)
    · exact ih hrest t ht

/-- Settings that break no rule describe pools that break none. -/
theorem RedisSettings.validate_pools {s : RedisSettings} (hvalid : s.validate = .ok ())
    (henabled : s.enabled = true) : ∀ pool ∈ s.pools, pool.validate = .ok () := by
  have hfaults := validate_eq_ok_iff.mp hvalid
  simp only [faults, henabled, if_true, List.append_eq_nil_iff] at hfaults
  obtain ⟨hdefault, hnamed⟩ := hfaults
  intro pool hpool
  obtain hpool | hpool := List.mem_append.mp hpool
  · rw [Option.mem_toList] at hpool
    simp only [hpool] at hdefault
    exact PoolSettings.validate_eq_ok_iff.mpr (List.map_eq_nil_iff.mp hdefault)
  · exact namedFaults_eq_nil hnamed pool hpool

/-- What settings make of a pool's configuration breaks no rule. -/
theorem PoolSettings.validate_poolConfig (s : PoolSettings) : s.poolConfig.validate = .ok () :=
  Config.validate_eq_ok_iff.mpr
    (by constructor <;> simp [poolConfig, Quorum.twoThirds, Duration.ofSecs])

/-- A pool with an address and a valid configuration comes into being, and no server hears of it. -/
theorem RedisPool.create_eq {addresses : List String} {config : Config} (s : Scene C)
    (name : String) (d : Dialer) (haddresses : addresses ≠ [])
    (hconfig : config.validate = .ok ()) :
    ∃ log, create s name addresses d config = ({ s with log }, .ok
      { name, dialer := d, pool :=
          { config, shards := addresses.map fun address => { address }
            numAvailable := addresses.length } }) := by
  have hempty : addresses.isEmpty = false := by simpa using haddresses
  unfold create Pool.create
  simp only [hconfig, hempty, bind, Except.bind]
  exact ⟨_, rfl⟩

end Settings

/-- What verifying the addresses of a pool comes to, each on its own. -/
def PoolSettings.outcomes (n : C.Network) (t : PoolSettings) :
    List (String × Except Failure Unit) :=
  t.addresses.map fun address => (address, ((Dialer.ofSettings t).trial n address).2)

/-- The first failure among the results for addresses, if there is one. -/
def firstFailure (results : List (String × Except Failure Unit)) : Except Failure Unit :=
  results.forM (·.2)

@[simp]
theorem firstFailure_nil : firstFailure [] = .ok () := rfl

section Steady

variable {n : C.Network} {s : Scene C} (hsteady : C.Steady n)

include hsteady

end Steady

section Build

variable {s : Scene C} {e : Failure}

end Build

/-- The results that the check reports, in its order; none if the settings are not enabled. -/
def Cli.reported (s : Scene C) (settings : RedisSettings) : List (String × Except Failure Unit) :=
  if settings.enabled then (Cli.checkPools s settings.pools).2.flatMap (·.results) else []

section Agreement

variable {n : C.Network} {s s' : Scene C} {settings : RedisSettings}

end Agreement

end QuorumPool
