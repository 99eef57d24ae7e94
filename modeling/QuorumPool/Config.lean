import QuorumPool.Duration
import QuorumPool.PoolError
import QuorumPool.Quorum

namespace QuorumPool

/-- How a pool behaves. -/
structure Config where
  /-- Idle connections kept for each shard. -/
  maxIdle : Nat := 50
  /-- Connections lent at once by each shard; zero stands for no limit. -/
  maxActive : Nat := 100
  /-- The age from which an idle connection is closed instead of lent. -/
  idleTimeout : Option Duration := none
  /-- Failures in a row that make a shard suspect. -/
  maxFails : Nat := 5
  /-- Whether an idle connection is validated before it is lent. -/
  testOnBorrow : Bool := false
  quorum : Quorum := .twoThirds
  /-- The least number of shard visits that one get may make. -/
  minRetryAttempts : Nat := 5
  healthCheckInterval : Duration := .ofSecs 3
  /-- How often one health check tries to dial and validate. -/
  healthCheckAttempts : Nat := 2
  suspectQueueCapacity : Nat := 100
deriving DecidableEq, Repr

namespace Config

/-- The default configuration with other limits for each shard. -/
def withLimits (maxIdle maxActive : Nat) : Config := { maxIdle, maxActive }

/-- The shard visits that one get may make in a pool of `shards` shards. -/
def retryBudget (c : Config) (shards : Nat) : Nat := max shards c.minRetryAttempts

/-- A rule that a configuration breaks. -/
inductive Fault where
  | noFails | noDenominator | quorumAboveOne | noInterval | noAttempts | noQueue | noAddress
deriving DecidableEq, Repr

def Fault.message : Fault → String
  | noFails => "max_fails must be at least 1"
  | noDenominator => "quorum denominator must be greater than 0"
  | quorumAboveOne => "quorum must not exceed 1"
  | noInterval => "health_check_interval must be greater than 0"
  | noAttempts => "health_check_attempts must be at least 1"
  | noQueue => "suspect_queue_capacity must be at least 1"
  | noAddress => "at least one address is required"

/-- The rules that the configuration breaks, in the order in which they are reported. -/
def faults (c : Config) : List Fault :=
  (if c.maxFails = 0 then [.noFails] else [])
    ++ (if c.quorum.denominator = 0 then [.noDenominator] else [])
    ++ (if c.quorum.numerator > c.quorum.denominator then [.quorumAboveOne] else [])
    ++ (if c.healthCheckInterval.nanos = 0 then [.noInterval] else [])
    ++ (if c.healthCheckAttempts = 0 then [.noAttempts] else [])
    ++ (if c.suspectQueueCapacity = 0 then [.noQueue] else [])

/-- Accepts a configuration that breaks no rule, and otherwise reports the first one broken. -/
def validate (c : Config) : Except PoolError Unit :=
  match c.faults with
  | [] => .ok ()
  | fault :: _ => .error (.invalidConfig fault.message)

/-- A configuration that keeps every rule. -/
structure WellFormed (c : Config) : Prop where
  maxFails : 0 < c.maxFails
  denominator : 0 < c.quorum.denominator
  quorum : c.quorum.numerator ≤ c.quorum.denominator
  interval : 0 < c.healthCheckInterval.nanos
  attempts : 0 < c.healthCheckAttempts
  queue : 0 < c.suspectQueueCapacity

theorem validate_eq_ok_iff {c : Config} : c.validate = .ok () ↔ c.WellFormed := by
  have hvalid : c.validate = .ok () ↔ c.faults = [] := by
    unfold validate
    cases c.faults <;> simp
  rw [hvalid]
  constructor
  · intro h
    simp only [faults, List.append_eq_nil_iff, ite_eq_right_iff, List.cons_ne_self, imp_false] at h
    obtain ⟨⟨⟨⟨⟨hfails, hden⟩, hnum⟩, hint⟩, hatt⟩, hqueue⟩ := h
    constructor <;> omega
  · rintro ⟨hfails, hden, hnum, hint, hatt, hqueue⟩
    simp only [faults, List.append_eq_nil_iff, ite_eq_right_iff, List.cons_ne_self, imp_false]
    omega

end Config

end QuorumPool
