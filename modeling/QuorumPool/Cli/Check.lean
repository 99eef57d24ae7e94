import QuorumPool.Redis.Handshake

namespace QuorumPool.Cli

/-- What came of the addresses of one pool. -/
structure PoolCheck where
  name : String
  results : List (String × Except Failure Unit)

variable {C : Client}

/-- Verifies addresses in order, whatever comes of each. -/
def checkAddresses (d : Dialer) (s : Scene C) :
    List String → Scene C × List (String × Except Failure Unit)
  | [] => (s, [])
  | address :: rest =>
    let (s, result) := d.verify s address
    let (s, results) := checkAddresses d s rest
    (s, (address, result) :: results)

def checkPools (s : Scene C) : List PoolSettings → Scene C × List PoolCheck
  | [] => (s, [])
  | t :: rest =>
    let (s, results) := checkAddresses (Dialer.ofSettings t) s t.addresses
    let (s, checks) := checkPools s rest
    (s, { name := t.displayName, results } :: checks)

/-- The failures of all addresses, in order. -/
def failures (checks : List PoolCheck) : List Failure :=
  (checks.flatMap (·.results)).filterMap fun (_, result) =>
    match result with
    | .ok () => none
    | .error e => some e

def resultLine (address : String) : Except Failure Unit → String
  | .ok () => "  ok    " ++ address
  | .error e => "  FAIL  " ++ address ++ ": " ++ e.message

def checkLines (checks : List PoolCheck) : List String :=
  checks.flatMap fun c => ("[" ++ c.name ++ "]") :: c.results.map fun (a, r) => resultLine a r

/-- Checks every address, and says what came of it. -/
def check (s : Scene C) (settings : RedisSettings) : Scene C × List String × ExitCode :=
  if !settings.enabled then (s, ["Redis is disabled in this configuration"], .success)
  else
    let (s, checks) := checkPools s settings.pools
    match (failures checks).length with
    | 0 => (s, checkLines checks, .success)
    | count => (s, checkLines checks ++ [toString count ++ " address(es) failed"], .unhealthy)

end QuorumPool.Cli
