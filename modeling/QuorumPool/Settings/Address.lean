import QuorumPool.Text.Blank

namespace QuorumPool.Settings

/-- The addresses of a line, in order. -/
def addressesOf (dsn : String) : List String :=
  (((Text.splitOn ';' dsn.toList).map Text.trim).filter (!·.isEmpty)).map String.ofList

end QuorumPool.Settings
