import Gatehouse.Json.Record
import Gatehouse.Json.Value

/-!
# Health

Whether the server can do its work: without the store it cannot.
-/

namespace Gatehouse

inductive HealthStatus
  | healthy
  | unhealthy
  deriving Repr, DecidableEq

namespace HealthStatus

def word : HealthStatus → String
  | healthy => "healthy"
  | unhealthy => "unhealthy"

def words : List (String × HealthStatus) :=
  [healthy, unhealthy].map fun s => (s.word, s)

/-- The status that follows from whether the store answers. -/
def ofStore (answers : Bool) : HealthStatus :=
  if answers then healthy else unhealthy

end HealthStatus

structure HealthReport where
  status : HealthStatus
  version : String
  uptimeSeconds : Nat
  storeAnswers : Bool
  deriving Repr, DecidableEq

namespace HealthReport

def currentVersion : String := "0.1.0"

def make (storeAnswers : Bool) (uptimeSeconds : Nat) : HealthReport :=
  ⟨.ofStore storeAnswers, currentVersion, uptimeSeconds, storeAnswers⟩

def toJson (r : HealthReport) : Json :=
  .obj
    [("status", .str r.status.word),
     ("version", .str r.version),
     ("uptime_seconds", .int r.uptimeSeconds),
     ("db_connected", .bool r.storeAnswers)]

def reader : Json.Reader HealthReport :=
  Json.record ⟨.healthy, "", 0, false⟩
    [Json.field "status" .required (Json.oneOf HealthStatus.words) fun r x => { r with status := x },
     Json.field "version" .required Json.string fun r x => { r with version := x },
     Json.field "uptime_seconds" .required (Json.unsigned 64)
       fun r x => { r with uptimeSeconds := x },
     Json.field "db_connected" .required Json.boolean fun r x => { r with storeAnswers := x }]

end HealthReport

end Gatehouse
