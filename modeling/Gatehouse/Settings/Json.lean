import Gatehouse.Json.Record
import Gatehouse.Json.Value
import Gatehouse.Settings.Basic

/-!
# Settings in JSON

Each section is an object, and whatever is missing has its default.
-/

namespace Gatehouse

namespace Store.TableNames

def toJson (t : TableNames) : Json :=
  .obj
    [("benutzer", .str t.users), ("session", .str t.sessions), ("namespace", .str t.namespaces)]

def reader : Json.Reader TableNames :=
  Json.record {}
    [Json.field "benutzer" .defaulted Json.string fun t x => { t with users := x },
     Json.field "session" .defaulted Json.string fun t x => { t with sessions := x },
     Json.field "namespace" .defaulted Json.string fun t x => { t with namespaces := x }]

end Store.TableNames

namespace Settings

def ServerSection.toJson (s : ServerSection) : Json :=
  .obj [("name", .str s.name)]

def ServerSection.reader : Json.Reader ServerSection :=
  Json.record {} [Json.field "name" .defaulted Json.string fun s x => { s with name := x }]

def NetworkSection.toJson (s : NetworkSection) : Json :=
  .obj
    [("bind_adresse", .str s.address),
     ("api_port", .int s.port),
     ("cors_origins", .arr (s.origins.map .str))]

def NetworkSection.reader : Json.Reader NetworkSection :=
  Json.record {}
    [Json.field "bind_adresse" .defaulted Json.string fun s x => { s with address := x },
     Json.field "api_port" .defaulted (Json.unsigned 16) fun s x => { s with port := x },
     Json.field "cors_origins" .defaulted (Json.list Json.string)
       fun s x => { s with origins := x }]

def StoreSection.toJson (s : StoreSection) : Json :=
  .obj
    [("url", .str s.url),
     ("max_verbindungen", .int s.connections),
     ("sqlite_wal", .bool s.writeAhead),
     ("tabellen", s.tables.toJson)]

def StoreSection.reader : Json.Reader StoreSection :=
  Json.record {}
    [Json.field "url" .defaulted Json.string fun s x => { s with url := x },
     Json.field "max_verbindungen" .defaulted (Json.unsigned 32)
       fun s x => { s with connections := x },
     Json.field "sqlite_wal" .defaulted Json.boolean fun s x => { s with writeAhead := x },
     Json.field "tabellen" .defaulted Store.TableNames.reader
       fun s x => { s with tables := x }]

def SessionSection.toJson (s : SessionSection) : Json :=
  .obj
    [("ttl_tage", .int s.days),
     ("cookie_name", .str s.cookieName),
     ("cookie_secure", .bool s.cookieSecure),
     ("cookie_http_only", .bool s.cookieHttpOnly)]

def SessionSection.reader : Json.Reader SessionSection :=
  Json.record {}
    [Json.field "ttl_tage" .defaulted Json.int64 fun s x => { s with days := x },
     Json.field "cookie_name" .defaulted Json.string fun s x => { s with cookieName := x },
     Json.field "cookie_secure" .defaulted Json.boolean fun s x => { s with cookieSecure := x },
     Json.field "cookie_http_only" .defaulted Json.boolean
       fun s x => { s with cookieHttpOnly := x }]

def LoggingSection.toJson (s : LoggingSection) : Json :=
  .obj [("level", .str s.level), ("format", .str s.format)]

def LoggingSection.reader : Json.Reader LoggingSection :=
  Json.record {}
    [Json.field "level" .defaulted Json.string fun s x => { s with level := x },
     Json.field "format" .defaulted Json.string fun s x => { s with format := x }]

def HealthSection.toJson (s : HealthSection) : Json :=
  .obj [("health_aktiviert", .bool s.health)]

def HealthSection.reader : Json.Reader HealthSection :=
  Json.record {}
    [Json.field "health_aktiviert" .defaulted Json.boolean fun s x => { s with health := x }]

def toJson (s : Settings) : Json :=
  .obj
    [("server", s.server.toJson),
     ("netzwerk", s.network.toJson),
     ("datenbank", s.store.toJson),
     ("session", s.session.toJson),
     ("logging", s.logging.toJson),
     ("observability", s.observability.toJson)]

def reader : Json.Reader Settings :=
  Json.record {}
    [Json.field "server" .defaulted ServerSection.reader fun s x => { s with server := x },
     Json.field "netzwerk" .defaulted NetworkSection.reader fun s x => { s with network := x },
     Json.field "datenbank" .defaulted StoreSection.reader fun s x => { s with store := x },
     Json.field "session" .defaulted SessionSection.reader fun s x => { s with session := x },
     Json.field "logging" .defaulted LoggingSection.reader fun s x => { s with logging := x },
     Json.field "observability" .defaulted HealthSection.reader
       fun s x => { s with observability := x }]

end Settings

end Gatehouse
