import Gatehouse.Auth.SessionPolicy
import Gatehouse.Logging
import Gatehouse.Store.TableNames

/-!
# Settings

All that an operator can set, in six sections. Every setting has a default, and settings that make no
sense are refused before anything starts.
-/

namespace Gatehouse.Settings

open Gatehouse.Text Gatehouse.Store

structure ServerSection where
  name : String := "Werkhof"
  deriving Repr, DecidableEq

structure NetworkSection where
  address : String := "0.0.0.0"
  port : Nat := 10080
  origins : List String := []
  deriving Repr, DecidableEq

structure StoreSection where
  url : String := "sqlite://werkhof.db"
  connections : Nat := 5
  writeAhead : Bool := true
  tables : TableNames := {}
  deriving Repr, DecidableEq

structure SessionSection where
  days : Int := 30
  cookieName : String := "auth-user-token"
  cookieSecure : Bool := false
  cookieHttpOnly : Bool := false
  deriving Repr, DecidableEq

structure LoggingSection where
  level : String := "info"
  format : String := "text"
  deriving Repr, DecidableEq

/-- What can be watched from outside. -/
structure HealthSection where
  health : Bool := true
  deriving Repr, DecidableEq

def SessionSection.policy? (s : SessionSection) : Option Auth.SessionPolicy :=
  Auth.SessionPolicy.ofDays? s.days

end Gatehouse.Settings

namespace Gatehouse

open Gatehouse.Text

structure Settings where
  server : Settings.ServerSection := {}
  network : Settings.NetworkSection := {}
  store : Settings.StoreSection := {}
  session : Settings.SessionSection := {}
  logging : Settings.LoggingSection := {}
  observability : Settings.HealthSection := {}
  deriving Repr, DecidableEq

namespace Settings

inductive Fault
  | days (days : Int)
  | cookieName (name : String)
  | noConnections
  | tables (cause : Store.Error)
  | logFormat (word : String)
  deriving Repr, DecidableEq

def Fault.message : Fault → String
  | days n => "session.ttl_tage muss positiv sein, ist " ++ Decimal.intText n
  | cookieName name => "Ungueltiger Cookie-Name '" ++ name ++ "'"
  | noConnections => "datenbank.max_verbindungen muss mindestens 1 sein"
  | tables cause => cause.message
  | logFormat word => "Unbekanntes Log-Format '" ++ word ++ "'"

def isCookieName (name : String) : Bool :=
  name != "" && name.toList.all fun c => c.isAlphanum || c = '-' || c = '_'

/-- The first fault of the settings, if they have one. -/
def check (s : Settings) : Except Fault Unit := do
  if s.session.days ≤ 0 then throw (.days s.session.days)
  if !isCookieName s.session.cookieName then throw (.cookieName s.session.cookieName)
  if s.store.connections = 0 then throw .noConnections
  s.store.tables.check.mapError .tables
  if !Logging.isFormat s.logging.format then throw (.logFormat s.logging.format)

def listenAddress (s : Settings) : String :=
  s.network.address ++ ":" ++ Decimal.text s.network.port

end Settings

end Gatehouse
