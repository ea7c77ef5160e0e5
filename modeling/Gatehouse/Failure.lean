import Gatehouse.Settings.Toml

/-!
# Why the server does not start

What can go wrong before any request is answered.
-/

namespace Gatehouse

/-- Why the server does not start. -/
inductive Failure
  | configuration (words : String)
  | database (words : String)
  | internal (words : String)
  /-- Any other failure, in its own words. -/
  | other (words : String)
  deriving Repr, DecidableEq

namespace Failure

def message : Failure → String
  | configuration words => "Konfigurationsfehler: " ++ words
  | database words => "Datenbankfehler: " ++ words
  | internal words => "Interner Fehler: " ++ words
  | other words => words

def ofSettings (path : String) (fault : Settings.LoadFault) : Failure :=
  configuration (fault.message path)

end Failure

end Gatehouse
