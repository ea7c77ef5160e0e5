import Gatehouse.Auth.Registration
import Gatehouse.Password.Hashing
import Gatehouse.Store.Error

/-!
# What the service refuses

An unknown account and a wrong password are told apart, and so a caller learns whether an account is
there.
-/

namespace Gatehouse.Auth

inductive Error
  /-- There is no such account. -/
  | unknown (who : String)
  /-- The account is not yet verified. -/
  | notVerified
  | wrongPassword
  /-- Another account has the name or the address. -/
  | taken
  | rejected (reason : Rejection)
  /-- The token belongs to no session that is still valid. -/
  | noSession
  | password (fault : Password.Fault)
  | store (cause : Store.Error)
  deriving Repr, DecidableEq

def Error.message : Error → String
  | unknown who => "Benutzer nicht gefunden: " ++ who
  | notVerified => "Zugriff verweigert: Benutzer ist nicht aktiviert"
  | wrongPassword => "Ungueltiger Parameter: Passwort stimmt nicht ueberein"
  | taken => "Benutzername oder E-Mail bereits vergeben"
  | rejected reason => "Ungueltige Eingabe: " ++ reason.message
  | noSession => "Session nicht gefunden oder abgelaufen"
  | password fault => "Passwort-Hashing fehlgeschlagen: " ++ fault.message
  | store cause => "Datenbankfehler: " ++ cause.message

end Gatehouse.Auth
