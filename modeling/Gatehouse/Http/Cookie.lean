import Gatehouse.Http.Header
import Gatehouse.Settings.Basic

/-!
# The cookie of a session

A login hands out its token also as a cookie that lives as long as the session.
-/

namespace Gatehouse.Http

open Gatehouse.Text

def cookieText (session : Settings.SessionSection) (token : String) (seconds : Int) : String :=
  session.cookieName ++ "=" ++ token ++ "; Path=/; Max-Age=" ++ Decimal.intText seconds
    ++ (if session.cookieSecure then "; Secure" else "")
    ++ (if session.cookieHttpOnly then "; HttpOnly" else "")

/-- The cookie's header value, if it can be sent. -/
def sessionCookie (session : Settings.SessionSection) (token : String) (seconds : Int) :
    Option String :=
  let text := cookieText session token seconds
  if (utf8 text).all isSendable then some text else none

end Gatehouse.Http
