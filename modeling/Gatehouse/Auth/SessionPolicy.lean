import Gatehouse.Records.Basic
import Gatehouse.Text.Base64

/-!
# Life time of sessions

A policy says for how many days new sessions live. A draft is a session before it is stored: its token
and the instants between which it is valid. Not every number of days can be counted, and not every
expiry is an instant of the calendar.
-/

namespace Gatehouse.Auth

open Gatehouse.Text Gatehouse.Time

/-- The most days that can be counted, in either direction. -/
abbrev mostDays : Nat := 106751991167

structure SessionPolicy where
  days : Int
  days_le : days.natAbs ≤ mostDays
  deriving Repr, DecidableEq

namespace SessionPolicy

def standard : SessionPolicy := ⟨30, by decide⟩

def ofDays? (days : Int) : Option SessionPolicy :=
  if h : days.natAbs ≤ mostDays then some ⟨days, h⟩ else none

def seconds (p : SessionPolicy) : Int :=
  p.days * Instant.day

def expiry? (p : SessionPolicy) (created : Instant) : Option Instant :=
  created.addDays? p.days

end SessionPolicy

/-- A token from 32 octets: 43 characters that are safe in addresses and cookies. -/
def tokenOf (octets : List UInt8) : String :=
  String.ofList (Base64.encode Base64.urlSafe octets)

structure Draft where
  token : String
  createdAt : Instant
  expiredAt : Instant
  deriving Repr, DecidableEq

/-- The draft of a session that begins now, if its expiry can be named. -/
def Draft.issue? (policy : SessionPolicy) (now : Instant) (token : String) : Option Draft :=
  (policy.expiry? now).map fun expiry => ⟨token, now, expiry⟩

def Draft.toSession (d : Draft) (owner : UserId) (clientIp : String) : NewSession :=
  ⟨owner, d.token, clientIp, d.createdAt, d.expiredAt⟩

end Gatehouse.Auth
