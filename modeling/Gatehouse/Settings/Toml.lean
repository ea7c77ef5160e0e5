import Gatehouse.Settings.Basic
import Gatehouse.Toml.Reader

/-!
# Settings from a file

An operator writes settings in a TOML file. Whatever the file does not name has its default, and names
that mean nothing are passed over. Without a file all settings have their defaults. Settings from a file
are checked before they are used.
-/

namespace Gatehouse

namespace Settings

open Gatehouse.Text

/-- How a setting's value enters a section. -/
structure Entry (α : Type) where
  name : String
  enter : Toml.Value → α → Option α

def entry {α β : Type} (name : String) (decode : Toml.Value → Option β) (set : α → β → α) : Entry α where
  name := name
  enter := fun v a => (decode v).map (set a)

def asString : Toml.Value → Option String
  | .string s => some s
  | _ => none

def asBoolean : Toml.Value → Option Bool
  | .boolean b => some b
  | _ => none

def asInteger : Toml.Value → Option Int
  | .integer n => some n
  | _ => none

def asUnsigned (bits : Nat) : Toml.Value → Option Nat
  | .integer n => if 0 ≤ n ∧ n < Nat.pow 2 bits then some n.toNat else none
  | _ => none

def asStrings : Toml.Value → Option (List String)
  | .array items => items.mapM asString
  | _ => none

def enterNamed {α : Type} (entries : List (Entry α)) (values : Toml.Entries) (a : α) : Option α :=
  values.foldlM
    (fun a (name, v) =>
      match entries.find? (·.name = name) with
      | some e => e.enter v a
      | none => some a)
    a

/-- Enters the values of an array in the order of the settings. -/
def enterInOrder {α : Type} (entries : List (Entry α)) (values : List Toml.Value) (a : α) : Option α :=
  (entries.zip values).foldlM (fun a (e, v) => e.enter v a) a

/-- A section: a table, or an array of its values in their order. An instant names no setting. -/
def asSection {α : Type} (usual : α) (entries : List (Entry α)) : Toml.Value → Option α
  | .table _ values => enterNamed entries values usual
  | .inlineTable values => enterNamed entries values usual
  | .array values => enterInOrder entries values usual
  | .tables all => enterInOrder entries (all.map (.table .header ·)) usual
  | .instant => some usual
  | .string _ | .integer _ | .boolean _ | .float => none

def serverEntries : List (Entry ServerSection) :=
  [entry "name" asString fun s x => { s with name := x }]

def networkEntries : List (Entry NetworkSection) :=
  [entry "bind_adresse" asString fun s x => { s with address := x },
   entry "api_port" (asUnsigned 16) fun s x => { s with port := x },
   entry "cors_origins" asStrings fun s x => { s with origins := x }]

def tableEntries : List (Entry Store.TableNames) :=
  [entry "benutzer" asString fun t x => { t with users := x },
   entry "session" asString fun t x => { t with sessions := x },
   entry "namespace" asString fun t x => { t with namespaces := x }]

def storeEntries : List (Entry StoreSection) :=
  [entry "url" asString fun s x => { s with url := x },
   entry "max_verbindungen" (asUnsigned 32) fun s x => { s with connections := x },
   entry "sqlite_wal" asBoolean fun s x => { s with writeAhead := x },
   entry "tabellen" (asSection {} tableEntries) fun s x => { s with tables := x }]

def sessionEntries : List (Entry SessionSection) :=
  [entry "ttl_tage" asInteger fun s x => { s with days := x },
   entry "cookie_name" asString fun s x => { s with cookieName := x },
   entry "cookie_secure" asBoolean fun s x => { s with cookieSecure := x },
   entry "cookie_http_only" asBoolean fun s x => { s with cookieHttpOnly := x }]

def loggingEntries : List (Entry LoggingSection) :=
  [entry "level" asString fun s x => { s with level := x },
   entry "format" asString fun s x => { s with format := x }]

def healthEntries : List (Entry HealthSection) :=
  [entry "health_aktiviert" asBoolean fun s x => { s with health := x }]

def entries : List (Entry Settings) :=
  [entry "server" (asSection {} serverEntries) fun s x => { s with server := x },
   entry "netzwerk" (asSection {} networkEntries) fun s x => { s with network := x },
   entry "datenbank" (asSection {} storeEntries) fun s x => { s with store := x },
   entry "session" (asSection {} sessionEntries) fun s x => { s with session := x },
   entry "logging" (asSection {} loggingEntries) fun s x => { s with logging := x },
   entry "observability" (asSection {} healthEntries) fun s x => { s with observability := x }]

def ofDocument? (document : Toml.Entries) : Option Settings :=
  enterNamed entries document {}

/-- What is found where the file should be. -/
inductive Source
  | missing
  | directory
  | octets (content : List UInt8)
  deriving Repr, DecidableEq

inductive LoadFault
  /-- The file cannot be read. -/
  | unreadable (reason : String)
  /-- The text is no TOML, or a value is of the wrong kind. -/
  | malformed
  | refused (fault : Fault)
  deriving Repr, DecidableEq

/-- The wording of a fault of the file of this name. What is wrong with the text is left open. -/
def LoadFault.message (path : String) : LoadFault → String
  | unreadable reason => "Konfigurationsdatei '" ++ path ++ "' nicht lesbar: " ++ reason
  | malformed => "Konfigurationsfehler in '" ++ path ++ "': "
  | refused fault => fault.message

def ofText (s : String) : Except LoadFault Settings :=
  match (Toml.read s.toList).bind ofDocument? with
  | some settings => .ok settings
  | none => .error .malformed

def ofSource : Source → Except LoadFault Settings
  | .missing => .ok {}
  | .directory => .error (.unreadable "Is a directory (os error 21)")
  | .octets content =>
    match ofUtf8? content with
    | some s => ofText s
    | none => .error (.unreadable "stream did not contain valid UTF-8")

/-- The settings that a file gives, checked. -/
def load (source : Source) : Except LoadFault Settings := do
  let settings ← ofSource source
  settings.check.mapError .refused
  return settings

end Settings

end Gatehouse
