import Gatehouse.Failure
import Gatehouse.Proofs.Settings.Keys
import Gatehouse.Proofs.Text.Ascii

/-! # Settings that a file gives

The settings have seventeen keys, in six tables and one table more inside the third of them. A file may set any of
them, and may set other names besides: what it sets is taken from it, and whatever it leaves out has its usual value.
No settings come from a file but checked ones.
-/

namespace Gatehouse.Settings

open Toml.Entries

/-! ## How settings are written -/

def tablesToToml (t : Store.TableNames) : Toml.Entries :=
  [("benutzer", .string t.users), ("session", .string t.sessions), ("namespace", .string t.namespaces)]

def ServerSection.toToml (s : ServerSection) : Toml.Entries :=
  [("name", .string s.name)]

def NetworkSection.toToml (s : NetworkSection) : Toml.Entries :=
  [("bind_adresse", .string s.address), ("api_port", .integer s.port),
    ("cors_origins", .array (s.origins.map .string))]

def StoreSection.toToml (s : StoreSection) : Toml.Entries :=
  [("url", .string s.url), ("max_verbindungen", .integer s.connections), ("sqlite_wal", .boolean s.writeAhead),
    ("tabellen", .table .header (tablesToToml s.tables))]

def SessionSection.toToml (s : SessionSection) : Toml.Entries :=
  [("ttl_tage", .integer s.days), ("cookie_name", .string s.cookieName), ("cookie_secure", .boolean s.cookieSecure),
    ("cookie_http_only", .boolean s.cookieHttpOnly)]

def LoggingSection.toToml (s : LoggingSection) : Toml.Entries :=
  [("level", .string s.level), ("format", .string s.format)]

def HealthSection.toToml (s : HealthSection) : Toml.Entries :=
  [("health_aktiviert", .boolean s.health)]

/-- The settings as a document that sets every key. -/
def toToml (s : Settings) : Toml.Entries :=
  [("server", .table .header s.server.toToml), ("netzwerk", .table .header s.network.toToml),
    ("datenbank", .table .header s.store.toToml), ("session", .table .header s.session.toToml),
    ("logging", .table .header s.logging.toToml), ("observability", .table .header s.observability.toToml)]

/-! ## The parts and their keys -/

def tablesPart : Part Store.TableNames where
  entries := tableEntries
  usual := {}
  written := tablesToToml
  keys := [(["benutzer"], .text), (["session"], .text), (["namespace"], .text)]
  sections := []

def serverPart : Part ServerSection where
  entries := serverEntries
  usual := {}
  written := ServerSection.toToml
  keys := [(["name"], .text)]
  sections := []

def networkPart : Part NetworkSection where
  entries := networkEntries
  usual := {}
  written := NetworkSection.toToml
  keys := [(["bind_adresse"], .text), (["api_port"], .unsigned 16), (["cors_origins"], .texts)]
  sections := []

def storePart : Part StoreSection where
  entries := storeEntries
  usual := {}
  written := StoreSection.toToml
  keys :=
    [(["url"], .text), (["max_verbindungen"], .unsigned 32), (["sqlite_wal"], .truth),
     (["tabellen", "benutzer"], .text), (["tabellen", "session"], .text), (["tabellen", "namespace"], .text)]
  sections := [["tabellen"]]

def sessionPart : Part SessionSection where
  entries := sessionEntries
  usual := {}
  written := SessionSection.toToml
  keys :=
    [(["ttl_tage"], .whole), (["cookie_name"], .text), (["cookie_secure"], .truth), (["cookie_http_only"], .truth)]
  sections := []

def loggingPart : Part LoggingSection where
  entries := loggingEntries
  usual := {}
  written := LoggingSection.toToml
  keys := [(["level"], .text), (["format"], .text)]
  sections := []

def healthPart : Part HealthSection where
  entries := healthEntries
  usual := {}
  written := HealthSection.toToml
  keys := [(["health_aktiviert"], .truth)]
  sections := []

/-- All settings: the seventeen keys, and the tables that they stand in. -/
def wholePart : Part Settings where
  entries := entries
  usual := {}
  written := toToml
  keys :=
    [(["server", "name"], .text),
     (["netzwerk", "bind_adresse"], .text),
     (["netzwerk", "api_port"], .unsigned 16),
     (["netzwerk", "cors_origins"], .texts),
     (["datenbank", "url"], .text),
     (["datenbank", "max_verbindungen"], .unsigned 32),
     (["datenbank", "sqlite_wal"], .truth),
     (["datenbank", "tabellen", "benutzer"], .text),
     (["datenbank", "tabellen", "session"], .text),
     (["datenbank", "tabellen", "namespace"], .text),
     (["session", "ttl_tage"], .whole),
     (["session", "cookie_name"], .text),
     (["session", "cookie_secure"], .truth),
     (["session", "cookie_http_only"], .truth),
     (["logging", "level"], .text),
     (["logging", "format"], .text),
     (["observability", "health_aktiviert"], .truth)]
  sections :=
    [["server"], ["netzwerk"], ["datenbank"], ["datenbank", "tabellen"], ["session"], ["logging"], ["observability"]]

/-! ## Reading the parts -/

theorem tablesPart_reads : tablesPart.Reads := by
  refine fun values distinct typed => Part.exists_holds (by decide) distinct fun e he v found => ?_
  simp only [tablesPart, tableEntries, List.mem_cons, List.not_mem_nil, or_false] at he
  rcases he with rfl | rfl | rfl
  · exact typed.enters found text_decodedBy (by decide) (by decide) (fun _ _ => rfl) fun _ _ _ => lookup_replace []
  · exact typed.enters found text_decodedBy (by decide) (by decide) (fun _ _ => rfl) fun _ _ _ => lookup_replace [_]
  · exact typed.enters found text_decodedBy (by decide) (by decide) (fun _ _ => rfl) fun _ _ _ => lookup_replace [_, _]

theorem serverPart_reads : serverPart.Reads := by
  refine fun values distinct typed => Part.exists_holds (by decide) distinct fun e he v found => ?_
  simp only [serverPart, serverEntries, List.mem_cons, List.not_mem_nil, or_false] at he
  subst he
  exact typed.enters found text_decodedBy (by decide) (by decide) (fun _ _ => rfl) fun _ _ _ => lookup_replace []

theorem networkPart_reads : networkPart.Reads := by
  refine fun values distinct typed => Part.exists_holds (by decide) distinct fun e he v found => ?_
  simp only [networkPart, networkEntries, List.mem_cons, List.not_mem_nil, or_false] at he
  rcases he with rfl | rfl | rfl
  · exact typed.enters found text_decodedBy (by decide) (by decide) (fun _ _ => rfl) fun _ _ _ => lookup_replace []
  · exact typed.enters found unsigned_decodedBy (by decide) (by decide) (fun _ _ => rfl) fun _ _ _ => lookup_replace [_]
  · exact typed.enters found texts_decodedBy (by decide) (by decide) (fun _ _ => rfl) fun _ _ _ => lookup_replace [_, _]

theorem storePart_reads : storePart.Reads := by
  refine fun values distinct typed => Part.exists_holds (by decide) distinct fun e he v found => ?_
  simp only [storePart, storeEntries, List.mem_cons, List.not_mem_nil, or_false] at he
  rcases he with rfl | rfl | rfl | rfl
  · exact typed.enters found text_decodedBy (by decide) (by decide) (fun _ _ => rfl) fun _ _ _ => lookup_replace []
  · exact typed.enters found unsigned_decodedBy (by decide) (by decide) (fun _ _ => rfl) fun _ _ _ => lookup_replace [_]
  · exact typed.enters found truth_decodedBy (by decide) (by decide) (fun _ _ => rfl) fun _ _ _ => lookup_replace [_, _]
  · exact typed.enters_section distinct found tablesPart_reads (by decide) (by decide) (by decide) (by decide) rfl
      (fun _ _ => rfl) fun _ _ _ => lookup_replace [_, _, _]

theorem sessionPart_reads : sessionPart.Reads := by
  refine fun values distinct typed => Part.exists_holds (by decide) distinct fun e he v found => ?_
  simp only [sessionPart, sessionEntries, List.mem_cons, List.not_mem_nil, or_false] at he
  rcases he with rfl | rfl | rfl | rfl
  · exact typed.enters found whole_decodedBy (by decide) (by decide) (fun _ _ => rfl) fun _ _ _ => lookup_replace []
  · exact typed.enters found text_decodedBy (by decide) (by decide) (fun _ _ => rfl) fun _ _ _ => lookup_replace [_]
  · exact typed.enters found truth_decodedBy (by decide) (by decide) (fun _ _ => rfl) fun _ _ _ => lookup_replace [_, _]
  · exact typed.enters found truth_decodedBy (by decide) (by decide) (fun _ _ => rfl) fun _ _ _ =>
      lookup_replace [_, _, _]

theorem loggingPart_reads : loggingPart.Reads := by
  refine fun values distinct typed => Part.exists_holds (by decide) distinct fun e he v found => ?_
  simp only [loggingPart, loggingEntries, List.mem_cons, List.not_mem_nil, or_false] at he
  rcases he with rfl | rfl
  · exact typed.enters found text_decodedBy (by decide) (by decide) (fun _ _ => rfl) fun _ _ _ => lookup_replace []
  · exact typed.enters found text_decodedBy (by decide) (by decide) (fun _ _ => rfl) fun _ _ _ => lookup_replace [_]

theorem healthPart_reads : healthPart.Reads := by
  refine fun values distinct typed => Part.exists_holds (by decide) distinct fun e he v found => ?_
  simp only [healthPart, healthEntries, List.mem_cons, List.not_mem_nil, or_false] at he
  subst he
  exact typed.enters found truth_decodedBy (by decide) (by decide) (fun _ _ => rfl) fun _ _ _ => lookup_replace []

theorem wholePart_reads : wholePart.Reads := by
  refine fun values distinct typed => Part.exists_holds (by decide) distinct fun e he v found => ?_
  simp only [wholePart, entries, List.mem_cons, List.not_mem_nil, or_false] at he
  rcases he with rfl | rfl | rfl | rfl | rfl | rfl
  · exact typed.enters_section distinct found serverPart_reads (by decide) (by decide) (by decide) (by decide) rfl
      (fun _ _ => rfl) fun _ _ _ => lookup_replace []
  · exact typed.enters_section distinct found networkPart_reads (by decide) (by decide) (by decide) (by decide) rfl
      (fun _ _ => rfl) fun _ _ _ => lookup_replace [_]
  · exact typed.enters_section distinct found storePart_reads (by decide) (by decide) (by decide) (by decide) rfl
      (fun _ _ => rfl) fun _ _ _ => lookup_replace [_, _]
  · exact typed.enters_section distinct found sessionPart_reads (by decide) (by decide) (by decide) (by decide) rfl
      (fun _ _ => rfl) fun _ _ _ => lookup_replace [_, _, _]
  · exact typed.enters_section distinct found loggingPart_reads (by decide) (by decide) (by decide) (by decide) rfl
      (fun _ _ => rfl) fun _ _ _ => lookup_replace [_, _, _, _]
  · exact typed.enters_section distinct found healthPart_reads (by decide) (by decide) (by decide) (by decide) rfl
      (fun _ _ => rfl) fun _ _ _ => lookup_replace [_, _, _, _, _]

/-! ## Loading -/

/-- The keys are all that there is to the settings. -/
theorem eq_of_keys {c c' : Settings} (same : ∀ k ∈ wholePart.keys, at? k.1 c.toToml = at? k.1 c'.toToml) : c = c' := by
  have strings {ss ss' : List String} : ss.map Toml.Value.string = ss'.map .string ↔ ss = ss' :=
    List.map_inj_right fun _ _ => Toml.Value.string.inj
  obtain ⟨⟨name⟩, ⟨address, port, origins⟩, ⟨url, connections, writeAhead, ⟨users, sessions, namespaces⟩⟩,
    ⟨days, cookieName, cookieSecure, cookieHttpOnly⟩, ⟨level, format⟩, ⟨health⟩⟩ := c
  obtain ⟨⟨name'⟩, ⟨address', port', origins'⟩, ⟨url', connections', writeAhead', ⟨users', sessions', namespaces'⟩⟩,
    ⟨days', cookieName', cookieSecure', cookieHttpOnly'⟩, ⟨level', format'⟩, ⟨health'⟩⟩ := c'
  simp [wholePart, at?, toToml, ServerSection.toToml, NetworkSection.toToml, StoreSection.toToml, tablesToToml,
    SessionSection.toToml, LoggingSection.toToml, HealthSection.toToml, List.lookup_cons, Toml.Value.entries?,
    strings] at same
  obtain ⟨rfl, rfl, ports, rfl, rfl, connected, others⟩ := same
  obtain rfl : port = port' := by omega
  obtain rfl : connections = connections' := by omega
  simp [others]

theorem eq_of_holds {document : Toml.Entries} {c c' : Settings} (h : wholePart.Holds document c)
    (h' : wholePart.Holds document c') : c = c' :=
  eq_of_keys fun k hk => (h k hk).trans (h' k hk).symm

section Load

variable {source : Source} {c : Settings}

theorem of_load (h : load source = .ok c) : ofSource source = .ok c ∧ c.check = .ok () := by
  obtain ⟨c', given, after_source⟩ := exists_of_bind_eq_ok h
  obtain ⟨_, checked, after_check⟩ := exists_of_bind_eq_ok after_source
  cases after_check
  exact ⟨given, ok_of_mapError checked⟩

theorem load_of_check (h : ofSource source = .ok c) (checked : c.check = .ok ()) : load source = .ok c := by
  rw [load, h, ok_bind, checked]
  rfl

theorem load_of_fault {fault : Fault} (h : ofSource source = .ok c) (refused : c.check = .error fault) :
    load source = .error (.refused fault) := by
  rw [load, h, ok_bind, refused]
  rfl

theorem load_eq_ok_iff (h : ofSource source = .ok c) {c' : Settings} :
    load source = .ok c' ↔ c' = c ∧ c.check = .ok () := by
  constructor
  · intro loaded
    obtain ⟨given, checked⟩ := of_load loaded
    cases h.symm.trans given
    exact ⟨rfl, checked⟩
  · rintro ⟨rfl, checked⟩
    exact load_of_check h checked

end Load

theorem ofSource_of_text {content : List UInt8} {text : String} (h : Text.ofUtf8? content = some text) :
    ofSource (.octets content) = ofText text := by
  rw [ofSource, h]

/--
Only checked settings are loaded, and without a file the usual ones. Of a file whose keys hold what they may, whatever
else stands in it, every key has the value that is given there or else its usual one, and there is only one way to
have them all. These settings are loaded if they pass the check, and refused as a failure of the configuration if not.
-/
theorem settings_loaded :
    (∀ source c, load source = .ok c → c.check = .ok ()) ∧
      load .missing = .ok {} ∧
      ∀ (content : List UInt8) (text : String) (document : Toml.Entries),
        Text.ofUtf8? content = some text → Toml.read text.toList = some document → wholePart.WellTyped document →
          ∃ c, ofText text = .ok c ∧
            (∀ k ∈ wholePart.keys, at? k.1 c.toToml = (at? k.1 document).or (at? k.1 ({} : Settings).toToml)) ∧
            (∀ c', wholePart.Holds document c' → c' = c) ∧
            (∀ c', load (.octets content) = .ok c' ↔ c' = c ∧ c.check = .ok ()) ∧
            ∀ fault, c.check = .error fault → load (.octets content) = .error (.refused fault) ∧
              ∀ path, Failure.ofSettings path (.refused fault) = .configuration fault.message := by
  refine ⟨fun source c h => (of_load h).2, ?missing, ?file⟩
  case missing => exact load_of_check rfl (by decide)
  case file =>
    intro content text document encoded read typed
    obtain ⟨c, entered, holds⟩ := wholePart_reads document (Toml.distinct_read read) typed
    have decoded : ofText text = .ok c := by
      have given : ofDocument? document = some c := entered
      rw [ofText, read, Option.bind_some, given]
    have source : ofSource (.octets content) = .ok c := (ofSource_of_text encoded).trans decoded
    refine ⟨c, decoded, holds, fun c' h => eq_of_holds h holds, fun c' => load_eq_ok_iff source, ?_⟩
    exact fun fault refused => ⟨load_of_fault source refused, fun _ => rfl⟩

/-- A file that sets keys of four tables, one of them inside a table that has no header, and a name of no meaning. -/
theorem settings_loaded_some_keys :
    let text := "[server]\nname = \"Hof\"\n[netzwerk]\napi_port = 8080\nneu = [1, true]\n" ++
      "[datenbank.tabellen]\nbenutzer = \"users\"\n[session]\nttl_tage = 7\n"
    let settings : Settings := {
      server := { name := "Hof" }
      network := { port := 8080 }
      store := { tables := { users := "users" } }
      session := { days := 7 } }
    ∃ document, Text.ofUtf8? (Text.utf8 text) = some text ∧ Toml.read text.toList = some document ∧
      wholePart.WellTyped document ∧ load (.octets (Text.utf8 text)) = .ok settings := by
  intro text settings
  have encoded : Text.ofUtf8? (Text.utf8 text) = some text := Text.ofUtf8?_utf8 text
  have typed : (Toml.read text.toList).any (fun document => wholePart.WellTyped document) = true := by
    decide +kernel
  have decoded : ofText text = .ok settings := by decide +kernel
  obtain ⟨document, read, typed⟩ := (Option.any_eq_true _ _).mp typed
  obtain ⟨c, same, -, -, loaded, -⟩ := settings_loaded.2.2 _ _ document encoded read (of_decide_eq_true typed)
  cases same.symm.trans decoded
  exact ⟨document, encoded, read, of_decide_eq_true typed, (loaded settings).mpr ⟨rfl, by decide⟩⟩

end Gatehouse.Settings
