import Gatehouse.Auth.Error
import Gatehouse.Auth.Login
import Gatehouse.Auth.Registration
import Gatehouse.Auth.Service
import Gatehouse.Auth.SessionPolicy
import Gatehouse.Failure
import Gatehouse.Health
import Gatehouse.Http.Address
import Gatehouse.Http.App
import Gatehouse.Http.Cookie
import Gatehouse.Http.Cors
import Gatehouse.Http.Header
import Gatehouse.Http.MediaType
import Gatehouse.Http.Message
import Gatehouse.Http.Page
import Gatehouse.Http.Profile
import Gatehouse.Http.Route
import Gatehouse.Identity
import Gatehouse.Json.Reader
import Gatehouse.Json.Record
import Gatehouse.Json.Value
import Gatehouse.Logging
import Gatehouse.Password.Argon2
import Gatehouse.Password.Blake2b
import Gatehouse.Password.Hashing
import Gatehouse.Password.Memory
import Gatehouse.Password.Phc
import Gatehouse.Proofs.Auth.Acceptance
import Gatehouse.Proofs.Auth.Admission
import Gatehouse.Proofs.Auth.Expiries
import Gatehouse.Proofs.Auth.Journal
import Gatehouse.Proofs.Auth.LastLogins
import Gatehouse.Proofs.Auth.Lifetimes
import Gatehouse.Proofs.Auth.Overtaken
import Gatehouse.Proofs.Auth.Registering
import Gatehouse.Proofs.Auth.Requests
import Gatehouse.Proofs.Auth.Runs
import Gatehouse.Proofs.Auth.SigningIn
import Gatehouse.Proofs.Auth.Traffic
import Gatehouse.Proofs.Auth.Writes
import Gatehouse.Proofs.Http.Authority
import Gatehouse.Proofs.Http.ClientAddress
import Gatehouse.Proofs.Http.Cookies
import Gatehouse.Proofs.Http.Effects
import Gatehouse.Proofs.Http.LoginAnswers
import Gatehouse.Proofs.Http.Pages
import Gatehouse.Proofs.Http.Privacy
import Gatehouse.Proofs.Http.Routes
import Gatehouse.Proofs.Json.Arrays
import Gatehouse.Proofs.Json.Members
import Gatehouse.Proofs.Json.RoundTrip
import Gatehouse.Proofs.Json.Values
import Gatehouse.Proofs.Password.Argon2
import Gatehouse.Proofs.Password.StoredText
import Gatehouse.Proofs.Password.Verification
import Gatehouse.Proofs.Records.Dealing
import Gatehouse.Proofs.Results
import Gatehouse.Proofs.Settings.Keys
import Gatehouse.Proofs.Settings.Loading
import Gatehouse.Proofs.Store.Accounts
import Gatehouse.Proofs.Store.Constraints
import Gatehouse.Proofs.Store.History
import Gatehouse.Proofs.Store.Homes
import Gatehouse.Proofs.Store.Instants
import Gatehouse.Proofs.Store.Legible
import Gatehouse.Proofs.Store.Logins
import Gatehouse.Proofs.Store.ManyOwners
import Gatehouse.Proofs.Store.Operations
import Gatehouse.Proofs.Store.Pages
import Gatehouse.Proofs.Store.Readings
import Gatehouse.Proofs.Store.SchemaNames
import Gatehouse.Proofs.Store.Statements
import Gatehouse.Proofs.Store.Survival
import Gatehouse.Proofs.Store.Tables
import Gatehouse.Proofs.Store.Tokens
import Gatehouse.Proofs.Store.ValidSessions
import Gatehouse.Proofs.Text.Ascii
import Gatehouse.Proofs.Text.Base64
import Gatehouse.Proofs.Text.Blanks
import Gatehouse.Proofs.Text.Digits
import Gatehouse.Proofs.Text.Pieces
import Gatehouse.Proofs.Time.Calendar
import Gatehouse.Proofs.Time.Given
import Gatehouse.Proofs.Time.Lenient
import Gatehouse.Proofs.Time.Order
import Gatehouse.Proofs.Time.ReadBack
import Gatehouse.Proofs.Time.Stored
import Gatehouse.Proofs.Toml.Names
import Gatehouse.Records.Basic
import Gatehouse.Records.Json
import Gatehouse.Settings.Basic
import Gatehouse.Settings.Json
import Gatehouse.Settings.Toml
import Gatehouse.Store.Database
import Gatehouse.Store.Error
import Gatehouse.Store.Maintenance
import Gatehouse.Store.Namespaces
import Gatehouse.Store.Row
import Gatehouse.Store.Sessions
import Gatehouse.Store.Table
import Gatehouse.Store.TableNames
import Gatehouse.Store.Transactions
import Gatehouse.Store.Users
import Gatehouse.Text.Base64
import Gatehouse.Text.Blank
import Gatehouse.Text.Decimal
import Gatehouse.Text.Octets
import Gatehouse.Text.Percent
import Gatehouse.Text.Pieces
import Gatehouse.Time.Calendar
import Gatehouse.Time.Instant
import Gatehouse.Time.Rfc3339
import Gatehouse.Toml.Reader
import Gatehouse.Toml.Scalar
import Gatehouse.Toml.Value
