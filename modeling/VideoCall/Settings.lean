import VideoCall.Json.Format
import VideoCall.Text.Blank
import VideoCall.Text.Numeral

/-!
# Settings

The settings of a call: where the relay and the recording service are, which servers help peers to
find each other, and a few limits. They are read from named variables, of which only the relay's URL
must be there.

## Main definitions

* `IceServer` : a server that helps peers to find each other.
* `Settings` : the settings.
* `Settings.ofVariables` : the settings of named variables.
* `Settings.check` : refuses settings that no call can run with.
-/

namespace VideoCall

/-- A server that helps peers to find each other, with a name and a password if it asks for them. -/
structure IceServer where
  urls : List String
  username : Option String
  credential : Option String
  deriving DecidableEq

namespace IceServer

/-- A server with one URL that asks for no password. -/
def ofUrl (url : String) : IceServer := ⟨[url], none, none⟩

/-- The form of a server. -/
def format : Json.Format IceServer :=
  .record "IceServer"
    (.field "urls" (.list .text) <| .fieldOpt "username" .text <| .fieldOpt "credential" .text .nil)
    (fun (urls, username, credential, ()) => ⟨urls, username, credential⟩)
    (fun s => (s.urls, s.username, s.credential, ()))

/-- The servers of a call for which none are named. -/
def defaults : List IceServer :=
  ["stun:stun.l.google.com:19302", "stun:global.stun.twilio.com:3478?transport=udp"].map ofUrl

end IceServer

/-- Why there are no settings. -/
inductive SettingsError
  /-- A variable that must be there is not. -/
  | missing (name : String)
  /-- A value that cannot be used. -/
  | invalid (what : String)
  deriving DecidableEq

namespace SettingsError

/-- The words for an error. -/
def message : SettingsError → String
  | missing name => "Missing required environment variable: " ++ name
  | invalid what => "Invalid configuration value: " ++ what

end SettingsError

/-- The settings of a call. -/
structure Settings where
  /-- The URL of the relay. -/
  relayUrl : String
  /-- The base URL of the recording service. -/
  recordUrl : String
  iceServers : List IceServer
  /-- How long a dial waits for the roster, in milliseconds. -/
  dialTimeout : Nat
  /-- How long a join of the recording service may take, in seconds. -/
  recordTimeout : Nat
  /-- How many intents can wait. -/
  mailboxCapacity : Nat
  deriving DecidableEq

namespace Settings

/-- The settings of a call through the given relay, for which nothing else is named. -/
def ofRelay (url : String) : Settings where
  relayUrl := url
  recordUrl := "http://localhost:3000"
  iceServers := IceServer.defaults
  dialTimeout := 10000
  recordTimeout := 15
  mailboxCapacity := 256

/-- Refuses settings that no call can run with. -/
def check (s : Settings) : Except SettingsError Unit :=
  if Text.isAllBlank s.relayUrl then .error (.invalid "relay URL is empty")
  else if s.dialTimeout = 0 then .error (.invalid "dial timeout must be greater than 0")
  else if s.mailboxCapacity = 0 then .error (.invalid "mailbox capacity must be greater than 0")
  else .ok ()

/-! ### Named variables -/

/-- Named variables. -/
abbrev Variables := List (String × String)

/-- The pieces of a text between its commas. -/
def splitCommas : List Char → List (List Char)
  | [] => [[]]
  | c :: r =>
    if c = ',' then [] :: splitCommas r
    else
      match splitCommas r with
      | piece :: pieces => (c :: piece) :: pieces
      | [] => [[c]]

/-- The URLs of a list with commas, trimmed and without blank ones. -/
def urls (list : String) : List String :=
  ((splitCommas list.toList).map fun cs => String.ofList (Text.trimChars cs)).filter (· ≠ "")

/-- The servers that a variable names, or the usual ones. -/
def iceServers? (vars : Variables) : Except SettingsError (List IceServer) :=
  match vars.lookup "PEERCALLS_ICE_SERVERS" with
  | none => .ok IceServer.defaults
  | some list =>
    if (urls list).isEmpty then .error (.invalid "PEERCALLS_ICE_SERVERS contains no URLs")
    else .ok ((urls list).map IceServer.ofUrl)

/-- The number that a variable names, or the usual one. -/
def number? (vars : Variables) (name : String) (usual : Nat) : Except SettingsError Nat :=
  match vars.lookup name with
  | none => .ok usual
  | some raw =>
    match Text.unsigned? (Text.trim raw) with
    | some n => .ok n
    | none => .error (.invalid (name ++ "=" ++ raw))

/-- The settings of named variables. The first fault counts: the relay's URL that is missing, the
list of servers, the three numbers in turn, and at last what no call can run with. -/
def ofVariables (vars : Variables) : Except SettingsError Settings := do
  match vars.lookup "PEERCALLS_RELAY_URL" with
  | none => .error (.missing "PEERCALLS_RELAY_URL")
  | some relayUrl =>
    let usual := ofRelay relayUrl
    let recordUrl := (vars.lookup "PEERCALLS_RECORD_SERVICE_URL").getD usual.recordUrl
    let iceServers ← iceServers? vars
    let dialTimeout ← number? vars "PEERCALLS_DIAL_TIMEOUT_MS" usual.dialTimeout
    let recordTimeout ← number? vars "PEERCALLS_RECORD_TIMEOUT_SECS" usual.recordTimeout
    let mailboxCapacity ← number? vars "PEERCALLS_MAILBOX_CAPACITY" usual.mailboxCapacity
    let s : Settings :=
      ⟨relayUrl, recordUrl, iceServers, dialTimeout, recordTimeout, mailboxCapacity⟩
    s.check
    return s

end Settings

end VideoCall
