import WorkspaceControl.Text.Parts

/-!
# Connection settings

Where the service is reached and how long a request may take. Settings are checked before a
client is made of them; the first fault found counts.
-/

namespace WorkspaceControl.Rpc

/-- Where the service listens unless told otherwise. -/
def defaultBaseUrl : String := "http://localhost:4000/_exo"

inductive SettingsFault where
  | emptyUrl
  | unsupportedScheme
  | zeroTimeout
  deriving DecidableEq, Repr

def SettingsFault.message : SettingsFault → String
  | emptyUrl => "base_url cannot be empty"
  | unsupportedScheme => "base_url must start with http:// or https://"
  | zeroTimeout => "timeout must be greater than 0"

/-- How the service is reached: the base address, and the time limit of a request in
milliseconds. -/
structure Settings where
  baseUrl : String
  timeout : Option Nat
  deriving DecidableEq, Repr

namespace Settings

/-- The settings that hold unless told otherwise: no time limit. -/
def standard : Settings := ⟨defaultBaseUrl, none⟩

def validate (s : Settings) : Except SettingsFault Unit :=
  if s.baseUrl = "" then .error .emptyUrl
  else if ¬Parts.begins "http://" s.baseUrl ∧ ¬Parts.begins "https://" s.baseUrl then
    .error .unsupportedScheme
  else if s.timeout = some 0 then .error .zeroTimeout
  else .ok ()

end Settings

end WorkspaceControl.Rpc
