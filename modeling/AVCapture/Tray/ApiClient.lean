import AVCapture.Api.Router
import AVCapture.Lib.FlatJson

/-!
# The Tray's API Client

Model of `Tray::ApiClient` (`tray/ApiClient.cpp`), and of one exchange between it and the
router of the recorder.

The connection is the environment's: it answers a request, or throws. So is parsing of JSON;
about it the client relies on `ParsesBack`, that parsing undoes the router's serialization.

## Main results

- `isAuthorized_request_iff`: whose requests get past the key check
- `agrees_iff`: when the client's view of the recorder is the recorder's own
-/

namespace AVCapture.Tray

open AVCapture.Api AVCapture.Utils

/-! ## The client -/

/-- What `json::parse` returns; numbers are kept as texts. -/
inductive Json where
  | null
  | bool (b : Bool)
  | number (literal : String)
  | string (s : String)
  | array (items : List Json)
  | object (members : List (String × Json))

structure ApiStatus where
  recording : Bool := false
  deriving DecidableEq, Repr

structure ApiClient where
  host : Bytes
  apiKey : Bytes := []

/-- Connecting, writing the request and reading the response; `none` if any of it throws. -/
abbrev Exchange := Request → Option Response

namespace ApiClient

/-- The request that `perform_request` writes. -/
def request (c : ApiClient) (method : String) (target : Bytes) : Request :=
  { method := if method = "GET" then .get else .post
    target := target
    version := 11
    headers := [(bytesOf "Host", c.host), (bytesOf "Content-Length", bytesOf "0")] ++
      if c.apiKey.isEmpty then [] else [(bytesOf "X-API-Key", c.apiKey)] }

/-- `perform_request`: the body of whatever response there is. -/
def performRequest (c : ApiClient) (exchange : Exchange) (method : String) (target : Bytes) :
    Option String :=
  (exchange (c.request method target)).map Response.body

def getStatus (c : ApiClient) (parse : String → Option Json) (exchange : Exchange) :
    Option ApiStatus :=
  match c.performRequest exchange "GET" (bytesOf "/status") with
  | none => none
  | some body =>
    match parse body with
    | some (.object members) =>
      match members.lookup "recording" with
      | some (.bool b) => some { recording := b }
      -- no boolean `recording`: the default of `ApiStatus`
      | _ => some {}
    | _ => none

def saveRecording (c : ApiClient) (parse : String → Option Json) (exchange : Exchange) : Bool :=
  match c.performRequest exchange "POST" (bytesOf "/stop") with
  | none => false
  | some body =>
    match parse body with
    | some (.object members) =>
      match members.lookup "success" with
      | some (.bool b) => b
      | _ => false
    | _ => false

end ApiClient

/-! ## Both ends -/

def jsonOf : JsonValue → Json
  | .bool b => .bool b
  | .string s => .string s

def objectOf (obj : JsonObject) : Json := .object (obj.map fun m => (m.1, jsonOf m.2))

/-- Parsing undoes the serialization of an object, in which no key is twice. -/
def ParsesBack (serialize : JsonObject → String) (parse : String → Option Json) : Prop :=
  ∀ obj : JsonObject, (obj.map Prod.fst).Nodup → parse (serialize obj) = some (objectOf obj)

section Both

variable {σ : Type}

/-- The connection to a router: the request and the response get through. -/
def exchangeWith (r : Router σ) (s : Served σ) : Exchange := fun req => some (r.handle s req).1

/-- A recorder that keeps what its saves have returned. -/
def withLog (ops : RecorderOps σ) : RecorderOps (σ × List (Result String)) :=
  { isRecording := fun s => ops.isRecording s.1
    saveRecordingAsync := fun s =>
      let (res, recorder) := ops.saveRecordingAsync s.1
      (res, recorder, s.2 ++ [res])
    what := ops.what }

def routerWithLog (r : Router σ) : Router (σ × List (Result String)) :=
  { fields := r.fields
    recorder := withLog r.recorder
    serialize := r.serialize
    onShutdown := r.onShutdown.map fun f s => (f s.1, s.2)
    apiKey := r.apiKey }

def servedWithLog (s : Served σ) : Served (σ × List (Result String)) :=
  { recorder := (s.recorder, []), shutdowns := s.shutdowns }

@[simp] theorem recorder_servedWithLog (s : Served σ) :
    (servedWithLog s).recorder = (s.recorder, []) := rfl

@[simp] theorem shutdowns_servedWithLog (s : Served σ) :
    (servedWithLog s).shutdowns = s.shutdowns := rfl

/-- The saves that a request makes the recorder start or fail to start, in order. -/
def savesOf (r : Router σ) (s : Served σ) (req : Request) : List (Result String) :=
  ((routerWithLog r).handle (servedWithLog s) req).2.recorder.2

/-- The client's view of the recorder agrees with the recorder: a status says whether it is
    recording, and a save is reported exactly if one was started. -/
def Agrees (c : ApiClient) (parse : String → Option Json) (r : Router σ) (s : Served σ) : Prop :=
  (∀ status, c.getStatus parse (exchangeWith r s) = some status →
    status.recording = r.recorder.isRecording s.recorder) ∧
  (c.saveRecording parse (exchangeWith r s) = true ↔
    ∃ name, .ok name ∈ savesOf r s (c.request "POST" (bytesOf "/stop")))

/-- The log changes nothing: a router answers, and changes the recorder, as it does without. -/
theorem handle_routerWithLog (r : Router σ) (s : Served σ) (req : Request) :
    let res := (routerWithLog r).handle (servedWithLog s) req
    (res.1, ({ recorder := res.2.recorder.1, shutdowns := res.2.shutdowns } : Served σ)) =
      r.handle s req := by
  -- the routes and the key check do not look at the log
  have hauthorized : (routerWithLog r).isAuthorized req = r.isAuthorized req := rfl
  have hrecording : (routerWithLog r).recorder.isRecording (servedWithLog s).recorder =
      r.recorder.isRecording s.recorder := rfl
  simp only [Router.handle, hauthorized]
  split
  · rfl
  · split
    · rfl
    · split
      · simp only [Router.handleStop, hrecording]
        split <;> rfl
      · split
        · rfl
        · split
          · cases hshutdown : r.onShutdown with
            | none => simp [Router.handleShutdown, routerWithLog, hshutdown, Router.jsonResponse]
            | some f => simp [Router.handleShutdown, routerWithLog, hshutdown, Router.jsonResponse]
          · rfl

/-! ## The key -/

theorem find_apiKey_request (fields : Fields) (c : ApiClient) (method : String)
    (target : Bytes) :
    fields.find (c.request method target).headers kApiKeyHeader =
      if c.apiKey = [] then none else some c.apiKey := by
  have hhost : iequals (bytesOf "Host") kApiKeyHeader = false := by decide
  have hlength : iequals (bytesOf "Content-Length") kApiKeyHeader = false := by decide
  have hkey : iequals (bytesOf "X-API-Key") kApiKeyHeader = true := by decide
  unfold ApiClient.request
  by_cases h : c.apiKey = []
  · simp [h, fields.find_cons, fields.find_nil, hhost, hlength]
  · simp [h, fields.find_cons, hhost, hlength, hkey]

/-- **Whose requests get past the key check**. -/
theorem isAuthorized_request_iff (r : Router σ) (c : ApiClient) (method : String)
    (target : Bytes) :
    r.isAuthorized (c.request method target) = true ↔ r.apiKey = [] ∨ c.apiKey = r.apiKey := by
  by_cases hkey : r.apiKey = []
  · simp [Router.isAuthorized, hkey]
  · rw [isAuthorized_iff hkey, find_apiKey_request]
    split
    · rename_i hnone
      simp [hkey, hnone, Ne.symm hkey]
    · simp [hkey]

/-! ## The two exchanges -/

variable {r : Router σ} {c : ApiClient} {parse : String → Option Json}

/-- A refused request is answered with an error, whatever the recorder does. -/
theorem handle_request_of_unauthorized {method : String} {target : Bytes}
    (hhealth : Router.isHealth (c.request method target) = false)
    (h : r.isAuthorized (c.request method target) = false) (s : Served σ) :
    r.handle s (c.request method target) =
      (r.errorResponse "Unauthorized" .unauthorized 11, s) := by
  rw [Router.handle_of_unauthorized h s, Router.refusal, hhealth]
  rfl

/-- `GET /status` is not one of the routes before the one of `handle_status`. -/
theorem status_routes :
    Router.isHealth (c.request "GET" (bytesOf "/status")) = false ∧
      ((c.request "GET" (bytesOf "/status")).method == .post) = false ∧
      ((c.request "GET" (bytesOf "/status")).method == .get &&
        (c.request "GET" (bytesOf "/status")).target == Routes.kSTATUS) = true :=
  ⟨rfl, rfl, rfl⟩

theorem handle_status_of_authorized
    (h : r.isAuthorized (c.request "GET" (bytesOf "/status")) = true) (s : Served σ) :
    r.handle s (c.request "GET" (bytesOf "/status")) =
      (r.handleStatus s (c.request "GET" (bytesOf "/status")), s) := by
  obtain ⟨hhealth, hpost, hstatus⟩ := status_routes (c := c)
  simp [Router.handle, hhealth, h, hpost, hstatus]

theorem stop_routes :
    Router.isHealth (c.request "POST" (bytesOf "/stop")) = false ∧
      ((c.request "POST" (bytesOf "/stop")).method == .post &&
        (c.request "POST" (bytesOf "/stop")).target == Routes.kSTOP) = true :=
  ⟨rfl, rfl⟩

theorem handle_stop_of_authorized
    (h : r.isAuthorized (c.request "POST" (bytesOf "/stop")) = true) (s : Served σ) :
    r.handle s (c.request "POST" (bytesOf "/stop")) =
      r.handleStop s (c.request "POST" (bytesOf "/stop")) := by
  obtain ⟨hhealth, hstop⟩ := stop_routes (c := c)
  simp [Router.handle, hhealth, h, hstop]

/-- **What the client makes of `GET /status`**: a refusal reads as *not recording*. -/
theorem getStatus_exchangeWith (hjson : ParsesBack r.serialize parse) (s : Served σ) :
    c.getStatus parse (exchangeWith r s) =
      some { recording := r.isAuthorized (c.request "GET" (bytesOf "/status")) &&
        r.recorder.isRecording s.recorder } := by
  cases h : r.isAuthorized (c.request "GET" (bytesOf "/status")) with
  | false =>
    have hhandle := handle_request_of_unauthorized status_routes.1 h s
    have hparse := hjson [(kError, .string "Unauthorized")] (by simp)
    simp only [ApiClient.getStatus, ApiClient.performRequest, exchangeWith, hhandle,
      Option.map_some, Router.errorResponse, hparse]
    rfl
  | true =>
    have hhandle := handle_status_of_authorized h s
    have hparse := hjson [(kRecording, .bool (r.recorder.isRecording s.recorder))] (by simp)
    simp only [ApiClient.getStatus, ApiClient.performRequest, exchangeWith, hhandle,
      Option.map_some, Router.handleStatus, Router.jsonResponse, hparse]
    rfl

/-- The body of an answer to `POST /stop`, as the client reads it. -/
theorem saveRecording_of_answer {s s' : Served σ} {response : Response} {obj : JsonObject}
    (hhandle : r.handle s (c.request "POST" (bytesOf "/stop")) = (response, s'))
    (hparse : parse response.body = some (objectOf obj)) :
    c.saveRecording parse (exchangeWith r s) =
      match (obj.map fun m => (m.1, jsonOf m.2)).lookup "success" with
      | some (.bool b) => b
      | _ => false := by
  simp only [ApiClient.saveRecording, ApiClient.performRequest, exchangeWith, hhandle,
    Option.map_some, hparse, objectOf]

/-- **What the client makes of `POST /stop`**: it reports exactly the saves that the recorder
    has started. -/
theorem saveRecording_exchangeWith_iff (hjson : ParsesBack r.serialize parse) (s : Served σ) :
    c.saveRecording parse (exchangeWith r s) = true ↔
      ∃ name, .ok name ∈ savesOf r s (c.request "POST" (bytesOf "/stop")) := by
  cases h : r.isAuthorized (c.request "POST" (bytesOf "/stop")) with
  | false =>
    have hhandle := handle_request_of_unauthorized stop_routes.1 h s
    have hlog :=
      handle_request_of_unauthorized (r := routerWithLog r) stop_routes.1 h (servedWithLog s)
    rw [saveRecording_of_answer hhandle (hjson [(kError, .string "Unauthorized")] (by simp)),
      savesOf, hlog]
    exact iff_of_false Bool.false_ne_true (by simp)
  | true =>
    have hhandle := handle_stop_of_authorized h s
    have hlog := handle_stop_of_authorized (r := routerWithLog r) h (servedWithLog s)
    have hsame : (routerWithLog r).recorder.isRecording (servedWithLog s).recorder =
        r.recorder.isRecording s.recorder := rfl
    rw [savesOf, hlog]
    cases hrecording : r.recorder.isRecording s.recorder with
    | false =>
      rw [Router.handleStop_of_not_recording hrecording] at hhandle
      rw [Router.handleStop_of_not_recording (hsame.trans hrecording),
        saveRecording_of_answer hhandle (hjson [(kError, .string "Not recording")] (by simp))]
      exact iff_of_false Bool.false_ne_true (by simp)
    | true =>
      rcases hsave : r.recorder.saveRecordingAsync s.recorder with ⟨res, recorder⟩
      have hsaveLog : (routerWithLog r).recorder.saveRecordingAsync (servedWithLog s).recorder =
          (res, recorder, [res]) := by
        simp [routerWithLog, withLog, servedWithLog, hsave]
      cases res with
      | error e =>
        rw [Router.handleStop_of_error hrecording hsave] at hhandle
        rw [Router.handleStop_of_error (hsame.trans hrecording) hsaveLog,
          saveRecording_of_answer hhandle (hjson _ (by simp [kSuccess, kError]))]
        exact iff_of_false Bool.false_ne_true (by simp)
      | ok name =>
        rw [Router.handleStop_of_ok hrecording hsave] at hhandle
        rw [Router.handleStop_of_ok (hsame.trans hrecording) hsaveLog,
          saveRecording_of_answer hhandle (hjson _ (by simp [kSuccess, kRecordingName]))]
        exact iff_of_true rfl ⟨name, List.mem_singleton_self _⟩

/-- **When the client's view is the recorder's own**. -/
theorem agrees_iff (r : Router σ) (c : ApiClient) (parse : String → Option Json)
    (hjson : ParsesBack r.serialize parse) (s : Served σ) :
    Agrees c parse r s ↔
      r.apiKey = [] ∨ c.apiKey = r.apiKey ∨ r.recorder.isRecording s.recorder = false := by
  unfold Agrees
  rw [getStatus_exchangeWith hjson, iff_true_intro (saveRecording_exchangeWith_iff hjson s),
    and_true, ← or_assoc, ← isAuthorized_request_iff r c "GET" (bytesOf "/status")]
  cases r.isAuthorized (c.request "GET" (bytesOf "/status")) with
  | false =>
    refine ⟨fun h => Or.inr (h _ rfl).symm, fun h status hstatus => ?_⟩
    obtain rfl := Option.some.inj hstatus
    exact (h.resolve_left Bool.false_ne_true).symm
  | true =>
    refine ⟨fun _ => Or.inl rfl, fun _ status hstatus => ?_⟩
    obtain rfl := Option.some.inj hstatus
    rfl

end Both

/-! ## A router and its clients -/

def flatOf : JsonValue → FlatJson.Value
  | .bool b => .bool b
  | .string s => .string s

def ofFlat : FlatJson.Value → Json
  | .bool b => .bool b
  | .string s => .string s

def serializeFlat (obj : JsonObject) : String :=
  String.ofList (FlatJson.text (obj.map fun m => (m.1, flatOf m.2)))

def parseFlat (body : String) : Option Json :=
  (FlatJson.parse body.toList).map fun obj => .object (obj.map fun m => (m.1, ofFlat m.2))

theorem parsesBack_flat : ParsesBack serializeFlat parseFlat := by
  intro obj _
  have hvalue : ∀ v, ofFlat (flatOf v) = jsonOf v := by
    intro v
    cases v <;> rfl
  unfold parseFlat serializeFlat objectOf
  rw [String.toList_ofList, FlatJson.parse_text]
  simp [hvalue]

/-- A router with a key; its recorder's state is whether it records. -/
def keyedRouter : Router Bool :=
  { fields := .search
    recorder :=
      { isRecording := fun recording => recording
        saveRecordingAsync := fun recording => (.ok "out.mp4", recording)
        what := fun e => String.join e.contextStack }
    serialize := serializeFlat
    apiKey := bytesOf "key" }

/-- The witness: a client that has the key of a router whose recorder records. -/
theorem agrees_iff_withKey :
    Agrees { host := bytesOf "127.0.0.1", apiKey := bytesOf "key" } parseFlat keyedRouter
      { recorder := true } :=
  (agrees_iff _ _ _ parsesBack_flat _).mpr (Or.inr (Or.inl rfl))

/-- A client without the key is told that a recorder which records does not. -/
theorem missingKey_reads_notRecording :
    let c : ApiClient := { host := bytesOf "127.0.0.1" }
    c.getStatus parseFlat (exchangeWith keyedRouter { recorder := true }) =
        some { recording := false } ∧
      keyedRouter.recorder.isRecording true = true ∧
      ¬ Agrees c parseFlat keyedRouter { recorder := true } := by
  have hstatus : ({ host := bytesOf "127.0.0.1" } : ApiClient).getStatus parseFlat
      (exchangeWith keyedRouter { recorder := true }) = some { recording := false } :=
    getStatus_exchangeWith parsesBack_flat _
  exact ⟨hstatus, rfl, fun h => Bool.false_ne_true (h.1 _ hstatus)⟩

end AVCapture.Tray
