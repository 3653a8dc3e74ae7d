import AVCapture.Lib.Service
import AVCapture.Utils.Error
import Mathlib.Data.List.Forall2

/-!
# The HTTP Router

Model of `Api::Router` (`api/Router.cpp`): the API key check, the routes in the order in
which `handle` tries them, and the responses.

The recorder and the shutdown callback are parameters: the router reaches them through
`is_recording`, `save_recording_async` and `on_shutdown_` only. Serializing a JSON object
and finding a header of a request are Boost's, and parameters as well.

## Main results

- `isAuthorized_iff`: the comparison loop decides equality of the two keys
- `handle_of_unauthorized`, `handle_of_authorized`: what the check lets through
- `requestsWithoutKey_inert`: requests without the key neither act nor observe
-/

namespace AVCapture.Api

open AVCapture.Utils

/-- Header names, header values and targets are byte strings. -/
abbrev Bytes := List UInt8

def bytesOf (text : String) : Bytes := text.toList.map fun c => UInt8.ofNat c.toNat

/-! ## Requests and responses -/

/-- `http::verb`: the methods of the routes, and every other one. -/
inductive Verb where
  | get
  | post
  | other (name : String)
  deriving DecidableEq, Repr

/-- The codes that the responses have. -/
inductive Status where
  | ok
  | badRequest
  | unauthorized
  | notFound
  deriving DecidableEq, Repr

/-- A request; its headers are in the order in which they came. -/
structure Request where
  method : Verb
  target : Bytes
  version : Nat := 11
  headers : List (Bytes × Bytes) := []

/-- What the members of a response are set to. -/
inductive JsonValue where
  | bool (b : Bool)
  | string (s : String)
  deriving DecidableEq, Repr

/-- A `json::object`: its members in the order in which they were set. -/
abbrev JsonObject := List (String × JsonValue)

/-- A response; its body is always JSON. -/
structure Response where
  status : Status
  version : Nat
  contentType : String
  body : String
  deriving DecidableEq

namespace Routes

def kSTOP : Bytes := bytesOf "/stop"
def kSTATUS : Bytes := bytesOf "/status"
def kHEALTH : Bytes := bytesOf "/health"
def kSHUTDOWN : Bytes := bytesOf "/shutdown"

end Routes

def kApiKeyHeader : Bytes := bytesOf "X-API-Key"

def kSuccess : String := "success"
def kError : String := "error"
def kRecordingName : String := "recordingName"
def kRecording : String := "recording"
def kStatus : String := "status"

/-- Header names are compared without regard to the case of ASCII letters. -/
def toLowerAscii (b : UInt8) : UInt8 := if 65 ≤ b ∧ b ≤ 90 then b + 32 else b

/-- Two names of the same header. -/
def iequals (a b : Bytes) : Bool := a.map toLowerAscii == b.map toLowerAscii

/-- `http::fields`: `find` gives the value of the first header of a name. -/
structure Fields where
  find : List (Bytes × Bytes) → Bytes → Option Bytes
  find_nil : ∀ name, find [] name = none
  find_cons : ∀ header headers name, find (header :: headers) name =
    if iequals header.1 name then some header.2 else find headers name

/-- A search from the first header on. -/
def Fields.search : Fields where
  find headers name := (headers.find? fun header => iequals header.1 name).map Prod.snd
  find_nil _ := rfl
  find_cons header headers name := by
    rw [List.find?_cons]
    cases iequals header.1 name <;> rfl

/-! ## The router -/

/-- What the router calls on the recorder. -/
structure RecorderOps (σ : Type) where
  isRecording : σ → Bool
  saveRecordingAsync : σ → Result String × σ
  /-- `Error::what` of the error that a save returns -/
  what : Error → String

/-- `Router`. The recorder's state is not its own, but that of the requests. -/
structure Router (σ : Type) where
  fields : Fields
  recorder : RecorderOps σ
  serialize : JsonObject → String
  /-- What the callback does to the recorder; `none` for an empty `std::function`. -/
  onShutdown : Option (σ → σ) := none
  apiKey : Bytes := []

/-- The state that requests act on: the recorder, and how often `on_shutdown_` has been
    called. -/
structure Served (σ : Type) where
  recorder : σ
  shutdowns : Nat := 0

/-- The loop of `is_authorized`: the differing bits of all positions, accumulated. -/
def accumulateDiff : UInt8 → Bytes → Bytes → UInt8
  | diff, g :: given, k :: key => accumulateDiff (diff ||| (g ^^^ k)) given key
  | diff, _, _ => diff

namespace Router

variable {σ : Type}

/-- `is_authorized`: without a key set, every request is. -/
def isAuthorized (r : Router σ) (req : Request) : Bool :=
  if r.apiKey.isEmpty then true
  else
    match r.fields.find req.headers kApiKeyHeader with
    | none => false
    | some given =>
      if given.length != r.apiKey.length then false
      else accumulateDiff 0 given r.apiKey == 0

def jsonResponse (r : Router σ) (obj : JsonObject) (version : Nat) : Response :=
  { status := .ok, version := version, contentType := "application/json"
    body := r.serialize obj }

/-- `error_response`: an object with the message only. -/
def errorResponse (r : Router σ) (message : String) (status : Status) (version : Nat) :
    Response :=
  { status := status, version := version, contentType := "application/json"
    body := r.serialize [(kError, .string message)] }

def notFoundResponse (r : Router σ) (req : Request) : Response :=
  r.errorResponse "Route not found" .notFound req.version

def handleHealth (r : Router σ) (req : Request) : Response :=
  r.jsonResponse [(kStatus, .string "healthy")] req.version

/-- `handle_stop`: a save is started, and the recorder goes on recording. A save that cannot be
    started is answered 200, too. -/
def handleStop (r : Router σ) (s : Served σ) (req : Request) : Response × Served σ :=
  if !r.recorder.isRecording s.recorder then
    (r.errorResponse "Not recording" .badRequest req.version, s)
  else
    let (res, recorder) := r.recorder.saveRecordingAsync s.recorder
    let obj : JsonObject :=
      match res with
      | .error e => [(kSuccess, .bool false), (kError, .string (r.recorder.what e))]
      | .ok name => [(kSuccess, .bool true), (kRecordingName, .string name)]
    (r.jsonResponse obj req.version, { s with recorder := recorder })

/-- `handle_status`: whether the recorder records. -/
def handleStatus (r : Router σ) (s : Served σ) (req : Request) : Response :=
  r.jsonResponse [(kRecording, .bool (r.recorder.isRecording s.recorder))] req.version

/-- `handle_shutdown`: the callback has returned when the response is made. -/
def handleShutdown (r : Router σ) (s : Served σ) (req : Request) : Response × Served σ :=
  let s' :=
    match r.onShutdown with
    | some f => { recorder := f s.recorder, shutdowns := s.shutdowns + 1 }
    | none => s
  (r.jsonResponse [(kSuccess, .bool true)] req.version, s')

def isHealth (req : Request) : Bool := req.method == .get && req.target == Routes.kHEALTH

/-- `Router::handle`: the routes in the order of the source. Only `GET /health` comes
    before the key check. -/
def handle (r : Router σ) (s : Served σ) (req : Request) : Response × Served σ :=
  if isHealth req then (r.handleHealth req, s)
  else if !r.isAuthorized req then (r.errorResponse "Unauthorized" .unauthorized req.version, s)
  else if req.method == .post && req.target == Routes.kSTOP then r.handleStop s req
  else if req.method == .get && req.target == Routes.kSTATUS then (r.handleStatus s req, s)
  else if req.method == .post && req.target == Routes.kSHUTDOWN then r.handleShutdown s req
  else (r.notFoundResponse req, s)

end Router

/-! ## The key comparison -/

/-- Nothing that is accumulated is ever taken back. -/
theorem accumulateDiff_eq_zero_iff (diff : UInt8) (given key : Bytes)
    (hlen : given.length = key.length) :
    accumulateDiff diff given key = 0 ↔ diff = 0 ∧ given = key := by
  induction given generalizing diff key with
  | nil =>
    have hkey : key = [] := List.eq_nil_of_length_eq_zero hlen.symm
    subst hkey
    simp [accumulateDiff]
  | cons g given ih =>
    cases key with
    | nil => simp at hlen
    | cons k key =>
      -- one position: its bits are added, and they are none exactly if the bytes are equal
      have htail : given.length = key.length := by simpa using hlen
      simp only [accumulateDiff]
      rw [ih _ _ htail, UInt8.or_eq_zero_iff, UInt8.xor_eq_zero_iff, List.cons.injEq,
        and_assoc]

/-- **The key check**: with a key set, the requests let through are those whose first
    `X-API-Key` value is the key. -/
theorem isAuthorized_iff {σ : Type} {r : Router σ} (hkey : r.apiKey ≠ []) (req : Request) :
    r.isAuthorized req = true ↔
      r.fields.find req.headers kApiKeyHeader = some r.apiKey := by
  have hne : r.apiKey.isEmpty = false := List.isEmpty_eq_false_iff.mpr hkey
  unfold Router.isAuthorized
  rw [hne]
  cases r.fields.find req.headers kApiKeyHeader with
  | none => simp -- no key is no match
  | some given =>
    -- the loop is reached only with two keys of the same length
    by_cases hlen : given.length = r.apiKey.length
    · simp [hlen, accumulateDiff_eq_zero_iff 0 given r.apiKey hlen]
    · have hdiff : given ≠ r.apiKey := fun h => hlen (congrArg List.length h)
      simp [hlen, hdiff]

/-! ## What the check lets through -/

section Handle

variable {σ : Type} {r : Router σ} {req : Request}

/-- The answer to a request without the key. -/
def Router.refusal (r : Router σ) (req : Request) : Response :=
  if Router.isHealth req then r.handleHealth req
  else r.errorResponse "Unauthorized" .unauthorized req.version

theorem Router.handle_of_unauthorized (h : r.isAuthorized req = false) :
    Service.Inert r.handle r.refusal req := by
  intro s
  unfold Router.handle Router.refusal
  split <;> simp [h]

theorem Router.status_refusal (hreq : Router.isHealth req = false) :
    (r.refusal req).status = .unauthorized := by
  simp [Router.refusal, hreq, Router.errorResponse]

/-- None of the routes answers 401. -/
theorem Router.handle_of_authorized (h : r.isAuthorized req = true) (s : Served σ) :
    (r.handle s req).1.status ≠ .unauthorized := by
  unfold Router.handle
  -- one case for each route, in the order of `handle`
  split
  · simp [Router.handleHealth, Router.jsonResponse]
  · simp only [h, Bool.not_true, Bool.false_eq_true, if_false]
    split
    · -- not recording is 400, a save that was started or not is 200
      unfold Router.handleStop
      split <;> simp [Router.errorResponse, Router.jsonResponse]
    · split
      · simp [Router.handleStatus, Router.jsonResponse]
      · split
        · simp [Router.handleShutdown, Router.jsonResponse]
        · simp [Router.notFoundResponse, Router.errorResponse]

/-- The three outcomes of `POST /stop`. -/
theorem Router.handleStop_of_not_recording {s : Served σ}
    (h : r.recorder.isRecording s.recorder = false) :
    r.handleStop s req = (r.errorResponse "Not recording" .badRequest req.version, s) := by
  simp [Router.handleStop, h]

theorem Router.handleStop_of_error {s : Served σ} {e : Error} {recorder : σ}
    (h : r.recorder.isRecording s.recorder = true)
    (hsave : r.recorder.saveRecordingAsync s.recorder = (.error e, recorder)) :
    r.handleStop s req =
      (r.jsonResponse [(kSuccess, .bool false), (kError, .string (r.recorder.what e))] req.version,
        { s with recorder := recorder }) := by
  simp [Router.handleStop, h, hsave]

theorem Router.handleStop_of_ok {s : Served σ} {name : String} {recorder : σ}
    (h : r.recorder.isRecording s.recorder = true)
    (hsave : r.recorder.saveRecordingAsync s.recorder = (.ok name, recorder)) :
    r.handleStop s req =
      (r.jsonResponse [(kSuccess, .bool true), (kRecordingName, .string name)] req.version,
        { s with recorder := recorder }) := by
  simp [Router.handleStop, h, hsave]

end Handle

/-- **Requests without the key are inert.** In a sequence of requests none of which
    carries the key, the recorder keeps its state and is not shut down; every answer but
    the one to `GET /health` is 401; and the answers are the same whatever the state is.
    A request that carries the key is not answered 401. -/
theorem requestsWithoutKey_inert {σ : Type} (r : Router σ) (hkey : r.apiKey ≠ [])
    (reqs : List Request)
    (hreqs : ∀ req ∈ reqs, r.fields.find req.headers kApiKeyHeader ≠ some r.apiKey)
    (s s' : Served σ) :
    (Service.serve r.handle s reqs).2 = s ∧
      List.Forall₂ (fun req res => Router.isHealth req = false → res.status = .unauthorized)
        reqs (Service.serve r.handle s reqs).1 ∧
      (Service.serve r.handle s reqs).1 = (Service.serve r.handle s' reqs).1 ∧
      ∀ req, r.fields.find req.headers kApiKeyHeader = some r.apiKey →
        (r.handle s req).1.status ≠ .unauthorized := by
  have hinert : ∀ req ∈ reqs, Service.Inert r.handle r.refusal req := by
    intro req hreq
    apply Router.handle_of_unauthorized
    rw [Bool.eq_false_iff]
    exact fun h => hreqs req hreq ((isAuthorized_iff hkey req).mp h)
  -- both runs give the refusals of the requests, and end where they began
  rw [Service.serve_of_inert hinert s, Service.serve_of_inert hinert s']
  refine ⟨rfl, ?_, rfl, ?_⟩
  · rw [List.forall₂_map_right_iff, List.forall₂_same]
    intro req _ hreq
    exact Router.status_refusal hreq
  · intro req hreq
    exact Router.handle_of_authorized ((isAuthorized_iff hkey req).mpr hreq) s

/-- A recorder that only counts the saves it has started. -/
def countingRouter : Router Nat :=
  { fields := .search
    recorder :=
      { isRecording := fun _ => true
        saveRecordingAsync := fun n => (.ok "out.mp4", n + 1)
        what := fun e => String.join e.contextStack }
    serialize := fun obj => String.join (obj.map Prod.fst)
    onShutdown := some fun _ => 0
    apiKey := bytesOf "key" }

/-- A stop with no key, with a shorter one and with another one of the same length. -/
theorem stopWithoutKey_inert :
    let reqs : List Request :=
      [{ method := .post, target := Routes.kSTOP },
        { method := .post, target := Routes.kSTOP
          headers := [(bytesOf "x-api-key", bytesOf "ke")] },
        { method := .post, target := Routes.kSHUTDOWN
          headers := [(bytesOf "X-API-KEY", bytesOf "kez"), (kApiKeyHeader, bytesOf "key")] }]
    (Service.serve countingRouter.handle { recorder := 0 } reqs).2 = { recorder := 0 } :=
  (requestsWithoutKey_inert countingRouter (by decide) _ (by decide) _ { recorder := 7 }).1

end AVCapture.Api
