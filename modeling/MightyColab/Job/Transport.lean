import Mathlib.Algebra.Group.Nat.Defs
import MightyColab.Lib.Json
import MightyColab.Lib.Loop

/-!
# The Contents transport

The operations of `JobTransport` against any answers and assignment listings. Those of
interest come from a VM, a proxy and an assignment listing whose behaviour over time
is given. The proxy answers 404 to every request whose token it no longer accepts, and
the VM answers 404 for a path that is not there, so the client cannot tell the two
apart; the model keeps the cause of each answer in a log of the call that the code
never reads.

Times are readings of one clock, in ticks of any resolution, and every step but a
request, a listing and a sleep takes no time.
-/

namespace MightyColab
namespace Job

open Lib

namespace Transport

inductive ReadStatus where
  | ok
  | notFound
  | degraded
  | sessionLost
  deriving DecidableEq, Repr

/-- `status.name`. -/
def ReadStatus.name : ReadStatus -> String
  | .ok => "OK"
  | .notFound => "NOT_FOUND"
  | .degraded => "DEGRADED"
  | .sessionLost => "SESSION_LOST"

/-- `status.value`. -/
def ReadStatus.value : ReadStatus -> String
  | .ok => "ok"
  | .notFound => "not_found"
  | .degraded => "degraded"
  | .sessionLost => "session_lost"

inductive Cause where
  /-- `FileNotFoundError`, which `ContentsClient` makes of every 404. -/
  | notFound
  /-- An `HTTPError` with its status code. -/
  | http (code : Nat)
  | timeout
  | connection
  | other
  deriving DecidableEq, Repr

/-- An exception and its text as `describe_error` gives it. -/
structure Error where
  cause : Cause
  text : String
  deriving DecidableEq, Repr

namespace Error

def statusCode (e : Error) : Option Nat :=
  match e.cause with
  | .notFound => some 404
  | .http code => some code
  | _ => none

def isTransient (e : Error) : Bool :=
  match e.cause with
  | .http code => decide (500 ≤ code ∧ code < 600)
  | .timeout | .connection => true
  | _ => false

end Error

inductive Method where
  | get
  | put
  | delete
  deriving DecidableEq, Repr

/-!
## What a transport meets
-/

/-- `runtime_proxy_info` of a listed assignment. -/
structure Proxy where
  token : Option String
  url : Option String

inductive Event where
  /-- A request was answered; `expired` when by a 404 for its token alone. -/
  | answer (method : Method) (path : String) (time : Nat) (expired : Bool)
  /-- `_refresh_token` ran, after an error of this status code. -/
  | refresh (code : Option Nat) (status : ReadStatus)
  | slept (n : Nat)
  deriving DecidableEq, Repr

/-- What comes of one request. -/
structure Response where
  result : Except Error Json
  /-- When it is back at the client. -/
  clock : Nat
  /-- When it was answered, if it was, and whether by a 404 for its token alone. -/
  answered : Option (Nat × Bool)

/-- What comes of one `list_assignments` call. -/
structure Listed where
  /-- Each assignment's endpoint and proxy, or the text of the error. -/
  assignments : Except String (List (String × Proxy))
  clock : Nat
  /-- How long beyond the refresh interval the listed token stays accepted. -/
  extra : Nat

/-- Any answers and listings: each may depend on when it is asked for, on the token and
on how many have been before it. -/
structure Server where
  /-- `self.endpoint`. -/
  endpoint : String
  request : Method -> String -> (clock tokenExpiry requests : Nat) -> Response
  assignments : (clock listings : Nat) -> Listed
  /-- `json.loads`, or the text of its error. -/
  loads : String -> Except String Json
  /-- `base64.b64decode` and then `_decode_text`, or the text of the error. -/
  decode : String -> Except String String

/-!
## The world outside the client
-/

inductive Loss where
  | timeout
  | connection
  | other
  deriving DecidableEq, Repr

def Loss.cause : Loss -> Cause
  | .timeout => .timeout
  | .connection => .connection
  | .other => .other

structure Hop where
  /-- Until the VM answers it. -/
  there : Nat
  /-- From the answer, or from giving up, to the client. -/
  back : Nat
  lost : Option Loss
  /-- An error status other than 404, from a proxy that accepts the token. -/
  refused : Option { code : Nat // code ≠ 404 }
  /-- The text of the exception, if it comes to one. -/
  text : String

/-- What happens to one `list_assignments` call. -/
structure Listing where
  there : Nat
  back : Nat
  failure : Option String
  proxy : Proxy
  /-- How long beyond the refresh interval the listed token stays accepted. -/
  extra : Nat

/-- The VM, its network and the assignment listing, over time. The i-th request
and the j-th listing of the transport meet the i-th hop and the j-th listing. -/
structure World where
  hop : Nat -> Hop
  listing : Nat -> Listing
  /-- When the assignment ends. Assignments do not come back. -/
  releasedAt : Option Nat
  /-- What a GET of the path would return at a time; `none` for an absent path. -/
  file : String -> Nat -> Option Json
  /-- Whether the directory that a PUT of the path needs exists at a time. -/
  parent : String -> Nat -> Bool
  /-- `json.loads`, or the text of its error. -/
  loads : String -> Except String Json
  /-- `base64.b64decode` and then `_decode_text`, or the text of the error. -/
  decode : String -> Except String String

namespace World

/-- The assignment is gone at the time. -/
def Gone (w : World) (t : Nat) : Prop :=
  exists r, w.releasedAt = some r ∧ r ≤ t

instance (w : World) (t : Nat) : Decidable (w.Gone t) :=
  match h : w.releasedAt with
  | none => isFalse (by rintro ⟨r, hr, _⟩; rw [h] at hr; cases hr)
  | some r =>
      decidable_of_iff (r ≤ t) (by
        unfold Gone
        rw [h]
        constructor
        · intro hle
          exact ⟨r, rfl, hle⟩
        · rintro ⟨q, hq, hle⟩
          cases hq
          exact hle)

theorem Gone.mono {w : World} {t t' : Nat} (h : w.Gone t) (hle : t ≤ t') :
    w.Gone t' := by
  rcases h with ⟨r, hr, hrt⟩
  exact ⟨r, hr, Nat.le_trans hrt hle⟩

def serve (w : World) (method : Method) (path : String) (t : Nat) : Option Json :=
  match method with
  | .get => w.file path t
  | .delete => (w.file path t).map fun _ => Json.null
  | .put => if w.parent path t then some (.obj []) else none

def server (w : World) : Server where
  endpoint := ""
  request method path clock tokenExpiry requests :=
    let hop := w.hop requests
    let time := clock + hop.there
    let expired := decide (tokenExpiry ≤ time)
    let missing : Error :=
      ⟨.notFound, "FileNotFoundError: File or directory not found: " ++ path⟩
    match hop.lost with
    | some loss => ⟨.error ⟨loss.cause, hop.text⟩, time + hop.back, none⟩
    | none =>
        let result : Except Error Json :=
          if expired then .error missing
          else
            match hop.refused with
            | some code => .error ⟨.http code.val, hop.text⟩
            | none =>
                match w.serve method path time with
                | some reply => .ok reply
                | none => .error missing
        ⟨result, time + hop.back, some (time, expired)⟩
  assignments clock listings :=
    let listing := w.listing listings
    let time := clock + listing.there
    let assignments : Except String (List (String × Proxy)) :=
      match listing.failure with
      | some error => .error error
      | none => .ok (if w.Gone time then [] else [("", listing.proxy)])
    ⟨assignments, time + listing.back, listing.extra⟩
  loads := w.loads
  decode := w.decode

instance : Coe World Server := ⟨server⟩

end World

/-!
## The transport's state
-/

/-- The parameters of `JobTransport.__init__` that its operations read. -/
structure Config where
  maxRetries : Nat
  /-- `backoff_factor`, in ticks. -/
  backoffFactor : Nat
  /-- `not_found_refresh_interval`, in ticks. -/
  notFoundRefreshInterval : Nat

structure Session where
  token : String
  url : String
  deriving DecidableEq, Repr

structure State where
  /-- `time.monotonic()`. -/
  clock : Nat
  requests : Nat
  listings : Nat
  /-- From when on the proxy no longer accepts the session's token. -/
  tokenExpiry : Nat
  session : Session
  lastEndpointPresent : Option Bool
  last404RefreshAt : Option Nat
  lastProblem : Option String
  listingError : Option String
  /-- The events of the current call, newest first. -/
  log : List Event
  /-- The endpoints of each completed listing, newest first. -/
  listed : List (List String)

namespace State

def fresh (clock tokenExpiry : Nat) (session : Session) : State where
  clock := clock
  requests := 0
  listings := 0
  tokenExpiry := tokenExpiry
  session := session
  lastEndpointPresent := none
  last404RefreshAt := none
  lastProblem := none
  listingError := none
  log := []
  listed := []

def begin_ (s : State) : State := { s with log := [] }

def problem (s : State) (text : String) : State := { s with lastProblem := some text }

/-- `self._sleep(backoff_factor * 2 ** n)`. -/
def sleep (cfg : Config) (n : Nat) (s : State) : State :=
  { s with clock := s.clock + cfg.backoffFactor * 2 ^ n, log := .slept n :: s.log }

end State

/-!
## Requests, listings and the token
-/

/-- `ContentsClient._request`. -/
def request (w : Server) (method : Method) (path : String) (s : State) :
    Except Error Json × State :=
  let response := w.request method path s.clock s.tokenExpiry s.requests
  (response.result, { s with
    clock := response.clock
    requests := s.requests + 1
    log := (response.answered.map fun (time, expired) =>
      .answer method path time expired).toList ++ s.log })

/-- `_find_assignment`: the listed assignment, and whether it is present, absent
or unknown. -/
def findAssignment (w : Server) (s : State) : Option Proxy × Option Bool × State :=
  let listed := w.assignments s.clock s.listings
  let s := { s with clock := listed.clock, listings := s.listings + 1 }
  match listed.assignments with
  | .error error => (none, none, { s with listingError := some error })
  | .ok assignments =>
      let s := { s with listed := assignments.map Prod.fst :: s.listed, listingError := none }
      match assignments.find? (·.1 = w.endpoint) with
      | some assignment => (some assignment.2, some true, s)
      | none => (none, some false, s)

/-- `_refresh_token`; `code` is the status code it was called for. -/
def refreshToken (w : Server) (cfg : Config) (code : Option Nat) (s : State) :
    ReadStatus × State :=
  let extra := (w.assignments s.clock s.listings).extra
  let record (status : ReadStatus) (s : State) : ReadStatus × State :=
    (status, { s with log := .refresh code status :: s.log })
  match findAssignment w s with
  | (_, some false, s) =>
      record .sessionLost { s with lastEndpointPresent := some false }
  | (_, none, s) =>
      record .degraded ({ s with lastEndpointPresent := none }.problem
        ("listing the assignments failed (" ++ s.listingError.getD "None" ++ ")"))
  | (none, some true, s) =>
      record .degraded ({ s with lastEndpointPresent := some true }.problem
        "the assignment listing returned no entry for this endpoint")
  | (some proxy, some true, s) =>
      let s := { s with lastEndpointPresent := some true }
      match proxy.token.filter (· ≠ "") with
      | none =>
          record .degraded
            (s.problem "the listed assignment carries no runtime-proxy token")
      | some token =>
          let url := (proxy.url.filter (· ≠ "")).getD s.session.url
          record .ok { s with
            session := ⟨token, url⟩
            tokenExpiry := s.clock + cfg.notFoundRefreshInterval + extra }

def classifyEndpoint (w : Server) (s : State) : ReadStatus × State :=
  match s.lastEndpointPresent with
  | some true => (.degraded, s)
  | some false => (.sessionLost, s)
  | none =>
      match findAssignment w s with
      | (_, present, s) =>
          (if present = some false then .sessionLost else .degraded,
            { s with lastEndpointPresent := present })

def shouldRefresh404 (cfg : Config) (s : State) : Bool :=
  match s.last404RefreshAt with
  | none => true
  | some last => decide (cfg.notFoundRefreshInterval ≤ s.clock - last)

/-!
## The retry loops
-/

structure Budget where
  refreshAttempted : Bool
  transientRetries : Nat
  deriving DecidableEq, Repr

namespace Budget

def start : Budget := ⟨false, 0⟩

def measure (cfg : Config) (b : Budget) : Nat :=
  (if b.refreshAttempted then 0 else 1) + (cfg.maxRetries - b.transientRetries)

/-- `refresh_attempted = True`, where it was False. -/
def refresh (cfg : Config) (b : Budget) (h : b.refreshAttempted = false) :
    { next : Budget // measure cfg next < measure cfg b } :=
  ⟨{ b with refreshAttempted := true }, by simp [measure, h]⟩

/-- `transient_retries += 1`, where retries are left. -/
def retry (cfg : Config) (b : Budget) (h : b.transientRetries < cfg.maxRetries) :
    { next : Budget // measure cfg next < measure cfg b } :=
  ⟨{ b with transientRetries := b.transientRetries + 1 }, by
    simp only [measure]
    omega⟩

end Budget

abbrev Attempts (cfg : Config) (result : Type) :=
  (b : Budget) -> State -> Turn (Budget.measure cfg) b result × State

def Attempts.loop {cfg : Config} {result : Type} (body : Attempts cfg result) :
    Loop Budget State result :=
  ⟨Budget.measure cfg, body⟩

def Attempts.run {cfg : Config} {result : Type} (body : Attempts cfg result)
    (s : State) : result × State :=
  body.loop.run Budget.start s

def refreshable (e : Error) : Bool :=
  e.statusCode = some 401 || e.statusCode = some 404

/-- ` (after n retries)`, when there were any. -/
def retriesNote (retries : Nat) : String :=
  if retries = 0 then ""
  else s!" (after {retries} retr" ++ (if retries = 1 then "y" else "ies") ++ ")"

def failed (what : String) (e : Error) (retries : Nat) (after : String) : String :=
  s!"{what}: {e.text}{retriesNote retries}" ++
    (if after = "" then "" else s!"; {after}")

def retryOr {cfg : Config} {result : Type} (b : Budget) (e : Error)
    (giveUp : State -> Turn (Budget.measure cfg) b result × State) (s : State) :
    Turn (Budget.measure cfg) b result × State :=
  if h : e.isTransient ∧ b.transientRetries < cfg.maxRetries then
    (.again (b.retry cfg h.right), s.sleep cfg b.transientRetries)
  else giveUp s

/-!
### Reading
-/

def decodeContentsPayload (w : Server) (payload : Json) (remotePath : String)
    (s : State) : (Json × ReadStatus) × State :=
  match payload with
  | .obj fields =>
      match fields.lookup "content" with
      | none => ((.obj fields, .ok), s)
      | some content =>
          if Json.Fields.get fields "format" matches .str "base64" then
            let decoded : Except String String :=
              match content with
              | .str text => w.decode text
              | _ => .error "TypeError: argument should be bytes-like or ASCII"
            match decoded with
            | .ok text => ((.str text, .ok), s)
            | .error error =>
                ((.null, .degraded), s.problem
                  s!"{remotePath}: base64 content does not decode ({error})")
          else ((content, .ok), s)
  | value => ((value, .ok), s)

/-- One pass of `_read`. -/
def readAttempt (w : Server) (cfg : Config) (remotePath : String) :
    Attempts cfg (Json × ReadStatus) := fun b s =>
  match request w .get remotePath s with
  | (.ok payload, s) =>
      let (value, s) := decodeContentsPayload w payload remotePath s
      (.leave value, s)
  | (.error e, s) =>
      if h : refreshable e ∧ b.refreshAttempted = false then
        if e.statusCode = some 404 ∧ shouldRefresh404 cfg s = false then
          (.leave (.null, .notFound), s)
        else
          match refreshToken w cfg e.statusCode s with
          | (.sessionLost, s) =>
              (.leave (.null, .sessionLost), s.problem
                (s!"{remotePath}: HTTP {e.statusCode.getD 0}, and the assignment " ++
                  "is no longer listed"))
          | (.ok, s) =>
              (.again (b.refresh cfg h.right),
                if e.statusCode = some 404 then
                  { s with last404RefreshAt := some s.clock }
                else s)
          | (_, s) =>
              (.leave (.null, .degraded), s.problem
                (s!"{remotePath}: HTTP {e.statusCode.getD 0}, and the token refresh " ++
                  "failed (" ++ s.lastProblem.getD "None" ++ ")"))
      else
        retryOr b e (fun s =>
          if e.statusCode = some 404 ∧ b.refreshAttempted then
            -- the endpoint is healthy and the path itself is absent
            (.leave (.null, .notFound), s)
          else
            let s := s.problem s!"{remotePath}: {e.text}{retriesNote b.transientRetries}"
            let (status, s) := classifyEndpoint w s
            (.leave (.null, status), s)) s

def read (w : Server) (cfg : Config) (remotePath : String) (s : State) :
    (Json × ReadStatus) × State :=
  (readAttempt w cfg remotePath).run s

def readJson (w : Server) (cfg : Config) (remotePath : String) (s : State) :
    (Option Json.Fields × ReadStatus) × State :=
  match read w cfg remotePath s with
  | ((value, .ok), s) =>
      match value with
      | .obj fields => ((some fields, .ok), s)
      | .str text =>
          match w.loads text with
          | .ok (.obj fields) => ((some fields, .ok), s)
          | .ok decoded =>
              ((none, .degraded), s.problem
                s!"{remotePath} is JSON but not an object ({decoded.typeName})")
          | .error error =>
              ((none, .degraded), s.problem s!"{remotePath} is not JSON ({error})")
      | value =>
          ((none, .degraded), s.problem
            (s!"{remotePath} is not JSON (TypeError: the JSON object must be str, " ++
              s!"bytes or bytearray, not {value.typeName})"))
  | ((_, status), s) => ((none, status), s)

def readText (w : Server) (cfg : Config) (remotePath : String) (s : State) :
    (Option String × ReadStatus) × State :=
  match read w cfg remotePath s with
  | ((value, .ok), s) => ((some value.pyStr, .ok), s)
  | ((_, status), s) => ((none, status), s)

/-!
### Writing
-/

/-- `_last_404_refresh_at = time.monotonic()` as the writing operations set it: after
a 404, before the refresh is known to have succeeded. -/
def stampBefore (e : Error) (stamps : Bool) (s : State) : State :=
  if stamps ∧ e.statusCode = some 404 then { s with last404RefreshAt := some s.clock }
  else s

/-- `_confirm_text`: true if the remote file matches, false if absent. -/
def confirmText (w : Server) (remotePath payload : String) (s : State) :
    Option Bool × State :=
  match request w .get remotePath s with
  | (.ok raw, s) =>
      match decodeContentsPayload w raw "" s with
      | ((.str text, .ok), s) => (some (decide (text = payload)), s)
      | ((_, .ok), s) => (some false, s)
      | ((_, _), s) => (none, s)
  | (.error e, s) => (if e.cause = .notFound then some false else none, s)

/-- `_confirm_size`: true if the remote file exists at the size, false if absent. -/
def confirmSize (w : Server) (remotePath : String) (size : Nat) (s : State) :
    Option Bool × State :=
  match request w .get remotePath s with
  | (.ok (.obj fields), s) =>
      ((Json.Fields.get fields "size").toInt?.map fun n : Int => decide (n = size), s)
  | (.ok _, s) => (none, s)
  | (.error e, s) => (if e.cause = .notFound then some false else none, s)

/-- `_confirm_directory`: true if the path is a directory, false if absent. -/
def confirmDirectory (w : Server) (remoteDir : String) (s : State) :
    Option Bool × State :=
  match request w .get remoteDir s with
  | (.ok (.obj fields), s) =>
      (some (Json.Fields.get fields "type" matches .str "directory"), s)
  | (.ok _, s) => (none, s)
  | (.error e, s) => (if e.cause = .notFound then some false else none, s)

/-- The requests of `ContentsClient.upload`: one for each chunk, until one fails. -/
def contentsUpload (w : Server) (remotePath : String) :
    (chunks : Nat) -> State -> Except Error Unit × State
  | 0, s => (.ok (), s)
  | chunks + 1, s =>
      match request w .put remotePath s with
      | (.ok _, s) => contentsUpload w remotePath chunks s
      | (.error e, s) => (.error e, s)

def chunkSize : Nat := 1024 * 1024

def chunkCount (size : Nat) : Nat :=
  if size ≤ chunkSize then 1 else (size + chunkSize - 1) / chunkSize

/-- One pass of `_write`. -/
def writeAttempt (w : Server) (cfg : Config) (remotePath payload : String) :
    Attempts cfg ReadStatus := fun b s =>
  match contentsUpload w remotePath (chunkCount payload.utf8ByteSize) s with
  | (.ok (), s) => (.leave .ok, s)
  | (.error e, s) =>
      if h : refreshable e ∧ b.refreshAttempted = false then
        match refreshToken w cfg e.statusCode (stampBefore e true s) with
        | (.sessionLost, s) => (.leave .sessionLost, s)
        | (.ok, s) => (.again (b.refresh cfg h.right), s)
        | (_, s) => (.leave .degraded, s)
      else
        let giveUp (s : State) : Turn (Budget.measure cfg) b ReadStatus × State :=
          if e.statusCode = some 404 ∧ b.refreshAttempted then (.leave .notFound, s)
          else
            let (status, s) := classifyEndpoint w s
            (.leave status, s)
        if e.cause = .timeout then
          match confirmText w remotePath payload s with
          | (some true, s) => (.leave .ok, s)
          | (none, s) => (.leave .degraded, s)
          | (some false, s) => retryOr b e giveUp s
        else retryOr b e giveUp s

/-- `_write`, and so `write_text` and `write_json` of a payload already dumped. -/
def write (w : Server) (cfg : Config) (remotePath payload : String) (s : State) :
    ReadStatus × State :=
  (writeAttempt w cfg remotePath payload).run s

structure TransportError where
  status : ReadStatus
  message : String

/-- One pass of `upload` or `makedirs`, which differ in the requests they make,
in how a timeout is confirmed, in what they call a failure, and in whether a 404
stamps the refresh time. -/
def sendAttempt (w : Server) (cfg : Config) (stamps : Bool)
    (send : State -> Except Error Unit × State)
    (confirm : State -> Option Bool × State) (what : String) :
    Attempts cfg (Except TransportError Unit) := fun b s =>
  match send s with
  | (.ok (), s) => (.leave (.ok ()), s)
  | (.error e, s) =>
      if h : refreshable e ∧ b.refreshAttempted = false then
        match refreshToken w cfg e.statusCode (stampBefore e stamps s) with
        | (.ok, s) => (.again (b.refresh cfg h.right), s)
        | (status, s) =>
            (.leave (.error ⟨status, failed what e 0
              s!"the token refresh failed ({status.value})"⟩), s)
      else
        let giveUp (s : State) :
            Turn (Budget.measure cfg) b (Except TransportError Unit) × State :=
          let (status, s) := classifyEndpoint w s
          (.leave (.error ⟨status, failed what e b.transientRetries ""⟩), s)
        if e.cause = .timeout then
          match confirm s with
          | (some true, s) => (.leave (.ok ()), s)
          | (none, s) =>
              (.leave (.error ⟨.degraded, failed what e b.transientRetries
                "whether it completed could not be confirmed"⟩), s)
          | (some false, s) => retryOr b e giveUp s
        else retryOr b e giveUp s

/-- `upload` of a local file of this size. -/
def upload (w : Server) (cfg : Config) (size : Nat) (remotePath : String) (s : State) :
    Except TransportError Unit × State :=
  (sendAttempt w cfg true (contentsUpload w remotePath (chunkCount size))
    (confirmSize w remotePath size) s!"upload failed: {remotePath}").run s

/-- The directories `makedirs` walks through: each ancestor, then the path. -/
def ancestors (remoteDir : String) : List String :=
  let parts := ((remoteDir.splitOn "/").filter (· ≠ ""))
  parts.inits.tail.map ("/".intercalate ·)

/-- `ContentsClient.makedirs`: look at each directory, make those missing. -/
def contentsMakedirs (w : Server) (remoteDir : String) :
    List String -> State -> Except Error Unit × State
  | [], s => (.ok (), s)
  | path :: rest, s =>
      let create (s : State) : Except Error Unit × State :=
        match request w .put path s with
        | (.ok _, s) => contentsMakedirs w remoteDir rest s
        | (.error e, s) => (.error e, s)
      match request w .get path s with
      | (.ok .null, s) => create s
      | (.ok (.obj fields), s) =>
          if Json.Fields.get fields "type" matches .str "directory" then
            contentsMakedirs w remoteDir rest s
          else
            (.error ⟨.other, s!"NotADirectoryError: Cannot create directory " ++
              s!"{Json.reprStr remoteDir}: {Json.reprStr path} already exists and is a file"⟩, s)
      | (.ok value, s) =>
          (.error ⟨.other,
            s!"AttributeError: {Json.reprStr value.typeName} object has no attribute 'get'"⟩, s)
      | (.error e, s) => if e.cause = .notFound then create s else (.error e, s)

def makedirs (w : Server) (cfg : Config) (remoteDir : String) (s : State) :
    Except TransportError Unit × State :=
  (sendAttempt w cfg false (contentsMakedirs w remoteDir (ancestors remoteDir))
    (confirmDirectory w remoteDir) s!"could not create {remoteDir}").run s

/-!
### Removing
-/

/-- One pass of the DELETE loop of `remove`: no result means it goes on to
confirm. -/
def deleteAttempt (w : Server) (cfg : Config) (remotePath : String) :
    Attempts cfg (Option ReadStatus) := fun b s =>
  match request w .delete remotePath s with
  | (.ok _, s) => (.leave none, s)
  | (.error e, s) =>
      if e.cause = .notFound then (.leave none, s)
      else if h : refreshable e ∧ b.refreshAttempted = false then
        match refreshToken w cfg e.statusCode s with
        | (.ok, s) => (.again (b.refresh cfg h.right), s)
        | (status, s) => (.leave (some status), s)
      else
        retryOr b e (fun s =>
          let (status, s) := classifyEndpoint w s
          (.leave (some status), s)) s

/-- One pass of the confirming GET loop of `remove`. -/
def confirmAttempt (w : Server) (cfg : Config) (remotePath : String) :
    Attempts cfg ReadStatus := fun b s =>
  match request w .get remotePath s with
  | (.ok _, s) => (.leave .degraded, s)
  | (.error e, s) =>
      if e.cause = .notFound then (.leave .ok, s)
      else if h : refreshable e ∧ b.refreshAttempted = false then
        match refreshToken w cfg e.statusCode s with
        | (.sessionLost, s) => (.leave .ok, s)
        | (.ok, s) => (.again (b.refresh cfg h.right), s)
        | (_, s) => (.leave .degraded, s)
      else retryOr b e (fun s => (.leave .degraded, s)) s

def remove (w : Server) (cfg : Config) (remotePath : String) (s : State) :
    ReadStatus × State :=
  match (deleteAttempt w cfg remotePath).run s with
  | (some status, s) => (status, s)
  | (none, s) => (confirmAttempt w cfg remotePath).run s

end Transport
end Job
end MightyColab
