import MightyColab.Lib.IpAddress
import MightyColab.Lib.Prog

/-!
# Public destinations

`netpolicy`: the check of a URL, the request that is pinned to an address of that check,
and the redirects that the standard library follows. A URL is what `urlsplit` makes of
its text, or none where that raises. The resolver may answer each lookup as it likes, and
so may the server each request.
-/

namespace MightyColab
namespace NetPolicy

open Lib

/-!
## URLs
-/

/-- `parts.port`: a number, or a text that raises. -/
inductive Port where
  | none
  | number (n : Nat)
  | invalid
  deriving DecidableEq, Repr

structure Netloc where
  /-- `hostname`, in lower case; empty where there is none. -/
  hostname : String
  port : Port := .none
  deriving DecidableEq, Repr

structure Url where
  scheme : String
  netloc : Option Netloc
  path : String := ""
  query : String := ""
  fragment : String := ""
  deriving DecidableEq, Repr

/-- The segments that `urljoin` resolves `.` and `..` in. -/
def resolveDots (segments : List (List Char)) : List (List Char) :=
  let resolved := segments.foldl (fun (out : List (List Char)) segment =>
    if segment = ['.', '.'] then out.dropLast
    else if segment = ['.'] then out
    else out ++ [segment]) []
  match segments.getLast? with
  | some last => if last = ['.'] ∨ last = ['.', '.'] then resolved ++ [[]] else resolved
  | none => resolved

def dropInnerEmpty (segments : List (List Char)) : List (List Char) :=
  segments.take 1 ++ ((segments.drop 1).dropLast).filter (· ≠ []) ++
    (segments.drop 1).getLast?.toList

def joinPath (base path : String) : String :=
  let baseParts := base.toList.splitOn '/'
  let baseParts := if baseParts.getLast? = some [] then baseParts else baseParts.dropLast
  let segments :=
    if path.toList.head? = some '/' then path.toList.splitOn '/'
    else dropInnerEmpty (baseParts ++ path.toList.splitOn '/')
  let joined := ['/'].intercalate (resolveDots segments)
  if joined = [] then "/" else String.ofList joined

/-- `urljoin` of a base with a host; the reference may leave out its scheme. -/
def urljoin (base reference : Url) : Url :=
  let scheme := if reference.scheme = "" then base.scheme else reference.scheme
  if scheme ≠ base.scheme ∨ scheme ∉ ["http", "https", "ftp"] then reference
  else if reference.netloc.isSome then { reference with scheme }
  else if reference.path = "" then
    { reference with
      scheme
      netloc := base.netloc
      path := base.path
      query := if reference.query = "" then base.query else reference.query }
  else
    { reference with
      scheme, netloc := base.netloc, path := joinPath base.path reference.path }

/-!
## The network
-/

inductive Raised where
  /-- `BlockedDestination`. -/
  | blocked (text : String)
  | valueError
  /-- `gaierror`. -/
  | lookup
  /-- `URLError`, or what ends a request without a response. -/
  | network
  /-- `HTTPError`, or `HTTPStatusError`. -/
  | http
  deriving DecidableEq, Repr

structure Connection where
  /-- It speaks TLS. -/
  https : Bool
  address : String
  port : Nat
  serverName : String
  deriving DecidableEq, Repr

structure Hop where
  /-- The host that the hop names: its URL's, or for a relative target the host of the
  hop before it. -/
  host : String
  connection : Connection
  hostHeader : String
  deriving DecidableEq, Repr

structure Net where
  /-- The lookups so far. -/
  lookups : Nat := 0
  /-- The hosts that passed the check, with the addresses of their lookup. -/
  checked : List (String × List String) := []
  sent : List Hop := []

abbrev Program (result : Type) := Prog Net Raised result

/-- The answer to each lookup: none where it raises. -/
abbrev Resolver := Nat -> String -> Nat -> Option (List String)

/-!
## The check of a destination
-/

def literalHost (host : String) : String :=
  let text := host.toList
  let text :=
    if text.head? = some '[' ∧ text.getLast? = some ']' then (text.drop 1).dropLast else text
  String.ofList (text.takeWhile (· ≠ '%'))

def addressIsPublic (value : String) : Bool :=
  match IpAddress.read (literalHost value) with
  | none => false
  | some address =>
      let address := address.mapped.getD address
      address.isGlobal && !address.isMulticast

/-- `socket.getaddrinfo`. -/
def getaddrinfo (dns : Resolver) (host : String) (port : Nat) : Program (List String) := do
  let net ← Prog.get
  Prog.modify fun net => { net with lookups := net.lookups + 1 }
  match dns net.lookups host port with
  | some addresses => return addresses
  | none => Prog.raise .lookup

def requirePublic (host : String) (addresses : List String) : Program (List String) := do
  let literal := literalHost host
  let blocked := addresses.filter fun ip => !addressIsPublic ip
  if addresses = [] then Prog.raise (.blocked s!"no addresses for {literal}")
  else if blocked ≠ [] then
    Prog.raise (.blocked (s!"non-public address for {literal}: " ++ ", ".intercalate blocked))
  else
    Prog.modify fun net => { net with checked := (host, addresses) :: net.checked }
    return addresses

def addressesOf (dns : Resolver) (literal : String) (port : Nat) : Program (List String) :=
  if (IpAddress.read literal).isSome then pure [literal] else getaddrinfo dns literal port

def resolvePublicAddresses (dns : Resolver) (host : String) (port : Nat) :
    Program (List String) := do
  let addresses ← addressesOf dns (literalHost host) port
  requirePublic host addresses

/-- `parts.port or 443`. -/
def portOf (netloc : Netloc) : Program Nat :=
  match netloc.port with
  | .none => return 443
  | .number n => return if n = 0 then 443 else n
  | .invalid => Prog.raise .valueError

/-- What `check_url` returns. -/
structure Destination where
  host : String
  ip : String
  port : Nat
  deriving DecidableEq, Repr

def checkUrl (dns : Resolver) (url : Option Url) : Program Destination := do
  match url with
  | none => Prog.raise (.blocked "invalid URL")
  | some url =>
      if url.scheme ≠ "https" then Prog.raise (.blocked "URL scheme must be https")
      else
        match url.netloc with
        | none => Prog.raise (.blocked "URL has no host")
        | some netloc =>
            if netloc.hostname = "" then Prog.raise (.blocked "URL has no host")
            else
              let port ← portOf netloc
              let addresses ← resolvePublicAddresses dns netloc.hostname port
              return { host := netloc.hostname, ip := addresses.headD "", port }

/-!
## Requests and redirects
-/

structure Request where
  url : Url
  /-- The host that the hop names. -/
  host : String
  method : String
  hostHeader : String

/-- What a server answers to a request. -/
inductive Response where
  /-- The request ends without a response. -/
  | failed
  /-- A response that is no redirect: a success, or not. -/
  | final (ok : Bool)
  /-- A redirect, its `Location` where it has one, and what `urlsplit` makes of that. -/
  | redirect (code : Nat) (location : Option (Option Url))

def send (hop : Hop) : Program Unit :=
  Prog.modify fun net => { net with sent := net.sent ++ [hop] }

def ownConnection (url : Url) (port : Nat) : Connection where
  https := false
  address := (url.netloc.map Netloc.hostname).getD ""
  port := match url.netloc.map Netloc.port with
    | some (.number n) => n
    | _ => port
  serverName := ""

/-- The connection that the pinned handler makes, which leaves the request's own host
aside. -/
def Destination.connection (pin : Destination) : Connection where
  https := true
  address := pin.ip
  port := pin.port
  serverName := pin.host

/-- The handler that `opener.open` picks by the URL's scheme. -/
def connect (pin : Destination) (req : Request) : Program Unit :=
  match req.url.scheme with
  | "https" => send ⟨req.host, pin.connection, req.hostHeader⟩
  | "http" => send ⟨req.host, ownConnection req.url 80, req.hostHeader⟩
  | "ftp" => send ⟨req.host, ownConnection req.url 21, req.hostHeader⟩
  | _ => Prog.raise .network

/-- `HTTPRedirectHandler.redirect_request`: the methods it redirects. -/
def redirectable (method : String) (code : Nat) : Bool :=
  decide ((code ∈ [301, 302, 303, 307, 308] ∧ method ∈ ["GET", "HEAD"]) ∨
    (code ∈ [301, 302, 303] ∧ method = "POST"))

/-- `_PublicRedirectHandler.redirect_request`; the headers go along, the method does
not. -/
def redirectRequest (dns : Resolver) (req : Request) (code : Nat) (url : Url)
    (host : String) : Program Request := do
  let _ ← checkUrl dns (some url)
  if redirectable req.method code then
    return { url, host, method := "GET", hostHeader := req.hostHeader }
  else Prog.raise .http

/-- `http_error_302` up to the new request: none where the response is no redirect it
handles. -/
def newRequest (dns : Resolver) (req : Request) (code : Nat)
    (location : Option (Option Url)) (visited : List Url) : Program Request := do
  match location with
  | none => Prog.raise .http
  | some none => Prog.raise .valueError
  | some (some target) =>
      if code ∉ [301, 302, 303, 307, 308] then Prog.raise .http
      else if target.scheme ∉ ["http", "https", "ftp", ""] then Prog.raise .http
      else
        let target :=
          if target.path = "" ∧ target.netloc.isSome then { target with path := "/" }
          else target
        let url := urljoin req.url target
        let host := (target.netloc.map Netloc.hostname).getD req.host
        let new ← redirectRequest dns req code url host
        if visited.count url ≥ 4 ∨ visited.dedup.length ≥ 10 then Prog.raise .http
        else return new

/-- `opener.open`, request after request. -/
def openRequest (dns : Resolver) (pin : Destination) :
    List Response -> List Url -> Request -> Program Unit
  | [], _, req => do
      connect pin req
      Prog.raise .network
  | .failed :: _, _, req => do
      connect pin req
      Prog.raise .network
  | .final ok :: _, _, req => do
      connect pin req
      if ok then return () else Prog.raise .http
  | .redirect code location :: rest, visited, req => do
      connect pin req
      let new ← newRequest dns req code location visited
      openRequest dns pin rest (visited ++ [new.url]) new

def pinnedUrl (url : Url) (pin : Destination) : Url :=
  { url with netloc := some { hostname := pin.ip, port := .number pin.port } }

def urlopenPublic (dns : Resolver) (url : Option Url) (method : String)
    (responses : List Response) : Program Unit := do
  let pin ← checkUrl dns url
  match url with
  | none => Prog.raise .valueError
  | some url =>
      openRequest dns pin responses []
        { url := pinnedUrl url pin, host := pin.host, method, hostHeader := pin.host }

/-- What comes of a PUT once its connection is made: a response or none. -/
def putPublic (dns : Resolver) (url : Option Url) (response : Option Bool) :
    Program Unit := do
  let pin ← checkUrl dns url
  send ⟨pin.host, pin.connection, pin.host⟩
  match response with
  | none => Prog.raise .network
  | some ok => if ok then return () else Prog.raise .http

end NetPolicy
end MightyColab
