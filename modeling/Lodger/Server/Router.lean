import Lodger.Server.Handlers

namespace Lodger.Server

open Lodger.Lib Lodger.Db Lodger.Http Lodger.Libvirt
open ClientIp (header)
open Xml Validate

variable [Formats]

section Guard

-- The live session of a request's cookie; `none` stands for an error of the database.
def lookup (req : Request) : M (Option (Option Session)) := do
  match sessionKey Formats.sha256 req.headers with
  | none => return some none
  | some key => do
      let reply : Except String (Option Session) ← ask (.session key)
      return reply.toOption

def requireSession (req : Request) (next : Session → M Response) : M Response := do
  let found : Option (Option Session) ← lookup req
  match found with
  | none => return lookupFailed
  | some none => return unauthorized
  | some (some session) =>
      if !isSafe req.method && !csrfMatches req.headers session then
        return error .forbidden "missing or wrong X-CSRF-Token"
      else next session

def FOREIGN : String := "this request must come from a Lodger page. If it does, your browser " ++
  "sends no Sec-Fetch-Site header: set public_url in the configuration file"

def requireSameOrigin (state : AppState) (req : Request) (next : M Response) : M Response :=
  if isSafe req.method || fromLodger req.headers state.publicOrigin then next
  else return error .forbidden FOREIGN

-- The handlers of `auth.rs` behind the guard read the cookie again.
def logout (req : Request) : M Response := do
  let token : String ← expect "require_session found the cookie" (cookieToken req.headers)
  let reply : Except String Unit ← ask (.deleteSession (Formats.sha256 token))
  match reply with
  | .error _ => return error .internalServerError "cannot end the session"
  | .ok () => return { status := .noContent, cookie := clearCookie.toOption }

def issueTicket (req : Request) : M Response := do
  let key : Key ← expect "require_session found the cookie"
    (sessionKey Formats.sha256 req.headers)
  let reply : Except String (Option String) ← ask (.issueTicket key (header req.headers "origin"))
  match reply with
  | .ok (some ticket) => return { status := .created, body := .ticket ticket }
  | .ok none => return error .tooManyRequests "too many open tickets"
  | .error _ => return error .internalServerError "cannot make a ticket"

-- The routes of the sockets check the upgrade themselves.
def openSocket (req : Request) (next : Key → M Response) : M Response := do
  let found : Option (Option Session) ← lookup req
  match found with
  | none => return lookupFailed
  | some none => return unauthorized
  | some (some _) => do
      let key : Key ← expect "lookup found the cookie" (sessionKey Formats.sha256 req.headers)
      let redeemed : Bool ← ask (.redeem (req.ticket.getD "") key (header req.headers "origin"))
      if redeemed then next key
      else
        return (error .forbidden "missing, used, or expired ticket, or a page from another origin")

-- A request that asks for no WebSocket does not reach the handler.
def withUpgrade (req : Request) (next : M Response) : M Response :=
  if req.upgrade && req.method = .get then next else return { status := .badRequest }

def events (req : Request) : M Response :=
  withUpgrade req <|
  openSocket req fun key => return { status := .switchingProtocols, body := .events key }

def vnc (req : Request) (id : Uuid) : M Response :=
  withUpgrade req <|
  openSocket req fun key => do
    let connected : Bool ← ask .connected
    if connected then
      let socket : Except CallError (Except String Unit) ← ask (.openVnc id)
      withReply socket
        (fun e => if e.isNotFound then { status := .notFound } else error .conflict e.text)
        fun ready =>
          match ready with
          | .ok () => return { status := .switchingProtocols, body := .display key id }
          | .error e => return error .internalServerError e
    else return error .serviceUnavailable "libvirt is not connected"

end Guard

section Routes

inductive Segment where
  | lit (text : String)
  | param
deriving DecidableEq, Repr

-- A parameter is never empty.
def Segment.accepts : Segment → String → Bool
  | .lit text, part => part = text
  | .param, part => part ≠ ""

def matchPath : List Segment → List String → Bool
  | [], [] => true
  | segment :: segments, part :: parts => segment.accepts part && matchPath segments parts
  | _, _ => false

-- The parameters of the path come before the handler: a bad one is a 400.
def withId (parts : List String) (i : Nat) (next : Uuid → M Response) : M Response :=
  match (parts[i]?.bind Formats.decode).bind Formats.uuid with
  | some id => next id
  | none => return { status := .badRequest }

def withText (parts : List String) (i : Nat) (next : String → M Response) : M Response :=
  match parts[i]?.bind Formats.decode with
  | some text => next text
  | none => return { status := .badRequest }

structure Route where
  path : List Segment
  method : Method
  handle : AppState → Request → Session → M Response

def handler (h : Handler) : M Response := do
  let page : Page ← ask (.handler h)
  return { status := page.status, body := .page, cookie := page.cookie }

variable [Xmltree] [Emitter] [Ipnet]

def api (parts : List Segment) : List Segment := .lit "api" :: parts

-- The routes behind `require_session`.
def protectedRoutes : List Route := [
  ⟨api [.lit "host"], .get, fun _ _ _ => handler (.read "host")⟩,
  ⟨api [.lit "vms"], .get, fun _ _ _ => handler (.read "vms")⟩,
  ⟨api [.lit "vms", .param], .get, fun _ _ _ => handler (.read "vm")⟩,
  ⟨api [.lit "vms", .param], .delete, fun state req session =>
    withId req.path 2 (Actions.delete state req session)⟩,
  ⟨api [.lit "vms", .param], .patch, fun state req session =>
    withId req.path 2 (Actions.update state req session)⟩,
  ⟨api [.lit "vms", .param, .lit "actions", .param], .post, fun state req session =>
    withId req.path 2 fun id => withText req.path 4 (Actions.run state req session id)⟩,
  ⟨api [.lit "pools"], .get, fun _ _ _ => handler (.read "pools")⟩,
  ⟨api [.lit "pools"], .post, Pools.create⟩,
  ⟨api [.lit "pools", .param], .get, fun _ _ _ => handler (.read "pool")⟩,
  ⟨api [.lit "pools", .param], .patch, fun state req session =>
    withId req.path 2 (Pools.change state req session)⟩,
  ⟨api [.lit "pools", .param], .delete, fun state req session =>
    withId req.path 2 (Pools.remove state req session)⟩,
  ⟨api [.lit "pools", .param, .lit "volumes"], .get, fun _ req _ =>
    withId req.path 2 Volumes.list⟩,
  ⟨api [.lit "pools", .param, .lit "volumes"], .post, fun state req session =>
    withId req.path 2 (Volumes.create state req session)⟩,
  ⟨api [.lit "pools", .param, .lit "volumes", .param], .delete, fun state req session =>
    withId req.path 2 fun id => withText req.path 4 (Volumes.remove state req session id)⟩,
  ⟨api [.lit "networks"], .get, fun _ _ _ => handler (.read "networks")⟩,
  ⟨api [.lit "networks"], .post, Networks.create⟩,
  ⟨api [.lit "networks", .param], .get, fun _ _ _ => handler (.read "network")⟩,
  ⟨api [.lit "networks", .param], .patch, fun state req session =>
    withId req.path 2 (Networks.change state req session)⟩,
  ⟨api [.lit "networks", .param], .delete, fun state req session =>
    withId req.path 2 (Networks.remove state req session)⟩,
  ⟨api [.lit "host-bridges"], .get, fun _ _ _ => handler (.read "host-bridges")⟩,
  ⟨api [.lit "session"], .get, fun _ _ _ => handler .currentSession⟩,
  ⟨api [.lit "session"], .delete, fun _ req _ => logout req⟩,
  ⟨api [.lit "ws-tickets"], .post, fun _ req _ => issueTicket req⟩,
  ⟨api [.lit "accounts"], .get, fun _ _ _ => handler (.read "accounts")⟩,
  ⟨api [.lit "accounts"], .post, fun _ _ _ => handler .createAccount⟩,
  ⟨api [.lit "accounts", .param], .delete, fun _ _ _ => handler .deleteAccount⟩,
  ⟨api [.lit "account", .lit "password"], .post, fun _ _ _ => handler .changePassword⟩]

-- The routes that need no session, or check it themselves.
structure PublicRoute where
  path : List Segment
  method : Method
  handle : Request → M Response

def publicRoutes : List PublicRoute := [
  ⟨api [.lit "health"], .get, fun _ => handler .health⟩,
  ⟨api [.lit "setup"], .get, fun _ => handler .setupStatus⟩,
  ⟨api [.lit "setup"], .post, fun _ => handler .setupClaim⟩,
  ⟨api [.lit "session"], .post, fun _ => handler .login⟩,
  ⟨[.lit "ws", .lit "events"], .get, events⟩,
  ⟨[.lit "ws", .lit "vms", .param, .lit "vnc"], .get, fun req => withId req.path 2 (vnc req)⟩]

-- `get` answers a HEAD, too.
def servedAs (method : Method) : Method := if method = .head then .get else method

-- Paths under `/api` and `/ws` without a handler.
def isReserved : List String → Bool
  | ["api"] | ["ws"] => true
  | "api" :: rest | "ws" :: rest => rest ≠ [""]
  | _ => false

-- What answers a path that no route has: the embedded web UI, which is only read.
def fallback (req : Request) : M Response :=
  if isReserved req.path then return { status := .notFound }
  else if isSafe req.method then return { status := .ok, body := .page }
  else return { status := .methodNotAllowed }

-- A path of a route without this method is a 405, behind the guard of the route.
def otherMethod (req : Request) : M Response :=
  if protectedRoutes.any fun r => matchPath r.path req.path then
    requireSession req fun _ => return { status := .methodNotAllowed }
  else if publicRoutes.any fun r => matchPath r.path req.path then
    return { status := .methodNotAllowed }
  else fallback req

def dispatch (state : AppState) (req : Request) : M Response :=
  match publicRoutes.find? fun r => matchPath r.path req.path && r.method = servedAs req.method with
  | some route => route.handle req
  | none =>
      match protectedRoutes.find? fun r =>
          matchPath r.path req.path && r.method = servedAs req.method with
      | some route => requireSession req (route.handle state req)
      | none => otherMethod req

def serve (state : AppState) (req : Request) : M Response :=
  requireSameOrigin state req (dispatch state req)

end Routes

end Lodger.Server
