import Lodger.Security
import Lodger.Lib.Split
import Lodger.Xml.Pool
import Lodger.Db

namespace Lodger.Http

open ClientIp (HeaderMap HeaderValue header toStr)
open Security (Panic headerOf)
open Setup (trim)
open Split (splitOnce)
open Xml (eqIgnoreAsciiCase)
open Lodger.Db (Key Session)

inductive Method where
  | get
  | head
  | post
  | put
  | patch
  | delete
  | options
  | other (name : String)
deriving DecidableEq, Repr

inductive StatusCode where
  | switchingProtocols
  | ok
  | created
  | noContent
  | notModified
  | badRequest
  | unauthorized
  | forbidden
  | notFound
  | methodNotAllowed
  | conflict
  | unprocessableEntity
  | tooManyRequests
  | internalServerError
  | badGateway
  | serviceUnavailable
deriving DecidableEq, Repr

-- GET and HEAD change nothing.
def isSafe (method : Method) : Bool := method = .get || method = .head

-- Whether a state-changing request comes from a Lodger page.
def fromLodger (headers : HeaderMap) (publicOrigin : Option String) : Bool :=
  if header headers "sec-fetch-site" = some "same-origin" then true
  else
    match header headers "origin", publicOrigin with
    | some origin, some own => eqIgnoreAsciiCase origin own
    | _, _ => false

section Cookies

def COOKIE : String := "__Host-lodger_sid"

-- The name and the value of each cookie of one line.
def cookiePairs (line : String) : List (List Char × List Char) :=
  (line.toList.splitOn ';').filterMap fun pair =>
    splitOnce '=' (trim (String.ofList pair)).toList

-- Every line of the name counts, and the first cookie of the name.
def cookieToken (headers : HeaderMap) : Option String :=
  let lines := (headers.filter (·.1 = "cookie")).filterMap fun line => toStr line.2
  ((lines.flatMap cookiePairs).lookup COOKIE.toList).map String.ofList

def cookieText (token : String) : String :=
  COOKIE ++ "=" ++ token ++ "; Path=/; Secure; HttpOnly; SameSite=Strict"

def setCookie (token : String) : Except Panic HeaderValue := headerOf (cookieText token)

def clearCookie : Except Panic HeaderValue := headerOf (cookieText "" ++ "; Max-Age=0")

end Cookies

def CSRF_HEADER : String := "x-csrf-token"

-- The bytes of the header are those of the token.
def csrfMatches (headers : HeaderMap) (session : Session) : Bool :=
  (headers.get CSRF_HEADER).any (· = session.csrfToken.toUTF8.data.toList)

-- The SHA-256 of the request's session token names its session.
def sessionKey (sha256 : String → Key) (headers : HeaderMap) : Option Key :=
  (cookieToken headers).map sha256

end Lodger.Http
