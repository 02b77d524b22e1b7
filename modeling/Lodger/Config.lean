import Lodger.ClientIp

namespace Lodger

structure SocketAddr where
  ip : IpAddr
  port : Nat
deriving DecidableEq, Repr

-- 127.0.0.0/8 and ::1
def IpAddr.isLoopback : IpAddr → Bool
  | .v4 bits => bits.extractLsb' 24 8 = 127
  | .v6 bits => bits = 1

structure TlsFiles where
  cert : String
  key : String
deriving DecidableEq, Repr

structure Config where
  listen : SocketAddr
  publicUrl : Option String
  trustedProxies : List ClientIp.IpNet
  tls : Option TlsFiles
  allowPlainHttp : Bool
deriving DecidableEq, Repr

namespace Config

def DEFAULT_LISTEN : SocketAddr := ⟨.v4 0x7f000001, 8460⟩

-- The settings as the file writes them. The keys for the URI and the state directory say nothing
-- to the install.
structure File where
  listen : Option SocketAddr
  publicUrl : Option String
  trustedProxies : List ClientIp.IpNet
  tlsCert : Option String
  tlsKey : Option String
  allowPlainHttp : Bool
deriving DecidableEq, Repr

-- `http::Uri`, as far as an origin needs it.
structure Uri where
  scheme : Option String
  authority : Option String
  host : String
  port : Option Nat
deriving DecidableEq, Repr

-- The crates `toml`, `toml_edit` and `http` are not part of the repository. A document is a text
-- with its comments and the order of its keys.
class Formats where
  Document : Type
  file : String → Except String File
  uri : String → Option Uri
  document : String → Except String Document
  set : Document → String → String → Document
  render : Document → String

inductive UrlError where
  | notUrl | noScheme | badScheme | noHost | userName
deriving DecidableEq, Repr

inductive LoadError where
  | badToml (e : String)
  | publicUrl (url : String) (why : UrlError)
  | halfPair
deriving DecidableEq, Repr

section Load

variable [Formats]

-- The origin of a URL, as a browser writes it.
def originOf (url : String) : Except UrlError String :=
  match Formats.uri url with
  | none => .error .notUrl
  | some uri =>
      match uri.scheme.map String.toLower with
      | none => .error .noScheme
      | some scheme =>
          if scheme ≠ "https" ∧ scheme ≠ "http" then .error .badScheme
          else
            match uri.authority with
            | none => .error .noHost
            | some authority =>
                if '@' ∈ authority.toList then .error .userName
                else
                  let host := uri.host.toLower
                  match uri.port with
                  | some port =>
                      if port ≠ (if scheme = "https" then 443 else 80) then
                        .ok (scheme ++ "://" ++ host ++ ":" ++ toString port)
                      else .ok (scheme ++ "://" ++ host)
                  | none => .ok (scheme ++ "://" ++ host)

-- Half a pair would silently serve plain HTTP.
def tlsOf (file : File) : Except LoadError (Option TlsFiles) :=
  match file.tlsCert, file.tlsKey with
  | some cert, some key => .ok (some ⟨cert, key⟩)
  | none, none => .ok none
  | _, _ => .error .halfPair

def publicUrlOf (file : File) : Except LoadError (Option String) :=
  match file.publicUrl with
  | none => .ok none
  | some url => ((originOf url).mapError (.publicUrl url)).map some

-- The file that is named exists; no flag overrides it.
def load (text : String) : Except LoadError Config := do
  let file ← (Formats.file text).mapError .badToml
  let publicUrl ← publicUrlOf file
  let tls ← tlsOf file
  return ⟨file.listen.getD DEFAULT_LISTEN, publicUrl, file.trustedProxies, tls,
    file.allowPlainHttp⟩

end Load

-- A browser on the network must reach Lodger over TLS.
def checkPlainHttp (config : Config) : Bool :=
  config.listen.ip.isLoopback || config.tls.isSome || !config.trustedProxies.isEmpty ||
    config.allowPlainHttp

end Config

end Lodger
