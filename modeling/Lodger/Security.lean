import Lodger.ClientIp
import Lodger.Lib.Loop
import Lodger.Lib.Search

namespace Lodger.Security

open Search (find dropAt takeAt slice size)

-- `page[a..b]` stops the program at a position that is not between two characters and where the
-- start is after the end; `expect` stops it for a header value that is not ASCII.
inductive Panic where
  | slice | expect
deriving DecidableEq, Repr

-- The crates `sha2` and `base64` are not part of the repository.
class Digest where
  sha256 : List UInt8 → List UInt8
  base64 : List UInt8 → String

def orPanic {α : Type} : Option α → Except Panic α
  | none => .error .slice
  | some a => .ok a

-- Positions count the bytes of UTF-8.
def len (text : List Char) : Nat := size Char.utf8Size text

def SCRIPT : List Char := "<script".toList

def CLOSE : List Char := "</script>".toList

def SRC : List Char := " src=".toList

section Hashes

variable [Digest]

def hashOf (body : List Char) : String :=
  "'sha256-" ++ Digest.base64 (Digest.sha256 (String.ofList body).toUTF8.data.toList) ++ "'"

structure Scan where
  rest : List Char
  hashes : List String
deriving DecidableEq, Repr

-- A script with `src` loads from 'self' and needs no hash.
def push (hashes : List String) (tag body : List Char) : List String :=
  if SRC <:+: tag then hashes else hashes ++ [hashOf body]

-- What is done with a script of which both ends were found.
def Scan.script (s : Scan) (openEnd close : Nat) : Except Panic Scan := do
  let tag ← orPanic (takeAt Char.utf8Size s.rest openEnd)
  let body ← orPanic (slice Char.utf8Size s.rest (openEnd + 1) close)
  let rest ← orPanic (dropAt Char.utf8Size s.rest (close + len CLOSE))
  return ⟨rest, push s.hashes tag body⟩

-- The turn from the "<script" on. Both searches are in the whole rest.
def Scan.element (s : Scan) : Except Panic (Scan ⊕ List String) :=
  match find Char.utf8Size ['>'] s.rest with
  | none => .ok (.inr s.hashes)
  | some openEnd =>
      match find Char.utf8Size CLOSE s.rest with
      | none => .ok (.inr s.hashes)
      | some close => (s.script openEnd close).map .inl

def Scan.turn (s : Scan) : Except Panic (Scan ⊕ List String) :=
  match find Char.utf8Size SCRIPT s.rest with
  | none => .ok (.inr s.hashes)
  | some start => do
      let rest ← orPanic (dropAt Char.utf8Size s.rest start)
      Scan.element ⟨rest, s.hashes⟩

-- The SHA-256 of each inline script, as CSP sources; `none` when the turns are not enough.
def scriptHashes (turns : Nat) (page : String) : Option (Except Panic (List String)) :=
  Loop.run Scan.turn turns ⟨page.toList, []⟩

end Hashes

def stripPrefix (pre text : String) : Option String :=
  if pre.toList <+: text.toList then some (String.ofList (text.toList.drop pre.length)) else none

-- Some browsers do not count wss: as 'self', so the host is named.
def socket (publicOrigin : Option String) : String :=
  (publicOrigin.bind fun o =>
    ((stripPrefix "https://" o).map (" wss://" ++ ·)).or
      ((stripPrefix "http://" o).map (" ws://" ++ ·))).getD ""

def policy (hashes : List String) (publicOrigin : Option String) : String :=
  "default-src 'self'; script-src " ++ hashes.foldl (fun src hash => src ++ " " ++ hash) "'self'" ++
  "; style-src 'self' 'unsafe-inline'; " ++ "img-src 'self' data:; connect-src 'self'" ++
  socket publicOrigin ++ "; object-src 'none'; base-uri 'none'; " ++
  "form-action 'self'; frame-ancestors 'none'"

-- `HeaderValue::from_str`: only visible ASCII characters and tabs.
def fromStr (text : String) : Option ClientIp.HeaderValue :=
  let bytes := text.toUTF8.data.toList
  if bytes.all ClientIp.visible then some bytes else none

def headerOf (text : String) : Except Panic ClientIp.HeaderValue :=
  match fromStr text with
  | none => .error .expect
  | some value => .ok value

-- The Content-Security-Policy for the fallback page.
def csp [Digest] (turns : Nat) (page : String) (publicOrigin : Option String) :
    Option (Except Panic ClientIp.HeaderValue) :=
  (scriptHashes turns page).map fun result =>
    result.bind fun hashes => headerOf (policy hashes publicOrigin)

end Lodger.Security
