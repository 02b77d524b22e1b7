import Lodger.Config
import Lodger.Lib.Prog
import Lodger.Lib.DirTree

namespace Lodger.Install

open Lodger.Lib
open Config (DEFAULT_LISTEN checkPlainHttp)

-- The files of a host that an install reads or writes.
inductive Target where
  | bin | sysusersFile | configFile | tlsCert | tlsKey | unitFile | groupFile | passwdFile
  | libvirtSock | virtqemudSock
deriving DecidableEq

def Target.path : Target → String
  | .bin => "usr/local/bin/lodger"
  | .sysusersFile => "etc/sysusers.d/lodger.conf"
  | .configFile => "etc/lodger/config.toml"
  | .tlsCert => "etc/lodger/tls/cert.pem"
  | .tlsKey => "etc/lodger/tls/key.pem"
  | .unitFile => "etc/systemd/system/lodger.service"
  | .groupFile => "etc/group"
  | .passwdFile => "etc/passwd"
  | .libvirtSock => "run/libvirt/libvirt-sock"
  | .virtqemudSock => "run/libvirt/virtqemud-sock"

-- A target, or the temporary file `.<name>.new` beside it.
inductive Path where
  | file (t : Target)
  | new (t : Target)
deriving DecidableEq

def Target.arg (t : Target) : String := "/" ++ t.path

-- A directory by the names on the way to it, the innermost first.
abbrev Dir := List String

def Dir.path (d : Dir) : String := "/" ++ "/".intercalate d.reverse

def Target.dir : Target → Dir
  | .bin => ["bin", "local", "usr"]
  | .sysusersFile => ["sysusers.d", "etc"]
  | .configFile => ["lodger", "etc"]
  | .tlsCert | .tlsKey => ["tls", "lodger", "etc"]
  | .unitFile => ["system", "systemd", "etc"]
  | .groupFile | .passwdFile => ["etc"]
  | .libvirtSock | .virtqemudSock => ["libvirt", "run"]

-- systemd creates this directory at boot.
def SYSTEMD_RUNNING : Dir := ["system", "systemd", "run"]

structure File where
  bytes : String
  mode : Nat
  owner : Option (Nat × Nat)
deriving DecidableEq

-- The files, and the directories with their modes.
@[ext] structure Host where
  files : Path → Option File
  dirs : DirTree String Nat

def Host.isDir (h : Host) (d : Dir) : Bool := (h.dirs.get d).isSome

def Host.systemdRunning (h : Host) : Bool := h.isDir SYSTEMD_RUNNING

def Host.read (h : Host) (t : Target) : Option String := (h.files (.file t)).map File.bytes

def Host.has (h : Host) (t : Target) : Bool := (h.files (.file t)).isSome

-- `read_to_string(..).unwrap_or_default()`
def Host.text (h : Host) (t : Target) : String := (h.read t).getD ""

def Host.set (h : Host) (p : Path) (file : Option File) : Host :=
  { h with files := Function.update h.files p file }

def Host.setDir (h : Host) (d : Dir) (mode : Nat) : Host := { h with dirs := h.dirs.put d mode }

-- The texts that the binary brings.
class Dist where
  unit : String
  sysusers : String
  config : String

-- rustls and x509: whether a certificate has Lodger's mark, and whether a server can use it with
-- a key.
class Tls where
  madeByLodger : String → Bool
  serverConfig : String → String → Bool

-- What `self_signed` returns: a pair with Lodger's mark, whose parts belong together.
structure SelfSigned [Tls] where
  certPem : String
  keyPem : String
  fingerprint : String
  notAfter : String
  made : Tls.madeByLodger certPem
  pair : Tls.serverConfig certPem keyPem

-- `systemd-sysusers` with Lodger's entry: the new texts of /etc/passwd and /etc/group.
structure Accounts where
  passwd : Option File
  group : Option File
deriving DecidableEq

class Sysusers where
  add : Accounts → Accounts

def Host.accounts (h : Host) : Accounts := ⟨h.files (.file .passwdFile), h.files (.file .groupFile)⟩

def Host.addUser [Sysusers] (h : Host) : Host :=
  (h.set (.file .passwdFile) (Sysusers.add h.accounts).passwd).set (.file .groupFile)
    (Sysusers.add h.accounts).group

-- `str::lines`
def lines (text : String) : List (List Char) :=
  let parts := (text.toList.splitOn '\n').map fun line =>
    if line.getLast? = some '\r' then line.dropLast else line
  if parts.getLast? = some [] then parts.dropLast else parts

def fields (line : List Char) : List String := (line.splitOn ':').map String.ofList

def hasEntry (text name : String) : Bool :=
  (lines text).any fun line => (fields line).head? = some name

def userIds (passwd name : String) : Option (Nat × Nat) := do
  let line ← (lines passwd).find? fun line => (fields line).head? = some name
  let uid ← (fields line)[2]?
  let uid ← Validate.parseU32 uid
  let gid ← (fields line)[3]?
  let gid ← Validate.parseU32 gid
  return (uid, gid)

-- An IP address, or a host name of letters, digits, and hyphens in labels with dots between them.
def validLabel (label : List Char) : Bool :=
  1 ≤ label.length && label.length ≤ 63 && label.head? ≠ some '-' && label.getLast? ≠ some '-' &&
    label.all fun c => c.isAlphanum || c = '-'

def validName (name : String) : Bool :=
  (IpAddr.parse name).isSome ||
    (name.toList ≠ [] && Validate.len name ≤ 253 && (name.toList.splitOn '.').all validLabel)

def selfSignedFiles : TlsFiles := ⟨Target.tlsCert.arg, Target.tlsKey.arg⟩

inductive Problem where
  | badName (name : String)
  | foreignCertificate
  | keyOfAnother
  | keyAlone
  | noSystemd
  | noSocket
  | noGroup
  | badConfig (e : Config.LoadError)
  | plainHttp (listen : SocketAddr)
  | namedCertificate (cert : String)
  | portTaken (listen : SocketAddr)
deriving DecidableEq

section Check

variable [Tls] [Config.Formats]

-- Why a self-signed pair must not replace what is there.
def foreignPair (h : Host) : Option Problem :=
  match h.read .tlsCert with
  | some pem =>
      if Tls.madeByLodger pem then
        -- The key may be a new one that an operator copied first.
        match h.read .tlsKey with
        | some key => if Tls.serverConfig pem key then none else some .keyOfAnother
        | none => none
      else some .foreignCertificate
  | none => if h.has .tlsKey then some .keyAlone else none

def configProblems (selfSigned : Option String) (config : Config) : List Problem :=
  (if selfSigned.isNone && !checkPlainHttp config then [.plainHttp config.listen] else []) ++
    match config.tls with
    | some tls =>
        if selfSigned.isSome && tls ≠ selfSignedFiles then [.namedCertificate tls.cert] else []
    | none => []

-- The address that the service will listen on, with the problems of the configuration.
def checkConfig (h : Host) (selfSigned : Option String) : Option SocketAddr × List Problem :=
  match h.read .configFile with
  | some text =>
      match Config.load text with
      | .ok config => (some config.listen, configProblems selfSigned config)
      | .error e => (none, [.badConfig e])
  | none => (some DEFAULT_LISTEN, [])

def checkPort (h : Host) (accepts : SocketAddr → Bool) (listen : Option SocketAddr) :
    List Problem :=
  match listen with
  | some listen => if !h.has .unitFile && accepts listen then [.portTaken listen] else []
  | none => []

def nameProblems : Option String → List Problem
  | some name => if validName name then [] else [.badName name]
  | none => []

def hostProblems (h : Host) : List Problem :=
  (if h.systemdRunning then [] else [.noSystemd]) ++
    (if h.has .libvirtSock || h.has .virtqemudSock then [] else [.noSocket]) ++
    (if hasEntry (h.text .groupFile) "libvirt" then [] else [.noGroup])

-- Every problem is listed at once.
def problems (h : Host) (selfSigned : Option String) (accepts : SocketAddr → Bool) :
    List Problem :=
  nameProblems selfSigned ++ (if selfSigned.isSome then (foreignPair h).toList else []) ++
    hostProblems h ++ (checkConfig h selfSigned).2 ++
    checkPort h accepts (checkConfig h selfSigned).1

def check (h : Host) (selfSigned : Option String) (accepts : SocketAddr → Bool) :
    Except (List Problem) SocketAddr :=
  match (checkConfig h selfSigned).1 with
  | some listen =>
      if problems h selfSigned accepts = [] then .ok listen
      else .error (problems h selfSigned accepts)
  | none => .error (problems h selfSigned accepts)

end Check

-- What can go wrong after the checks, with the source's words around the error of the step.
inductive InstallError where
  | cannotInstall (problems : List Problem)
  | io (e : String)
  | alreadyExists
  | cannotRead (path : String) (e : InstallError)
  | cannotCreate (path : String) (e : InstallError)
  | cannotWrite (path : String) (e : InstallError)
  | cannotParse (path e : String)
  | cannotMake (name : String) (e : InstallError)
  | config (e : Config.LoadError)
  | noUser
deriving DecidableEq

inductive Call where
  | look
  | readExe
  | read (t : Target)
  | createDir (d : Dir)
  | setMode (d : Dir) (mode : Nat)
  | writeNew (t : Target) (file : File)
  | rename (t : Target)
  | removeNew (t : Target)
  | run (program : String) (args : List String)
  | selfSigned (name : String)
deriving DecidableEq

abbrev Call.Result [Tls] : Call → Type
  | .look => Host
  | .readExe | .read _ => String
  | .selfSigned _ => SelfSigned
  | _ => Unit

section Program

variable [Tls]

abbrev M := Prog Call Call.Result InstallError

def ask (c : Call) : M c.Result := Prog.ask c

def liftExcept {α : Type} (r : Except InstallError α) : M α := .done r

def mapError {α : Type} (f : InstallError → InstallError) (p : M α) : M α := do
  match ← p.attempt with
  | .ok a => pure a
  | .error e => .fail (f e)

-- Creates each missing directory with mode 0755. The mode ignores the umask, because the service
-- user must read the configuration below /etc/lodger.
def createDirs : Dir → M Unit
  -- The root.
  | [] => pure ()
  | name :: parent => do
      let host ← ask .look
      if host.isDir (name :: parent) then pure ()
      else do
        createDirs parent
        match ← (ask (.createDir (name :: parent))).attempt with
        | .error .alreadyExists => pure ()
        | .error e => .fail e
        | .ok () => ask (.setMode (name :: parent) 0o755)

-- Writes a file through a temporary file in the same directory. The owner is set before the file
-- gets its name.
def writeAs (t : Target) (bytes : String) (mode : Nat) (owner : Option (Nat × Nat)) : M Unit := do
  mapError (.cannotCreate t.dir.path) (createDirs t.dir)
  let written ← Prog.attempt do
    ask (.writeNew t ⟨bytes, mode, owner⟩)
    ask (.rename t)
  match written with
  | .ok () => pure ()
  | .error e => do
      let _ ← (ask (.removeNew t)).attempt
      .fail (.cannotWrite t.arg e)

def write (t : Target) (bytes : String) (mode : Nat) : M Unit := writeAs t bytes mode none

def runCommand (program : String) (args : List String) : M Unit := ask (.run program args)

def copyBinary : M Unit := do
  let bytes ← mapError (.cannotRead "exe") (ask .readExe)
  write .bin bytes 0o755

variable [Config.Formats]

def setTlsPaths : M Unit := do
  let text ← mapError (.cannotRead Target.configFile.arg) (ask (.read .configFile))
  let doc ← liftExcept
    ((Config.Formats.document text).mapError (.cannotParse Target.configFile.arg))
  let doc := Config.Formats.set doc "tls_cert" selfSignedFiles.cert
  let doc := Config.Formats.set doc "tls_key" selfSignedFiles.key
  write .configFile (Config.Formats.render doc) 0o644

structure Certificate where
  name : String
  fingerprint : String
  notAfter : String
deriving DecidableEq

def writeSelfSigned (name : String) : M Certificate := do
  let pair ← mapError (.cannotMake name) (ask (.selfSigned name))
  let users ← Prog.attempt (ask (.read .passwdFile))
  match userIds (users.toOption.getD "") "lodger" with
  | none => .fail .noUser
  | some owner => do
      writeAs .tlsKey pair.keyPem 0o600 (some owner)
      write .tlsCert pair.certPem 0o644
      setTlsPaths
      return ⟨name, pair.fingerprint, pair.notAfter⟩

structure Installed where
  listen : SocketAddr
  tls : Bool
  certificate : Option Certificate
deriving DecidableEq

def SERVICE : String := "lodger.service"

variable [Dist]

-- An existing configuration file stays, because the operator may have changed it.
def writeTemplate : M Unit := do
  let host ← ask .look
  if host.has .configFile then pure () else write .configFile Dist.config 0o644

def makeCertificate (selfSigned : Option String) : M (Option Certificate) :=
  match selfSigned with
  | some name => some <$> writeSelfSigned name
  | none => pure none

-- A restart also starts a stopped service, and an upgrade needs it to run the new binary.
def startService : M Unit := do
  runCommand "systemctl" ["daemon-reload"]
  runCommand "systemctl" ["enable", SERVICE]
  runCommand "systemctl" ["restart", SERVICE]

def loadTls : M Bool := do
  let text ← mapError (.cannotRead Target.configFile.arg) (ask (.read .configFile))
  let config ← liftExcept ((Config.load text).mapError .config)
  return config.tls.isSome

-- After the checks.
def apply (selfSigned : Option String) (listen : SocketAddr) : M Installed := do
  copyBinary
  write .sysusersFile Dist.sysusers 0o644
  runCommand "systemd-sysusers" [Target.sysusersFile.arg]
  writeTemplate
  -- After systemd-sysusers, which creates the user that owns the key.
  let certificate ← makeCertificate selfSigned
  write .unitFile Dist.unit 0o644
  startService
  let tls ← loadTls
  return ⟨listen, tls, certificate⟩

-- The checks run first, and a failed check changes nothing.
def install (selfSigned : Option String) (accepts : SocketAddr → Bool) : M Installed := do
  let host ← ask .look
  let listen ← liftExcept ((check host selfSigned accepts).mapError .cannotInstall)
  apply selfSigned listen

end Program

-- What the steps of one run meet. The world remembers the first call that failed.
section Environment

variable [Tls] [Sysusers]

@[ext] structure World where
  host : Host
  failed : Option Call

-- A call that fails may leave part of a temporary file, and a program may have done its work.
structure Fault where
  error : String
  rest : Option File
  did : Bool

structure Env where
  exe : String
  pair : SelfSigned
  umask : Nat
  fault : World → Call → Option Fault

-- The mode that `create_dir` gives: 0777 without the bits of the umask.
def Env.newDirMode (env : Env) : Nat := 0o777 ^^^ (0o777 &&& env.umask)

def notFound : InstallError := .io "No such file or directory (os error 2)"

def runOn (h : Host) (program : String) : Host :=
  if program = "systemd-sysusers" then h.addUser else h

def Env.perform (env : Env) (h : Host) : (c : Call) → Except InstallError c.Result × Host
  | .look => (.ok h, h)
  | .readExe => (.ok env.exe, h)
  | .read t =>
      match h.read t with
      | some text => (.ok text, h)
      | none => (.error notFound, h)
  | .createDir d =>
      if h.isDir d then (.error .alreadyExists, h)
      else if h.isDir d.tail then (.ok (), h.setDir d env.newDirMode)
      else (.error notFound, h)
  | .setMode d mode => if h.isDir d then (.ok (), h.setDir d mode) else (.error notFound, h)
  | .writeNew t file =>
      if h.isDir t.dir then (.ok (), h.set (.new t) (some file)) else (.error notFound, h)
  | .rename t => (.ok (), (h.set (.file t) (h.files (.new t))).set (.new t) none)
  | .removeNew t => (.ok (), h.set (.new t) none)
  | .run program _ => (.ok (), runOn h program)
  | .selfSigned _ => (.ok env.pair, h)

-- What a failed call leaves.
def Fault.after (fault : Fault) (h : Host) : Call → Host
  | .writeNew t _ => h.set (.new t) fault.rest
  | .run program _ => if fault.did then runOn h program else h
  | _ => h

def Env.answer (env : Env) (c : Call) (w : World) : Except InstallError c.Result × World :=
  match if c = .look then none else env.fault w c with
  | some fault => (.error (.io fault.error), ⟨fault.after w.host c, w.failed.or (some c)⟩)
  | none => ((env.perform w.host c).1, ⟨(env.perform w.host c).2, w.failed⟩)

def Env.calm (env : Env) : Env := { env with fault := fun _ _ => none }

end Environment

end Lodger.Install
