import Mathlib

namespace Lodger.Validate

-- `str::len` counts the bytes of the UTF-8 text.
def len (s : String) : Nat := (s.toList.map Char.utf8Size).sum

-- `ipnet::Ipv4Net`: an address with a prefix. The address may have host bits.
structure Ipv4Net where
  addr : Nat
  prefixLen : Nat
  addr_lt : addr < 2 ^ 32
  prefixLen_le : prefixLen ≤ 32
deriving DecidableEq, Repr

namespace Ipv4Net

def size (net : Ipv4Net) : Nat := 2 ^ (32 - net.prefixLen)

def network (net : Ipv4Net) : Nat := net.addr - net.addr % net.size

def broadcast (net : Ipv4Net) : Nat := net.network + (net.size - 1)

def trunc (net : Ipv4Net) : Ipv4Net where
  addr := net.network
  prefixLen := net.prefixLen
  addr_lt := lt_of_le_of_lt (Nat.sub_le _ _) net.addr_lt
  prefixLen_le := net.prefixLen_le

def containsAddr (net : Ipv4Net) (addr : Nat) : Bool :=
  net.network ≤ addr && addr ≤ net.broadcast

def contains (net other : Ipv4Net) : Bool :=
  net.network ≤ other.network && other.broadcast ≤ net.broadcast

def new (addr prefixLen : Nat) : Option Ipv4Net :=
  if h : addr < 2 ^ 32 ∧ prefixLen ≤ 32 then some ⟨addr, prefixLen, h.1, h.2⟩ else none

-- A netmask has its ones in front of its zeros.
def netmaskPrefix (mask : Nat) : Option Nat :=
  (List.range 33).find? fun p => 2 ^ 32 - 2 ^ (32 - p) = mask

def withNetmask (addr mask : Nat) : Option Ipv4Net := (netmaskPrefix mask).bind (new addr)

end Ipv4Net

-- `Ipv4Addr` of the standard library: four octets without leading zeros.
def octets (addr : Nat) : List Nat :=
  [addr / 2 ^ 24 % 256, addr / 2 ^ 16 % 256, addr / 2 ^ 8 % 256, addr % 256]

def addrText (addr : Nat) : String :=
  String.ofList (['.'].intercalate ((octets addr).map (Nat.toDigits 10)))

def parseOctet (digits : List Char) : Option Nat :=
  if digits ≠ [] ∧ digits.length ≤ 3 ∧ digits.all Char.isDigit ∧
      (digits.head? = some '0' → digits.length = 1) ∧ Nat.ofDigitChars 10 digits 0 < 256 then
    some (Nat.ofDigitChars 10 digits 0)
  else none

def parseAddr (s : String) : Option Nat :=
  match (s.toList.splitOn '.').map parseOctet with
  | [some a, some b, some c, some d] => some (a * 2 ^ 24 + b * 2 ^ 16 + c * 2 ^ 8 + d)
  | _ => none

-- `str::parse::<u8>` and `str::parse::<u32>` also take leading zeros and a plus sign.
def unsigned : List Char → List Char
  | '+' :: digits => digits
  | digits => digits

def parseU8 (s : String) : Option Nat :=
  let digits := unsigned s.toList
  if digits ≠ [] ∧ digits.all Char.isDigit ∧ Nat.ofDigitChars 10 digits 0 < 256 then
    some (Nat.ofDigitChars 10 digits 0)
  else none

def parseU32 (s : String) : Option Nat :=
  let digits := unsigned s.toList
  if digits ≠ [] ∧ digits.all Char.isDigit ∧ Nat.ofDigitChars 10 digits 0 < 2 ^ 32 then
    some (Nat.ofDigitChars 10 digits 0)
  else none

def Ipv4Net.text (net : Ipv4Net) : String :=
  addrText net.addr ++ "/" ++ String.ofList (Nat.toDigits 10 net.prefixLen)

-- `Ipv4Net::from_str` of the crate, which is not part of the repository.
class Ipnet where
  parse : String → Option Ipv4Net

-- Why a piece of input was rejected. The field names the input.
inductive InputError where
  | nul (field : String)
  | empty (field : String)
  | tooLong (field : String) (len max : Nat)
  | badFirstChar (field : String) (ch : Char)
  | badChar (field : String) (ch : Char)
  | subnetSyntax (field : String)
  | subnetHostBits (field : String) (network : Ipv4Net)
  | subnetNotPrivate (field : String)
  | subnetTooSmall (field : String) (max : Nat)
  | subnetOverlap (field otherName : String) (otherSubnet : Ipv4Net)
  | pathNotAbsolute (field : String)
  | pathDotSegment (field : String)
  | pathControl (field : String)
  | systemPath (field path : String)
  | hostSyntax (field : String)
  | pathInUse (field otherName : String)
  | nfsExportInUse (otherName : String)
  | interfaceName (field : String)
  | noSuchBridge (name : String)
  | sizeOutOfRange (field : String) (min max : Nat)
  | volumeNameInUse (pool name : String)
deriving DecidableEq, Repr

def NAME_MAX_LEN : Nat := 64
def SUBNET_MAX_PREFIX : Nat := 30
def INTERFACE_MAX_LEN : Nat := 15
def PATH_MAX_LEN : Nat := 4096
def HOST_MAX_LEN : Nat := 253

def PRIVATE_RANGES : List Ipv4Net :=
  [⟨10 * 2 ^ 24, 8, by decide, by decide⟩,
    ⟨172 * 2 ^ 24 + 16 * 2 ^ 16, 12, by decide, by decide⟩,
    ⟨192 * 2 ^ 24 + 168 * 2 ^ 16, 16, by decide, by decide⟩]

def checkText (field value : String) : Except InputError String :=
  if '\x00' ∈ value.toList then .error (.nul field) else .ok value

-- `char::is_ascii_alphanumeric` with the marks that a name may hold.
def nameChar (c : Char) : Bool := c.isAlphanum || c = '.' || c = '_' || c = '-'

def hostChar (c : Char) : Bool := c.isAlphanum || c = '.' || c = '-' || c = ':'

-- `char::is_control`: the category Cc.
def isControl (c : Char) : Bool := c.toNat < 0x20 || 0x7f ≤ c.toNat && c.toNat < 0xa0

def pathChar (c : Char) : Bool := !(isControl c || c.toNat = 0xfffe || c.toNat = 0xffff)

-- A name of a VM, pool, volume, network or snapshot.
structure Name where
  asStr : String
  ne_nil : asStr.toList ≠ []
  chars : ∀ c ∈ asStr.toList, nameChar c
  short : len asStr ≤ NAME_MAX_LEN
deriving DecidableEq

def Name.parse (field value : String) : Except InputError Name := do
  let value ← checkText field value
  match hv : value.toList with
  | [] => .error (.empty field)
  | first :: rest =>
    if hf : first.isAlphanum then
      match hr : rest.find? (!nameChar ·) with
      | some ch => .error (.badChar field ch)
      | none =>
        if hl : NAME_MAX_LEN < len value then .error (.tooLong field (len value) NAME_MAX_LEN)
        else .ok {
          asStr := value
          ne_nil := by simp [hv]
          chars := by
            intro c hc
            rw [hv, List.mem_cons] at hc
            obtain rfl | hc := hc
            · simp [nameChar, hf]
            · simpa using List.find?_eq_none.mp hr c hc
          short := not_lt.mp hl }
    else .error (.badFirstChar field first)

-- A Linux network interface name.
structure Interface where
  name : String
  ne_nil : name.toList ≠ []
  chars : ∀ c ∈ name.toList, nameChar c
  short : len name ≤ INTERFACE_MAX_LEN
  named : name ≠ "." ∧ name ≠ ".."
deriving DecidableEq

def parseInterface (field value : String) : Except InputError Interface := do
  let value ← checkText field value
  if h : value.toList ≠ [] ∧ len value ≤ INTERFACE_MAX_LEN ∧
      (∀ c ∈ value.toList, nameChar c) ∧ value ≠ "." ∧ value ≠ ".." then
    .ok ⟨value, h.1, h.2.2.1, h.2.1, h.2.2.2⟩
  else .error (.interfaceName field)

-- A host name, an IPv4 address or an IPv6 address.
structure Host where
  name : String
  ne_nil : name.toList ≠ []
  chars : ∀ c ∈ name.toList, hostChar c
  short : len name ≤ HOST_MAX_LEN
deriving DecidableEq

def parseHost (field value : String) : Except InputError Host := do
  let value ← checkText field value
  if hv : value.toList = [] then .error (.empty field)
  else if hl : HOST_MAX_LEN < len value then .error (.tooLong field (len value) HOST_MAX_LEN)
  else if hc : ∀ c ∈ value.toList, hostChar c then
    if value.toList.head? = some '-' ∨ value.toList.head? = some '.' then
      .error (.hostSyntax field)
    else .ok ⟨value, hv, hc, not_lt.mp hl⟩
  else .error (.hostSyntax field)

def segments (value : String) : List (List Char) :=
  (value.toList.splitOn '/').filter (· ≠ [])

def joined (parts : List (List Char)) : String :=
  String.ofList ('/' :: ['/'].intercalate parts)

def dotSegment (part : List Char) : Bool := part = ['.'] || part = ['.', '.']

-- An absolute path with one slash between folders and no slash at the end.
def parsePath (field value : String) : Except InputError String := do
  let value ← checkText field value
  if value.toList = [] then .error (.empty field)
  else if value.toList.head? ≠ some '/' then .error (.pathNotAbsolute field)
  else if PATH_MAX_LEN < len value then .error (.tooLong field (len value) PATH_MAX_LEN)
  else if (segments value).any dotSegment then .error (.pathDotSegment field)
  else if value.toList.any (!pathChar ·) then .error (.pathControl field)
  else .ok (joined (segments value))

section Subnets

variable [Ipnet]

def parseSubnet (field value : String) : Except InputError Ipv4Net := do
  let value ← checkText field value
  match Ipnet.parse value with
  | none => .error (.subnetSyntax field)
  | some net =>
    -- Only the canonical form is unambiguous: the crate reads "010" as 10.
    if net.text ≠ value then .error (.subnetSyntax field)
    else if !PRIVATE_RANGES.any (·.contains net) then .error (.subnetNotPrivate field)
    else if SUBNET_MAX_PREFIX < net.prefixLen then
      .error (.subnetTooSmall field SUBNET_MAX_PREFIX)
    else if net.addr ≠ net.network then .error (.subnetHostBits field net.trunc)
    else .ok net

end Subnets

def overlaps (subnet other : Ipv4Net) : Bool :=
  subnet.containsAddr other.network || other.containsAddr subnet.network

def checkNoOverlap (field : String) (subnet : Ipv4Net) (existing : List (String × Ipv4Net)) :
    Except InputError Unit :=
  match existing.find? (overlaps subnet ·.2) with
  | some (name, other) => .error (.subnetOverlap field name other)
  | none => .ok ()

end Lodger.Validate
