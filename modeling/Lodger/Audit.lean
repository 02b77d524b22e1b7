import Lodger.Throttle
import Lodger.Lib.Calendar
import Lodger.Lib.Machine

namespace Lodger.Audit

open Lodger.Lib Lodger.Lib.Calendar

def KEEP_DAYS : Nat := 365

-- The detail fields that can never hold a secret.
structure Detail where
  via : Option String := none
  sudoUser : Option String := none
  action : Option String := none
  reason : Option String := none
deriving DecidableEq, Repr

structure Entry where
  event : String
  account : Option String := none
  clientIp : Option IpAddr := none
  targetKind : Option String := none
  target : Option String := none
  result : String := "ok"
  detail : Detail := {}
deriving DecidableEq

def Entry.ok (event : String) : Entry := { event }

def Entry.failed (event reason : String) : Entry :=
  { event, result := "failed", detail := { reason := some reason } }

def Entry.by (entry : Entry) (account : String) (ip : IpAddr) : Entry :=
  { entry with account := some account, clientIp := some ip }

def Entry.targeting (entry : Entry) (kind name : String) : Entry :=
  { entry with targetKind := some kind, target := some name }

def Entry.targetVm (entry : Entry) (name : String) : Entry := entry.targeting "vm" name
def Entry.targetPool (entry : Entry) (name : String) : Entry := entry.targeting "pool" name
def Entry.targetNetwork (entry : Entry) (name : String) : Entry := entry.targeting "network" name

def Entry.targetVolume (entry : Entry) (pool volume : String) : Entry :=
  entry.targeting "volume" (pool ++ "/" ++ volume)

def Entry.acting (entry : Entry) (action : Option String) : Entry :=
  { entry with detail := { entry.detail with action } }

-- The journald copy: one line of JSON.
section Journal

inductive Json where
  | string (text : String)
  | object (fields : List (String × Json))

-- The crate `serde_json` is not part of the repository.
class SerdeJson where
  toString : Json → String

-- A field that is not set is left out.
def field (name : String) (value : Option String) : List (String × Json) :=
  value.toList.map fun text => (name, .string text)

def Detail.json (detail : Detail) : Json :=
  .object (field "via" detail.via ++ field "sudo_user" detail.sudoUser ++
    field "action" detail.action ++ field "reason" detail.reason)

-- `display` is how the standard library writes an address.
def Entry.json (display : IpAddr → String) (entry : Entry) : Json :=
  .object (field "event" (some entry.event) ++ field "account" entry.account ++
    field "client_ip" (entry.clientIp.map display) ++ field "target_kind" entry.targetKind ++
    field "target" entry.target ++ field "result" (some entry.result) ++
    if entry.detail = {} then [] else [("detail", entry.detail.json)])

def Entry.line [SerdeJson] (display : IpAddr → String) (entry : Entry) : List Char :=
  "lodger: audit: ".toList ++ (SerdeJson.toString (entry.json display)).toList

-- What goes to the journal socket: one field a line.
def message (line : List Char) : List Char :=
  "SYSLOG_IDENTIFIER=lodger\nPRIORITY=5\nMESSAGE=".toList ++ line ++ ['\n']

inductive Journal where
  | stderr
  | socket
deriving DecidableEq, Repr

inductive Wrote where
  | socket
  | stderr
deriving DecidableEq, Repr

-- What the two places have got.
structure Output where
  stderr : List Char := []
  socket : List (List Char) := []

-- A message that is not sent goes to stderr, too.
def Journal.write (journal : Journal) (sent : Bool) (line : List Char) (out : Output) :
    Wrote × Output :=
  if journal = .socket ∧ sent then (.socket, { out with socket := out.socket ++ [message line] })
  else (.stderr, { out with stderr := out.stderr ++ (line ++ ['\n']) })

end Journal

-- The table and the task that deletes old rows.
section Table

structure AuditRow where
  ts : String
  entry : Entry
deriving DecidableEq

-- Times are milliseconds; the table has their texts.
def insert (now : Int) (entry : Entry) (rows : List AuditRow) : List AuditRow :=
  rows ++ [⟨iso8601 now, entry⟩]

def deleteOldAuditRows (now : Int) (days : Nat) (rows : List AuditRow) : List AuditRow :=
  rows.filter fun row => !(row.ts < iso8601 (now - days * DAY))

-- An entry that was recorded, and whether its row was written.
structure Recorded where
  entry : Entry
  time : Int
  stored : Bool
deriving DecidableEq

-- `cutoff` is the time up to which the last deletion kept nothing.
structure State where
  rows : List AuditRow := []
  clock : Int
  journal : List Recorded := []
  cutoff : Option Int := none

inductive Action where
  -- `record`: the journald copy, then the row, which a failing database loses.
  | record (entry : Entry) (now : Int) (stored : Bool)
  | tick (now : Int)
  | tickFails (now : Int)
deriving DecidableEq

def Action.now : Action → Int
  | .record _ now _ => now
  | .tick now => now
  | .tickFails now => now

def State.perform (s : State) : Action → State
  | .record entry now stored => { s with
      rows := if stored then insert now entry s.rows else s.rows
      journal := s.journal ++ [⟨entry, now, stored⟩] }
  | .tick now => { s with
      rows := deleteOldAuditRows now KEEP_DAYS s.rows
      cutoff := some (now - KEEP_DAYS * DAY) }
  | .tickFails _ => s

-- The clock never goes back, and it stays within the years that have four digits.
def step (s : State) (act : Action) : Option State :=
  if s.clock ≤ act.now ∧ act.now ≤ LAST then some { s.perform act with clock := act.now } else none

end Table

end Lodger.Audit
