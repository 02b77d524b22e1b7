import Lodger.Lib.Fold
import Lodger.Lib.Split
import Lodger.Validate.Lemmas

namespace Lodger.Stats

open Lodger.Fold Lodger.Split
open Validate (parseU32 parseU32_no_dot)

def U64_MAX : Nat := 2 ^ 64 - 1

-- One typed value from libvirt's stats.
inductive StatValue where
  | int (v : Int64)
  | uint (v : UInt64)
  | double (v : Float)
  | bool (v : Bool)
  | text (v : String)

-- The value as a counter. A negative or non-integer value is none.
def StatValue.asU64 : StatValue → Option Nat
  | .int v => if 0 ≤ v.toInt then some v.toInt.toNat else none
  | .uint v => some v.toNat
  | _ => none

-- One sample of the counters of a VM.
structure Counters where
  cpuTimeNs : Option Nat
  memoryCurrentKib : Option Nat
  memoryAvailableKib : Option Nat
  memoryUnusedKib : Option Nat
  diskReadBytes : Option Nat
  diskWriteBytes : Option Nat
  netRxBytes : Option Nat
  netTxBytes : Option Nat
deriving DecidableEq

def Counters.default : Counters := ⟨none, none, none, none, none, none, none, none⟩

-- Splits `block.0.rd.bytes` into `block` and `rd.bytes`. The middle part must be a device number.
def indexed (name : String) : Option (String × String) := do
  let (group, rest) ← splitOnce '.' name.toList
  let (index, field) ← splitOnce '.' rest
  let _ ← parseU32 (String.ofList index)
  return (String.ofList group, String.ofList field)

def add (sum : Option Nat) (v : Nat) : Option Nat := some (saturatingAdd U64_MAX (sum.getD 0) v)

-- One round of the loop over libvirt's named values.
def Counters.read (c : Counters) (param : String × StatValue) : Counters :=
  match param.2.asU64 with
  | none => c
  | some v =>
      match param.1 with
      | "cpu.time" => { c with cpuTimeNs := some v }
      | "balloon.current" => { c with memoryCurrentKib := some v }
      | "balloon.available" => { c with memoryAvailableKib := some v }
      | "balloon.unused" => { c with memoryUnusedKib := some v }
      | name =>
          match indexed name with
          | some ("block", "rd.bytes") => { c with diskReadBytes := add c.diskReadBytes v }
          | some ("block", "wr.bytes") => { c with diskWriteBytes := add c.diskWriteBytes v }
          | some ("net", "rx.bytes") => { c with netRxBytes := add c.netRxBytes v }
          | some ("net", "tx.bytes") => { c with netTxBytes := add c.netTxBytes v }
          | _ => c

def Counters.fromParams (params : List (String × StatValue)) : Counters :=
  params.foldl Counters.read .default

-- A value that stands alone in a sample.
inductive Single where
  | cpuTime | memoryCurrent | memoryAvailable | memoryUnused
deriving DecidableEq

instance : Fintype Single where
  elems := {.cpuTime, .memoryCurrent, .memoryAvailable, .memoryUnused}
  complete s := by cases s <;> decide

def Single.name : Single → String
  | .cpuTime => "cpu.time"
  | .memoryCurrent => "balloon.current"
  | .memoryAvailable => "balloon.available"
  | .memoryUnused => "balloon.unused"

def Single.of (c : Counters) : Single → Option Nat
  | .cpuTime => c.cpuTimeNs
  | .memoryCurrent => c.memoryCurrentKib
  | .memoryAvailable => c.memoryAvailableKib
  | .memoryUnused => c.memoryUnusedKib

-- A value that adds up over the devices of a VM.
inductive Summed where
  | diskRead | diskWrite | netRx | netTx
deriving DecidableEq

instance : Fintype Summed where
  elems := {.diskRead, .diskWrite, .netRx, .netTx}
  complete s := by cases s <;> decide

def Summed.group : Summed → String
  | .diskRead | .diskWrite => "block"
  | .netRx | .netTx => "net"

def Summed.field : Summed → String
  | .diskRead => "rd.bytes"
  | .diskWrite => "wr.bytes"
  | .netRx => "rx.bytes"
  | .netTx => "tx.bytes"

def Summed.of (c : Counters) : Summed → Option Nat
  | .diskRead => c.diskReadBytes
  | .diskWrite => c.diskWriteBytes
  | .netRx => c.netRxBytes
  | .netTx => c.netTxBytes

-- A name of the form group.index.field with a u32 for its index.
def Summed.Names (s : Summed) (name : String) : Prop :=
  ∃ index n, parseU32 index = some n ∧ name = s.group ++ "." ++ index ++ "." ++ s.field

theorem indexed_eq_some_iff (name group field : String) (hgroup : '.' ∉ group.toList) :
    indexed name = some (group, field) ↔
      ∃ index n, parseU32 index = some n ∧ name = group ++ "." ++ index ++ "." ++ field := by
  constructor
  · intro h
    obtain ⟨⟨pre, rest⟩, hpre, h⟩ := Option.bind_eq_some_iff.mp h
    obtain ⟨⟨index, post⟩, hpost, h⟩ := Option.bind_eq_some_iff.mp h
    obtain ⟨n, hn, h⟩ := Option.bind_eq_some_iff.mp h
    obtain ⟨rfl, rfl⟩ : String.ofList pre = group ∧ String.ofList post = field := by simpa using h
    have hname := ((splitOnce_eq_some_iff _ _ _).mp hpre).2
    have hrest := ((splitOnce_eq_some_iff _ _ _).mp hpost).2
    refine ⟨String.ofList index, n, hn, ?_⟩
    rw [← String.toList_inj]
    simp [hname, hrest]
  · rintro ⟨index, n, hn, rfl⟩
    have hindex : '.' ∉ index.toList := parseU32_no_dot hn
    have hpre : splitOnce '.' (group ++ "." ++ index ++ "." ++ field).toList =
        some (group.toList, (index ++ "." ++ field).toList) :=
      (splitOnce_eq_some_iff _ _ _).mpr ⟨hgroup, by simp⟩
    have hpost : splitOnce '.' (index ++ "." ++ field).toList =
        some (index.toList, field.toList) :=
      (splitOnce_eq_some_iff _ _ _).mpr ⟨hindex, by simp⟩
    simp only [indexed, hpre, hpost, hn, Option.bind_eq_bind, Option.bind_some, String.ofList_toList]
    rfl

section Fields

variable (s : Summed) (name : String)

theorem Summed.names_iff : s.Names name ↔ indexed name = some (s.group, s.field) := by
  have hgroup : '.' ∉ s.group.toList := by cases s <;> decide +kernel
  exact (indexed_eq_some_iff name s.group s.field hgroup).symm

instance : Decidable (s.Names name) := decidable_of_iff _ (s.names_iff name).symm

end Fields

-- The value of a param that counts for a field.
def Single.amount (s : Single) (param : String × StatValue) : Option Nat :=
  if param.1 = s.name then param.2.asU64 else none

def Summed.amount (s : Summed) (param : String × StatValue) : Option Nat :=
  if s.Names param.1 then param.2.asU64 else none

section Read

variable (c : Counters) (param : String × StatValue)

theorem Single.of_read_none (s : Single) (h : s.amount param = none) :
    s.of (c.read param) = s.of c := by
  obtain ⟨name, value⟩ := param
  unfold Counters.read
  cases hv : value.asU64 with
  | none => rfl
  | some v =>
      have hname : name ≠ s.name := by
        intro heq
        simp [Single.amount, heq, hv] at h
      simp only
      split <;> cases s <;> first
        | rfl
        | exact absurd rfl hname
        | (split <;> rfl)

theorem Single.of_read_some (s : Single) (v : Nat) (h : s.amount param = some v) :
    s.of (c.read param) = some v := by
  obtain ⟨name, value⟩ := param
  simp only [Single.amount, Option.ite_none_right_eq_some] at h
  obtain ⟨rfl, hv⟩ := h
  unfold Counters.read
  rw [hv]
  cases s <;> rfl

theorem Summed.names_ne (s : Summed) (single : Single) : ¬ s.Names single.name := by
  rw [s.names_iff]
  have hnone : indexed single.name = none := by cases single <;> decide +kernel
  rw [hnone]
  simp

theorem Summed.of_read_none (s : Summed) (h : s.amount param = none) :
    s.of (c.read param) = s.of c := by
  obtain ⟨name, value⟩ := param
  unfold Counters.read
  cases hv : value.asU64 with
  | none => rfl
  | some v =>
      have hname : indexed name ≠ some (s.group, s.field) := by
        intro heq
        simp [Summed.amount, s.names_iff, heq, hv] at h
      simp only
      split <;> try (cases s <;> rfl)
      split <;> cases s <;> first
        | rfl
        | exact absurd ‹_› hname

theorem Summed.of_read_some (s : Summed) (v : Nat) (h : s.amount param = some v) :
    s.of (c.read param) = some (saturatingAdd U64_MAX ((s.of c).getD 0) v) := by
  obtain ⟨name, value⟩ := param
  simp only [Summed.amount, Option.ite_none_right_eq_some] at h
  obtain ⟨hname, hv⟩ := h
  have hindexed := s.names_iff name |>.mp hname
  unfold Counters.read
  simp only [hv]
  split
  · exact absurd hname (s.names_ne .cpuTime)
  · exact absurd hname (s.names_ne .memoryCurrent)
  · exact absurd hname (s.names_ne .memoryAvailable)
  · exact absurd hname (s.names_ne .memoryUnused)
  · rw [hindexed]
    cases s <;> rfl

end Read

section Sample

variable (params : List (String × StatValue))

theorem Single.of_fromParams (s : Single) :
    s.of (.fromParams params) = (params.filterMap s.amount).getLast? :=
  foldl_last Counters.read s.of s.amount .default (by cases s <;> rfl)
    (fun c param => s.of_read_none c param) (fun c param => s.of_read_some c param) params

theorem Summed.of_fromParams (s : Summed) :
    s.of (.fromParams params) = total U64_MAX (params.filterMap s.amount) :=
  foldl_total Counters.read s.of s.amount U64_MAX .default (by cases s <;> rfl)
    (fun c param => s.of_read_none c param) (fun c param => s.of_read_some c param) params

theorem Counters.ext_of {c d : Counters} (hsingle : ∀ s : Single, s.of c = s.of d)
    (hsummed : ∀ s : Summed, s.of c = s.of d) : c = d := by
  obtain ⟨_, _, _, _, _, _, _, _⟩ := c
  obtain ⟨_, _, _, _, _, _, _, _⟩ := d
  rw [Counters.mk.injEq]
  exact ⟨hsingle .cpuTime, hsingle .memoryCurrent, hsingle .memoryAvailable,
    hsingle .memoryUnused, hsummed .diskRead, hsummed .diskWrite, hsummed .netRx,
    hsummed .netTx⟩

theorem Single.amounts_le_one (s : Single) (h : (params.map Prod.fst).count s.name ≤ 1) :
    (params.filterMap s.amount).length ≤ 1 := by
  have hle : (params.filterMap s.amount).length ≤ (params.map Prod.fst).count s.name := by
    clear h
    induction params with
    | nil => simp
    | cons param params ih =>
        rw [List.map_cons, List.count_cons, List.filterMap_cons]
        by_cases hname : param.1 = s.name
        · have hcount : (if (param.1 == s.name) = true then 1 else 0) = 1 := by simp [hname]
          rw [hcount]
          split
          · omega
          · simpa using ih
        · have hnone : s.amount param = none := by simp [Single.amount, hname]
          rw [hnone]
          have hcount : (if (param.1 == s.name) = true then 1 else 0) = 0 := by simp [hname]
          rw [hcount]
          omega
  omega

-- The entries of a list that a counter reads.
def Counted (param : String × StatValue) : Prop :=
  param.2.asU64 ≠ none ∧ ((∃ s : Single, param.1 = s.name) ∨ ∃ s : Summed, s.Names param.1)

instance (param : String × StatValue) : Decidable (Counted param) :=
  inferInstanceAs (Decidable (_ ∧ _))

theorem filterMap_counted (amount : String × StatValue → Option Nat)
    (h : ∀ param, amount param ≠ none → Counted param) :
    (params.filter Counted).filterMap amount = params.filterMap amount := by
  rw [List.filterMap_filter]
  congr 1
  funext param
  by_cases hparam : amount param = none
  · simp [hparam]
  · simp [h param hparam]

-- The counters are a function of the counted entries.
theorem Counters.fromParams_filter :
    Counters.fromParams (params.filter Counted) = .fromParams params := by
  refine Counters.ext_of ?_ ?_
  · intro s
    rw [s.of_fromParams, s.of_fromParams, filterMap_counted]
    intro param hparam
    by_cases hname : param.1 = s.name
    · exact ⟨by simpa [Single.amount, hname] using hparam, Or.inl ⟨s, hname⟩⟩
    · simp [Single.amount, hname] at hparam
  · intro s
    rw [s.of_fromParams, s.of_fromParams, filterMap_counted]
    intro param hparam
    by_cases hname : s.Names param.1
    · exact ⟨by simpa [Summed.amount, hname] using hparam, Or.inr ⟨s, hname⟩⟩
    · simp [Summed.amount, hname] at hparam

-- The counters do not depend on the order of the values, each sum is exact up to the largest u64,
-- and entries that no counter reads can be dropped.
theorem fromParams_exact
    (hone : ∀ s : Single, (params.map Prod.fst).count s.name ≤ 1) :
    (∀ others, params.Perm others → Counters.fromParams others = .fromParams params) ∧
    (∀ s : Summed,
      (s.of (.fromParams params) = none ↔
        ∀ param ∈ params, s.Names param.1 → param.2.asU64 = none) ∧
      (s.of (.fromParams params) ≠ none →
        s.of (.fromParams params) =
          some (min (params.filterMap fun param =>
            if s.Names param.1 then param.2.asU64 else none).sum (2 ^ 64 - 1)))) ∧
    ∀ kept, kept.Sublist params → kept.filter Counted = params.filter Counted →
      Counters.fromParams kept = .fromParams params := by
  refine ⟨?_, ?_, ?_⟩
  · intro others hperm
    refine Counters.ext_of ?_ ?_
    · intro s
      rw [s.of_fromParams, s.of_fromParams]
      exact (getLast?_perm (hperm.filterMap s.amount) (s.amounts_le_one params (hone s))).symm
    · intro s
      rw [s.of_fromParams, s.of_fromParams]
      exact (total_perm U64_MAX (hperm.filterMap s.amount)).symm
  · intro s
    rw [s.of_fromParams, total_eq_none_iff]
    constructor
    · rw [List.filterMap_eq_nil_iff]
      simp only [Summed.amount, ite_eq_right_iff]
    · intro hne
      have hvalues : params.filterMap s.amount ≠ [] := by simpa [total_eq_none_iff] using hne
      unfold total
      rw [if_neg hvalues]
      rfl
  · intro kept _ hkept
    rw [← Counters.fromParams_filter kept, hkept, Counters.fromParams_filter]

end Sample

def twoDisks : List (String × StatValue) :=
  [("cpu.time", .uint 7), ("block.0.rd.bytes", .uint (2 ^ 64 - 1)), ("state.state", .int 1),
    ("block.1.rd.bytes", .uint 50)]

theorem fromParams_exact_two_disks :
    Counters.fromParams twoDisks.reverse = .fromParams twoDisks ∧
      (Counters.fromParams twoDisks).diskReadBytes = some (2 ^ 64 - 1) ∧
      (Counters.fromParams twoDisks).netRxBytes = none ∧
      Counters.fromParams (twoDisks.filter Counted) = .fromParams twoDisks := by
  obtain ⟨hperm, hsum, hdrop⟩ := fromParams_exact twoDisks (by decide +kernel)
  refine ⟨hperm _ twoDisks.reverse_perm.symm, ?_, ?_, ?_⟩
  · exact ((hsum .diskRead).2 (by decide +kernel)).trans (by decide +kernel)
  · exact (hsum .netRx).1.mpr (by decide +kernel)
  · exact hdrop _ List.filter_sublist (by rw [List.filter_filter]; simp)

end Lodger.Stats
