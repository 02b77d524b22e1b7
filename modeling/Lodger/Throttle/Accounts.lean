import Lodger.Throttle
import Lodger.Db.Lemmas
import Lodger.Validate.Lemmas

namespace Lodger.Throttle

open Lodger.Db (nocase)
open Validate (Name nameChar len)

section Ascii

def Ascii (text : String) : Prop := ∀ c ∈ text.toList, c.toNat < 128

theorem lower_lt : ∀ n < 128, (Char.ofNat n).toLower.toNat < 128 := by decide

-- Only a letter changes, so the folded form of a character outside ASCII is outside.
theorem toLower_lt_iff (c : Char) : c.toLower.toNat < 128 ↔ c.toNat < 128 := by
  constructor
  · intro h
    by_cases hupper : c.val ≥ 'A'.val ∧ c.val ≤ 'Z'.val
    · have hle : c.toNat ≤ 'Z'.toNat := hupper.2
      have hz : 'Z'.toNat = 90 := by decide
      omega
    · rwa [Char.toLower, dif_neg hupper] at h
  · intro h
    have hlower := lower_lt c.toNat h
    rwa [Char.ofNat_toNat] at hlower

theorem ascii_of_nocase {a b : String} (h : nocase a = nocase b) (ha : Ascii a) : Ascii b := by
  have hlists := congrArg String.toList h
  simp only [nocase, String.toList_ofList] at hlists
  intro c hc
  have hmem : c.toLower ∈ a.toList.map Char.toLower := by
    rw [hlists]
    exact List.mem_map_of_mem hc
  obtain ⟨d, hd, hdc⟩ := List.mem_map.mp hmem
  have hlt := (toLower_lt_iff d).mpr (ha d hd)
  rw [hdc] at hlt
  exact (toLower_lt_iff c).mp hlt

theorem length_of_nocase {a b : String} (h : nocase a = nocase b) :
    a.toList.length = b.toList.length := by
  have hlists := congrArg String.toList h
  simp only [nocase, String.toList_ofList] at hlists
  have hlengths := congrArg List.length hlists
  simpa using hlengths

end Ascii

section Names

theorem alphanum_lt {c : Char} (h : c.isAlphanum = true) : c.toNat < 128 := by
  simp only [Char.isAlphanum, Char.isAlpha, Char.isUpper, Char.isLower, Char.isDigit,
    Bool.or_eq_true, Bool.and_eq_true, decide_eq_true_eq, ge_iff_le, UInt32.le_iff_toNat_le] at h
  have hc : c.toNat = c.val.toNat := rfl
  have hupper : 'Z'.val.toNat = 90 := by decide
  have hlower : 'z'.val.toNat = 122 := by decide
  have hdigit : '9'.val.toNat = 57 := by decide
  omega

theorem nameChar_lt {c : Char} (h : nameChar c = true) : c.toNat < 128 := by
  simp only [nameChar, Bool.or_eq_true, decide_eq_true_eq] at h
  obtain ((h | rfl) | rfl) | rfl := h
  · exact alphanum_lt h
  · decide
  · decide
  · decide

theorem length_le_len (text : List Char) : text.length ≤ (text.map Char.utf8Size).sum := by
  induction text with
  | nil => simp
  | cons c rest ih =>
      have hc : 0 < c.utf8Size := Char.utf8Size_pos c
      simp only [List.length_cons, List.map_cons, List.sum_cons]
      omega

theorem Name.ascii (name : Name) : Ascii name.asStr := fun c hc => nameChar_lt (name.chars c hc)

theorem Name.length_le (name : Name) : name.asStr.toList.length ≤ NAME_MAX_LEN := by
  have hlen := length_le_len name.asStr.toList
  have hshort := name.short
  simp only [len] at hshort
  have hmax : Validate.NAME_MAX_LEN = NAME_MAX_LEN := rfl
  omega

end Names

section Keys

variable {lower : String → String}
  -- `str::to_lowercase` on ASCII text, as documented.
  (hlower : ∀ text, Ascii text → lower text = nocase text)
include hlower

theorem accountKey_of_name (name : Name) {u : String} (h : nocase name.asStr = nocase u) :
    accountKey lower u = nocase name.asStr := by
  have hlength := length_of_nocase h
  have hle := Name.length_le name
  have htake : u.toList.take NAME_MAX_LEN = u.toList := List.take_of_length_le (by omega)
  rw [accountKey, htake, String.ofList_toList, hlower u (ascii_of_nocase h (Name.ascii name)), h]

-- Every spelling that finds an account counts on the key of its stored name, and no two
-- accounts share a key.
theorem throttle_agrees_with_database (db : Db)
    (hnames : ∀ a ∈ db.accounts, ∃ field name, Name.parse field a.username = .ok name) :
    (∀ u v a, db.findAccount u = some a → db.findAccount v = some a →
      accountKey lower u = accountKey lower v ∧ accountKey lower v = accountKey lower a.username) ∧
    ∀ a ∈ db.accounts, ∀ b ∈ db.accounts, a ≠ b →
      accountKey lower a.username ≠ accountKey lower b.username := by
  have hkey : ∀ a ∈ db.accounts, ∀ u, nocase a.username = nocase u →
      accountKey lower u = nocase a.username := by
    intro a ha u hu
    obtain ⟨field, name, hparse⟩ := hnames a ha
    have hstored := Name.parse_asStr hparse
    rw [← hstored] at hu ⊢
    exact accountKey_of_name hlower name hu
  have hfound : ∀ u a, db.findAccount u = some a → accountKey lower u = nocase a.username := by
    intro u a hu
    have hmatch := List.find?_some hu
    simp only [decide_eq_true_eq] at hmatch
    exact hkey a (Db.findAccount_mem hu) u hmatch
  refine ⟨?_, ?_⟩
  · intro u v a hu hv
    have hself := hkey a (Db.findAccount_mem hu) a.username rfl
    rw [hfound u a hu, hfound v a hv, hself]
    exact ⟨rfl, rfl⟩
  · intro a ha b hb hne heq
    rw [hkey a ha a.username rfl, hkey b hb b.username rfl] at heq
    exact hne (List.inj_on_of_nodup_map db.names ha hb heq)

end Keys

section Runs

def adminDb : Db where
  accounts := [⟨1, "Admin", "hash"⟩, ⟨2, "guest", "hash"⟩]
  sessions := []
  ids := by decide
  names := by decide
  tokens := List.nodup_nil
  owners := by simp

theorem adminDb_names : ∀ a ∈ adminDb.accounts, ∃ field name, Name.parse field a.username = .ok name := by
  have hadmin : ∃ name, Name.parse "name" "Admin" = .ok name := ⟨⟨"Admin", by decide,
    List.all_eq_true.mp (by decide), by decide⟩, by decide +kernel⟩
  have hguest : ∃ name, Name.parse "name" "guest" = .ok name := ⟨⟨"guest", by decide,
    List.all_eq_true.mp (by decide), by decide⟩, by decide +kernel⟩
  intro a ha
  simp only [adminDb, List.mem_cons, List.not_mem_nil, or_false] at ha
  obtain rfl | rfl := ha
  · exact ⟨"name", hadmin⟩
  · exact ⟨"name", hguest⟩

theorem throttle_agrees_with_database_admin :
    adminDb.findAccount "aDMIN" = some ⟨1, "Admin", "hash"⟩ ∧
      accountKey nocase "aDMIN" = accountKey nocase "Admin" := by
  have hfound : adminDb.findAccount "aDMIN" = some ⟨1, "Admin", "hash"⟩ := by decide +kernel
  have hagree := (throttle_agrees_with_database (fun _ _ => rfl) adminDb adminDb_names).1
  exact ⟨hfound, (hagree "aDMIN" "aDMIN" _ hfound hfound).2⟩

end Runs

end Lodger.Throttle
