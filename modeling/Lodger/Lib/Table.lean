import Mathlib

namespace Lodger.Lib

-- Rows with a key that no two of them share.
section Table

variable {ρ κ : Type} [DecidableEq κ] {rows : List ρ} {key : ρ → κ}

theorem find?_key_eq_some (h : (rows.map key).Nodup) {k : κ} {row : ρ} :
    rows.find? (key · = k) = some row ↔ row ∈ rows ∧ key row = k := by
  constructor
  · intro hrow
    exact ⟨List.mem_of_find?_eq_some hrow, by simpa using List.find?_some hrow⟩
  · rintro ⟨hmem, rfl⟩
    have hsome : (rows.find? (key · = key row)).isSome :=
      List.find?_isSome.mpr ⟨row, hmem, by simp⟩
    obtain ⟨other, hother⟩ := Option.isSome_iff_exists.mp hsome
    have hkey : key other = key row := by simpa using List.find?_some hother
    rw [hother, List.inj_on_of_nodup_map h (List.mem_of_find?_eq_some hother) hmem hkey]

end Table

end Lodger.Lib
