import Mathlib

namespace Lodger.Lib.Window

-- A log of times, of which only those younger than `width` matter. A store
-- may drop old times whenever it likes: what it keeps is the log cut at some
-- moment that is not in the future.

def young (width now time : Nat) : Bool := decide (now < time + width)

def Kept (width now : Nat) (stored log : List Nat) : Prop :=
  ∃ cut ≤ now, stored = log.filter (young width cut)

variable {width now later : Nat} {stored log : List Nat}

theorem Kept.nil : Kept width now [] [] := ⟨now, Nat.le_refl _, rfl⟩

theorem Kept.mono (h : Kept width now stored log) (hn : now ≤ later) :
    Kept width later stored log := by
  obtain ⟨cut, hc, rfl⟩ := h
  exact ⟨cut, hc.trans hn, rfl⟩

theorem filter_young_filter (hn : now ≤ later) :
    (log.filter (young width now)).filter (young width later) =
      log.filter (young width later) := by
  rw [List.filter_filter]
  apply List.filter_congr
  intro time _
  simp only [young, Bool.and_eq_left_iff_imp, decide_eq_true_eq]
  omega

-- Whatever was dropped before, the young times are those of the log.
theorem Kept.filter_eq (h : Kept width now stored log) (hn : now ≤ later) :
    stored.filter (young width later) = log.filter (young width later) := by
  obtain ⟨cut, hc, rfl⟩ := h
  exact filter_young_filter (hc.trans hn)

-- Dropping everything is sound once no stored time is young.
theorem Kept.drop (h : Kept width now stored log) (hn : now ≤ later)
    (hold : ∀ time ∈ stored, young width later time = false) : Kept width later [] log := by
  have hempty : stored.filter (young width later) = [] := by
    rw [List.filter_eq_nil_iff]
    intro time ht
    simp [hold time ht]
  exact ⟨later, Nat.le_refl _, by rw [← h.filter_eq hn, hempty]⟩

theorem Kept.push (h : Kept width now stored log) (hw : 0 < width) :
    Kept width now (stored ++ [now]) (log ++ [now]) := by
  obtain ⟨cut, hc, rfl⟩ := h
  refine ⟨cut, hc, ?_⟩
  have hnow : young width cut now = true := by
    simp only [young, decide_eq_true_eq]
    omega
  simp [List.filter_append, hnow]

theorem Kept.erase (h : Kept width now stored log) (time : Nat) :
    Kept width now (stored.erase time) (log.erase time) := by
  obtain ⟨cut, hc, rfl⟩ := h
  exact ⟨cut, hc, List.erase_filter⟩

theorem Kept.sublist (h : Kept width now stored log) : stored.Sublist log := by
  obtain ⟨cut, _, rfl⟩ := h
  exact List.filter_sublist

-- On a sorted store, popping the old times from the front removes all of them.
theorem dropWhile_eq_filter (hs : stored.Pairwise (· ≤ ·)) :
    stored.dropWhile (fun time => !young width now time) = stored.filter (young width now) := by
  induction stored with
  | nil => rfl
  | cons time rest ih =>
      obtain ⟨hle, hrest⟩ := List.pairwise_cons.mp hs
      cases hy : young width now time with
      | false => simp [hy, ih hrest]
      | true =>
          have hall : ∀ later ∈ rest, young width now later = true := by
            intro later hl
            have := hle later hl
            simp only [young, decide_eq_true_eq] at hy ⊢
            omega
          simp [hy, List.filter_eq_self.mpr hall]

-- On a sorted store, an old last time means that every time is old.
theorem old_of_getLast? (hs : stored.Pairwise (· ≤ ·))
    (hold : (stored.getLast?.any (young width now)) = false) :
    ∀ time ∈ stored, young width now time = false := by
  intro time ht
  cases hl : stored.getLast? with
  | none => simp [List.getLast?_eq_none_iff.mp hl] at ht
  | some last =>
      obtain ⟨front, rfl⟩ := List.getLast?_eq_some_iff.mp hl
      have hle : time ≤ last := by
        rcases List.mem_append.mp ht with hf | hf
        · exact (List.pairwise_append.mp hs).2.2 time hf last (by simp)
        · simp at hf; omega
      simp only [hl, Option.any_some, young, decide_eq_false_iff_not] at hold ⊢
      omega

end Lodger.Lib.Window
