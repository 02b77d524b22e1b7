import Mathlib

namespace Lodger.Lib.Calendar

-- Numbers as texts of a fixed width, and times as texts of such numbers. Texts
-- of one format compare as the numbers in them do.
section Format

-- The last `width` decimal digits, the first digit first.
def digits : Nat → Nat → List Char
  | 0, _ => []
  | width + 1, n => (n / 10 ^ width).digitChar :: digits width (n % 10 ^ width)

-- Each field is a width and the character after it.
def format : List (Nat × Char) → List Nat → List Char
  | (width, sep) :: fields, v :: values => digits width v ++ sep :: format fields values
  | _, _ => []

-- Every value has room in its field.
def Fits : List (Nat × Char) → List Nat → Prop
  | [], [] => True
  | (width, _) :: fields, v :: values => v < 10 ^ width ∧ Fits fields values
  | _, _ => False

theorem length_digits (width n : Nat) : (digits width n).length = width := by
  induction width generalizing n with
  | zero => rfl
  | succ width ih => simp [digits, ih]

theorem digitChar_lt {a b : Nat} (h : a < b) (hb : b < 10) : a.digitChar < b.digitChar := by
  interval_cases b <;> interval_cases a <;> decide

theorem digits_lt {width a b : Nat} (h : a < b) (hb : b < 10 ^ width) :
    digits width a < digits width b := by
  induction width generalizing a b with
  | zero =>
      have : b < 1 := hb
      omega
  | succ width ih =>
      have hpos : 0 < 10 ^ width := by positivity
      have hlead : b / 10 ^ width < 10 := by
        rw [Nat.div_lt_iff_lt_mul hpos, ← pow_succ']
        exact hb
      rcases Nat.lt_or_eq_of_le (Nat.div_le_div_right h.le) with hlt | heq
      · exact List.Lex.rel (digitChar_lt hlt hlead)
      · have hrest : a % 10 ^ width < b % 10 ^ width := by
          have ha := Nat.div_add_mod a (10 ^ width)
          have hb := Nat.div_add_mod b (10 ^ width)
          rw [heq] at ha
          omega
        simp only [digits, heq]
        exact List.Lex.cons (ih hrest (Nat.mod_lt _ hpos))

theorem append_lt {α : Type} [LT α] {front front' back back' : List α}
    (hlen : front.length = front'.length)
    (h : front < front') : front ++ back < front' ++ back' := by
  induction front generalizing front' with
  | nil =>
      have hnil : front' = [] := List.length_eq_zero_iff.mp hlen.symm
      subst hnil
      cases h
  | cons c front ih =>
      cases front' with
      | nil => simp at hlen
      | cons d front' =>
          simp only [List.length_cons, Nat.add_right_cancel_iff] at hlen
          cases h with
          | rel hlt => exact List.Lex.rel hlt
          | cons h => exact List.Lex.cons (ih hlen h)

theorem format_lt {fields : List (Nat × Char)} {values values' : List Nat}
    (h : Fits fields values) (h' : Fits fields values') (hlt : values < values') :
    format fields values < format fields values' := by
  induction fields generalizing values values' with
  | nil =>
      cases values with
      | nil =>
          cases values' with
          | nil => simp at hlt
          | cons => exact h'.elim
      | cons => exact h.elim
  | cons field fields ih =>
      cases values with
      | nil => exact h.elim
      | cons v values =>
          cases values' with
          | nil => exact h'.elim
          | cons v' values' =>
              have hlen : (digits field.1 v).length = (digits field.1 v').length := by
                rw [length_digits, length_digits]
              simp only [format]
              cases hlt with
              | rel hlt => exact append_lt hlen (digits_lt hlt h'.1)
              | cons hlt =>
                  apply List.append_left_lt
                  exact List.Lex.cons (ih h.2 h'.2 hlt)

end Format

-- The Gregorian calendar, extended to all years.
section Dates

def isLeap (year : Int) : Bool := year % 4 = 0 && (year % 100 ≠ 0 || year % 400 = 0)

-- The year and the day of the year, both from 0, of a day of four years, of a
-- century and of 400 years. The last year of each takes the extra day.
def quadYear (day : Int) : Int × Int :=
  let year := min (day / 365) 3
  (year, day - 365 * year)

def centuryYear (day : Int) : Int × Int :=
  let (year, rest) := quadYear (day % 1461)
  (4 * (day / 1461) + year, rest)

def eraYear (day : Int) : Int × Int :=
  let century := min (day / 36524) 3
  let (year, rest) := centuryYear (day - 36524 * century)
  (100 * century + year, rest)

-- The same of a day counted from 0001-01-01.
def yearDay (day : Int) : Int × Int :=
  let (year, rest) := eraYear (day % 146097)
  (400 * (day / 146097) + year + 1, rest)

def monthLengths (leap : Bool) : List Nat :=
  [31, if leap then 29 else 28, 31, 30, 31, 30, 31, 31, 30, 31, 30, 31]

-- The month and the day of the month, both from 1, of a day counted from 0.
def monthDay : List Nat → Nat → Nat × Nat
  | [], day => (1, day + 1)
  | length :: rest, day =>
      if day < length then (1, day + 1)
      else
        let (month, dayOfMonth) := monthDay rest (day - length)
        (month + 1, dayOfMonth)

-- A number of whole periods and the rest grow with the number that is split.
theorem ediv_emod_lt {a b k : Int} (hk : 0 < k) (h : a < b) :
    a / k < b / k ∨ a / k = b / k ∧ a % k < b % k := by
  rcases lt_or_eq_of_le (Int.ediv_le_ediv hk h.le) with hlt | heq
  · exact .inl hlt
  · refine .inr ⟨heq, ?_⟩
    rw [Int.emod_def, Int.emod_def, heq]
    exact Int.sub_lt_sub_right h _

theorem capped_lt {a b k : Int} (cap : Int) (hk : 0 < k) (h : a < b) :
    min (a / k) cap < min (b / k) cap ∨
      min (a / k) cap = min (b / k) cap ∧ a - k * min (a / k) cap < b - k * min (b / k) cap := by
  have hle : min (a / k) cap ≤ min (b / k) cap :=
    min_le_min_right cap (Int.ediv_le_ediv hk h.le)
  rcases lt_or_eq_of_le hle with hlt | heq
  · exact .inl hlt
  · refine .inr ⟨heq, ?_⟩
    rw [heq]
    exact Int.sub_lt_sub_right h _

-- Lexicographic order of a period and a day in it.
def Before (p q : Int × Int) : Prop := p.1 < q.1 ∨ p.1 = q.1 ∧ p.2 < q.2

-- The year is one of the first `years`, and no year has more than 366 days.
def Within (years : Int) (p : Int × Int) : Prop :=
  0 ≤ p.1 ∧ p.1 < years ∧ 0 ≤ p.2 ∧ p.2 ≤ 365

theorem quadYear_within (day : Int) (h : 0 ≤ day) (h' : day < 1461) : Within 4 (quadYear day) := by
  simp only [Within, quadYear]
  omega

theorem centuryYear_within (day : Int) (h : 0 ≤ day) (h' : day < 36525) :
    Within 100 (centuryYear day) := by
  have hquad := quadYear_within (day % 1461) (by omega) (by omega)
  simp only [Within, centuryYear] at hquad ⊢
  omega

theorem eraYear_within (day : Int) (h : 0 ≤ day) (h' : day < 146097) :
    Within 400 (eraYear day) := by
  have hcentury := centuryYear_within (day - 36524 * min (day / 36524) 3) (by omega) (by omega)
  simp only [Within, eraYear] at hcentury ⊢
  omega

theorem quadYear_before {day day' : Int} (h : day < day') :
    Before (quadYear day) (quadYear day') := capped_lt 3 (by decide) h

theorem centuryYear_before {day day' : Int} (h : day < day') :
    Before (centuryYear day) (centuryYear day') := by
  have hw := quadYear_within (day % 1461) (by omega) (by omega)
  have hw' := quadYear_within (day' % 1461) (by omega) (by omega)
  simp only [Within, Before, centuryYear] at hw hw' ⊢
  rcases ediv_emod_lt (k := 1461) (by decide) h with hlt | ⟨heq, hrest⟩
  · omega
  · have hquad := quadYear_before hrest
    simp only [Before] at hquad
    omega

theorem eraYear_before {day day' : Int} (h0 : 0 ≤ day) (h : day < day') (h1 : day' < 146097) :
    Before (eraYear day) (eraYear day') := by
  have hw := centuryYear_within (day - 36524 * min (day / 36524) 3) (by omega) (by omega)
  have hw' := centuryYear_within (day' - 36524 * min (day' / 36524) 3) (by omega) (by omega)
  simp only [Within, Before, eraYear] at hw hw' ⊢
  rcases capped_lt (k := 36524) 3 (by decide) h with hlt | ⟨heq, hrest⟩
  · omega
  · have hcentury := centuryYear_before hrest
    simp only [Before] at hcentury
    omega

theorem yearDay_before {day day' : Int} (h : day < day') :
    Before (yearDay day) (yearDay day') := by
  have hw := eraYear_within (day % 146097) (by omega) (by omega)
  have hw' := eraYear_within (day' % 146097) (by omega) (by omega)
  simp only [Within, Before, yearDay] at hw hw' ⊢
  rcases ediv_emod_lt (k := 146097) (by decide) h with hlt | ⟨heq, hrest⟩
  · omega
  · have hera := eraYear_before (by omega) hrest (by omega)
    simp only [Before] at hera
    omega

theorem year_mono {day day' : Int} (h : day ≤ day') : (yearDay day).1 ≤ (yearDay day').1 := by
  rcases lt_or_eq_of_le h with hlt | rfl
  · have := yearDay_before hlt
    simp only [Before] at this
    omega
  · exact le_refl _

-- The years 0000 to 9999.
theorem yearDay_within {day : Int} (h : -366 ≤ day) (h' : day < 3652059) :
    Within 10000 (yearDay day) := by
  have hrest := eraYear_within (day % 146097) (by omega) (by omega)
  have hfirst : (yearDay (-366)).1 ≤ (yearDay day).1 := year_mono h
  have hlast : (yearDay day).1 ≤ (yearDay 3652058).1 := year_mono (by omega)
  have h0 : yearDay (-366) = (0, 0) := by decide
  have h9 : yearDay 3652058 = (9999, 364) := by decide
  rw [h0] at hfirst
  rw [h9] at hlast
  exact ⟨hfirst, Int.lt_add_one_of_le hlast, hrest.2.2.1, hrest.2.2.2⟩

theorem monthDay_pos (lengths : List Nat) (day : Nat) : 0 < (monthDay lengths day).1 := by
  cases lengths with
  | nil => exact Nat.one_pos
  | cons length rest =>
      simp only [monthDay]
      split
      · exact Nat.one_pos
      · exact Nat.succ_pos _

theorem monthDay_lt (lengths : List Nat) {day day' : Nat} (h : day < day') :
    (monthDay lengths day).1 < (monthDay lengths day').1 ∨
      (monthDay lengths day).1 = (monthDay lengths day').1 ∧
        (monthDay lengths day).2 < (monthDay lengths day').2 := by
  induction lengths generalizing day day' with
  | nil => exact .inr ⟨rfl, Nat.succ_lt_succ h⟩
  | cons length rest ih =>
      simp only [monthDay]
      by_cases hd : day < length
      · by_cases hd' : day' < length
        · simp only [hd, hd', if_true]
          exact .inr ⟨trivial, Nat.succ_lt_succ h⟩
        · have hpos := monthDay_pos rest (day' - length)
          simp only [hd, hd', if_true, if_false]
          omega
      · have hd' : ¬ day' < length := by omega
        have hrest : day - length < day' - length := by omega
        have hlt := ih hrest
        simp only [hd, hd', if_false]
        omega

theorem monthDay_bounds (lengths : List Nat) (h : ∀ length ∈ lengths, length ≤ 31) {day : Nat}
    (hday : day < lengths.sum + 31) :
    (monthDay lengths day).1 ≤ lengths.length + 1 ∧ (monthDay lengths day).2 ≤ 31 := by
  induction lengths generalizing day with
  | nil => exact ⟨le_refl _, by simpa [monthDay] using hday⟩
  | cons length rest ih =>
      have hlength := h length (List.mem_cons_self ..)
      rw [List.sum_cons] at hday
      simp only [monthDay, List.length_cons]
      by_cases hlt : day < length
      · simp only [hlt, if_true]
        omega
      · have hrest := ih (fun l hl => h l (List.mem_cons_of_mem _ hl))
          (by omega : day - length < rest.sum + 31)
        simp only [hlt, if_false]
        omega

theorem monthLengths_spec (leap : Bool) :
    (∀ length ∈ monthLengths leap, length ≤ 31) ∧ 365 ≤ (monthLengths leap).sum ∧
      (monthLengths leap).length = 12 := by
  cases leap <;> decide

end Dates

-- Times are milliseconds since 1970-01-01T00:00:00.000Z.
section Times

def DAY : Int := 86400000

-- The first and the last millisecond of the years 0000 to 9999.
def FIRST : Int := -62167219200000
def LAST : Int := 253402300799999

-- The fields of %Y-%m-%dT%H:%M:%fZ, where %f is the seconds with three decimals.
def isoFields : List (Nat × Char) :=
  [(4, '-'), (2, '-'), (2, 'T'), (2, ':'), (2, ':'), (2, '.'), (3, 'Z')]

def monthOf (day : Int) : Nat × Nat :=
  monthDay (monthLengths (isLeap (yearDay day).1)) (yearDay day).2.toNat

def date (day : Int) : List Nat :=
  [(yearDay day).1.toNat, (monthOf day).1, (monthOf day).2]

def timeOfDay (ms : Nat) : List Nat :=
  [ms / 3600000, ms / 60000 % 60, ms / 1000 % 60, ms % 1000]

-- 1970-01-01 is day 719162.
def isoValues (ms : Int) : List Nat :=
  date (ms / DAY + 719162) ++ timeOfDay (ms % DAY).toNat

def iso8601 (ms : Int) : String := String.ofList (format isoFields (isoValues ms))

example : iso8601 0 = "1970-01-01T00:00:00.000Z" ∧
    iso8601 951782400007 = "2000-02-29T00:00:00.007Z" ∧
    iso8601 LAST = "9999-12-31T23:59:59.999Z" := by decide

theorem timeOfDay_lt {ms ms' : Nat} (h : ms < ms') : timeOfDay ms < timeOfDay ms' := by
  simp only [timeOfDay, List.cons_lt_cons_iff, List.lt_irrefl, and_false, or_false]
  omega

theorem date_lt {day day' : Int} (h0 : -366 ≤ day) (h : day < day') (h1 : day' < 3652059) :
    date day < date day' := by
  have hw := yearDay_within h0 (by omega)
  have hw' := yearDay_within (by omega) h1
  simp only [Within] at hw hw'
  simp only [date, List.cons_lt_cons_iff, List.lt_irrefl, and_false, or_false]
  rcases yearDay_before h with hlt | ⟨heq, hrest⟩
  · omega
  · have hmonth := monthDay_lt (monthLengths (isLeap (yearDay day).1))
      (by omega : (yearDay day).2.toNat < (yearDay day').2.toNat)
    simp only [monthOf, heq, true_and] at hmonth ⊢
    exact .inr hmonth

theorem date_fits {day : Int} (h0 : -366 ≤ day) (h1 : day < 3652059) :
    (yearDay day).1.toNat < 10 ^ 4 ∧ (monthOf day).1 < 10 ^ 2 ∧ (monthOf day).2 < 10 ^ 2 := by
  have hw := yearDay_within h0 h1
  obtain ⟨hlengths, hsum, htwelve⟩ := monthLengths_spec (isLeap (yearDay day).1)
  simp only [Within] at hw
  have hmonth := monthDay_bounds _ hlengths (by omega : (yearDay day).2.toNat < _)
  rw [htwelve] at hmonth
  simp only [monthOf]
  omega

theorem day_bounds {ms : Int} (h : FIRST ≤ ms) (h' : ms ≤ LAST) :
    -366 ≤ ms / DAY + 719162 ∧ ms / DAY + 719162 < 3652059 := by
  simp only [FIRST, LAST, DAY] at *
  omega

theorem isoValues_fits {ms : Int} (h : FIRST ≤ ms) (h' : ms ≤ LAST) :
    Fits isoFields (isoValues ms) := by
  obtain ⟨h0, h1⟩ := day_bounds h h'
  obtain ⟨hyear, hmonth, hday⟩ := date_fits h0 h1
  have hrest : (ms % DAY).toNat < 86400000 := by
    simp only [DAY]
    omega
  refine ⟨hyear, hmonth, hday, ?_, ?_, ?_, ?_, trivial⟩ <;> omega

theorem isoValues_lt {ms ms' : Int} (h0 : FIRST ≤ ms) (h : ms < ms') (h1 : ms' ≤ LAST) :
    isoValues ms < isoValues ms' := by
  obtain ⟨hday, -⟩ := day_bounds h0 (by omega)
  obtain ⟨-, hday'⟩ := day_bounds (by omega) h1
  rcases ediv_emod_lt (k := DAY) (by decide) h with hlt | ⟨heq, hrest⟩
  · exact append_lt rfl (date_lt hday (by omega) hday')
  · have hnonneg : 0 ≤ ms % DAY := Int.emod_nonneg ms (by decide)
    rw [isoValues, isoValues, heq]
    exact List.append_left_lt (timeOfDay_lt (by omega))

-- Texts of the years 0000 to 9999 compare as the times do.
theorem iso8601_lt_iff {ms ms' : Int} (h0 : FIRST ≤ ms) (h1 : ms ≤ LAST) (h0' : FIRST ≤ ms')
    (h1' : ms' ≤ LAST) : iso8601 ms < iso8601 ms' ↔ ms < ms' := by
  have hmono : ∀ {a b : Int}, FIRST ≤ a → a < b → b ≤ LAST → iso8601 a < iso8601 b := by
    intro a b ha hab hb
    rw [String.lt_iff, iso8601, iso8601, String.toList_ofList, String.toList_ofList]
    exact format_lt (isoValues_fits ha (by omega)) (isoValues_fits (by omega) hb)
      (isoValues_lt ha hab hb)
  refine ⟨fun hlt => ?_, fun hlt => hmono h0 hlt h1'⟩
  rcases lt_trichotomy ms ms' with h | rfl | h
  · exact h
  · exact absurd hlt (String.lt_irrefl _)
  · exact absurd (hmono h0' h h1) (String.lt_asymm hlt)

end Times

end Lodger.Lib.Calendar
