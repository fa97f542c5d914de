import LaunchAuditor.Js

/-! `Date`: which numbers are time values, and that `Date.parse` reads back what `toISOString` prints. -/

namespace LaunchAuditor.Js

def MAX_TIME : Int := 8640000000000000

/-- What `new Date(ms)` takes; anything else makes an invalid date. -/
def isTime (ms : Int) : Bool := decide (-MAX_TIME ≤ ms ∧ ms ≤ MAX_TIME)

/-- A valid `Date`. -/
abbrev Date := { ms : Int // isTime ms = true }

/-- The days from 1970-01-01 to a date of the proleptic Gregorian calendar. -/
def daysOf (date : UtcDate) : Int :=
  let y := if date.month ≤ 2 then date.year - 1 else date.year
  let yoe := y % 400
  let mp := if date.month ≤ 2 then date.month + 9 else date.month - 3
  let doy := (153 * mp + 2) / 5 + date.day - 1
  y / 400 * 146097 + (yoe * 365 + yoe / 4 - yoe / 100 + doy) - 719468

/-- Exactly so many digits, and what follows them. -/
def readDigits (width : Nat) (cs : List Char) : Option (Nat × List Char) :=
  let digits := cs.take width
  if digits.length = width ∧ digits.all Char.isDigit then some (Nat.ofDigitChars 10 digits 0, cs.drop width) else none

/-- The number after a separator. -/
def readField (sep : Char) (width : Nat) (cs : List Char) : Option (Nat × List Char) :=
  if cs.head? = some sep then readDigits width cs.tail else none

/-- Four digits, or a sign and six. -/
def readYear (cs : List Char) : Option (Int × List Char) :=
  if cs.head? = some '+' then (readDigits 6 cs.tail).map fun r => ((r.1 : Int), r.2)
  else if cs.head? = some '-' then
    (readDigits 6 cs.tail).bind fun r => if r.1 = 0 then none else some (-(r.1 : Int), r.2)
  else (readDigits 4 cs).map fun r => ((r.1 : Int), r.2)

/-- `Date.parse` in the format of `toISOString`; it returns none for NaN. -/
def dateParse (s : String) : Option Int := do
  let (year, cs) ← readYear s.toList
  let (month, cs) ← readField '-' 2 cs
  let (day, cs) ← readField '-' 2 cs
  let (hour, cs) ← readField 'T' 2 cs
  let (minute, cs) ← readField ':' 2 cs
  let (second, cs) ← readField ':' 2 cs
  let (milli, cs) ← readField '.' 3 cs
  let t := daysOf ⟨year, month, day⟩ * 86400000 + hour * 3600000 + minute * 60000 + second * 1000 + milli
  if cs = ['Z'] ∧ 1 ≤ month ∧ month ≤ 12 ∧ 1 ≤ day ∧ day ≤ 31 ∧ hour < 24 ∧ minute < 60 ∧ second < 60 ∧ isTime t then some t
  else none

section Calendar

/-- The year of a day within a century of its era. -/
theorem yearOfEra_century {doe f : Int} (h0 : 0 ≤ doe) (h1 : doe < 146096) (hf : doe / 36524 = f) :
    (doe - doe / 1460 + doe / 36524 - doe / 146096) / 365 =
      100 * f + (doe - 36524 * f - (doe - 36524 * f + 24 * f) / 1460) / 365 := by
  have hlast : doe / 146096 = 0 := by omega
  have hleap : doe / 1460 = 25 * f + (doe - 36524 * f + 24 * f) / 1460 := by omega
  rw [hlast, hleap, hf]
  omega

/-- The year of a day of a century, and the day of that year. -/
theorem yearOfCentury {r f : Int} (h0 : 0 ≤ r) (h1 : r < 36524) (hf : 0 ≤ f) (hf' : f ≤ 3) :
    let u := (r - (r + 24 * f) / 1460) / 365
    0 ≤ u ∧ u < 100 ∧ 0 ≤ r - 365 * u - u / 4 ∧ r - 365 * u - u / 4 < 366 := by
  intro u
  -- r is in the s-th span of four years
  generalize hs : r / 1461 = s
  obtain ⟨w, rfl, hw0, hw1⟩ : ∃ w, r = 1461 * s + w ∧ 0 ≤ w ∧ w < 1461 := ⟨r - 1461 * s, by omega, by omega, by omega⟩
  have hleap : (1461 * s + w + 24 * f) / 1460 = s + (w + s + 24 * f) / 1460 := by omega
  have hover : (w + s + 24 * f) / 1460 = if 1460 ≤ w + s + 24 * f then 1 else 0 := by
    split <;> omega
  have hu : u = 4 * s + (w - (w + s + 24 * f) / 1460) / 365 := by
    change (1461 * s + w - (1461 * s + w + 24 * f) / 1460) / 365 = _
    rw [hleap]
    omega
  rw [hover] at hu
  split at hu <;> omega

/-- The year of a day of the era, and the day of that year. -/
theorem yearOfEra (doe : Int) (h0 : 0 ≤ doe) (h1 : doe < 146097) :
    let yoe := (doe - doe / 1460 + doe / 36524 - doe / 146096) / 365
    0 ≤ yoe ∧ yoe < 400 ∧ 0 ≤ doe - (365 * yoe + yoe / 4 - yoe / 100) ∧
      doe - (365 * yoe + yoe / 4 - yoe / 100) < 366 := by
  by_cases hlast : doe = 146096
  · subst hlast
    decide
  · generalize hf : doe / 36524 = f
    have hcentury := yearOfEra_century h0 (by omega) hf
    obtain ⟨hu0, hu1, hd0, hd1⟩ := yearOfCentury (r := doe - 36524 * f) (f := f) (by omega) (by omega) (by omega) (by omega)
    rw [hf] at hcentury
    rw [hcentury]
    generalize (doe - 36524 * f - (doe - 36524 * f + 24 * f) / 1460) / 365 = u at *
    have hfour : (100 * f + u) / 4 = 25 * f + u / 4 := by omega
    have hhundred : (100 * f + u) / 100 = f := by omega
    dsimp only
    rw [hfour, hhundred]
    omega

theorem utcDate_month (days : Int) : 1 ≤ (utcDate days).month ∧ (utcDate days).month ≤ 12 := by
  obtain ⟨_, _, hd0, hd1⟩ := yearOfEra ((days + 719468) % 146097) (by omega) (by omega)
  unfold utcDate
  dsimp only
  split <;> omega

theorem utcDate_day (days : Int) : 1 ≤ (utcDate days).day ∧ (utcDate days).day ≤ 31 := by
  obtain ⟨_, _, hd0, hd1⟩ := yearOfEra ((days + 719468) % 146097) (by omega) (by omega)
  unfold utcDate
  dsimp only
  omega

theorem utcDate_year {days : Int} (h0 : -100000000 ≤ days) (h1 : days ≤ 100000000) :
    (utcDate days).year.natAbs < 1000000 := by
  obtain ⟨hy0, hy1, _, _⟩ := yearOfEra ((days + 719468) % 146097) (by omega) (by omega)
  unfold utcDate
  dsimp only
  split <;> omega

theorem daysOf_civil (era : Int) {yoe doy : Int} (hy0 : 0 ≤ yoe) (hy1 : yoe < 400) (hd0 : 0 ≤ doy) (hd1 : doy < 366) :
    let mp := (5 * doy + 2) / 153
    let month := if mp < 10 then mp + 3 else mp - 9
    daysOf ⟨yoe + era * 400 + (if month ≤ 2 then 1 else 0), month, doy - (153 * mp + 2) / 5 + 1⟩ =
      era * 146097 + (yoe * 365 + yoe / 4 - yoe / 100 + doy) - 719468 := by
  intro mp month
  have hyear : (yoe + era * 400) % 400 = yoe ∧ (yoe + era * 400) / 400 = era := ⟨by omega, by omega⟩
  unfold daysOf
  dsimp only
  by_cases hmp : mp < 10
  · have hmonth : month = mp + 3 := if_pos hmp
    rw [hmonth, if_neg (by omega), if_neg (by omega), if_neg (by omega), Int.add_zero, hyear.1, hyear.2]
    omega
  · have hmonth : month = mp - 9 := if_neg hmp
    rw [hmonth, if_pos (by omega), if_pos (by omega), if_pos (by omega), Int.add_sub_cancel, hyear.1, hyear.2]
    omega

theorem daysOf_utcDate (days : Int) : daysOf (utcDate days) = days := by
  obtain ⟨hy0, hy1, hd0, hd1⟩ := yearOfEra ((days + 719468) % 146097) (by omega) (by omega)
  refine (daysOf_civil ((days + 719468) / 146097) hy0 hy1 hd0 hd1).trans ?_
  omega

end Calendar

section Text

theorem length_padLeft {width : Nat} {s : List Char} (h : s.length ≤ width) : (padLeft width s).length = width := by
  simp [padLeft]
  omega

theorem readDigits_padded {width n : Nat} (hw : 0 < width) (hn : n < 10 ^ width) (rest : List Char) :
    readDigits width ((padded width n).toList ++ rest) = some (n, rest) := by
  have htext : (padded width n).toList = padLeft width (Nat.toDigits 10 n) := by
    simp [padded]
  have hlen : (padLeft width (Nat.toDigits 10 n)).length = width :=
    length_padLeft ((Nat.length_toDigits_le_iff (by decide) hw).mpr hn)
  have hdigit : (padLeft width (Nat.toDigits 10 n)).all Char.isDigit = true := by
    rw [List.all_eq_true]
    intro c hc
    rcases List.mem_append.mp hc with hc | hc
    · rw [List.eq_of_mem_replicate hc]
      rfl
    · exact Nat.isDigit_of_mem_toDigits (by decide) (by decide) hc
  have hvalue : Nat.ofDigitChars 10 (padLeft width (Nat.toDigits 10 n)) 0 = n := by
    simp [padLeft, Nat.ofDigitChars_append]
  have htake : (padLeft width (Nat.toDigits 10 n) ++ rest).take width = padLeft width (Nat.toDigits 10 n) :=
    List.take_left' hlen
  have hdrop : (padLeft width (Nat.toDigits 10 n) ++ rest).drop width = rest := List.drop_left' hlen
  unfold readDigits
  dsimp only
  rw [htext, htake, hdrop, hvalue, if_pos ⟨hlen, hdigit⟩]

theorem readField_padded (sep : Char) {width : Nat} {n : Int} (hw : 0 < width) (h0 : 0 ≤ n) (hn : n < 10 ^ width)
    (rest : List Char) : readField sep width (sep :: ((padded width n).toList ++ rest)) = some (n.toNat, rest) := by
  obtain ⟨k, rfl⟩ := Int.eq_ofNat_of_zero_le h0
  have hk : k < 10 ^ width := by exact_mod_cast hn
  exact (if_pos rfl).trans (readDigits_padded hw hk rest)

theorem padded_head {width n : Nat} (hw : 0 < width) (hn : n < 10 ^ width) (rest : List Char) :
    ∃ c, ((padded width n).toList ++ rest).head? = some c ∧ c.isDigit = true := by
  have hread := readDigits_padded hw hn rest
  generalize (padded width n).toList ++ rest = cs at *
  unfold readDigits at hread
  dsimp only at hread
  split at hread
  · rename_i h
    cases cs with
    | nil => simp at h; omega
    | cons c cs =>
      refine ⟨c, rfl, List.all_eq_true.mp h.2 c ?_⟩
      cases width with
      | zero => omega
      | succ width => simp
  · cases hread

/-- The year as it is printed. -/
def yearText (year : Int) : String :=
  if 0 ≤ year ∧ year ≤ 9999 then padded 4 year else (if year < 0 then "-" else "+") ++ padded 6 year.natAbs

theorem readYear_text {year : Int} (h : year.natAbs < 1000000) (rest : List Char) :
    readYear ((yearText year).toList ++ rest) = some (year, rest) := by
  unfold yearText
  by_cases hfour : 0 ≤ year ∧ year ≤ 9999
  · rw [if_pos hfour]
    obtain ⟨k, rfl⟩ := Int.eq_ofNat_of_zero_le hfour.1
    have hk : k < 10 ^ 4 := by omega
    obtain ⟨c, hc, hdigit⟩ := padded_head (by decide) hk rest
    have hplus : c ≠ '+' := by
      rintro rfl
      cases hdigit
    have hminus : c ≠ '-' := by
      rintro rfl
      cases hdigit
    unfold readYear
    rw [hc, if_neg (by simpa using hplus), if_neg (by simpa using hminus), readDigits_padded (by decide) hk rest]
    rfl
  · rw [if_neg hfour]
    have hsix : year.natAbs < 10 ^ 6 := by omega
    have hread := readDigits_padded (by decide) hsix rest
    unfold readYear
    by_cases hneg : year < 0
    · rw [if_pos hneg]
      simp only [String.toList_append, String.reduceToList, List.cons_append, List.nil_append, List.head?_cons, List.tail_cons]
      rw [if_neg (by decide), if_pos trivial, hread, Option.bind_some, if_neg (by omega)]
      have hvalue : -(year.natAbs : Int) = year := by omega
      rw [hvalue]
    · rw [if_neg hneg]
      simp only [String.toList_append, String.reduceToList, List.cons_append, List.nil_append, List.head?_cons, List.tail_cons]
      rw [if_pos trivial, hread, Option.map_some]
      have hvalue : (year.natAbs : Int) = year := by omega
      rw [hvalue]

theorem toISOString_toList (ms : Int) :
    let date := utcDate (ms / 86400000)
    let t := ms % 86400000
    (toISOString ms).toList = (yearText date.year).toList ++
      '-' :: ((padded 2 date.month).toList ++
      '-' :: ((padded 2 date.day).toList ++
      'T' :: ((padded 2 (t / 3600000)).toList ++
      ':' :: ((padded 2 (t / 60000 % 60)).toList ++
      ':' :: ((padded 2 (t / 1000 % 60)).toList ++
      '.' :: ((padded 3 (t % 1000)).toList ++ ['Z'])))))) := by
  unfold toISOString yearText
  dsimp only
  simp only [String.toList_append, String.reduceToList, List.append_assoc, List.cons_append, List.nil_append]

end Text

/-- `Date.parse` undoes `toISOString`. -/
theorem dateParse_toISOString {ms : Int} (h : isTime ms = true) : dateParse (toISOString ms) = some ms := by
  have hrange : -MAX_TIME ≤ ms ∧ ms ≤ MAX_TIME := of_decide_eq_true h
  unfold MAX_TIME at hrange
  obtain ⟨hm0, hm1⟩ := utcDate_month (ms / 86400000)
  obtain ⟨hd0, hd1⟩ := utcDate_day (ms / 86400000)
  have hyear : (utcDate (ms / 86400000)).year.natAbs < 1000000 := utcDate_year (by omega) (by omega)
  have hdays := daysOf_utcDate (ms / 86400000)
  unfold dateParse
  rw [toISOString_toList, readYear_text hyear]
  generalize utcDate (ms / 86400000) = date at *
  simp only [Option.bind_eq_bind, Option.bind_some]
  rw [readField_padded '-' (by decide) (by omega) (by omega)]
  simp only [Option.bind_some]
  rw [readField_padded '-' (by decide) (by omega) (by omega)]
  simp only [Option.bind_some]
  rw [readField_padded 'T' (by decide) (by omega) (by omega)]
  simp only [Option.bind_some]
  rw [readField_padded ':' (by decide) (by omega) (by omega)]
  simp only [Option.bind_some]
  rw [readField_padded ':' (by decide) (by omega) (by omega)]
  simp only [Option.bind_some]
  rw [readField_padded '.' (by decide) (by omega) (by omega)]
  simp only [Option.bind_some]
  have hdate : (⟨date.year, date.month.toNat, date.day.toNat⟩ : UtcDate) = date := by
    cases date
    simp only [UtcDate.mk.injEq, true_and]
    dsimp only at *
    omega
  rw [hdate, hdays]
  have htime : ms / 86400000 * 86400000 + (ms % 86400000 / 3600000).toNat * 3600000 +
      (ms % 86400000 / 60000 % 60).toNat * 60000 + (ms % 86400000 / 1000 % 60).toNat * 1000 +
      (ms % 86400000 % 1000).toNat = ms := by omega
  rw [htime]
  exact if_pos ⟨trivial, by omega, by omega, by omega, by omega, by omega, by omega, by omega, h⟩

end LaunchAuditor.Js
