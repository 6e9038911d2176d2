import A2ZCore.Core.Values
import A2ZCore.Lib.FixedWidth
import Mathlib

/-!
# Times as text

`datetime.isoformat` and `datetime.fromisoformat` of aware datetimes, and how the texts compare. The
fields have fixed widths and come with the most significant first, so that texts compare as what the
clocks on the wall show. The offset comes last: it decides between equal clocks, and nothing else. The
fraction of a second is left out where it is zero, which does no harm, since the sign of an offset
comes before the point.

## Main definitions

* `DateTime.Valid`, `DateTime.micros` — the datetimes there are, and their distance from the beginning
  of the calendar
* `Moment` — an aware datetime
* `Moment.isoformat`, `Moment.instant` — its text, and when it is

## Main results

* `isoformat_le_iff` — how the texts compare
* `micros_lt_iff` — how the clocks compare
-/

namespace A2ZCore

open FixedWidth

/-! ### The calendar -/

/-- `_is_leap`. -/
def isLeap (year : ℕ) : Bool := year % 4 == 0 && (year % 100 != 0 || year % 400 == 0)

/-- `_days_in_month`. -/
def daysInMonth (leap : Bool) (month : ℕ) : ℕ :=
  if month = 2 then (if leap then 29 else 28)
  else if month = 4 ∨ month = 6 ∨ month = 9 ∨ month = 11 then 30 else 31

/-- `_days_before_month`. -/
def daysBeforeMonth (leap : Bool) (month : ℕ) : ℕ :=
  [0, 0, 31, 59, 90, 120, 151, 181, 212, 243, 273, 304, 334].getD month 0 +
    if 2 < month ∧ leap then 1 else 0

/-- `_days_before_year`. -/
def daysBeforeYear (year : ℕ) : ℕ :=
  (year - 1) * 365 + (year - 1) / 4 - (year - 1) / 100 + (year - 1) / 400

/-- The date exists. -/
structure Date.Valid (d : Date) : Prop where
  year_pos : 1 ≤ d.year
  year_le : d.year ≤ 9999
  month_pos : 1 ≤ d.month
  month_le : d.month ≤ 12
  day_pos : 1 ≤ d.day
  day_le : d.day ≤ daysInMonth (isLeap d.year) d.month

/-- `date.toordinal()`. -/
def Date.toordinal (d : Date) : ℕ :=
  daysBeforeYear d.year + daysBeforeMonth (isLeap d.year) d.month + d.day

/-- The time exists. -/
structure DateTime.Valid (t : DateTime) : Prop where
  date : t.date.Valid
  hour_lt : t.hour < 24
  minute_lt : t.minute < 60
  second_lt : t.second < 60
  microsecond_lt : t.microsecond < 1000000

/-- The microseconds since the day before the calendar begins. -/
def DateTime.micros (t : DateTime) : ℕ :=
  (((t.date.toordinal * 24 + t.hour) * 60 + t.minute) * 60 + t.second) * 1000000 + t.microsecond

instance (d : Date) : Decidable d.Valid :=
  decidable_of_iff (1 ≤ d.year ∧ d.year ≤ 9999 ∧ 1 ≤ d.month ∧ d.month ≤ 12 ∧ 1 ≤ d.day ∧
    d.day ≤ daysInMonth (isLeap d.year) d.month)
    ⟨fun h => ⟨h.1, h.2.1, h.2.2.1, h.2.2.2.1, h.2.2.2.2.1, h.2.2.2.2.2⟩,
      fun h => ⟨h.1, h.2, h.3, h.4, h.5, h.6⟩⟩

instance (t : DateTime) : Decidable t.Valid :=
  decidable_of_iff (t.date.Valid ∧ t.hour < 24 ∧ t.minute < 60 ∧ t.second < 60 ∧
    t.microsecond < 1000000)
    ⟨fun h => ⟨h.1, h.2.1, h.2.2.1, h.2.2.2.1, h.2.2.2.2⟩, fun h => ⟨h.1, h.2, h.3, h.4, h.5⟩⟩

theorem succ_div (n k : ℕ) : (n + 1) / k =
    n / k + if (n + 1) % k = 0 then 1 else 0 := by
  rw [Nat.succ_div]
  simp only [Nat.dvd_iff_mod_eq_zero]

/-- A leap year is one day longer. -/
theorem daysBeforeYear_succ (year : ℕ) :
    daysBeforeYear (year + 2) = daysBeforeYear (year + 1) + if isLeap (year + 1) then 366 else 365 := by
  have h4 := succ_div year 4
  have h100 := succ_div year 100
  have h400 := succ_div year 400
  have hle : year / 100 ≤ year / 4 := Nat.div_le_div_left (by decide) (by decide)
  have hmod : (year + 1) % 400 = 0 → (year + 1) % 100 = 0 := by omega
  have hmod' : (year + 1) % 100 = 0 → (year + 1) % 4 = 0 := by omega
  have hleap : isLeap (year + 1) = true ↔
      (year + 1) % 4 = 0 ∧ ((year + 1) % 100 ≠ 0 ∨ (year + 1) % 400 = 0) := by
    simp [isLeap]
  rw [daysBeforeYear, daysBeforeYear, Nat.add_sub_cancel, show year + 2 - 1 = year + 1 from rfl, h4,
    h100, h400]
  generalize year / 4 = q₄ at hle ⊢
  generalize year / 100 = q₁₀₀ at hle ⊢
  simp only [hleap]
  by_cases h4' : (year + 1) % 4 = 0
  · by_cases h100' : (year + 1) % 100 = 0
    · by_cases h400' : (year + 1) % 400 = 0 <;> simp [h4', h100', h400'] <;> omega
    · have h400' : ¬(year + 1) % 400 = 0 := fun h => h100' (hmod h)
      simp [h4', h100', h400']
      omega
  · have h100' : ¬(year + 1) % 100 = 0 := fun h => h4' (hmod' h)
    have h400' : ¬(year + 1) % 400 = 0 := fun h => h100' (hmod h)
    simp [h4', h100', h400']
    omega

/-- The years follow each other. -/
theorem daysBeforeYear_lt {y z : ℕ} (hy : 1 ≤ y) (hyz : y < z) :
    daysBeforeYear y + (if isLeap y then 366 else 365) ≤ daysBeforeYear z := by
  obtain ⟨y, rfl⟩ := Nat.exists_eq_add_of_le' hy
  obtain ⟨k, rfl⟩ := Nat.exists_eq_add_of_lt hyz
  induction k with
  | zero => exact (daysBeforeYear_succ y).ge
  | succ k ih =>
    have hstep := daysBeforeYear_succ (y + 1 + k)
    have hrest := ih (by omega)
    have hsame : y + 1 + (k + 1) + 1 = y + 1 + k + 2 := by omega
    rw [hsame, hstep]
    omega

/-- Within a year, the months follow each other. -/
theorem daysBeforeMonth_lt (leap : Bool) {m n : ℕ} (hm : 1 ≤ m) (hmn : m < n) (hn : n ≤ 12) :
    daysBeforeMonth leap m + daysInMonth leap m ≤ daysBeforeMonth leap n := by
  have hall : ∀ leap : Bool, ∀ m n : Fin 13, 1 ≤ m.val → m < n →
      daysBeforeMonth leap m + daysInMonth leap m ≤ daysBeforeMonth leap n := by decide
  exact hall leap ⟨m, by omega⟩ ⟨n, by omega⟩ hm hmn

/-- The months make up the year. -/
theorem daysBeforeMonth_add_le (leap : Bool) {m : ℕ} (hm : 1 ≤ m) (hm' : m ≤ 12) :
    daysBeforeMonth leap m + daysInMonth leap m ≤ if leap then 366 else 365 := by
  have hall : ∀ leap : Bool, ∀ m : Fin 13, 1 ≤ m.val →
      daysBeforeMonth leap m + daysInMonth leap m ≤ if leap then 366 else 365 := by decide
  exact hall leap ⟨m, by omega⟩ hm

/-- Dates are in order as their fields are. -/
theorem toordinal_lt {d e : Date} (hd : d.Valid) (he : e.Valid)
    (h : d.year < e.year ∨ d.year = e.year ∧ (d.month < e.month ∨ d.month = e.month ∧ d.day < e.day)) :
    d.toordinal < e.toordinal := by
  obtain ⟨hy, _, hm, hm', hday, hday'⟩ := hd
  obtain ⟨_, _, _, hn', hday₂, _⟩ := he
  unfold Date.toordinal
  rcases h with h | ⟨hyear, h | ⟨hmonth, h⟩⟩
  · have hyears := daysBeforeYear_lt hy h
    have hmonths := daysBeforeMonth_add_le (isLeap d.year) hm hm'
    omega
  · rw [← hyear]
    have hmonths := daysBeforeMonth_lt (isLeap d.year) hm h hn'
    omega
  · rw [hyear, hmonth]
    omega

theorem daysInMonth_le (leap : Bool) (month : ℕ) : daysInMonth leap month ≤ 31 := by
  unfold daysInMonth
  split_ifs <;> omega

/-! ### Clocks -/

/-- A number and a remainder compare one after the other. -/
theorem mul_add_lt_iff {k p q s t : ℕ} (hs : s < k) (ht : t < k) :
    p * k + s < q * k + t ↔ p < q ∨ p = q ∧ s < t := by
  rcases Nat.lt_trichotomy p q with h | rfl | h
  · have hle : (p + 1) * k ≤ q * k := Nat.mul_le_mul_right k h
    rw [Nat.succ_mul] at hle
    omega
  · omega
  · have hle : (q + 1) * k ≤ p * k := Nat.mul_le_mul_right k h
    rw [Nat.succ_mul] at hle
    omega

theorem mul_add_eq_iff {k p q s t : ℕ} (hs : s < k) (ht : t < k) :
    p * k + s = q * k + t ↔ p = q ∧ s = t := by
  have hlt := mul_add_lt_iff (p := p) (q := q) hs ht
  have hgt := mul_add_lt_iff (p := q) (q := p) ht hs
  omega

/-- The microseconds since midnight. -/
def DateTime.sinceMidnight (t : DateTime) : ℕ :=
  ((t.hour * 60 + t.minute) * 60 + t.second) * 1000000 + t.microsecond

theorem DateTime.Valid.sinceMidnight_lt {t : DateTime} (h : t.Valid) :
    t.sinceMidnight < 86400000000 := by
  obtain ⟨_, hhour, hminute, hsecond, hmicrosecond⟩ := h
  unfold DateTime.sinceMidnight
  omega

/-- The position of a date among all dates. -/
def Date.position (d : Date) : ℕ := (d.year * 13 + d.month) * 32 + d.day

theorem DateTime.ordinal_eq (t : DateTime) :
    t.ordinal = t.date.position * 86400000000 + t.sinceMidnight := by
  unfold DateTime.ordinal DateTime.sinceMidnight Date.position
  omega

theorem DateTime.micros_eq (t : DateTime) :
    t.micros = t.date.toordinal * 86400000000 + t.sinceMidnight := by
  unfold DateTime.micros DateTime.sinceMidnight
  omega

section Clocks

variable {d e : Date} {a b : DateTime}

theorem Date.eq_of_position_eq (hd : d.Valid) (he : e.Valid) (h : d.position = e.position) :
    d = e := by
  obtain ⟨year, month, day⟩ := d
  obtain ⟨year', month', day'⟩ := e
  have hday := daysInMonth_le (isLeap year) month
  have hday' := daysInMonth_le (isLeap year') month'
  obtain ⟨_, _, _, hmonth, _, hle⟩ := hd
  obtain ⟨_, _, _, hmonth', _, hle'⟩ := he
  simp only [Date.position, Date.mk.injEq] at *
  omega

theorem Date.toordinal_lt_of_position_lt (hd : d.Valid) (he : e.Valid)
    (h : d.position < e.position) : d.toordinal < e.toordinal := by
  have hday := daysInMonth_le (isLeap d.year) d.month
  have hday' := daysInMonth_le (isLeap e.year) e.month
  refine toordinal_lt hd he ?_
  obtain ⟨_, _, _, hmonth, _, hle⟩ := hd
  obtain ⟨_, _, _, hmonth', _, hle'⟩ := he
  unfold Date.position at h
  omega

/-- **Clocks compare field by field.** -/
theorem micros_lt_iff (ha : a.Valid) (hb : b.Valid) : a.micros < b.micros ↔ a.ordinal < b.ordinal := by
  have hdays : a.date.toordinal < b.date.toordinal ↔ a.date.position < b.date.position := by
    refine ⟨fun h => ?_, Date.toordinal_lt_of_position_lt ha.date hb.date⟩
    rcases Nat.lt_trichotomy a.date.position b.date.position with hlt | heq | hgt
    · exact hlt
    · rw [Date.eq_of_position_eq ha.date hb.date heq] at h
      exact absurd h (lt_irrefl _)
    · exact absurd (Date.toordinal_lt_of_position_lt hb.date ha.date hgt) h.asymm
  have hsame : a.date.toordinal = b.date.toordinal ↔ a.date.position = b.date.position := by
    constructor
    · intro h
      rcases Nat.lt_trichotomy a.date.position b.date.position with hlt | heq | hgt
      · exact absurd h (Date.toordinal_lt_of_position_lt ha.date hb.date hlt).ne
      · exact heq
      · exact absurd h (Date.toordinal_lt_of_position_lt hb.date ha.date hgt).ne'
    · intro h
      rw [Date.eq_of_position_eq ha.date hb.date h]
  rw [a.ordinal_eq, b.ordinal_eq, a.micros_eq, b.micros_eq,
    mul_add_lt_iff ha.sinceMidnight_lt hb.sinceMidnight_lt,
    mul_add_lt_iff ha.sinceMidnight_lt hb.sinceMidnight_lt, hdays, hsame]

theorem micros_eq_iff (ha : a.Valid) (hb : b.Valid) : a.micros = b.micros ↔ a.ordinal = b.ordinal := by
  have hlt := micros_lt_iff ha hb
  have hgt := micros_lt_iff hb ha
  omega

end Clocks

/-! ### Aware datetimes -/

/-- An aware `datetime`: what the clock shows, and the offset from UTC in microseconds. -/
structure Moment where
  wall : DateTime
  offset : ℤ
  valid : wall.Valid
  offset_lt : offset.natAbs < 86400000000

/-- When it is, in microseconds. -/
def Moment.instant (m : Moment) : ℤ := m.wall.micros - m.offset

/-- A time in UTC. -/
def DateTime.Valid.utc {t : DateTime} (h : t.Valid) : Moment := ⟨t, 0, h, by decide⟩

/-- The text of an offset without its sign: the seconds are left out where there are none. -/
def offsetSizeText (n : ℕ) : List Char :=
  pad 2 (n / 3600000000) ++ ':' :: (pad 2 (n / 60000000 % 60) ++
    if n % 60000000 = 0 then []
    else ':' :: (pad 2 (n / 1000000 % 60) ++
      if n % 1000000 = 0 then [] else '.' :: pad 6 (n % 1000000)))

/-- `_format_offset`. -/
def offsetText (offset : ℤ) : List Char :=
  (if offset < 0 then '-' else '+') :: offsetSizeText offset.natAbs

/-- The date and the time, to the second. -/
def secondText (t : DateTime) : List Char :=
  pad 4 t.date.year ++ '-' :: (pad 2 t.date.month ++ '-' :: (pad 2 t.date.day ++
    'T' :: (pad 2 t.hour ++ ':' :: (pad 2 t.minute ++ ':' :: pad 2 t.second))))

/-- The fraction of the second, where there is one. -/
def fractionText (t : DateTime) : List Char :=
  if t.microsecond = 0 then [] else '.' :: pad 6 t.microsecond

/-- `datetime.isoformat()`. -/
def Moment.isoformat (m : Moment) : String :=
  String.ofList (secondText m.wall ++ (fractionText m.wall ++ offsetText m.offset))

/-! ### Times in UTC -/

theorem pad_of_zero (width : ℕ) : pad width 0 = List.replicate width '0' := by
  induction width with
  | zero => rfl
  | succ width ih =>
    rw [pad, Nat.zero_div, ih, List.replicate_succ']
    rfl

/-- What `:0nd` writes. -/
theorem toList_zeroPad_eq (width n : ℕ) : (zeroPad width n).toList =
    List.replicate (width - (Nat.toDigits 10 n).length) '0' ++ Nat.toDigits 10 n := by
  have hdigits : (toString n).toList = Nat.toDigits 10 n := Nat.toList_repr
  rw [zeroPad, String.toList_append, String.toList_ofList, hdigits, ← String.length_toList, hdigits]

/-- A padded number is written in digits. -/
theorem isDigit_of_mem_zeroPad {width n : ℕ} {c : Char} (h : c ∈ (zeroPad width n).toList) :
    c.isDigit = true := by
  rw [toList_zeroPad_eq, List.mem_append] at h
  rcases h with h | h
  · rw [List.eq_of_mem_replicate h]
    rfl
  · exact Nat.isDigit_of_mem_toDigits (by decide) (by decide) h

/-- Where a number fits, `:0nd` writes its digits. -/
theorem toList_zeroPad {width n : ℕ} (hpos : 0 < width) (hn : n < 10 ^ width) :
    (zeroPad width n).toList = pad width n := by
  rw [toList_zeroPad_eq]
  induction width generalizing n with
  | zero => cases hpos
  | succ width ih =>
    rw [pad]
    by_cases hsmall : n < 10
    · rw [Nat.toDigits_of_lt_base hsmall, Nat.div_eq_of_lt hsmall, pad_of_zero,
        Nat.mod_eq_of_lt hsmall]
      rfl
    · have hwidth : 0 < width := by
        by_contra hzero
        obtain rfl : width = 0 := by omega
        omega
      have hrest := ih (n := n / 10) hwidth (by rw [Nat.pow_succ] at hn; omega)
      rw [Nat.toDigits_of_base_le (by decide) (by omega), ← hrest, List.length_append,
        List.length_singleton, Nat.add_sub_add_right, List.append_assoc]

/-- A time in UTC is written as any other. -/
theorem DateTime.Valid.isoformat_utc {t : DateTime} (h : t.Valid) :
    h.utc.isoformat = t.isoformat := by
  have hday := daysInMonth_le (isLeap t.date.year) t.date.month
  obtain ⟨⟨_, hyear, _, hmonth, _, hle⟩, hhour, hminute, hsecond, hmicro⟩ := id h
  have hzero : offsetText 0 = ['+', '0', '0', ':', '0', '0'] := by decide
  have hpad : ∀ n, n < 10 ^ 2 → (zeroPad 2 n).toList = pad 2 n := fun n => toList_zeroPad (by decide)
  rw [← String.toList_inj]
  simp only [Moment.isoformat, DateTime.Valid.utc, DateTime.isoformat, Date.isoformat, secondText,
    fractionText, hzero, String.toList_append, String.toList_ofList]
  rw [toList_zeroPad (by decide) (by omega), hpad _ (by omega), hpad _ (by omega),
    hpad _ (by omega), hpad _ (by omega), hpad _ (by omega)]
  by_cases hwhole : t.microsecond = 0
  · simp [hwhole]
  · have hfraction : (zeroPad 6 t.microsecond).toList = pad 6 t.microsecond :=
      toList_zeroPad (by decide) hmicro
    simp [hwhole, hfraction]

/-! ### How the texts compare -/

theorem length_secondText (t : DateTime) : (secondText t).length = 19 := by
  simp [secondText]

theorem pad_eq_pad_iff {width n m : ℕ} (hn : n < 10 ^ width) (hm : m < 10 ^ width) :
    pad width n = pad width m ↔ n = m :=
  ⟨pad_inj hn hm, fun h => by rw [h]⟩

/-- The position of a time among all times, to the second. -/
def secondOrdinal (t : DateTime) : ℕ :=
  ((t.date.position * 24 + t.hour) * 60 + t.minute) * 60 + t.second

section Texts

variable {a b : DateTime}

/-- The fields of a time to the second fit their widths. -/
theorem DateTime.Valid.fields_lt (h : a.Valid) :
    a.date.year < 10 ^ 4 ∧ a.date.month < 10 ^ 2 ∧ a.date.day < 10 ^ 2 ∧ a.hour < 10 ^ 2 ∧
      a.minute < 10 ^ 2 ∧ a.second < 10 ^ 2 := by
  have hday := daysInMonth_le (isLeap a.date.year) a.date.month
  obtain ⟨⟨_, hyear, _, hmonth, _, hle⟩, hhour, hminute, hsecond, _⟩ := h
  omega

theorem secondText_eq_iff (ha : a.Valid) (hb : b.Valid) :
    secondText a = secondText b ↔ secondOrdinal a = secondOrdinal b := by
  obtain ⟨hy, hm, hd, hh, hmi, hs⟩ := ha.fields_lt
  obtain ⟨hy', hm', hd', hh', hmi', hs'⟩ := hb.fields_lt
  constructor
  · intro h
    unfold secondText at h
    obtain ⟨hyear, h⟩ := List.append_inj h (by simp)
    obtain ⟨hmonth, h⟩ := List.append_inj (List.cons_injective h) (by simp)
    obtain ⟨hday, h⟩ := List.append_inj (List.cons_injective h) (by simp)
    obtain ⟨hhour, h⟩ := List.append_inj (List.cons_injective h) (by simp)
    obtain ⟨hminute, h⟩ := List.append_inj (List.cons_injective h) (by simp)
    unfold secondOrdinal Date.position
    rw [pad_inj hy hy' hyear, pad_inj hm hm' hmonth, pad_inj hd hd' hday, pad_inj hh hh' hhour,
      pad_inj hmi hmi' hminute, pad_inj hs hs' (List.cons_injective h)]
  · intro h
    have hday := daysInMonth_le (isLeap a.date.year) a.date.month
    have hday' := daysInMonth_le (isLeap b.date.year) b.date.month
    obtain ⟨⟨_, _, _, hmonth, _, hle⟩, hhour, hminute, hsecond, _⟩ := ha
    obtain ⟨⟨_, _, _, hmonth', _, hle'⟩, hhour', hminute', hsecond', _⟩ := hb
    unfold secondOrdinal Date.position at h
    have hfields : a.date.year = b.date.year ∧ a.date.month = b.date.month ∧
        a.date.day = b.date.day ∧ a.hour = b.hour ∧ a.minute = b.minute ∧ a.second = b.second := by
      omega
    obtain ⟨h₁, h₂, h₃, h₄, h₅, h₆⟩ := hfields
    unfold secondText
    rw [h₁, h₂, h₃, h₄, h₅, h₆]

theorem secondText_lt_iff (ha : a.Valid) (hb : b.Valid) :
    secondText a < secondText b ↔ secondOrdinal a < secondOrdinal b := by
  obtain ⟨hy, hm, hd, hh, hmi, hs⟩ := ha.fields_lt
  obtain ⟨hy', hm', hd', hh', hmi', hs'⟩ := hb.fields_lt
  have hirrefl : ∀ c : Char, ¬c < c := fun c => Char.lt_irrefl c
  unfold secondText
  rw [append_lt_append_iff (by simp), List.cons_lt_cons_iff, append_lt_append_iff (by simp),
    List.cons_lt_cons_iff, append_lt_append_iff (by simp), List.cons_lt_cons_iff,
    append_lt_append_iff (by simp), List.cons_lt_cons_iff, append_lt_append_iff (by simp),
    List.cons_lt_cons_iff, pad_lt_pad_iff hy hy', pad_lt_pad_iff hm hm', pad_lt_pad_iff hd hd',
    pad_lt_pad_iff hh hh', pad_lt_pad_iff hmi hmi', pad_lt_pad_iff hs hs', pad_eq_pad_iff hy hy',
    pad_eq_pad_iff hm hm', pad_eq_pad_iff hd hd', pad_eq_pad_iff hh hh', pad_eq_pad_iff hmi hmi']
  simp only [hirrefl, true_and, false_or]
  have hday := daysInMonth_le (isLeap a.date.year) a.date.month
  have hday' := daysInMonth_le (isLeap b.date.year) b.date.month
  obtain ⟨⟨_, _, _, hmonth, _, hle⟩, hhour, hminute, hsecond, _⟩ := ha
  obtain ⟨⟨_, _, _, hmonth', _, hle'⟩, hhour', hminute', hsecond', _⟩ := hb
  unfold secondOrdinal Date.position
  omega

theorem DateTime.ordinal_eq_second (t : DateTime) :
    t.ordinal = secondOrdinal t * 1000000 + t.microsecond := by
  simp only [DateTime.ordinal, secondOrdinal, Date.position]

/-- An offset begins with its sign, which comes before the point and the digits. -/
theorem fraction_le_iff (ha : a.Valid) (hb : b.Valid) (o o' : ℤ) :
    fractionText a ++ offsetText o ≤ fractionText b ++ offsetText o' ↔
      a.microsecond < b.microsecond ∨
        a.microsecond = b.microsecond ∧ offsetText o ≤ offsetText o' := by
  have hmicro : a.microsecond < 10 ^ 6 := ha.microsecond_lt
  have hmicro' : b.microsecond < 10 ^ 6 := hb.microsecond_lt
  have hsign : ∀ o : ℤ, ∃ c rest, offsetText o = c :: rest ∧ c < '.' := by
    intro o
    refine ⟨_, _, rfl, ?_⟩
    split <;> decide
  obtain ⟨c, rest, hc, hlt⟩ := hsign o
  obtain ⟨c', rest', hc', hlt'⟩ := hsign o'
  unfold fractionText
  by_cases hzero : a.microsecond = 0
  · by_cases hzero' : b.microsecond = 0
    · simp [hzero, hzero']
    · rw [if_pos hzero, if_neg hzero', List.nil_append, hc, List.cons_append]
      have hle : c :: rest ≤ '.' :: (pad 6 b.microsecond ++ offsetText o') :=
        (List.cons_lt_cons_iff.mpr (.inl hlt)).le
      have hpos : a.microsecond < b.microsecond := by omega
      exact ⟨fun _ => .inl hpos, fun _ => hle⟩
  · by_cases hzero' : b.microsecond = 0
    · rw [if_neg hzero, if_pos hzero', List.nil_append, hc', List.cons_append]
      have hgt : c' :: rest' < '.' :: (pad 6 a.microsecond ++ offsetText o) :=
        List.cons_lt_cons_iff.mpr (.inl hlt')
      refine ⟨fun h => absurd h hgt.not_ge, fun h => ?_⟩
      omega
    · have hsame : ('.' :: pad 6 a.microsecond < '.' :: pad 6 b.microsecond) ↔
          a.microsecond < b.microsecond := by
        rw [List.cons_lt_cons_iff, pad_lt_pad_iff hmicro hmicro']
        simp
      have heq : ('.' :: pad 6 a.microsecond = '.' :: pad 6 b.microsecond) ↔
          a.microsecond = b.microsecond := by
        rw [List.cons_inj_right, pad_eq_pad_iff hmicro hmicro']
      rw [if_neg hzero, if_neg hzero', append_le_append_iff (by simp), hsame, heq]

end Texts

/-- **How the texts compare**: as the clocks do, and where these are equal, as the offsets are
written. -/
theorem isoformat_le_iff (m n : Moment) :
    m.isoformat.toList ≤ n.isoformat.toList ↔ m.wall.ordinal < n.wall.ordinal ∨
      m.wall.ordinal = n.wall.ordinal ∧ offsetText m.offset ≤ offsetText n.offset := by
  have hmicro := m.valid.microsecond_lt
  have hmicro' := n.valid.microsecond_lt
  rw [Moment.isoformat, Moment.isoformat, String.toList_ofList, String.toList_ofList,
    append_le_append_iff (by rw [length_secondText, length_secondText]),
    secondText_lt_iff m.valid n.valid, secondText_eq_iff m.valid n.valid,
    fraction_le_iff m.valid n.valid, m.wall.ordinal_eq_second, n.wall.ordinal_eq_second,
    mul_add_lt_iff hmicro hmicro']
  simp only [mul_add_eq_iff hmicro hmicro']
  tauto

/-! ### Reading -/

/-- The text after one character. -/
def expect (c : Char) : List Char → Option (List Char)
  | [] => none
  | d :: cs => if d = c then some cs else none

@[simp] theorem expect_cons (c : Char) (cs : List Char) : expect c (c :: cs) = some cs := if_pos rfl

/-- The date and the time to the second, and what follows. -/
def readSecond (cs : List Char) : Option (DateTime × List Char) := do
  let (year, cs) ← takeNat 4 0 cs
  let (month, cs) ← takeNat 2 0 (← expect '-' cs)
  let (day, cs) ← takeNat 2 0 (← expect '-' cs)
  let (hour, cs) ← takeNat 2 0 (← expect 'T' cs)
  let (minute, cs) ← takeNat 2 0 (← expect ':' cs)
  let (second, cs) ← takeNat 2 0 (← expect ':' cs)
  return (⟨⟨year, month, day⟩, hour, minute, second, 0⟩, cs)

/-- The microseconds after the point, where there is one, and what follows. -/
def readFraction : List Char → Option (ℕ × List Char)
  | '.' :: cs => takeNat 6 0 cs
  | cs => some (0, cs)

/-- The seconds of an offset and their fraction, in microseconds. -/
def readOffsetSeconds : List Char → Option ℕ
  | [] => some 0
  | ':' :: cs => do
    let (seconds, cs) ← takeNat 2 0 cs
    let (micros, cs) ← readFraction cs
    if cs = [] then some (seconds * 1000000 + micros) else none
  | _ => none

/-- The size of an offset in microseconds. -/
def readOffsetSize (cs : List Char) : Option ℕ := do
  let (hours, cs) ← takeNat 2 0 cs
  let (minutes, cs) ← takeNat 2 0 (← expect ':' cs)
  let micros ← readOffsetSeconds cs
  return (hours * 60 + minutes) * 60000000 + micros

/-- An offset in microseconds. -/
def readOffset : List Char → Option ℤ
  | '+' :: cs => (readOffsetSize cs).map fun n : ℕ => (n : ℤ)
  | '-' :: cs => (readOffsetSize cs).map fun n : ℕ => -(n : ℤ)
  | _ => none

/-- `datetime.fromisoformat`, of the texts that `isoformat` writes. -/
def fromisoformat (s : String) : Option Moment := do
  let (t, cs) ← readSecond s.toList
  let (microsecond, cs) ← readFraction cs
  let offset ← readOffset cs
  let wall := { t with microsecond }
  if h : wall.Valid ∧ offset.natAbs < 86400000000 then some ⟨wall, offset, h.1, h.2⟩ else none

theorem readSecond_secondText {t : DateTime} (h : t.Valid) (cs : List Char) :
    readSecond (secondText t ++ cs) = some ({ t with microsecond := 0 }, cs) := by
  obtain ⟨hy, hm, hd, hh, hmi, hs⟩ := h.fields_lt
  simp [readSecond, secondText, takeNat_pad hy, takeNat_pad hm, takeNat_pad hd, takeNat_pad hh,
    takeNat_pad hmi, takeNat_pad hs]

theorem readFraction_of_ne {c : Char} (cs : List Char) (hc : c ≠ '.') :
    readFraction (c :: cs) = some (0, c :: cs) := by
  rw [readFraction]
  rintro _ ⟨⟩
  exact hc rfl

/-- An offset begins with its sign. -/
theorem offsetText_eq_cons (offset : ℤ) :
    ∃ cs, offsetText offset = (if offset < 0 then '-' else '+') :: cs := ⟨_, rfl⟩

theorem readFraction_fractionText {t : DateTime} (h : t.Valid) (offset : ℤ) :
    readFraction (fractionText t ++ offsetText offset) = some (t.microsecond, offsetText offset) := by
  have hmicro : t.microsecond < 10 ^ 6 := h.microsecond_lt
  unfold fractionText
  by_cases hzero : t.microsecond = 0
  · obtain ⟨cs, hcs⟩ := offsetText_eq_cons offset
    rw [if_pos hzero, List.nil_append, hcs, hzero]
    refine readFraction_of_ne cs ?_
    split <;> decide
  · rw [if_neg hzero, List.cons_append, readFraction, takeNat_pad hmicro]

theorem readOffsetSize_offsetSizeText {n : ℕ} (hn : n < 86400000000) :
    readOffsetSize (offsetSizeText n) = some n := by
  have hhours : n / 3600000000 < 10 ^ 2 := by omega
  have hminutes : n / 60000000 % 60 < 10 ^ 2 := by omega
  have hseconds : n / 1000000 % 60 < 10 ^ 2 := by omega
  have hmicros : n % 1000000 < 10 ^ 6 := Nat.mod_lt n (by decide)
  have hrest : readOffsetSeconds (if n % 60000000 = 0 then []
      else ':' :: (pad 2 (n / 1000000 % 60) ++
        if n % 1000000 = 0 then [] else '.' :: pad 6 (n % 1000000))) = some (n % 60000000) := by
    have hsplit : n / 1000000 % 60 * 1000000 + n % 1000000 = n % 60000000 := by omega
    by_cases hzero : n % 60000000 = 0
    · rw [if_pos hzero, hzero]
      rfl
    · rw [if_neg hzero, readOffsetSeconds, takeNat_pad hseconds]
      by_cases hwhole : n % 1000000 = 0
      · rw [hwhole] at hsplit
        simp [hwhole, readFraction, ← hsplit]
      · have hread := takeNat_pad hmicros []
        rw [List.append_nil] at hread
        simp [hwhole, readFraction, hread, hsplit]
  have hsum : (n / 3600000000 * 60 + n / 60000000 % 60) * 60000000 + n % 60000000 = n := by omega
  simp [readOffsetSize, offsetSizeText, takeNat_pad hhours, takeNat_pad hminutes, hrest, hsum]

/-- An offset is read back. -/
theorem readOffset_offsetText {offset : ℤ} (h : offset.natAbs < 86400000000) :
    readOffset (offsetText offset) = some offset := by
  have hsize := readOffsetSize_offsetSizeText h
  unfold offsetText
  by_cases hneg : offset < 0
  · have habs : -(offset.natAbs : ℤ) = offset := by omega
    rw [if_pos hneg, readOffset, hsize, Option.map_some, habs]
  · have habs : (offset.natAbs : ℤ) = offset := by omega
    rw [if_neg hneg, readOffset, hsize, Option.map_some, habs]

/-- **A time is read back from its text.** -/
theorem fromisoformat_isoformat (m : Moment) : fromisoformat m.isoformat = some m := by
  have hvalid : m.wall.Valid ∧ m.offset.natAbs < 86400000000 := ⟨m.valid, m.offset_lt⟩
  simp only [fromisoformat, Moment.isoformat, String.toList_ofList, readSecond_secondText m.valid,
    readFraction_fractionText m.valid, readOffset_offsetText m.offset_lt, Option.bind_eq_bind,
    Option.bind_some, dif_pos hvalid]

/-! ### Offsets -/

theorem offsetText_inj {o o' : ℤ} (h : o.natAbs < 86400000000) (h' : o'.natAbs < 86400000000)
    (heq : offsetText o = offsetText o') : o = o' := by
  have hread := readOffset_offsetText h
  rw [heq, readOffset_offsetText h'] at hread
  exact (Option.some.inj hread).symm

theorem pad_zero_lt {width n : ℕ} (hn : n < 10 ^ width) : pad width 0 < pad width n ∨ n = 0 := by
  rcases Nat.eq_zero_or_pos n with hzero | hpos
  · exact .inr hzero
  · exact .inl ((pad_lt_pad_iff (Nat.pow_pos (by decide)) hn).mpr hpos)

theorem offsetSizeText_zero_le {n : ℕ} (hn : n < 86400000000) :
    offsetSizeText 0 ≤ offsetSizeText n := by
  have hhours : n / 3600000000 < 10 ^ 2 := by omega
  have hminutes : n / 60000000 % 60 < 10 ^ 2 := by omega
  have hzero : offsetSizeText 0 = pad 2 0 ++ ':' :: (pad 2 0 ++ []) := rfl
  rw [hzero, offsetSizeText, append_le_append_iff (by simp)]
  rcases pad_zero_lt hhours with hlt | heq
  · exact .inl hlt
  · refine .inr ⟨by rw [heq], ?_⟩
    rw [cons_le_cons_iff, append_le_append_iff (by simp)]
    rcases pad_zero_lt hminutes with hlt | heq
    · exact .inl hlt
    · exact .inr ⟨by rw [heq], nil_le _⟩

/-- No offset is written before that of UTC. -/
theorem offsetText_zero_le {o : ℤ} (h : o.natAbs < 86400000000) : offsetText 0 ≤ offsetText o := by
  have hzero : offsetText 0 = '+' :: offsetSizeText 0 := rfl
  rw [hzero, offsetText]
  by_cases hneg : o < 0
  · rw [if_pos hneg]
    exact (List.cons_lt_cons_iff.mpr (.inl (by decide))).le
  · rw [if_neg hneg, cons_le_cons_iff]
    exact offsetSizeText_zero_le h

theorem offsetText_le_zero_iff {o : ℤ} (h : o.natAbs < 86400000000) :
    offsetText o ≤ offsetText 0 ↔ o = 0 := by
  constructor
  · intro hle
    exact offsetText_inj h (by decide) (le_antisymm hle (offsetText_zero_le h))
  · rintro rfl
    exact le_refl _

end A2ZCore
