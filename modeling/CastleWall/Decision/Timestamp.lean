import Mathlib.Data.List.Lex
import Mathlib.Tactic.IntervalCases

/-! # The daemon's clock in calendar fields

Audit rows carry a UTC time that the daemon computes from a count of seconds by integer arithmetic over eras of
four hundred years that begin on the first of March. The proleptic Gregorian calendar is stated on its own: the
lengths of its months and years, and the second at which a date and time of day stand. -/

namespace CastleWall.Decision

@[ext] structure UtcTime where
  year : Int
  (month day hour minute second : Nat)
deriving DecidableEq

def IsLeap (year : Int) : Prop := year % 4=0 ∧ (year % 100≠0 ∨ year % 400=0)

instance (year : Int) : Decidable (IsLeap year) := inferInstanceAs (Decidable (_ ∧ _))

def daysInMonth (year : Int) (month : Nat) : Nat :=
  if month=2 then if IsLeap year then 29 else 28
  else if month=4 ∨ month=6 ∨ month=9 ∨ month=11 then 30 else 31

/-- Days from the first of January to the first of the month; of month 13, the length of the year. -/
def daysBeforeMonth (year : Int) : Nat → Nat
  | 0 => 0
  | 1 => 0
  | month+2 => daysBeforeMonth year (month+1)+daysInMonth year (month+1)

def daysBeforeYear (year : Int) : Int :=
  365 * (year - 1)+(year - 1) / 4 - (year - 1) / 100+(year - 1) / 400 - 719162

example : daysBeforeYear 1970=0 := by decide

theorem daysBeforeMonth_year (year : Int) : daysBeforeMonth year 13=if IsLeap year then 366 else 365 := by
  by_cases h : IsLeap year
  · simp [daysBeforeMonth,daysInMonth,h]
  · simp [daysBeforeMonth,daysInMonth,h]

theorem daysBeforeYear_succ (year : Int) : daysBeforeYear (year+1)=daysBeforeYear year+daysBeforeMonth year 13 := by
  rw [daysBeforeMonth_year,daysBeforeYear,daysBeforeYear]
  split_ifs with h
  all_goals
    unfold IsLeap at h
    omega

theorem daysBeforeYear_lt {year later : Int} (h : year < later) :
    daysBeforeYear year+daysBeforeMonth year 13 ≤ daysBeforeYear later := by
  rw [← daysBeforeYear_succ]
  unfold daysBeforeYear
  omega

theorem daysBeforeMonth_lt (year : Int) {month later : Nat} (hmon : 1 ≤ month) (h : month < later) :
    daysBeforeMonth year month+daysInMonth year month ≤ daysBeforeMonth year later := by
  induction later,h using Nat.le_induction with
  | base =>
    obtain ⟨m,rfl⟩ := Nat.exists_eq_add_of_le' hmon
    rfl
  | succ later hle ih =>
    obtain ⟨m,rfl⟩ := Nat.exists_eq_add_of_le' (hmon.trans (Nat.le_of_lt hle))
    exact ih.trans (Nat.le_add_right _ _)

namespace UtcTime

structure IsValid (time : UtcTime) : Prop where
  month : 1 ≤ time.month ∧ time.month ≤ 12
  day : 1 ≤ time.day ∧ time.day ≤ daysInMonth time.year time.month
  clock : time.hour < 24 ∧ time.minute < 60 ∧ time.second < 60

def instant (time : UtcTime) : Int :=
  (daysBeforeYear time.year+daysBeforeMonth time.year time.month+time.day - 1) * 86400 +
    time.hour * 3600+time.minute * 60+time.second

def fields (time : UtcTime) : List Int :=
  [time.year,time.month,time.day,time.hour,time.minute,time.second]

theorem fields_injective : Function.Injective fields := by
  intro a b h
  simp only [fields,List.cons.injEq,Nat.cast_inj,and_true] at h
  obtain ⟨hyea,hmon,hday,hhou,hmin,hsec⟩ := h
  exact UtcTime.ext hyea hmon hday hhou hmin hsec

theorem instant_lt {a b : UtcTime} (ha : a.IsValid) (hb : b.IsValid) (h : a.fields < b.fields) :
    a.instant < b.instant := by
  obtain ⟨⟨hma,hmb⟩,⟨hda,hdb⟩,hca,hcb,hcc⟩ := ha
  obtain ⟨⟨hna,hnb⟩,⟨hea,heb⟩,hfa,hfb,hfc⟩ := hb
  simp only [fields,List.cons_lt_cons_iff,Nat.cast_lt,Nat.cast_inj,List.lt_irrefl,and_false,or_false] at h
  unfold instant
  rcases h with hy | ⟨hy,hm | ⟨hm,hd⟩⟩
  · have hyea := daysBeforeYear_lt hy
    have hmon : _ ≤ daysBeforeMonth a.year 13 := daysBeforeMonth_lt a.year hma (by omega)
    omega
  · have hmon := daysBeforeMonth_lt a.year hma hm
    rw [← hy]
    omega
  · rw [← hy,← hm]
    omega

end UtcTime

/-- `as i32` and `as u32`. -/
def toI32 (value : Int) : Int := value.bmod (2 ^ 32)

def toU32 (value : Int) : Nat := (value % 2 ^ 32).toNat

def yearOfEra (dayOfEra : Int) : Int :=
  (dayOfEra - dayOfEra / 1460+dayOfEra / 36524 - dayOfEra / 146096) / 365

def yearStart (yearOfEra : Int) : Int := 365 * yearOfEra+yearOfEra / 4 - yearOfEra / 100

/-- Rust's `/` rounds to zero, which shows only where the days before the first era are divided. -/
def ymdHmsFromUnixSeconds (unixSeconds : Int) : UtcTime :=
  let days := unixSeconds / 86400
  let secondsOfDay := unixSeconds % 86400
  let shiftedDays := (if secondsOfDay < 0 then days - 1 else days)+719468
  let secondsOfDay := if secondsOfDay < 0 then secondsOfDay+86400 else secondsOfDay
  let era := (if shiftedDays ≥ 0 then shiftedDays else shiftedDays - 146096).tdiv 146097
  let dayOfEra := shiftedDays - era * 146097
  let year := yearOfEra dayOfEra+era * 400
  let dayOfYear := dayOfEra - yearStart (yearOfEra dayOfEra)
  let monthPrime := (5 * dayOfYear+2) / 153
  let month := toU32 (if monthPrime < 10 then monthPrime+3 else monthPrime - 9)
  { year := toI32 (if month ≤ 2 then year+1 else year)
    month
    day := toU32 (dayOfYear - (153 * monthPrime+2) / 5+1)
    hour := toU32 (secondsOfDay / 3600)
    minute := toU32 (secondsOfDay % 3600 / 60)
    second := toU32 (secondsOfDay % 60) }

example : ymdHmsFromUnixSeconds 1709210096=⟨2024,2,29,12,34,56⟩ := by decide

def InRange (unixSeconds : Int) : Prop := -67768100567971200 ≤ unixSeconds ∧ unixSeconds ≤ 67767976233532799

theorem era_eq (days : Int) : (if days ≥ 0 then days else days - 146096).tdiv 146097=days / 146097 := by
  split_ifs with h
  · rw [Int.tdiv_eq_ediv_of_nonneg h]
  · rw [Int.tdiv_eq_ediv]
    split_ifs with hdvd
    · omega
    · rw [Int.sign_eq_one_of_pos (by decide)]
      omega

/-- The year of the era that a day is in, within one century. A quarter of the years counted is what the
division by 1460 counts, or one less. -/
private theorem century_year {day quads century year : Int} (hq : quads=day / 1460) (hc : century=day / 36524)
    (hcen : 0 ≤ century ∧ century < 4) (hy : year=(day - quads+century) / 365) :
    year / 100=century ∧ (quads=year / 4 ∨ quads=year / 4+1) := by
  obtain rfl | rfl | rfl | rfl : century=0 ∨ century=1 ∨ century=2 ∨ century=3 := by omega
  all_goals omega

theorem yearOfEra_spec {day : Int} (hlo : 0 ≤ day) (hhi : day < 146097) :
    (0 ≤ yearOfEra day ∧ yearOfEra day < 400) ∧
      (0 ≤ day - yearStart (yearOfEra day) ∧ day - yearStart (yearOfEra day) ≤ 365) ∧
      (day - yearStart (yearOfEra day)=365 → IsLeap (yearOfEra day+1)) := by
  obtain rfl | hlt := eq_or_lt_of_le (Int.le_sub_one_of_lt hhi)
  · decide
  have hlas : day / 146096=0 := by omega
  obtain ⟨year,hy⟩ : ∃ year,year=(day - day / 1460+day / 36524) / 365 := ⟨_,rfl⟩
  have hyea : yearOfEra day=year := by rw [yearOfEra,hlas,hy,Int.sub_zero]
  obtain ⟨hcen,hqua⟩ := century_year rfl rfl (by omega) hy
  have hran : 0 ≤ year ∧ year < 400 := by omega
  have hsta : 0 ≤ day - yearStart year ∧ day - yearStart year ≤ 365 := by
    unfold yearStart
    omega
  rw [hyea]
  refine ⟨hran,hsta,fun hlea => ?_⟩
  unfold yearStart at hlea
  have hfou : year % 4=3 := by omega
  unfold IsLeap
  omega

def marchFirst (year : Int) : Int := 365 * year+year / 4 - year / 100+year / 400 - 719468

private theorem marchFirst_eq (year : Int) :
    marchFirst year=daysBeforeYear year+59+if IsLeap year then 1 else 0 := by
  unfold marchFirst daysBeforeYear IsLeap
  split_ifs with h <;> omega

/-- The date a number of days after the first of March, which is in the next year from January on. -/
theorem march_date {year day : Int} (hlo : 0 ≤ day) (hhi : day ≤ 365) (hlea : day=365 → IsLeap (year+1)) :
    ∃ monthPrime : Nat,(5 * day+2) / 153=monthPrime ∧ monthPrime < 12 ∧ ∃ date : Nat,
      day - (153 * monthPrime+2) / 5+1=date ∧ ∀ month,month=(if monthPrime < 10 then monthPrime+3 else monthPrime - 9) →
      ∀ calendarYear,calendarYear=(if month ≤ 2 then year+1 else year) →
        (1 ≤ date ∧ date ≤ daysInMonth calendarYear month) ∧
        daysBeforeYear calendarYear+daysBeforeMonth calendarYear month+date - 1=marchFirst year+day := by
  obtain ⟨monthPrime,hm⟩ : ∃ monthPrime : Nat,(5 * day+2) / 153=monthPrime :=
    ⟨_,(Int.toNat_of_nonneg (by omega)).symm⟩
  obtain ⟨date,hd⟩ : ∃ date : Nat,day - (153 * monthPrime+2) / 5+1=date :=
    ⟨_,(Int.toNat_of_nonneg (by omega)).symm⟩
  have hlt : monthPrime < 12 := by omega
  refine ⟨monthPrime,hm,hlt,date,hd,?_⟩
  rintro month rfl calendarYear rfl
  by_cases hmar : monthPrime < 10
  · have hfir := marchFirst_eq year
    rw [if_pos hmar,if_neg (show ¬monthPrime+3 ≤ 2 by omega)]
    by_cases hyea : IsLeap year
    · rw [if_pos hyea] at hfir
      interval_cases monthPrime <;> simp [daysBeforeMonth,daysInMonth,hyea] <;> omega
    · rw [if_neg hyea] at hfir
      interval_cases monthPrime <;> simp [daysBeforeMonth,daysInMonth,hyea] <;> omega
  · have hfir : daysBeforeYear (year+1)=marchFirst year+306 := by
      unfold daysBeforeYear marchFirst
      rw [Int.add_sub_cancel]
      omega
    rw [if_neg hmar,if_pos (show monthPrime - 9 ≤ 2 by omega)]
    obtain rfl | rfl : monthPrime=10 ∨ monthPrime=11 := by omega
    · simp [daysBeforeMonth,daysInMonth]
      omega
    · by_cases hnex : IsLeap (year+1)
      · simp [daysBeforeMonth,daysInMonth,hnex]
        omega
      · have hmax : day≠365 := fun h => hnex (hlea h)
        simp [daysBeforeMonth,daysInMonth,hnex]
        omega

private theorem toU32_natCast {n : Nat} (h : n < 2 ^ 32) : toU32 n=n := by
  unfold toU32
  omega

private theorem clock_spec (seconds : Int) :
    (toU32 (seconds % 86400 / 3600) < 24 ∧ toU32 (seconds % 86400 % 3600 / 60) < 60 ∧
      toU32 (seconds % 86400 % 60) < 60) ∧
    seconds / 86400 * 86400+toU32 (seconds % 86400 / 3600) * 3600 +
      toU32 (seconds % 86400 % 3600 / 60) * 60+toU32 (seconds % 86400 % 60)=seconds := by
  unfold toU32
  omega

theorem ymdHmsFromUnixSeconds_spec {seconds : Int} (h : InRange seconds) :
    (ymdHmsFromUnixSeconds seconds).IsValid ∧ (ymdHmsFromUnixSeconds seconds).instant=seconds := by
  have hsec : ¬seconds % 86400 < 0 := by omega
  unfold ymdHmsFromUnixSeconds
  dsimp only
  rw [if_neg hsec,if_neg hsec,era_eq]
  obtain ⟨days,hdas⟩ : ∃ days,days=seconds / 86400+719468 := ⟨_,rfl⟩
  obtain ⟨doe,hdoe⟩ : ∃ doe,doe=days - days / 146097 * 146097 := ⟨_,rfl⟩
  rw [← hdas,← hdoe]
  obtain ⟨hyoe,⟨hlo,hhi⟩,hlea⟩ := yearOfEra_spec (show 0 ≤ doe by omega) (by omega)
  obtain ⟨year,hyea⟩ : ∃ year,year=yearOfEra doe+days / 146097 * 400 := ⟨_,rfl⟩
  have hlas : doe - yearStart (yearOfEra doe)=365 → IsLeap (year+1) := by
    intro hend
    have hera := hlea hend
    unfold IsLeap at hera ⊢
    omega
  have hmar : marchFirst year+(doe - yearStart (yearOfEra doe))=seconds / 86400 := by
    unfold marchFirst yearStart
    omega
  obtain ⟨month,hmoh,hlt,date,hdat,hspe⟩ := march_date hlo hhi hlas
  rw [hmoh,hdat,← hyea]
  have hcas : toU32 (if (month : Int) < 10 then (month : Int)+3 else month - 9) =
      if month < 10 then month+3 else month - 9 := by
    unfold toU32
    split_ifs <;> omega
  obtain ⟨m,hm⟩ : ∃ m,m=if month < 10 then month+3 else month - 9 := ⟨_,rfl⟩
  obtain ⟨cy,hcy⟩ : ∃ cy,cy=if m ≤ 2 then year+1 else year := ⟨_,rfl⟩
  obtain ⟨hday,hnum⟩ := hspe m hm cy hcy
  have hmon : 1 ≤ m ∧ m ≤ 12 := by
    rw [hm]
    split_ifs <;> omega
  have hbef : _ ≤ daysBeforeMonth cy 13 := daysBeforeMonth_lt cy hmon.1 (Nat.lt_succ_of_le hmon.2)
  have hlow : -2147483648 ≤ cy := by
    by_contra hlow
    have hyes := daysBeforeYear_lt (not_le.mp hlow)
    rw [show daysBeforeYear (-2147483648) = -784353015833 by decide] at hyes
    have hfir := h.1
    omega
  have hhig : cy ≤ 2147483647 := by
    by_contra hhig
    have hyes := daysBeforeYear_lt (not_le.mp hhig)
    rw [← daysBeforeYear_succ,show daysBeforeYear (2147483647+1)=784351576777 by decide] at hyes
    have hlas := h.2
    omega
  have hfit : toI32 cy=cy := Int.bmod_eq_of_le (by omega) (by omega)
  rw [hcas,← hm,← hcy,hfit,toU32_natCast (by omega)]
  obtain ⟨hclo,hses⟩ := clock_spec seconds
  refine ⟨⟨hmon,hday,hclo⟩,?_⟩
  rw [UtcTime.instant,hnum,hmar]
  exact hses

/-- Every second in range comes out as the calendar's own fields of that instant, and a later one as later
fields. -/
theorem ymd_hms_gregorian {seconds : Int} (h : InRange seconds) :
    (ymdHmsFromUnixSeconds seconds).IsValid ∧ (ymdHmsFromUnixSeconds seconds).instant=seconds ∧
      ∀ later,InRange later → seconds < later →
        (ymdHmsFromUnixSeconds seconds).fields < (ymdHmsFromUnixSeconds later).fields := by
  obtain ⟨hval,hins⟩ := ymdHmsFromUnixSeconds_spec h
  refine ⟨hval,hins,fun later hin hlt => ?_⟩
  obtain ⟨hval',hins'⟩ := ymdHmsFromUnixSeconds_spec hin
  by_contra hnot
  -- fields that are not before are equal or after, and the instants would be too
  obtain heq | haft := eq_or_lt_of_le (not_lt.mp hnot)
  · have htim : ymdHmsFromUnixSeconds later=ymdHmsFromUnixSeconds seconds := UtcTime.fields_injective heq
    rw [htim,hins] at hins'
    omega
  · have hbac := UtcTime.instant_lt hval' hval haft
    omega

theorem ymd_hms_gregorian_leap_day : (ymdHmsFromUnixSeconds 1709251199).fields=[2024,2,29,23,59,59] ∧
    (ymdHmsFromUnixSeconds 1709251199).fields < (ymdHmsFromUnixSeconds 1709251200).fields :=
  ⟨by decide,(ymd_hms_gregorian ⟨by decide,by decide⟩).2.2 _ ⟨by decide,by decide⟩ (by decide)⟩

end CastleWall.Decision
