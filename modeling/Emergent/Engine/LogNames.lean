import Emergent.Engine.Retention
import Emergent.Kit.Calendar

/-!
# The names of rotated logs (`retention.rs`, `event_store/json_log.rs`)

The log writer names its file after a date and pruning reads the date back out
of every name in the directory. `NaiveDate::parse_from_str` with `%Y-%m-%d` reads
more than `format` writes: a month or a day of one digit, a short or a signed
year, and white space before any number.
-/

namespace Emergent.Engine.Retention
open Kit Kit.Text Kit.Calendar

/-! ### `%Y-%m-%d` -/

/-- The days from the first of January of year one to 1970-01-01. -/
def epochDay : ℤ := 719162

def NaiveDate.civil (date : NaiveDate) : Civil := Civil.ofDay (date.day + epochDay)

def fromYmdOpt (year : ℤ) (month day : ℕ) : Option NaiveDate :=
  (fromYmd year month day).bind fun c =>
    if h : firstDay ≤ c.toDay - epochDay ∧ c.toDay - epochDay ≤ lastDay then
      some ⟨c.toDay - epochDay, h⟩
    else none

def padded (width n : ℕ) : List Char := (Nat.toDigits 10 n).leftpad width '0'

/-- A year of four digits, and any other with its sign and at least four. -/
def yearText (year : ℤ) : List Char :=
  if 0 ≤ year ∧ year ≤ 9999 then padded 4 year.natAbs
  else (if year < 0 then '-' else '+') :: padded 4 year.natAbs

def formatYmd (date : NaiveDate) : String :=
  String.ofList (yearText date.civil.year ++ '-' :: (padded 2 date.civil.month ++
    '-' :: padded 2 date.civil.day))

/-- At least one digit and at most `width` of them. -/
def scanNumber (width : ℕ) (s : List Char) : Option (ℕ × List Char) :=
  let digits := (s.take width).takeWhile Char.isDigit
  if digits = [] then none else some (Nat.ofDigitChars 10 digits 0, s.drop digits.length)

/-- The width holds only for a year without a sign. -/
def scanYear (s : List Char) : Option (ℤ × List Char) :=
  match s.dropWhile isWhite with
  | '-' :: rest => (scanNumber rest.length rest).map fun (n, left) => (-(n : ℤ), left)
  | '+' :: rest => (scanNumber rest.length rest).map fun (n, left) => ((n : ℤ), left)
  | rest => (scanNumber 4 rest).map fun (n, left) => ((n : ℤ), left)

def scanField (s : List Char) : Option (ℕ × List Char) := scanNumber 2 (s.dropWhile isWhite)

def scanDash : List Char → Option (List Char)
  | '-' :: rest => some rest
  | _ => none

def parseYmd (s : String) : Option NaiveDate := do
  let (year, rest) ← scanYear s.toList
  let rest ← scanDash rest
  let (month, rest) ← scanField rest
  let rest ← scanDash rest
  let (day, rest) ← scanField rest
  if rest = [] then fromYmdOpt year month day else none

/-- The two calls do what chrono's documentation says of the format. -/
structure DateText.Documented (text : DateText) : Prop where
  format : ∀ date, text.format date = formatYmd date
  parse : ∀ s, text.parse s = parseYmd s

/-! ### Which names are whose -/

/-- Four digits, two and two, joined by dashes. -/
def isYmd : List Char → Bool
  | [y₁, y₂, y₃, y₄, dash, m₁, m₂, dash', d₁, d₂] =>
    [y₁, y₂, y₃, y₄, m₁, m₂, d₁, d₂].all Char.isDigit && dash == '-' && dash' == '-'
  | _ => false

/-- A name the writer gives its file on some date before the cutoff. -/
def IsLogBefore (text : DateText) (cutoff : NaiveDate) (name : String) : Prop :=
  ∃ date : NaiveDate, date.day < cutoff.day ∧
    (0 ≤ date.civil.year ∧ date.civil.year ≤ 9999) ∧
    name = JsonEventLog.logFileName (text.format date)

/-- What is selected is what the writer named before the cutoff. -/
def SelectsOwnLogs (text : DateText) (names : List String) (today : NaiveDate)
    (retentionDays : UInt32) (cutoff : NaiveDate) : Prop :=
  ∀ name ∈ names,
    name ∈ expiredLogFiles text names today retentionDays ↔ IsLogBefore text cutoff name

/-- A name around a text that is read as a date before the cutoff without being
four digits, two and two. -/
def LooseBefore (text : DateText) (cutoff : NaiveDate) (name : String) : Prop :=
  ∃ dateText date, name = JsonEventLog.logFileName dateText ∧ isYmd dateText.toList = false ∧
    text.parse dateText = some date ∧ date.day < cutoff.day

/-! ### Numbers -/

theorem digit_range {c : Char} (h : c.isDigit = true) : 48 ≤ c.toNat ∧ c.toNat ≤ 57 := by
  unfold Char.isDigit at h
  have hboth := Bool.and_eq_true_iff.mp h
  have hlow := UInt32.le_iff_toNat_le.mp (of_decide_eq_true hboth.1)
  have hhigh := UInt32.le_iff_toNat_le.mp (of_decide_eq_true hboth.2)
  have h0 : ('0' : Char).val.toNat = 48 := by decide
  have h9 : ('9' : Char).val.toNat = 57 := by decide
  have hval : c.toNat = c.val.toNat := rfl
  omega

theorem value_cons (c : Char) (l : List Char) :
    Nat.ofDigitChars 10 (c :: l) 0 = 10 ^ l.length * (c.toNat - 48) + Nat.ofDigitChars 10 l 0 := by
  have hzero : ('0' : Char).toNat = 48 := by decide
  rw [Nat.ofDigitChars_cons, Nat.mul_zero, Nat.zero_add, Nat.ofDigitChars_eq_ofDigitChars_zero,
    hzero]

theorem value_lt {l : List Char} (h : ∀ c ∈ l, c.isDigit = true) :
    Nat.ofDigitChars 10 l 0 < 10 ^ l.length := by
  induction l with
  | nil => simp
  | cons c l ih =>
    have htail := ih fun d hd => h d (List.mem_cons_of_mem _ hd)
    have hdigit := digit_range (h c List.mem_cons_self)
    have hle : 10 ^ l.length * (c.toNat - 48) ≤ 10 ^ l.length * 9 :=
      Nat.mul_le_mul_left _ (by omega)
    rw [value_cons, List.length_cons, pow_succ]
    omega

/-- Digits of one length are told apart by their value. -/
theorem eq_of_value_eq {l l' : List Char} (hl : ∀ c ∈ l, c.isDigit = true)
    (hl' : ∀ c ∈ l', c.isDigit = true) (hlength : l.length = l'.length)
    (hvalue : Nat.ofDigitChars 10 l 0 = Nat.ofDigitChars 10 l' 0) : l = l' := by
  induction l generalizing l' with
  | nil => exact (List.length_eq_zero_iff.mp hlength.symm).symm
  | cons c l ih =>
    cases l' with
    | nil => cases hlength
    | cons c' l' =>
      have hsame : l.length = l'.length := Nat.succ.inj hlength
      have hlt := value_lt fun d hd => hl d (List.mem_cons_of_mem _ hd)
      have hlt' := value_lt fun d hd => hl' d (List.mem_cons_of_mem _ hd)
      have hc := digit_range (hl c List.mem_cons_self)
      have hc' := digit_range (hl' c' List.mem_cons_self)
      rw [value_cons, value_cons, ← hsame] at hvalue
      rw [← hsame] at hlt'
      have hhead : c.toNat - 48 = c'.toNat - 48 := by
        have hpos : 0 < 10 ^ l.length := Nat.pow_pos (by decide)
        have hleft := Nat.mul_add_div hpos (c.toNat - 48) (Nat.ofDigitChars 10 l 0)
        have hright := Nat.mul_add_div hpos (c'.toNat - 48) (Nat.ofDigitChars 10 l' 0)
        rw [Nat.div_eq_of_lt hlt, Nat.add_zero] at hleft
        rw [Nat.div_eq_of_lt hlt', Nat.add_zero] at hright
        rw [← hleft, ← hright, hvalue]
      have hchar : c = c' := Char.toNat_inj.mp (by omega)
      rw [hhead] at hvalue
      rw [hchar, ih (fun d hd => hl d (List.mem_cons_of_mem _ hd))
        (fun d hd => hl' d (List.mem_cons_of_mem _ hd)) hsame (Nat.add_left_cancel hvalue)]

theorem padded_digits (width n : ℕ) : ∀ c ∈ padded width n, c.isDigit = true := by
  intro c hc
  unfold padded List.leftpad at hc
  rcases List.mem_append.mp hc with hzero | hdigit
  · rw [List.eq_of_mem_replicate hzero]
    decide
  · exact Nat.isDigit_of_mem_toDigits (by decide) (by decide) hdigit

theorem padded_value (width n : ℕ) : Nat.ofDigitChars 10 (padded width n) 0 = n := by
  rw [padded, List.leftpad, Nat.ofDigitChars_append, Nat.ofDigitChars_replicate_zero,
    Nat.mul_zero, Nat.ofDigitChars_ten_toDigits]

theorem padded_length {width n : ℕ} (hwidth : 0 < width) (h : n < 10 ^ width) :
    (padded width n).length = width := by
  have hle := (Nat.length_toDigits_le_iff (by decide) hwidth).mpr h
  rw [padded, List.leftpad, List.length_append, List.length_replicate]
  omega

theorem padded_ne_nil (width n : ℕ) : padded width n ≠ [] := by
  unfold padded List.leftpad
  intro h
  exact Nat.toDigits_ne_nil (List.append_eq_nil_iff.mp h).2

theorem padded_of_digits {l : List Char} (hl : ∀ c ∈ l, c.isDigit = true) (hne : 0 < l.length) :
    padded l.length (Nat.ofDigitChars 10 l 0) = l :=
  eq_of_value_eq (padded_digits _ _) hl (padded_length hne (value_lt hl)) (padded_value _ _)

/-! ### Reading what was written -/

theorem scanNumber_append {width : ℕ} {digits rest : List Char}
    (hdigits : ∀ c ∈ digits, c.isDigit = true) (hne : digits ≠ [])
    (hwidth : digits.length ≤ width)
    (hrest : digits.length = width ∨ ∀ c ∈ rest.head?, c.isDigit = false) :
    scanNumber width (digits ++ rest) = some (Nat.ofDigitChars 10 digits 0, rest) := by
  have hafter : (rest.take (width - digits.length)).takeWhile Char.isDigit = [] := by
    rcases hrest with hfull | hhead
    · rw [hfull, Nat.sub_self, List.take_zero, List.takeWhile_nil]
    · cases rest with
      | nil => simp
      | cons c rest =>
        have hc : c.isDigit = false := hhead c rfl
        cases width - digits.length with
        | zero => rfl
        | succ n => simp [List.take_succ_cons, hc]
  have htake : ((digits ++ rest).take width).takeWhile Char.isDigit = digits := by
    rw [List.take_append, List.take_of_length_le hwidth, List.takeWhile_append_of_pos hdigits,
      hafter, List.append_nil]
  simp only [scanNumber, htake, if_neg hne, List.drop_left]

theorem not_white_of_digit {c : Char} (h : c.isDigit = true) : isWhite c = false := by
  have hrange := digit_range h
  have hval : c.val.toNat = c.toNat := rfl
  simp only [isWhite, hval]
  apply decide_eq_false
  omega

/-- A number that starts with a digit has no white space before it. -/
theorem dropWhile_digits {digits : List Char} (rest : List Char)
    (hdigits : ∀ c ∈ digits, c.isDigit = true) (hne : digits ≠ []) :
    (digits ++ rest).dropWhile isWhite = digits ++ rest := by
  cases digits with
  | nil => exact absurd rfl hne
  | cons c digits =>
    have hhead : isWhite c = false := not_white_of_digit (hdigits c List.mem_cons_self)
    exact List.dropWhile_cons_of_neg (by rw [hhead]; exact Bool.false_ne_true)

theorem scanField_append {digits : List Char} (rest : List Char)
    (hdigits : ∀ c ∈ digits, c.isDigit = true) (hlength : digits.length = 2) :
    scanField (digits ++ rest) = some (Nat.ofDigitChars 10 digits 0, rest) := by
  have hne : digits ≠ [] := List.ne_nil_of_length_eq_add_one hlength
  rw [scanField, dropWhile_digits rest hdigits hne,
    scanNumber_append hdigits hne hlength.le (Or.inl hlength)]

theorem scanYear_unsigned {digits : List Char} (rest : List Char)
    (hdigits : ∀ c ∈ digits, c.isDigit = true) (hlength : digits.length = 4) :
    scanYear (digits ++ rest) = some (((Nat.ofDigitChars 10 digits 0 : ℕ) : ℤ), rest) := by
  have hne : digits ≠ [] := List.ne_nil_of_length_eq_add_one hlength
  have hscan : scanNumber 4 (digits ++ rest) = some (Nat.ofDigitChars 10 digits 0, rest) :=
    scanNumber_append hdigits hne hlength.le (Or.inl hlength)
  have hhead : ∀ c l, digits ++ rest = c :: l → c.isDigit = true := by
    intro c l hcons
    obtain ⟨digit, tail, rfl⟩ := List.exists_cons_of_ne_nil hne
    rw [← (List.cons.inj hcons).1]
    exact hdigits digit List.mem_cons_self
  unfold scanYear
  rw [dropWhile_digits rest hdigits hne]
  split
  · rename_i hminus
    exact absurd (hhead '-' _ hminus) (by decide)
  · rename_i hplus
    exact absurd (hhead '+' _ hplus) (by decide)
  · rw [hscan]
    rfl

theorem scanNumber_all {digits rest : List Char} (hdigits : ∀ c ∈ digits, c.isDigit = true)
    (hne : digits ≠ []) (hrest : ∀ c ∈ rest.head?, c.isDigit = false) :
    scanNumber (digits ++ rest).length (digits ++ rest) =
      some (Nat.ofDigitChars 10 digits 0, rest) := by
  refine scanNumber_append hdigits hne ?_ (Or.inr hrest)
  rw [List.length_append]
  omega

theorem scanYear_minus {digits rest : List Char} (hdigits : ∀ c ∈ digits, c.isDigit = true)
    (hne : digits ≠ []) (hrest : ∀ c ∈ rest.head?, c.isDigit = false) :
    scanYear ('-' :: (digits ++ rest)) = some (-((Nat.ofDigitChars 10 digits 0 : ℕ) : ℤ), rest) := by
  have htrim : ('-' :: (digits ++ rest)).dropWhile isWhite = '-' :: (digits ++ rest) := rfl
  simp only [scanYear, htrim, scanNumber_all hdigits hne hrest, Option.map_some]

theorem scanYear_plus {digits rest : List Char} (hdigits : ∀ c ∈ digits, c.isDigit = true)
    (hne : digits ≠ []) (hrest : ∀ c ∈ rest.head?, c.isDigit = false) :
    scanYear ('+' :: (digits ++ rest)) = some (((Nat.ofDigitChars 10 digits 0 : ℕ) : ℤ), rest) := by
  have htrim : ('+' :: (digits ++ rest)).dropWhile isWhite = '+' :: (digits ++ rest) := rfl
  simp only [scanYear, htrim, scanNumber_all hdigits hne hrest, Option.map_some]

theorem scanYear_yearText (year : ℤ) (rest : List Char) :
    scanYear (yearText year ++ '-' :: rest) = some (year, '-' :: rest) := by
  have hdash : ∀ c ∈ ('-' :: rest).head?, c.isDigit = false := by
    intro c hc
    rw [← Option.some.inj hc]
    decide
  unfold yearText
  by_cases hfour : 0 ≤ year ∧ year ≤ 9999
  · have hlt : year.natAbs < 10 ^ 4 := by omega
    rw [if_pos hfour, scanYear_unsigned _ (padded_digits _ _) (padded_length (by decide) hlt),
      padded_value, Int.natAbs_of_nonneg hfour.1]
  · rw [if_neg hfour, List.cons_append]
    by_cases hneg : year < 0
    · have hvalue : -(year.natAbs : ℤ) = year := by omega
      rw [if_pos hneg, scanYear_minus (padded_digits _ _) (padded_ne_nil _ _) hdash,
        padded_value, hvalue]
    · have hvalue : (year.natAbs : ℤ) = year := by omega
      rw [if_neg hneg, scanYear_plus (padded_digits _ _) (padded_ne_nil _ _) hdash,
        padded_value, hvalue]

/-- What is left to read after the year. -/
theorem parseYmd_of_scanYear {s : String} {year : ℤ} {month day : List Char}
    (hyear : scanYear s.toList = some (year, '-' :: (month ++ '-' :: day)))
    (hmonth : ∀ c ∈ month, c.isDigit = true) (hmonthLength : month.length = 2)
    (hday : ∀ c ∈ day, c.isDigit = true) (hdayLength : day.length = 2) :
    parseYmd s = fromYmdOpt year (Nat.ofDigitChars 10 month 0) (Nat.ofDigitChars 10 day 0) := by
  have hscanMonth := scanField_append ('-' :: day) hmonth hmonthLength
  have hscanDay : scanField day = some (Nat.ofDigitChars 10 day 0, []) := by
    have hscan := scanField_append [] hday hdayLength
    rwa [List.append_nil] at hscan
  simp [parseYmd, hyear, scanDash, hscanMonth, hscanDay]

theorem fromYmdOpt_civil (date : NaiveDate) :
    fromYmdOpt date.civil.year date.civil.month date.civil.day = some date := by
  have hday : date.civil.toDay - epochDay = date.day := by
    unfold NaiveDate.civil
    rw [Civil.toDay_ofDay]
    omega
  have hrange : firstDay ≤ date.civil.toDay - epochDay ∧
      date.civil.toDay - epochDay ≤ lastDay := by
    rw [hday]
    exact date.representable
  rw [fromYmdOpt, fromYmd_self, Option.bind_some, dif_pos hrange]
  cases date
  exact congrArg some (by simpa using hday)

theorem civil_of_fromYmdOpt {year : ℤ} {month day : ℕ} {date : NaiveDate}
    (h : fromYmdOpt year month day = some date) :
    date.civil.year = year ∧ date.civil.month = month ∧ date.civil.day = day := by
  obtain ⟨c, hc, hdate⟩ := Option.bind_eq_some_iff.mp h
  have hcivil : date.civil = c := by
    split at hdate
    · have hday : date.day + epochDay = c.toDay := by
        rw [← Option.some.inj hdate]
        simp
      rw [NaiveDate.civil, hday, Civil.ofDay_toDay]
    · cases hdate
  rw [hcivil]
  unfold fromYmd at hc
  split_ifs at hc
  rw [← Option.some.inj hc]
  exact ⟨rfl, rfl, rfl⟩

theorem civil_bounds (date : NaiveDate) :
    date.civil.month < 10 ^ 2 ∧ date.civil.day < 10 ^ 2 := by
  have hmonth := date.civil.monthOfYear
  have hday := date.civil.dayOfMonth
  have hlong : daysInMonth (isLeap date.civil.year) date.civil.month ≤ 31 := by
    unfold daysInMonth
    split_ifs <;> decide
  omega

/-- Every date is read back from its own text. -/
theorem parseYmd_formatYmd (date : NaiveDate) : parseYmd (formatYmd date) = some date := by
  have hbounds := civil_bounds date
  have hyear : scanYear (formatYmd date).toList = some (date.civil.year,
      '-' :: (padded 2 date.civil.month ++ '-' :: padded 2 date.civil.day)) := by
    rw [formatYmd, String.toList_ofList, scanYear_yearText]
  rw [parseYmd_of_scanYear hyear (padded_digits _ _) (padded_length (by decide) hbounds.1)
    (padded_digits _ _) (padded_length (by decide) hbounds.2), padded_value, padded_value,
    fromYmdOpt_civil]

theorem DateText.Documented.readsBack {text : DateText} (h : text.Documented) :
    text.ReadsBack := by
  intro date read hread
  rw [h.parse, h.format, parseYmd_formatYmd] at hread
  exact (Option.some.inj hread).symm

/-! ### Four digits, two and two -/

theorem isYmd_split {l : List Char} (h : isYmd l = true) :
    ∃ year month day : List Char, l = year ++ '-' :: (month ++ '-' :: day) ∧
      ((∀ c ∈ year, c.isDigit = true) ∧ year.length = 4) ∧
      ((∀ c ∈ month, c.isDigit = true) ∧ month.length = 2) ∧
      (∀ c ∈ day, c.isDigit = true) ∧ day.length = 2 := by
  unfold isYmd at h
  split at h
  · rename_i y₁ y₂ y₃ y₄ dash m₁ m₂ dash' d₁ d₂
    simp only [List.all_cons, List.all_nil, Bool.and_true, Bool.and_eq_true, beq_iff_eq] at h
    obtain ⟨⟨⟨hy₁, hy₂, hy₃, hy₄, hm₁, hm₂, hd₁, hd₂⟩, hdash⟩, hdash'⟩ := h
    refine ⟨[y₁, y₂, y₃, y₄], [m₁, m₂], [d₁, d₂], by rw [hdash, hdash']; rfl, ⟨?_, rfl⟩,
      ⟨?_, rfl⟩, ?_, rfl⟩
    · simp [hy₁, hy₂, hy₃, hy₄]
    · simp [hm₁, hm₂]
    · simp [hd₁, hd₂]
  · cases h

theorem isYmd_join {year month day : List Char} (hyear : ∀ c ∈ year, c.isDigit = true)
    (hyearLength : year.length = 4) (hmonth : ∀ c ∈ month, c.isDigit = true)
    (hmonthLength : month.length = 2) (hday : ∀ c ∈ day, c.isDigit = true)
    (hdayLength : day.length = 2) : isYmd (year ++ '-' :: (month ++ '-' :: day)) = true := by
  match year, month, day, hyearLength, hmonthLength, hdayLength with
  | [y₁, y₂, y₃, y₄], [m₁, m₂], [d₁, d₂], _, _, _ =>
    have hall : ∀ c ∈ [y₁, y₂, y₃, y₄] ++ ([m₁, m₂] ++ [d₁, d₂]), c.isDigit = true := by
      intro c hc
      rcases List.mem_append.mp hc with hc | hc
      · exact hyear c hc
      · rcases List.mem_append.mp hc with hc | hc
        · exact hmonth c hc
        · exact hday c hc
    have hdigits : [y₁, y₂, y₃, y₄, m₁, m₂, d₁, d₂].all Char.isDigit = true :=
      List.all_eq_true.mpr hall
    change ([y₁, y₂, y₃, y₄, m₁, m₂, d₁, d₂].all Char.isDigit && '-' == '-' && '-' == '-') = true
    rw [hdigits]
    rfl

theorem isYmd_formatYmd {date : NaiveDate}
    (h : 0 ≤ date.civil.year ∧ date.civil.year ≤ 9999) :
    isYmd (formatYmd date).toList = true := by
  have hbounds := civil_bounds date
  have hyear : date.civil.year.natAbs < 10 ^ 4 := by omega
  rw [formatYmd, String.toList_ofList, yearText, if_pos h]
  exact isYmd_join (padded_digits _ _) (padded_length (by decide) hyear) (padded_digits _ _)
    (padded_length (by decide) hbounds.1) (padded_digits _ _)
    (padded_length (by decide) hbounds.2)

/-- A strict text that is read as a date is the text of that date. -/
theorem formatYmd_of_isYmd {s : String} {date : NaiveDate} (hstrict : isYmd s.toList = true)
    (hread : parseYmd s = some date) :
    (0 ≤ date.civil.year ∧ date.civil.year ≤ 9999) ∧ formatYmd date = s := by
  obtain ⟨year, month, day, hsplit, ⟨hyear, hyearLength⟩, ⟨hmonth, hmonthLength⟩,
    hday, hdayLength⟩ := isYmd_split hstrict
  have hscan := scanYear_unsigned ('-' :: (month ++ '-' :: day)) hyear hyearLength
  rw [← hsplit] at hscan
  rw [parseYmd_of_scanYear hscan hmonth hmonthLength hday hdayLength] at hread
  obtain ⟨hcivilYear, hcivilMonth, hcivilDay⟩ := civil_of_fromYmdOpt hread
  have hlt := value_lt hyear
  rw [hyearLength] at hlt
  have hrange : 0 ≤ date.civil.year ∧ date.civil.year ≤ 9999 := by
    rw [hcivilYear]
    omega
  have hyearText : yearText date.civil.year = year := by
    have hpadded := padded_of_digits hyear (by omega)
    rw [hyearLength] at hpadded
    rw [yearText, if_pos hrange, hcivilYear, Int.natAbs_natCast, hpadded]
  have hmonthText : padded 2 date.civil.month = month := by
    have hpadded := padded_of_digits hmonth (by omega)
    rw [hmonthLength] at hpadded
    rw [hcivilMonth, hpadded]
  have hdayText : padded 2 date.civil.day = day := by
    have hpadded := padded_of_digits hday (by omega)
    rw [hdayLength] at hpadded
    rw [hcivilDay, hpadded]
  refine ⟨hrange, ?_⟩
  rw [formatYmd, hyearText, hmonthText, hdayText, ← hsplit, String.ofList_toList]

/-! ### Which names are selected -/

variable {text : DateText}

theorem parseLogFileDate_eq_some {name : String} {date : NaiveDate}
    (h : parseLogFileDate text name = some date) :
    ∃ dateText, name = JsonEventLog.logFileName dateText ∧ text.parse dateText = some date := by
  obtain ⟨rest, hrest, h⟩ := Option.bind_eq_some_iff.mp h
  obtain ⟨dateText, hdateText, hparse⟩ := Option.bind_eq_some_iff.mp h
  refine ⟨dateText, ?_, hparse⟩
  rw [JsonEventLog.logFileName, ← eq_append_of_stripSuffixText hdateText]
  exact eq_append_of_stripPrefixText hrest

theorem isExpired_iff {cutoff : NaiveDate} {name : String} :
    isExpired text cutoff name = true ↔
      ∃ dateText date, name = JsonEventLog.logFileName dateText ∧
        text.parse dateText = some date ∧ date.day < cutoff.day := by
  constructor
  · intro h
    obtain ⟨date, hdate, hlt⟩ := (Option.any_eq_true _ _).mp h
    obtain ⟨dateText, hname, hparse⟩ := parseLogFileDate_eq_some hdate
    exact ⟨dateText, date, hname, hparse, of_decide_eq_true hlt⟩
  · rintro ⟨dateText, date, hname, hparse, hlt⟩
    rw [hname, isExpired, parseLogFileDate_logFileName, hparse]
    exact decide_eq_true hlt

theorem logFileName_injective : Function.Injective JsonEventLog.logFileName := by
  intro s t h
  have hrest : s ++ logFileSuffix = t ++ logFileSuffix := by
    have hstrip := congrArg (stripPrefixText · logFilePrefix) h
    simp only [JsonEventLog.logFileName, stripPrefixText_append] at hstrip
    exact Option.some.inj hstrip
  have hstrip := congrArg (stripSuffixText · logFileSuffix) hrest
  simp only [stripSuffixText_append] at hstrip
  exact Option.some.inj hstrip

theorem isExpired_of_isLogBefore (htext : text.Documented) {cutoff : NaiveDate} {name : String}
    (h : IsLogBefore text cutoff name) : isExpired text cutoff name = true := by
  obtain ⟨date, hlt, _, hname⟩ := h
  apply isExpired_iff.mpr
  refine ⟨text.format date, date, hname, ?_, hlt⟩
  rw [htext.parse, htext.format, parseYmd_formatYmd]

theorem isExpired_of_looseBefore {cutoff : NaiveDate} {name : String}
    (h : LooseBefore text cutoff name) : isExpired text cutoff name = true := by
  obtain ⟨dateText, date, hname, _, hparse, hlt⟩ := h
  exact isExpired_iff.mpr ⟨dateText, date, hname, hparse, hlt⟩

/-- An expired name is the writer's own or a loose one, and never both. -/
theorem isExpired_cases (htext : text.Documented) {cutoff : NaiveDate} {name : String}
    (h : isExpired text cutoff name = true) :
    IsLogBefore text cutoff name ↔ ¬ LooseBefore text cutoff name := by
  obtain ⟨dateText, date, hname, hparse, hlt⟩ := isExpired_iff.mp h
  constructor
  · rintro ⟨written, _, hyear, hwritten⟩ ⟨looseText, _, hlooseName, hloose, _⟩
    have hsame := logFileName_injective (hlooseName.symm.trans hwritten)
    rw [hsame, htext.format, isYmd_formatYmd hyear] at hloose
    cases hloose
  · intro hloose
    have hstrict : isYmd dateText.toList = true := by
      by_contra hnot
      exact hloose ⟨dateText, date, hname, Bool.eq_false_iff.mpr hnot, hparse, hlt⟩
    rw [htext.parse] at hparse
    obtain ⟨hyear, hformat⟩ := formatYmd_of_isYmd hstrict hparse
    refine ⟨date, hlt, hyear, ?_⟩
    rw [htext.format, hformat, hname]

/-- Pruning selects the engine's own logs and no other file exactly when no name
in the directory is a loose one. -/
theorem expiredLogFiles_own_iff (htext : text.Documented) (names : List String)
    (today : NaiveDate) (retentionDays : UInt32) {cutoff : NaiveDate}
    (hcutoff : oldestRetainedLogDate today retentionDays = some cutoff) :
    SelectsOwnLogs text names today retentionDays cutoff ↔
      ∀ name ∈ names, ¬ LooseBefore text cutoff name := by
  have hselected : ∀ name ∈ names,
      (name ∈ expiredLogFiles text names today retentionDays ↔
        isExpired text cutoff name = true) := by
    intro name hname
    simp [expiredLogFiles, hcutoff, hname]
  constructor
  · intro h name hname hloose
    have hexpired := isExpired_of_looseBefore hloose
    have hown := (h name hname).mp ((hselected name hname).mpr hexpired)
    exact (isExpired_cases htext hexpired).mp hown hloose
  · intro h name hname
    rw [hselected name hname]
    constructor
    · intro hexpired
      exact (isExpired_cases htext hexpired).mpr (h name hname)
    · intro hown
      exact isExpired_of_isLogBefore htext hown

def ymdText : DateText := ⟨formatYmd, parseYmd⟩

theorem ymdText_documented : ymdText.Documented := ⟨fun _ => rfl, fun _ => rfl⟩

def logDirectory : List String := ["emergent.log", "events-2026-09-12.jsonl"]

theorem representable_september13 : firstDay ≤ 20709 ∧ (20709 : ℤ) ≤ lastDay := by decide

def september13 : NaiveDate := ⟨20709, representable_september13⟩

theorem expiredLogFiles_own_september :
    expiredLogFiles ymdText logDirectory september20 7 = ["events-2026-09-12.jsonl"] ∧
      (SelectsOwnLogs ymdText logDirectory september20 7 september13 ↔
        ∀ name ∈ logDirectory, ¬ LooseBefore ymdText september13 name) :=
  ⟨by decide, expiredLogFiles_own_iff ymdText_documented logDirectory september20 7 (by decide)⟩

/-- A report someone left beside the logs under a short date. -/
theorem expiredLogFiles_takes_short_date :
    expiredLogFiles ymdText ["events-2026-9-1.jsonl"] september20 7 = ["events-2026-9-1.jsonl"] ∧
      ¬ SelectsOwnLogs ymdText ["events-2026-9-1.jsonl"] september20 7 september13 := by
  have hexpired : expiredLogFiles ymdText ["events-2026-9-1.jsonl"] september20 7 =
      ["events-2026-9-1.jsonl"] := by decide
  refine ⟨hexpired, ?_⟩
  intro h
  have hmem : "events-2026-9-1.jsonl" ∈ ["events-2026-9-1.jsonl"] := List.mem_singleton_self _
  have hselected : "events-2026-9-1.jsonl" ∈
      expiredLogFiles ymdText ["events-2026-9-1.jsonl"] september20 7 := by
    rw [hexpired]
    exact hmem
  obtain ⟨date, _, hyear, hname⟩ := (h _ hmem).mp hselected
  have hshort : JsonEventLog.logFileName "2026-9-1" = "events-2026-9-1.jsonl" := by decide
  have hsame := logFileName_injective (hshort.trans hname)
  have hstrict := isYmd_formatYmd hyear
  have hnot : isYmd "2026-9-1".toList = false := by decide
  have htext : formatYmd date = "2026-9-1" := hsame.symm
  rw [htext, hnot] at hstrict
  cases hstrict

end Emergent.Engine.Retention
