import Mathlib.Data.List.Induction
import Mathlib.Data.List.TakeWhile
import Switchboard.Proofs.Spelling
import Switchboard.Proofs.Calendar
import Switchboard.Time.Reader

/-!
# Points in time on record

What the journal writes down for a point in time is read back as the same point in
time, leap seconds and fractions included, if its year has four digits. The texts of
other years begin with a sign, and are not read at all.
-/

namespace Switchboard

open Text

theorem Date.monthLength_le (year : Int) (month : Nat) : monthLength year month ≤ 31 := by
  unfold monthLength
  split_ifs <;> decide

/-! ## Digits -/

/-- Leading zeros add nothing to the number that digits write. -/
theorem Text.decimalValue_replicate_append (zeros : Nat) (ds : List Char) :
    decimalValue (List.replicate zeros '0' ++ ds) = decimalValue ds := by
  induction zeros with
  | zero => rfl
  | succ zeros ih => exact ih

/-- As many digits write no number of more digits. -/
theorem Text.decimalValue_lt {ds : List Char} (digits : ∀ c ∈ ds, c.isDigit = true) :
    decimalValue ds < 10 ^ ds.length := by
  induction ds using List.reverseRecOn with
  | nil => exact Nat.one_pos
  | append_singleton ds c ih =>
    have digit : c.toNat - '0'.toNat < 10 := by
      have := digits c (by simp)
      simp only [Char.isDigit, Bool.and_eq_true, decide_eq_true_eq, UInt32.le_iff_toNat_le] at this
      show c.val.toNat - 48 < 10
      have : c.val.toNat ≤ 57 := this.2
      omega
    have less := ih fun d hd => digits d (List.mem_append_left _ hd)
    have value : decimalValue (ds ++ [c]) = decimalValue ds * 10 + (c.toNat - '0'.toNat) :=
      List.foldl_append
    rw [value, List.length_append, List.length_singleton, Nat.pow_succ]
    omega

/-- What `number` reads where as many digits stand as it may take. -/
theorem Text.Piece.number_append {ds : List Char} (digits : ∀ c ∈ ds, c.isDigit = true)
    (rest : List Char) :
    number ds.length ds.length (ds ++ rest) = some (decimalValue ds, rest) := by
  have all : ds.takeWhile Char.isDigit = ds := List.takeWhile_eq_self_iff.mpr digits
  simp [number, all]

namespace Timestamp

theorem toList_digits (width n : Nat) : (digits width n).toList =
    List.replicate (width - (Nat.toDigits 10 n).length) '0' ++ Nat.toDigits 10 n := by
  have length : (Nat.repr n).length = (Nat.toDigits 10 n).length := by
    rw [← String.length_toList, Json.toList_repr]
  simp [digits, length]

theorem isDigit_of_mem_digits {width n : Nat} {c : Char} (h : c ∈ (digits width n).toList) :
    c.isDigit = true := by
  rw [toList_digits, List.mem_append] at h
  rcases h with zero | digit
  · rw [List.eq_of_mem_replicate zero]
    rfl
  · exact Json.isDigit_of_mem_toDigits digit

theorem decimalValue_digits (width n : Nat) : decimalValue (digits width n).toList = n := by
  rw [toList_digits, decimalValue_replicate_append, Json.decimalValue_toDigits]

/-- A number is written with as many digits as it is given, if they are enough. -/
theorem length_digits {width n : Nat} (pos : 0 < width) (lt : n < 10 ^ width) :
    (digits width n).toList.length = width := by
  have le : (Nat.toDigits 10 n).length ≤ width :=
    (Nat.length_toDigits_le_iff (by decide) pos).mpr lt
  rw [toList_digits, List.length_append, List.length_replicate]
  omega

/-- **A number is read back** from as many digits as it was given. -/
theorem number_digits {width n : Nat} (pos : 0 < width) (lt : n < 10 ^ width)
    (rest : List Char) :
    Piece.number width width ((digits width n).toList ++ rest) = some (n, rest) := by
  have digits : ∀ c ∈ (digits width n).toList, c.isDigit = true := fun _ => isDigit_of_mem_digits
  have h := Piece.number_append digits rest
  rwa [length_digits pos lt, decimalValue_digits] at h

/-! ## Years and fractions -/

/-- A year of four digits is read back. -/
theorem number_yearText {year : Int} (nonneg : 0 ≤ year) (le : year ≤ 9999) (rest : List Char) :
    Piece.number 4 4 ((yearText year).toList ++ rest) = some (year.toNat, rest) := by
  rw [yearText, if_neg (by omega), if_pos le]
  exact number_digits (by decide) (by omega) rest

/-- What `fraction` reads of a point and digits with a sign behind them. -/
theorem fraction_digits {width n nanos : Nat} (pos : 0 < width) (lt : n < 10 ^ width)
    (le : width ≤ 9) (back : n * 10 ^ (9 - width) = nanos) (rest : List Char) :
    fraction (("." ++ digits width n).toList ++ '+' :: rest) = some (nanos, '+' :: rest) := by
  have length := length_digits pos lt
  have all : ((digits width n).toList ++ '+' :: rest).takeWhile Char.isDigit =
      (digits width n).toList := by
    rw [List.takeWhile_append_of_pos fun _ => isDigit_of_mem_digits]
    simp
  have kept : (digits width n).toList.take 9 = (digits width n).toList :=
    List.take_of_length_le (by omega)
  have some : (digits width n).toList ≠ [] := List.ne_nil_of_length_pos (by omega)
  simp [fraction, all, kept, some, decimalValue_digits, length, back]

/-- **A fraction is read back** if a sign stands behind it. -/
theorem fraction_fractionText {nanos : Nat} (lt : nanos < nanosPerSecond) (rest : List Char) :
    fraction ((fractionText nanos).toList ++ '+' :: rest) = some (nanos, '+' :: rest) := by
  have bound : nanos < 1000000000 := lt
  unfold fractionText
  split_ifs with zero millis micros
  · rw [zero]
    rfl
  · exact fraction_digits (by decide) (by omega) (by decide)
      (Nat.div_mul_cancel (Nat.dvd_of_mod_eq_zero millis)) rest
  · exact fraction_digits (by decide) (by omega) (by decide)
      (Nat.div_mul_cancel (Nat.dvd_of_mod_eq_zero micros)) rest
  · exact fraction_digits (by decide) (by omega) (by decide) (Nat.mul_one nanos) rest

/-! ## Points in time -/

/-- **Whether a point in time exists**: a fraction runs on into a leap second only from the
last second of a minute. -/
def Exists (t : Timestamp) : Prop :=
  t.nanos < nanosPerSecond ∨ t.nanos < 2 * nanosPerSecond ∧ t.seconds % 60 = 59

instance (t : Timestamp) : Decidable t.Exists := by unfold Exists; infer_instance

/-- The year in which a point in time lies. -/
def year (t : Timestamp) : Int := (Date.ofDays (t.seconds / secondsPerDay)).year

/-- The second of the day in which a point in time lies. -/
def clock (t : Timestamp) : Nat := (t.seconds % secondsPerDay).toNat

/-- The parts that the text of a point in time names. -/
def parts (t : Timestamp) : Parts where
  date := Date.ofDays (t.seconds / secondsPerDay)
  hour := t.clock / 3600
  minute := t.clock / 60 % 60
  second := t.clock % 60 + if t.isLeap then 1 else 0
  nanos := if t.isLeap then t.nanos - nanosPerSecond else t.nanos
  offset := 0

/-- The days and the seconds of the last of them make up a point in time. -/
theorem days_clock (t : Timestamp) :
    t.seconds / secondsPerDay * secondsPerDay + t.clock = t.seconds := by
  show t.seconds / 86400 * 86400 + (t.seconds % 86400).toNat = t.seconds
  omega

theorem clock_lt (t : Timestamp) : t.clock < 86400 := by
  show (t.seconds % 86400).toNat < 86400
  omega

/-- A leap second comes at the end of a minute. -/
theorem clock_of_isLeap {t : Timestamp} (ex : t.Exists) (leap : t.isLeap = true) :
    t.clock % 60 = 59 := by
  have last : t.seconds % 60 = 59 := by
    rcases ex with whole | ⟨-, last⟩
    · exact absurd whole (Nat.not_lt.mpr (of_decide_eq_true leap))
    · exact last
  show (t.seconds % 86400).toNat % 60 = 59
  omega

/-- **A point in time has one second too many in its minute** exactly if it is a leap
second. -/
theorem second_parts {t : Timestamp} (ex : t.Exists) :
    t.parts.second = 60 ↔ t.isLeap = true := by
  have last := clock_of_isLeap ex
  show (t.clock % 60 + if t.isLeap then 1 else 0) = 60 ↔ _
  grind

theorem hour_parts_lt (t : Timestamp) : t.parts.hour < 24 := by
  have := t.clock_lt
  show t.clock / 3600 < 24
  omega

theorem minute_parts_lt (t : Timestamp) : t.parts.minute < 60 := Nat.mod_lt _ (by decide)

theorem second_parts_le (t : Timestamp) : t.parts.second ≤ 60 := by
  show (t.clock % 60 + if t.isLeap then 1 else 0) ≤ 60
  split <;> omega

theorem nanos_parts_lt {t : Timestamp} (ex : t.Exists) : t.parts.nanos < nanosPerSecond := by
  have leap : t.isLeap = true ↔ nanosPerSecond ≤ t.nanos := decide_eq_true_iff
  unfold Exists nanosPerSecond at *
  show (if t.isLeap then t.nanos - 1000000000 else t.nanos) < 1000000000
  grind

/-- A date that exists lies within the years covered if its year has four digits. -/
theorem bounds_toDays {d : Date} (ex : d.Exists) (nonneg : 0 ≤ d.year) (le : d.year ≤ 9999) :
    -800000 ≤ d.toDays ∧ d.toDays ≤ 3000000 := by
  obtain ⟨-, twelve, one, days⟩ := ex
  have length := Date.monthLength_le d.year d.month
  have start : Date.monthStart (if d.month ≤ 2 then d.month + 9 else d.month - 3) ≤ 400 := by
    unfold Date.monthStart
    split_ifs <;> omega
  simp only [Date.toDays, Date.eraLength, Date.epochShift]
  generalize Date.monthStart _ = start at *
  generalize hy : (if d.month ≤ 2 then d.year - 1 else d.year) = y
  have : -1 ≤ y ∧ y ≤ 9999 := by
    rw [← hy]
    split_ifs <;> omega
  constructor <;> omega

/-- **The parts of a point in time name it**, if its year has four digits. -/
theorem toTimestamp?_parts {t : Timestamp} (ex : t.Exists) (nonneg : 0 ≤ t.year)
    (le : t.year ≤ 9999) : t.parts.toTimestamp? = some t := by
  have lt := t.clock_lt
  have last := clock_of_isLeap ex
  have together := t.days_clock
  have date : t.parts.date.Exists := Date.exists_ofDays _
  have days : t.parts.date.toDays = t.seconds / secondsPerDay := Date.toDays_ofDays _
  have bounds := bounds_toDays date nonneg le
  have clock : t.parts.hour * 3600 + t.parts.minute * 60 +
      (if t.parts.second = 60 then 59 else t.parts.second) = t.clock := by
    simp only [second_parts ex]
    simp only [parts]
    split <;> grind
  have nanos : (if t.parts.second = 60 then t.parts.nanos + nanosPerSecond else t.parts.nanos) =
      t.nanos := by
    simp only [second_parts ex]
    simp only [parts]
    split
    · exact Nat.sub_add_cancel (of_decide_eq_true ‹t.isLeap = true›)
    · rfl
  have within : earliest ≤ t.seconds ∧ t.seconds ≤ latest := by
    rw [days] at bounds
    simp only [earliest, latest, secondsPerDay] at *
    omega
  simp only [Parts.toTimestamp?, days, clock, nanos, together, ofSeconds?]
  simp [date, t.hour_parts_lt, t.minute_parts_lt, t.second_parts_le, within,
    show t.parts.offset = 0 from rfl]

/-- The text of a point in time, as characters one after the other. -/
theorem toList_offsetText (t : Timestamp) : t.offsetText.toList =
    (yearText t.year).toList ++ '-' :: ((digits 2 t.parts.date.month).toList ++
      '-' :: ((digits 2 t.parts.date.day).toList ++ 'T' :: ((digits 2 t.parts.hour).toList ++
      ':' :: ((digits 2 t.parts.minute).toList ++ ':' :: ((digits 2 t.parts.second).toList ++
      ((fractionText t.parts.nanos).toList ++ '+' :: "00:00".toList)))))) := by
  simp [offsetText, textWith, dateText, clockText, year, parts, clock]

/-- **What is read of the text of a point in time are its parts**, if its year has four
digits. -/
theorem strictParts_offsetText {t : Timestamp} (ex : t.Exists) (nonneg : 0 ≤ t.year)
    (le : t.year ≤ 9999) : strictParts t.offsetText.toList = some (t.parts, []) := by
  obtain ⟨-, month, -, days⟩ : t.parts.date.Exists := Date.exists_ofDays _
  have day : t.parts.date.day < 100 :=
    Nat.lt_of_le_of_lt (days.trans (Date.monthLength_le _ _)) (by decide)
  have two {n : Nat} (lt : n < 100) (rest : List Char) :
      Piece.number 2 2 ((digits 2 n).toList ++ rest) = some (n, rest) :=
    number_digits (by decide) lt rest
  have hour := t.hour_parts_lt
  have minute := t.minute_parts_lt
  have second := t.second_parts_le
  have divided (rest : List Char) : divider ('T' :: rest) = some ((), rest) := rfl
  have universal : offset (Piece.mark ':') ('+' :: "00:00".toList) = some (0, []) := by decide
  have date : (⟨t.year.toNat, t.parts.date.month, t.parts.date.day⟩ : Date) = t.parts.date := by
    rw [Int.toNat_of_nonneg nonneg]
    rfl
  rw [toList_offsetText]
  simp only [strictParts, number_yearText nonneg le, two (show t.parts.date.month < 100 by omega),
    two day, two (show t.parts.hour < 100 by omega), two (show t.parts.minute < 100 by omega),
    two (show t.parts.second < 100 by omega), fraction_fractionText (nanos_parts_lt ex),
    Piece.mark, divided, universal, date, Option.bind_eq_bind, Option.bind_some, if_true]
  rfl

/-- **What the journal writes down for a point in time is read back** if its year has four
digits. -/
theorem ofRecord?_offsetText {t : Timestamp} (ex : t.Exists) (nonneg : 0 ≤ t.year)
    (le : t.year ≤ 9999) : ofRecord? t.offsetText = some t := by
  simp only [ofRecord?, strictParts_offsetText ex nonneg le]
  exact toTimestamp?_parts ex nonneg le

/-- **A point in time that is counted in milliseconds exists.** -/
theorem exists_of_ofMillis? {millis : Int} {t : Timestamp} (h : ofMillis? millis = some t) :
    t.Exists := by
  simp only [ofMillis?, ofSeconds?] at h
  split at h <;> simp only [Option.some.injEq, reduceCtorEq] at h
  subst h
  refine .inl ?_
  show (millis % 1000).toNat * 1000000 < 1000000000
  omega

/-- A fraction stays below a second. -/
theorem fraction_lt {cs rest : List Char} {nanos : Nat} (h : fraction cs = some (nanos, rest)) :
    nanos < nanosPerSecond := by
  unfold fraction at h
  split at h
  · rename_i cs
    simp only [Option.ite_none_left_eq_some, Option.some.injEq, Prod.mk.injEq] at h
    have kept : ((cs.takeWhile Char.isDigit).take 9).length ≤ 9 := List.length_take_le 9 _
    have digits : ∀ c ∈ (cs.takeWhile Char.isDigit).take 9, c.isDigit = true := fun c hc =>
      List.all_eq_true.mp List.all_takeWhile c (List.mem_of_mem_take hc)
    calc nanos
        = decimalValue ((cs.takeWhile Char.isDigit).take 9) *
            10 ^ (9 - ((cs.takeWhile Char.isDigit).take 9).length) := h.2.1.symm
      _ < 10 ^ ((cs.takeWhile Char.isDigit).take 9).length *
            10 ^ (9 - ((cs.takeWhile Char.isDigit).take 9).length) :=
          Nat.mul_lt_mul_of_pos_right (decimalValue_lt digits) (Nat.pow_pos (by decide))
      _ = 10 ^ 9 := by rw [← Nat.pow_add, Nat.add_sub_cancel' kept]
      _ = nanosPerSecond := rfl
  · simp only [Option.some.injEq, Prod.mk.injEq] at h
    rw [← h.1]
    decide

/-- A point in time that is named by parts exists. -/
theorem Parts.exists_of_toTimestamp? {p : Parts} {t : Timestamp} (lt : p.nanos < nanosPerSecond)
    (h : p.toTimestamp? = some t) : t.Exists := by
  simp only [Parts.toTimestamp?, Option.ite_none_right_eq_some, ofSeconds?, Option.some.injEq] at h
  obtain ⟨-, -, -, rfl⟩ := h
  by_cases leap : p.second = 60
  · refine .inr ⟨?_, ?_⟩
    · simp only [leap, if_true]
      omega
    · simp only [leap, if_true, secondsPerDay]
      omega
  · exact .inl (by simpa [leap] using lt)

/-- **A point in time that is read from the journal exists.** -/
theorem exists_of_ofRecord? {s : String} {t : Timestamp} (h : ofRecord? s = some t) : t.Exists := by
  unfold ofRecord? at h
  split at h
  · rename_i p read
    simp only [strictParts, Option.bind_eq_bind, Option.bind_eq_some_iff, Option.some.injEq,
      Prod.mk.injEq] at read
    -- the fraction is the twelfth piece that is read
    obtain ⟨_, _, _, _, _, _, _, _, _, _, _, _, _, _, _, _, _, _, _, _, _, _, _, fraction, _, _,
      rfl, _⟩ := read
    exact Parts.exists_of_toTimestamp? (fraction_lt fraction) h
  · contradiction

end Timestamp

end Switchboard
