import CohortAnalytics.Time.Timestamp
import CohortAnalytics.Proofs.Time.Conversion
import CohortAnalytics.Proofs.Time.Written

/-!
What is written of a moment can be read: the text leads back to the reading of the clock and to its
offset, of which less than a second is lost.
-/

namespace CohortAnalytics

namespace Instant

theorem of_mem_twoDigits {p : Char → Prop} (h : ∀ d < 10, p (Nat.digitChar d)) {n : ℕ} :
    ∀ c ∈ twoDigits n, p c := by
  simp only [twoDigits, List.forall_mem_cons, List.not_mem_nil, false_imp_iff, implies_true,
    and_true]
  exact ⟨h _ (Nat.mod_lt _ (by omega)), h _ (Nat.mod_lt _ (by omega))⟩

theorem of_mem_fractionText {p : Char → Prop} (h : ∀ d < 10, p (Nat.digitChar d)) (hpoint : p '.')
    {micro : ℕ} : ∀ c ∈ fractionText micro, p c := by
  rw [fractionText]
  split_ifs
  · simp
  · simp only [sixDigits, List.forall_mem_cons, List.forall_mem_append]
    exact ⟨hpoint, ⟨of_mem_twoDigits h, of_mem_twoDigits h⟩, of_mem_twoDigits h⟩

theorem of_mem_clockText {p : Char → Prop} (h : ∀ d < 10, p (Nat.digitChar d)) (hpoint : p '.')
    (hcolon : p ':') {micros : ℕ} : ∀ c ∈ clockText micros, p c := by
  simp only [clockText, List.forall_mem_append, List.forall_mem_cons]
  exact ⟨⟨⟨of_mem_twoDigits h, hcolon, of_mem_twoDigits h⟩, hcolon, of_mem_twoDigits h⟩,
    of_mem_fractionText h hpoint⟩

theorem of_mem_dateText {p : Char → Prop} (h : ∀ d < 10, p (Nat.digitChar d)) (hminus : p '-')
    {d : Date} : ∀ c ∈ dateText d, p c := by
  simp only [dateText, List.forall_mem_append, List.forall_mem_cons]
  exact ⟨⟨⟨of_mem_twoDigits h, of_mem_twoDigits h⟩, hminus, of_mem_twoDigits h⟩, hminus,
    of_mem_twoDigits h⟩

theorem date_isProper (t : Instant) : t.date.IsProper := Date.ofNumber_isProper t.day_lt

theorem ofMicros?_micros (t : Instant) : ofMicros? t.micros = some t := by
  rw [ofMicros?, dif_pos ⟨Int.natCast_nonneg _, t.inRange⟩]
  rfl

end Instant

namespace Iso

open Instant

theorem asciiDigit?_digitChar : ∀ d < 10, asciiDigit? (Nat.digitChar d) = some d := by decide

theorem go_twoDigits (count m n : ℕ) (rest : List Char) :
    digits?.go (count + 2) m (twoDigits n ++ rest) = digits?.go count (100 * m + n % 100) rest := by
  have htens := asciiDigit?_digitChar (n / 10 % 10) (by omega)
  have hones := asciiDigit?_digitChar (n % 10) (by omega)
  simp only [twoDigits, List.cons_append, List.nil_append, digits?.go, htens, hones]
  congr 1
  omega

theorem digits?_two (n : ℕ) (rest : List Char) :
    digits? 2 (twoDigits n ++ rest) = some (n % 100, rest) := by
  rw [digits?, go_twoDigits, Nat.mul_zero, Nat.zero_add]
  rfl

theorem digits?_four {n : ℕ} (h : n ≤ 9999) (rest : List Char) :
    digits? 4 (twoDigits (n / 100) ++ (twoDigits n ++ rest)) = some (n, rest) := by
  rw [digits?, go_twoDigits, go_twoDigits]
  exact congrArg (fun m => some (m, rest)) (by omega)

theorem digits?_six {n : ℕ} (h : n < 1000000) : digits? 6 (sixDigits n) = some (n, []) := by
  have hsix : sixDigits n =
      twoDigits (n / 10000) ++ (twoDigits (n / 100) ++ (twoDigits n ++ [])) := by
    simp [sixDigits]
  rw [hsix, digits?, go_twoDigits, go_twoDigits, go_twoDigits]
  exact congrArg (fun m => some (m, [])) (by omega)

theorem fraction?_sixDigits (parts : List ℕ) {n : ℕ} (h : n < 1000000) :
    fraction? parts (sixDigits n) = some (.ofParts parts n true) := by
  rw [fraction?, show min 6 (sixDigits n).length = 6 from rfl, digits?_six h]
  simp [atEnd]

theorem parts?_last (turns n : ℕ) (colons : Option Bool) (found : List ℕ) :
    parts? (turns + 1) colons found (twoDigits n) =
      some (.ofParts (found ++ [n % 100]) 0 true) := by
  have hread := digits?_two n []
  rw [List.append_nil] at hread
  simp only [parts?, hread, bind, Option.bind]

theorem parts?_colon (turns n : ℕ) {colons : Option Bool} (hcolons : colons.getD true = true)
    (found : List ℕ) {more : List Char} (hmore : more ≠ []) :
    parts? (turns + 1) colons found (twoDigits n ++ ':' :: more) =
      parts? turns (some true) (found ++ [n % 100]) more := by
  obtain ⟨c, cs, rfl⟩ := List.exists_cons_of_ne_nil hmore
  simp [parts?, digits?_two, hcolons]

theorem parts?_point (turns n : ℕ) (found : List ℕ) {more : List Char} (hmore : more ≠ []) :
    parts? (turns + 1) (some true) found (twoDigits n ++ '.' :: more) =
      fraction? (found ++ [n % 100]) more := by
  obtain ⟨c, cs, rfl⟩ := List.exists_cons_of_ne_nil hmore
  simp [parts?, digits?_two]

theorem parts?_seconds (turns n : ℕ) (found : List ℕ) {micro : ℕ} (h : micro < 1000000) :
    parts? (turns + 1) (some true) found (twoDigits n ++ fractionText micro) =
      some (.ofParts (found ++ [n % 100]) micro true) := by
  rw [fractionText]
  split_ifs with hzero
  · rw [List.append_nil, parts?_last, hzero]
  · rw [parts?_point _ _ _ (by simp [sixDigits, twoDigits]), fraction?_sixDigits _ h]

theorem parts?_clock {hours minutes seconds micro : ℕ} (hhours : hours < 100)
    (hminutes : minutes < 100) (hseconds : seconds < 100) (hmicro : micro < microsPerSecond) :
    parts? 3 none [] (twoDigits hours ++ ':' :: (twoDigits minutes ++
        ':' :: (twoDigits seconds ++ fractionText micro))) =
      some ⟨hours, minutes, seconds, micro, true⟩ := by
  rw [parts?_colon _ _ rfl _ (by simp [twoDigits]), parts?_colon _ _ rfl _ (by simp [twoDigits]),
    parts?_seconds _ _ _ hmicro, Nat.mod_eq_of_lt hhours, Nat.mod_eq_of_lt hminutes,
    Nat.mod_eq_of_lt hseconds]
  rfl

theorem parts?_short {hours minutes : ℕ} (hhours : hours < 100) (hminutes : minutes < 100) :
    parts? 3 none [] (twoDigits hours ++ ':' :: twoDigits minutes) =
      some ⟨hours, minutes, 0, 0, true⟩ := by
  rw [parts?_colon _ _ rfl _ (by simp [twoDigits]), parts?_last, Nat.mod_eq_of_lt hhours,
    Nat.mod_eq_of_lt hminutes]
  rfl

def clockParts (micros : ℕ) : ClockParts :=
  let seconds := micros / microsPerSecond
  ⟨seconds / 3600, seconds / 60 % 60, seconds % 60, micros % microsPerSecond, true⟩

theorem seconds_lt {micros : ℕ} (h : micros < microsPerDay) : micros / microsPerSecond < 86400 :=
  Nat.div_lt_of_lt_mul (by rwa [Nat.mul_comm])

theorem seconds_eq (seconds : ℕ) :
    seconds / 3600 * 3600 + seconds / 60 % 60 * 60 + seconds % 60 = seconds := by omega

theorem parts?_clockText {micros : ℕ} (h : micros < microsPerDay) :
    parts? 3 none [] (clockText micros) = some (clockParts micros) := by
  have hseconds := seconds_lt h
  simp only [clockText, List.append_assoc, List.cons_append]
  exact parts?_clock (by omega) (by omega) (by omega) (Nat.mod_lt _ (by decide))

theorem checkClock_clockParts {micros : ℕ} (h : micros < microsPerDay) :
    checkClock (clockParts micros) = .ok micros := by
  have hseconds := seconds_lt h
  simp only [checkClock, clockParts, ClockParts.seconds, seconds_eq]
  rw [if_neg (by omega), if_neg (by omega), if_neg (by omega), Nat.div_add_mod']

end Iso

namespace Stamp

open Iso Instant

/-- The offset as a reader of its text has it: less than a second counts as none. -/
def readOffset (offset : ℤ) : ℤ := if offset.natAbs < microsPerSecond then 0 else offset

/-- The moment as a reader of its text has it. -/
def asRead (s : Stamp) : Stamp := ⟨s.wall, s.offset.map readOffset⟩

/-- Hours, minutes and seconds of an offset, without its sign. -/
def offsetClock (offset : ℤ) : List Char := (offsetText offset).tail

theorem parts?_offsetClock {offset : ℤ} (h : offset.natAbs < microsPerDay) :
    ∃ z, parts? 3 none [] (offsetClock offset) = some z ∧ z.clean = true ∧
      z.seconds = offset.natAbs / microsPerSecond ∧ z.micro = offset.natAbs % microsPerSecond := by
  have hseconds := seconds_lt h
  simp only [offsetClock, offsetText, List.cons_append, List.tail_cons, List.append_assoc]
  generalize offset.natAbs = n at hseconds ⊢
  by_cases hwhole : n % (60 * microsPerSecond) = 0
  · have hrest : n / microsPerSecond % 60 = 0 ∧ n % microsPerSecond = 0 := by
      simp only [microsPerSecond] at hwhole ⊢
      omega
    rw [if_pos hwhole, List.append_nil]
    refine ⟨_, parts?_short (by omega) (by omega), rfl, ?_, hrest.2.symm⟩
    have hsum := seconds_eq (n / microsPerSecond)
    rw [hrest.1] at hsum
    exact hsum
  · rw [if_neg hwhole]
    exact ⟨_, parts?_clock (by omega) (by omega) (by omega) (Nat.mod_lt _ (by decide)), rfl,
      seconds_eq _, rfl⟩

/-- Seconds and the rest under a sign; without a second there is no rest either. -/
theorem signed_eq_readOffset (offset : ℤ) :
    (if (if offset < 0 then '-' else '+') = '-' then
        -(if offset.natAbs / microsPerSecond = 0 then (0 : ℤ)
          else (offset.natAbs / microsPerSecond : ℕ) * microsPerSecond +
            (offset.natAbs % microsPerSecond : ℕ))
      else if offset.natAbs / microsPerSecond = 0 then 0
      else (offset.natAbs / microsPerSecond : ℕ) * microsPerSecond +
        (offset.natAbs % microsPerSecond : ℕ)) = readOffset offset := by
  have hwhole : ((offset.natAbs / microsPerSecond : ℕ) : ℤ) * microsPerSecond +
      (offset.natAbs % microsPerSecond : ℕ) = offset.natAbs := by
    exact_mod_cast Nat.div_add_mod' _ _
  rw [hwhole, readOffset]
  by_cases hsmall : offset.natAbs < microsPerSecond
  · simp [Nat.div_eq_of_lt hsmall, hsmall]
  · have hpos : offset.natAbs / microsPerSecond ≠ 0 :=
      (Nat.div_pos (not_lt.mp hsmall) (by decide)).ne'
    rw [if_neg hpos, if_neg hsmall]
    by_cases hneg : offset < 0
    · rw [if_pos hneg, if_pos rfl]
      omega
    · rw [if_neg hneg, if_neg (by decide)]
      omega

theorem of_mem_offsetText {p : Char → Prop} (h : ∀ d < 10, p (Nat.digitChar d)) (hpoint : p '.')
    (hcolon : p ':') (hminus : p '-') (hplus : p '+') {offset : ℤ} :
    ∀ c ∈ offsetText offset, p c := by
  have hrest : ∀ c ∈ (if offset.natAbs % (60 * microsPerSecond) = 0 then []
      else ':' :: twoDigits (offset.natAbs / microsPerSecond % 60) ++
        fractionText (offset.natAbs % microsPerSecond)), p c := by
    split_ifs
    · simp
    · simp only [List.forall_mem_append, List.forall_mem_cons]
      exact ⟨⟨hcolon, of_mem_twoDigits h⟩, of_mem_fractionText h hpoint⟩
  simp only [offsetText, List.forall_mem_append, List.forall_mem_cons]
  refine ⟨⟨?_, of_mem_twoDigits h, hcolon, of_mem_twoDigits h⟩, hrest⟩
  split_ifs
  · exact hminus
  · exact hplus

end Stamp

namespace Iso

open Instant Stamp

def zoneText (offset : Option ℤ) : List Char := (offset.map offsetText).getD []

theorem isSign_of_mem_clockText {micros : ℕ} : ∀ c ∈ clockText micros, (!isSign c) = true :=
  of_mem_clockText (p := fun c => (!isSign c) = true) (by decide) rfl rfl

theorem clock?_write {micros : ℕ} (hmicros : micros < microsPerDay) {offset : Option ℤ}
    (hoffset : ∀ o ∈ offset, o.natAbs < microsPerDay) :
    clock? (clockText micros ++ zoneText offset) =
      some (clockParts micros, offset.map readOffset) := by
  rw [clock?, List.takeWhile_append_of_pos isSign_of_mem_clockText,
    List.dropWhile_append_of_pos isSign_of_mem_clockText]
  cases offset with
  | none => simp [zoneText, parts?_clockText hmicros, clockParts]
  | some o =>
    obtain ⟨z, hz, hclean, hseconds, hmicro⟩ := parts?_offsetClock (hoffset o rfl)
    have hsign : isSign (if o < 0 then '-' else '+') = true := by split_ifs <;> rfl
    have hzone : zoneText (some o) = (if o < 0 then '-' else '+') :: offsetClock o := rfl
    rw [hzone, List.takeWhile_cons_of_neg (by simp [hsign]), List.append_nil,
      List.dropWhile_cons_of_neg (by simp [hsign]), parts?_clockText hmicros]
    simp only [bind, Option.bind, hz, hclean, if_true, hseconds, hmicro]
    rw [signed_eq_readOffset, Option.map_some]

theorem dateParts?_dateText {d : Date} (h : d.IsProper) :
    dateParts? (dateText d) = some ⟨d.year, d.month, d.day⟩ := by
  have hmonths := h.month_le
  have hdays := h.day_le.trans (Date.daysInMonth_le _ _)
  have hyear := digits?_four h.year_le ('-' :: (twoDigits d.month ++ '-' :: twoDigits d.day))
  have hmonth := digits?_two d.month ('-' :: twoDigits d.day)
  have hday := digits?_two d.day []
  rw [Nat.mod_eq_of_lt (by omega)] at hmonth
  rw [Nat.mod_eq_of_lt (by omega), List.append_nil] at hday
  have hweek : ((twoDigits d.month ++ '-' :: twoDigits d.day).head? == some 'W') = false := by
    simp [twoDigits, Nat.digitChar_ne]
  simp only [dateParts?, dateText, List.append_assoc, List.cons_append, bind, Option.bind, hyear,
    List.head?_cons, beq_self_eq_true, if_true, List.tail_cons, hweek, hmonth, hday]
  simp

theorem checkDate_of_isProper {d : Date} (h : d.IsProper) :
    checkDate ⟨d.year, d.month, d.day⟩ = .ok d := by
  obtain ⟨hyear, hyears, hmonth, hmonths, hday, hdays⟩ := h
  simp only [checkDate, Int.toNat_natCast]
  rw [if_neg (by omega), if_neg (by omega), if_neg (by omega)]

theorem dateLength?_dateText (d : Date) (rest : List Char) :
    dateLength? (dateText d ++ rest) = some 10 := by
  have hlength : (dateText d ++ rest).length = 10 + rest.length := by
    rw [List.length_append]
    rfl
  have hminus : (dateText d ++ rest)[4]? = some '-' := by simp [dateText, twoDigits]
  have hdigit : (dateText d ++ rest)[5]? ≠ some 'W' := by
    simp [dateText, twoDigits, Nat.digitChar_ne]
  simp only [dateLength?]
  rw [if_neg (by omega), if_pos hminus, if_neg hdigit]

theorem assemble_date (t : Instant) {offset : Option ℤ} (hoffset : checkOffset offset = .ok ()) :
    assemble ⟨t.date.year, t.date.month, t.date.day⟩ (clockParts (t.micros % microsPerDay)) offset =
      .ok ⟨t, offset⟩ := by
  have hclock := checkClock_clockParts (Nat.mod_lt t.micros (show 0 < microsPerDay by decide))
  have hmicros : t.date.number * microsPerDay + t.micros % microsPerDay = t.micros := by
    rw [Instant.date, Date.number_ofNumber]
    exact Nat.div_add_mod' _ _
  have hfound := t.ofMicros?_micros
  rw [← hmicros, Int.natCast_add, Int.natCast_mul] at hfound
  rw [assemble, ok_bind hoffset, ok_bind (checkDate_of_isProper t.date_isProper), ok_bind hclock,
    hfound]

theorem checkOffset_readOffset {offset : Option ℤ}
    (h : ∀ o ∈ offset, o.natAbs < microsPerDay) : checkOffset (offset.map readOffset) = .ok () := by
  cases offset with
  | none => rfl
  | some o =>
    have ho := h o rfl
    simp only [Option.map_some, checkOffset, readOffset]
    split_ifs with hsmall hzero hlarge
    · exact absurd hzero (by decide)
    · rfl
    · omega
    · rfl

/-- The text of a moment leads back to its clock and its offset. -/
theorem read_isoText {s : Stamp} (h : ∀ o ∈ s.offset, o.natAbs < microsPerDay) :
    read s.isoText.toList = .ok s.asRead := by
  have htext : s.isoText.toList = dateText s.wall.date ++
      'T' :: (clockText (s.wall.micros % microsPerDay) ++ zoneText s.offset) := by
    simp [Stamp.isoText, Instant.write, zoneText]
  have hlength : (dateText s.wall.date).length = 10 := rfl
  have hclock := clock?_write (Nat.mod_lt s.wall.micros (show 0 < microsPerDay by decide)) h
  rw [htext, read, if_neg (by rw [List.length_append, hlength]; omega)]
  simp only [bind, Option.bind, dateLength?_dateText, List.take_left' hlength,
    List.drop_left' hlength, dateParts?_dateText s.wall.date_isProper, timeText?, hclock, pure]
  exact assemble_date _ (checkOffset_readOffset h)

end Iso

namespace Stamp

open Instant

theorem spellOffset_eq_self {cs : List Char} (h : ∀ c ∈ cs, c ≠ 'Z') : spellOffset cs = cs := by
  induction cs with
  | nil => rfl
  | cons c cs ih =>
    rw [List.forall_mem_cons] at h
    rw [spellOffset, List.flatMap_cons, if_neg h.1]
    exact congrArg (c :: ·) (ih h.2)

theorem spellOffset_append (cs ds : List Char) :
    spellOffset (cs ++ ds) = spellOffset cs ++ spellOffset ds := List.flatMap_append

/-- Spelled out, the two texts of a moment are one. -/
theorem spellOffset_zuluText (s : Stamp) : spellOffset s.zuluText.toList = s.isoText.toList := by
  have hdigit : ∀ d < 10, Nat.digitChar d ≠ 'Z' := by decide
  have hwall : ∀ c ∈ s.wall.write 'T', c ≠ 'Z' := by
    simp only [Instant.write, List.forall_mem_append, List.forall_mem_cons]
    exact ⟨of_mem_dateText hdigit (by decide), by decide,
      of_mem_clockText hdigit (by decide) (by decide)⟩
  rw [zuluText, isoText, String.toList_ofList, String.toList_ofList, spellOffset_append,
    spellOffset_eq_self hwall]
  congr 1
  split
  · next hnone => rw [hnone]; rfl
  · next hzero => rw [hzero]; rfl
  · next offset _ hsome =>
    rw [hsome]
    exact spellOffset_eq_self
      (of_mem_offsetText hdigit (by decide) (by decide) (by decide) (by decide))

theorem not_leavesCalendar_asRead {s : Stamp} (h : ¬s.LeavesCalendar) :
    ¬s.asRead.LeavesCalendar := by
  have hwall := s.wall.inRange
  cases hoffset : s.offset with
  | none => simpa [LeavesCalendar, asRead, hoffset] using h
  | some o =>
    by_cases hsmall : o.natAbs < microsPerSecond
    · simp only [LeavesCalendar, asRead, hoffset, Option.map_some, Option.getD_some, readOffset,
        if_pos hsmall]
      omega
    · simpa [LeavesCalendar, asRead, hoffset, readOffset, hsmall] using h

end Stamp

end CohortAnalytics
