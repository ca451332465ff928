/-
Module: Crum.Proofs.CullingOrder
Layer: Proofs
Purpose: The comparison in the DELETE statements of `cullDatabase` is chronological when `DATETIME` renders the
  local time of the row. `YYYY-MM-DD HH:MM:SS` is a code of fixed width for six fields, the fields compare as
  the seconds counted so far, and `timeSearch` is the text of the time of day of the call on the date before.
Imports: Crum.Lib.TextOrder, Crum.Proofs.CullingCalendar
Trusted boundary: none
Main exports: padded_code, LocalDateTime.keyText_le_iff, LocalDateTime.key_lt_iff,
  LocalDateTime.text_le_iff, timeSearch_eq, culling_chronological
Open obligations: none
-/
import Crum.Lib.TextOrder
import Crum.Proofs.CullingCalendar

namespace Crum

/-! ### Numbers of a fixed width -/

theorem digitChar_strictMonoOn : StrictMonoOn Nat.digitChar {r | r < 10} := by
  intro a ha b hb hab
  change a.digitChar.toNat < b.digitChar.toNat
  rw [Nat.toNat_digitChar_of_lt_ten ha, Nat.toNat_digitChar_of_lt_ten hb]
  exact Nat.add_lt_add_left hab 48

theorem digitChar_ne_dot {r : Nat} (hr : r < 10) : Nat.digitChar r ≠ '.' := by
  intro hdot
  have hcode := Nat.toNat_digitChar_of_lt_ten hr
  rw [hdot] at hcode
  have hcodeDot : '.'.toNat = 46 := rfl
  omega

theorem lastDigits_code (width : Nat) : OrderCode {n | n < 10 ^ width} width (lastDigits width) := by
  induction width with
  | zero =>
      constructor
      · intro n _
        rfl
      · intro a ha b hb
        have ha0 : a = 0 := by simpa using ha
        have hb0 : b = 0 := by simpa using hb
        simp [lastDigits, ha0, hb0]
  | succ width ih => exact ih.digit (by decide) digitChar_strictMonoOn

theorem dot_notMem_lastDigits (width n : Nat) : '.' ∉ lastDigits width n := by
  induction width generalizing n with
  | zero => simp [lastDigits]
  | succ width ih =>
      intro hdot
      rcases List.mem_append.mp hdot with hfront | hlast
      · exact ih _ hfront
      · exact digitChar_ne_dot (Nat.mod_lt n (by decide)) (List.mem_singleton.mp hlast).symm

theorem toNat_lt_pow {width : Nat} {n : Int} (h0 : 0 ≤ n) (h1 : n < 10 ^ width) : n.toNat < 10 ^ width := by
  have hcast : (n.toNat : Int) < ((10 ^ width : Nat) : Int) := by
    rw [Int.toNat_of_nonneg h0]
    exact_mod_cast h1
  exact_mod_cast hcast

theorem padded_eq_lastDigits {width : Nat} {n : Int} (h0 : 0 ≤ n) (h1 : n < 10 ^ width) :
    padded width n = lastDigits width n.toNat := by
  have habs : n.natAbs = n.toNat := by omega
  unfold padded
  simp only [if_neg (not_lt.mpr h0), habs, if_pos (toNat_lt_pow h0 h1)]

/-- Zero-padded numbers that fit compare as numbers. -/
theorem padded_code (width : Nat) :
    OrderCode {n : Int | 0 ≤ n ∧ n < 10 ^ width} width (padded width) := by
  have hdigits : OrderCode {n : Int | 0 ≤ n ∧ n < 10 ^ width} width fun n => lastDigits width n.toNat := by
    apply (lastDigits_code width).comap
    · intro n hn
      exact toNat_lt_pow hn.1 hn.2
    · intro a ha b _ hab
      exact (Int.toNat_lt_toNat (lt_of_le_of_lt ha.1 hab)).mpr hab
  apply hdigits.congr
  intro n hn
  exact padded_eq_lastDigits hn.1 hn.2

theorem dot_notMem_padded {width : Nat} {n : Int} (h0 : 0 ≤ n) (h1 : n < 10 ^ width) :
    '.' ∉ padded width n := by
  rw [padded_eq_lastDigits h0 h1]
  exact dot_notMem_lastDigits _ _

/-! ### The text of a local time -/

namespace LocalDateTime

variable {t u : LocalDateTime}

/-- The six fields, the first difference deciding. -/
def key (t : LocalDateTime) : ((((Int ×ₗ Int) ×ₗ Int) ×ₗ Int) ×ₗ Int) ×ₗ Int :=
  toLex (toLex (toLex (t.date.key, t.millisOfDay / 1000 / 3600), t.millisOfDay / 1000 / 60 % 60),
    t.millisOfDay / 1000 % 60)

/-- `YYYY-MM-DD HH:MM:SS` of a local time. -/
def text (t : LocalDateTime) : List Char := dateTimeText t.date (t.millisOfDay / 1000)

/-- The fields compare as the seconds counted so far. -/
theorem key_lt_iff : t.key < u.key ↔ t.seconds < u.seconds := by
  have hdate := CivilDate.Valid.dayNumber_lt_iff t.date_valid u.date_valid
  have hsame : t.date.key = u.date.key ↔ t.date.dayNumber = u.date.dayNumber := by
    rw [CivilDate.key_injective.eq_iff]
    exact ⟨congrArg _, CivilDate.Valid.eq_of_dayNumber t.date_valid u.date_valid⟩
  have htpos := t.millis_nonneg
  have hupos := u.millis_nonneg
  have htlt := t.millis_lt
  have hult := u.millis_lt
  unfold millisPerDay at htlt hult
  simp only [key, Prod.Lex.toLex_lt_toLex, toLex_inj, Prod.mk.injEq, ← hdate, hsame]
  unfold seconds
  omega

/-- The text as it is put together from the six fields. -/
def keyText (key : ((((Int ×ₗ Int) ×ₗ Int) ×ₗ Int) ×ₗ Int) ×ₗ Int) : List Char :=
  let minuteKey := (ofLex key).1
  let hourKey := (ofLex minuteKey).1
  let dateKey := (ofLex hourKey).1
  let monthKey := (ofLex dateKey).1
  padded 4 (ofLex monthKey).1 ++ '-' :: padded 2 (ofLex monthKey).2 ++ '-' :: padded 2 (ofLex dateKey).2 ++
    ' ' :: padded 2 (ofLex hourKey).2 ++ ':' :: padded 2 (ofLex minuteKey).2 ++ ':' :: padded 2 (ofLex key).2

theorem text_eq_keyText (t : LocalDateTime) : t.text = keyText t.key := rfl

/-- The year has four digits. -/
def FourDigitYear (t : LocalDateTime) : Prop := 0 ≤ t.date.year ∧ t.date.year ≤ 9999

/-- Every field fits its width. -/
theorem fields_fit (h : t.FourDigitYear) :
    (((((0 ≤ t.date.year ∧ t.date.year < 10 ^ 4) ∧ (0 ≤ t.date.month ∧ t.date.month < 10 ^ 2)) ∧
      (0 ≤ t.date.day ∧ t.date.day < 10 ^ 2)) ∧
      (0 ≤ t.millisOfDay / 1000 / 3600 ∧ t.millisOfDay / 1000 / 3600 < 10 ^ 2)) ∧
      (0 ≤ t.millisOfDay / 1000 / 60 % 60 ∧ t.millisOfDay / 1000 / 60 % 60 < 10 ^ 2)) ∧
      (0 ≤ t.millisOfDay / 1000 % 60 ∧ t.millisOfDay / 1000 % 60 < 10 ^ 2) := by
  have hvalid := t.date_valid
  have hlength := (daysInMonth_bounds t.date.year t.date.month).2
  have hpos := t.millis_nonneg
  have hlt := t.millis_lt
  unfold millisPerDay at hlt
  refine ⟨⟨⟨⟨⟨⟨h.1, ?_⟩, ?_⟩, ?_⟩, ?_⟩, ?_⟩, ?_⟩
  · exact lt_of_le_of_lt h.2 (by norm_num)
  · exact ⟨by linarith only [hvalid.month_pos], lt_of_le_of_lt hvalid.month_le (by norm_num)⟩
  · exact ⟨by linarith only [hvalid.day_pos], lt_of_le_of_lt (hvalid.day_le.trans hlength) (by norm_num)⟩
  all_goals
    clear hvalid hlength
    omega

theorem keyText_le_iff (ht : t.FourDigitYear) (hu : u.FourDigitYear) :
    keyText t.key ≤ keyText u.key ↔ t.key ≤ u.key := by
  have two := padded_code 2
  have hcode := (((((padded_code 4).append (two.cons '-')).append (two.cons '-')).append
    (two.cons ' ')).append (two.cons ':')).append (two.cons ':')
  exact hcode.le_iff (fields_fit ht) (fields_fit hu)

/-- Texts compare as local times truncated to the second. -/
theorem text_le_iff (ht : t.FourDigitYear) (hu : u.FourDigitYear) :
    String.ofList t.text ≤ String.ofList u.text ↔ t.NotLater u := by
  rw [String.le_iff_toList_le, String.toList_ofList, String.toList_ofList, text_eq_keyText,
    text_eq_keyText, keyText_le_iff ht hu, ← not_lt, key_lt_iff]
  exact not_lt

theorem dot_notMem_text (h : t.FourDigitYear) : '.' ∉ t.text := by
  rcases fields_fit h with ⟨⟨⟨⟨⟨hyear, hmonth⟩, hday⟩, hhour⟩, hminute⟩, hsecond⟩
  have hne : '.' ≠ '-' ∧ '.' ≠ ' ' ∧ '.' ≠ ':' := by decide
  simp only [text, dateTimeText, List.mem_append, List.mem_cons, not_or]
  exact ⟨⟨⟨⟨⟨dot_notMem_padded hyear.1 hyear.2, hne.1, dot_notMem_padded hmonth.1 hmonth.2⟩,
    hne.1, dot_notMem_padded hday.1 hday.2⟩, hne.2.1, dot_notMem_padded hhour.1 hhour.2⟩,
    hne.2.2, dot_notMem_padded hminute.1 hminute.2⟩, hne.2.2, dot_notMem_padded hsecond.1 hsecond.2⟩

theorem FourDigitYear.dayEarlier (h : t.FourDigitYear) (hfirst : 1 ≤ t.date.year) :
    t.dayEarlier.FourDigitYear := by
  have hyear : t.date.prev.year = t.date.year ∨ t.date.prev.year = t.date.year - 1 := by
    unfold CivilDate.prev
    split_ifs
    · exact Or.inl rfl
    · exact Or.inl rfl
    · exact Or.inr rfl
  have hlast := h.2
  unfold FourDigitYear LocalDateTime.dayEarlier
  dsimp only
  omega

end LocalDateTime

/-! ### The condition of the DELETE statements -/

theorem timestampText_eq (zone : Zone) (instant : Int) :
    timestampText zone instant =
      (zone.localDateTime instant).text ++ '.' :: fractionText (zone.wall instant % 1000) := rfl

/-- Splitting at the dot leaves the text of the cutoff without its fraction. -/
theorem timeSearch_eq {zone : Zone} {now : Int}
    (hyear : (zone.localDateTime (cutoff zone now)).FourDigitYear) :
    timeSearch zone now = String.ofList (zone.localDateTime (cutoff zone now)).text := by
  have htext : ∀ c ∈ (zone.localDateTime (cutoff zone now)).text, decide (c ≠ '.') = true := by
    intro c hc
    apply decide_eq_true
    intro hdot
    exact LocalDateTime.dot_notMem_text hyear (hdot ▸ hc)
  rw [timeSearch, timestampText_eq, List.takeWhile_append_of_pos htext,
    List.takeWhile_cons_of_neg (by simp), List.append_nil]

/-- The branch for day 0 is never taken, and a row is culled exactly if its local time, to the second, is not
later than the time of the call on the date before. -/
theorem culling_chronological {zone : Zone} {now : Int} {row : LocalDateTime} {datetime : Int → Option String}
    {stamp : Int} (hzone : zone.ReadsBack) (hsteady : zone.Steady (now - millisPerDay) now)
    (hnow : 1600 ≤ (zone.localDateTime now).date.year ∧ (zone.localDateTime now).date.year ≤ 9999)
    (hrow : 1600 ≤ row.date.year ∧ row.date.year ≤ 9999)
    (hrender : datetime stamp = some (String.ofList row.text)) :
    (Calendar.getInstance zone now).dayOfYear ≠ 0 ∧
      (datetimeCondition datetime stamp (timeSearch zone now) = some true ↔
        row.NotLater (zone.localDateTime now).dayEarlier) := by
  constructor
  · have hday := (dayOfYear_bounds zone now).1
    omega
  · have hcutoff := localDateTime_cutoff hzone hsteady
    have hyear : (zone.localDateTime now).dayEarlier.FourDigitYear := by
      apply LocalDateTime.FourDigitYear.dayEarlier
      · exact ⟨le_trans (by decide) hnow.1, hnow.2⟩
      · exact le_trans (by decide) hnow.1
    have hsearch : timeSearch zone now = String.ofList (zone.localDateTime now).dayEarlier.text := by
      rw [timeSearch_eq (hcutoff ▸ hyear), hcutoff]
    have hfour : row.FourDigitYear := ⟨le_trans (by decide) hrow.1, hrow.2⟩
    rw [datetimeCondition, hrender, hsearch, Option.map_some, Option.some_inj, decide_eq_true_iff]
    exact LocalDateTime.text_le_iff hfour hyear

/-- Called on 1 March 2020 at noon, half a second past, for a row of 29 February at noon, 0.999 s past. -/
theorem culling_after_leap_day :
    (Calendar.getInstance Zone.utc 1583064000500).dayOfYear ≠ 0 ∧
      (datetimeCondition (fun stamp => some (String.ofList (Zone.utc.localDateTime stamp).text)) 1582977600999
          (timeSearch Zone.utc 1583064000500) = some true ↔
        (Zone.utc.localDateTime 1582977600999).NotLater (Zone.utc.localDateTime 1583064000500).dayEarlier) :=
  culling_chronological Zone.utc_readsBack (Zone.utc_steady _ _) (by decide) (by decide) rfl

example : timeSearch Zone.utc 1583064000500 = "2020-02-29 12:00:00" := by decide

end Crum
