/-
Module: Crum.Proofs.Storage
Layer: Proofs
Purpose: How much the database holds. With the `DATETIME` of SQLite a run keeps every round it has ever
  collected, and it goes on exactly as long as no calendar value comes twice. If `DATETIME` rendered the
  stored instant in local time, as the query intends, the tables would be a sliding window of one day, with at
  most one round for each of its seconds.
Imports: Crum.Lib.SlidingWindow, Crum.Proofs.Progress, Crum.Proofs.Retention, Crum.Proofs.CullingOrder
Trusted boundary: none
Main exports: sqlite_completes_iff, sqlite_keeps_everything, LocalRendering, ForwardClock,
  lastDay, sliding_day
Open obligations: none
-/
import Crum.Lib.SlidingWindow
import Crum.Proofs.Progress
import Crum.Proofs.Retention
import Crum.Proofs.CullingOrder

namespace Crum

open SlidingWindow

variable {α : Type}

/-! ### `DATETIME` as SQLite has it -/

/-- The clock has passed the hours of 1970 whose milliseconds are Julian days. -/
def PastJulianDays (rounds : List (Round α)) : Prop := ∀ round ∈ rounds, 5373484 < round.calendar

instance (rounds : List (Round α)) : Decidable (PastJulianDays rounds) :=
  inferInstanceAs (Decidable (∀ round ∈ rounds, 5373484 < round.calendar))

/-- Nothing is ever culled. -/
theorem keptStamps_sqlite {platform : Platform} {rounds : List (Round α)}
    (hsql : platform.condition = datetimeCondition sqliteDatetime) (hclock : PastJulianDays rounds) :
    keptStamps platform rounds = rounds.map (·.calendar) := by
  induction rounds using List.reverseRecOn with
  | nil => rfl
  | append_singleton past round ih =>
      have hpast : PastJulianDays past := fun r hr => hclock r (List.mem_append_left _ hr)
      have hmap : past.map (·.calendar) ++ [round.calendar] = (past ++ [round]).map (·.calendar) := by simp
      rw [keptStamps_snoc, ih hpast, hmap, List.filter_eq_self]
      intro stamp hstamp
      rcases List.mem_map.mp hstamp with ⟨r, hr, rfl⟩
      rw [bne_iff_ne, Ne, judge, hsql, sqlite_condition_iff]
      intro htrue
      exact absurd htrue.1.2 (not_le.mpr (hclock r hr))

/-- Values are distinct when none of them has come before. -/
theorem nodup_map_iff_new {ι β : Type} {f : ι → β} {items : List ι} :
    (items.map f).Nodup ↔ ∀ past x rest, items = past ++ x :: rest → f x ∉ past.map f := by
  constructor
  · intro hnodup past x rest hsplit
    rw [hsplit, List.map_append, List.nodup_append] at hnodup
    intro hmem
    exact hnodup.2.2 (f x) hmem (f x) (by simp) rfl
  · intro hnew
    induction items using List.reverseRecOn with
    | nil => exact List.nodup_nil
    | append_singleton past x ih =>
        have hpast : (past.map f).Nodup := by
          apply ih
          intro front y rest hsplit
          exact hnew front y (rest ++ [x]) (by rw [hsplit]; simp)
        rw [List.map_append, List.map_singleton, ← List.concat_eq_append, List.nodup_concat]
        exact ⟨hnew past x [] rfl, hpast⟩

variable [JavaLong α]

/-- A run of the program as it is, with the same processors throughout, completes exactly when there is an
array entry for every disk, a disk for every file store, and no calendar value comes twice. -/
theorem sqlite_completes_iff {platform : Platform} {hw : Hardware α} {now : Int} {rounds : List (Round α)}
    {n : Nat} (hsql : platform.condition = datetimeCondition sqliteDatetime) (hclock : PastJulianDays rounds)
    (hoshi : LoadsPerProcessor platform.loadBetweenTicks) (hsteady : SteadyProcessors n hw rounds) :
    (∃ state, runMain platform hw now rounds = .ok state) ↔
      hw.disks.length ≤ hw.fileStores.length ∧
        (rounds ≠ [] → AllStoresMatched hw.fileStores hw.disks) ∧
        (rounds.map (·.calendar)).Nodup := by
  have hkept : ∀ past round rest, rounds = past ++ round :: rest →
      keptStamps platform past = past.map (·.calendar) := by
    intro past round rest hsplit
    apply keptStamps_sqlite hsql
    intro r hr
    exact hclock r (hsplit ▸ List.mem_append_left _ hr)
  rw [runMain_completes_iff, nodup_map_iff_new]
  constructor
  · rintro ⟨hbound, hall⟩
    refine ⟨hbound, ?_, ?_⟩
    · intro hne
      rcases List.exists_cons_of_ne_nil hne with ⟨round, rest, hsplit⟩
      exact (hall [] round rest hsplit).stores
    · intro past round rest hsplit
      rw [← hkept past round rest hsplit]
      exact (hall past round rest hsplit).stamp
  · rintro ⟨hbound, hstores, hnew⟩
    refine ⟨hbound, ?_⟩
    intro past round rest hsplit
    refine ⟨hstores (by rw [hsplit]; simp), ?_, hsteady.suffice hoshi hsplit⟩
    rw [hkept past round rest hsplit]
    exact hnew past round rest hsplit

/-- A first round on 20 April 2021 and a second one two days later. -/
def distantRounds : List (Round Int64) :=
  [smallRound 1618920001000 1618920001000 0, smallRound 1619092801000 1619092801000 0]

/-- On the small computer there is one processor throughout. -/
theorem smallComputer_steady {rounds : List (Round Int64)}
    (h : ∀ round ∈ rounds, ∃ calendar cullNow bytes, round = smallRound calendar cullNow bytes) :
    SteadyProcessors 1 smallComputer rounds where
  one_le := le_rfl
  first := by decide
  count round hround := by
    rcases h round hround with ⟨calendar, cullNow, bytes, rfl⟩
    rfl
  window_end round hround := by
    rcases h round hround with ⟨calendar, cullNow, bytes, rfl⟩
    exact (by decide : SampleOf 1 [idleTicks])
  next round hround := by
    rcases h round hround with ⟨calendar, cullNow, bytes, rfl⟩
    exact (by decide : SampleOf 1 [idleTicks])

theorem distantRounds_small : ∀ round ∈ distantRounds, ∃ calendar cullNow bytes,
    round = smallRound calendar cullNow bytes := by
  simp [distantRounds]

/-- The two rounds are completed, but not with a third one in the millisecond of the second. -/
theorem distant_rounds_complete :
    (∃ state, runMain utcPlatform smallComputer 1618920000000 distantRounds = .ok state) ∧
      ¬ ∃ state, runMain utcPlatform smallComputer 1618920000000
        (distantRounds ++ [smallRound 1619092801000 1619092802000 0]) = .ok state := by
  constructor
  · apply (sqlite_completes_iff rfl (by decide) (pairedLoads_perProcessor _)
      (smallComputer_steady distantRounds_small)).mpr
    decide
  · intro hrun
    have hnodup := (sqlite_completes_iff rfl (by decide) (pairedLoads_perProcessor _)
      (smallComputer_steady (by simp [distantRounds]))).mp hrun
    exact absurd hnodup.2.2 (by decide)

/-- The tables of the program as it is hold every round of the run: the stamps are those of all its rounds,
in DISC once for each file store. -/
theorem sqlite_keeps_everything {platform : Platform} {hw : Hardware α} {now : Int}
    {rounds : List (Round α)} {state : CrumState α}
    (hsql : platform.condition = datetimeCondition sqliteDatetime) (hclock : PastJulianDays rounds)
    (h : runMain platform hw now rounds = .ok state) :
    state.database.cpu.rows.map (·.timestamp) = rounds.map (·.calendar) ∧
      state.database.ram.rows.map (·.timestamp) = rounds.map (·.calendar) ∧
      state.database.network.rows.map (·.timestamp) = rounds.map (·.calendar) ∧
      state.database.disc.rows.map (fun row => (row.timestamp, row.discId)) =
        rounds.flatMap fun round =>
          (List.range hw.fileStores.length).map fun i => (round.calendar, i) := by
  rcases stored_stamps h with ⟨hcpu, hram, hnetwork, hdisc⟩
  rw [keptStamps_sqlite hsql hclock] at hcpu hram hnetwork hdisc
  refine ⟨hcpu, hram, hnetwork, ?_⟩
  rw [hdisc, List.flatMap_map]

/-- After two days the first round is still there. -/
theorem distant_rounds_kept :
    ∃ state, runMain utcPlatform smallComputer 1618920000000 distantRounds = .ok state ∧
      state.database.cpu.rows.map (·.timestamp) = [1618920001000, 1619092801000] ∧
      state.database.disc.rows.map (fun row => (row.timestamp, row.discId)) =
        [(1618920001000, 0), (1619092801000, 0)] := by
  obtain ⟨state, hrun⟩ := JavaRuntime.exists_of_isOk
    (by decide : (runMain utcPlatform smallComputer 1618920000000 distantRounds).isOk = true)
  rcases sqlite_keeps_everything rfl (by decide) hrun with ⟨hcpu, -, -, hdisc⟩
  exact ⟨state, hrun, hcpu, hdisc⟩

/-! ### `DATETIME` as the query intends it -/

/-- `DATETIME` renders the stored instant as `Timestamp.toString` renders the cutoff. -/
structure LocalRendering (platform : Platform) : Prop where
  condition_eq : platform.condition =
    datetimeCondition fun stamp => some (String.ofList (platform.zone.localDateTime stamp).text)
  reads_back : platform.zone.ReadsBack

/-- The second that the local clock shows at an instant. -/
def Zone.localSecond (zone : Zone) (instant : Int) : Int := zone.wall instant / 1000

theorem seconds_localDateTime (zone : Zone) (instant : Int) :
    (zone.localDateTime instant).seconds = zone.localSecond instant := by
  unfold LocalDateTime.seconds Zone.localDateTime Zone.localSecond
  simp only [dayNumber_civilDate, millisPerDay]
  omega

theorem LocalDateTime.seconds_dayEarlier (t : LocalDateTime) : t.dayEarlier.seconds = t.seconds - 86400 := by
  unfold LocalDateTime.seconds LocalDateTime.dayEarlier
  rw [t.date_valid.dayNumber_prev]
  ring

/-- The local clock of a run goes forward: by a second at least from round to round, as the program sleeps
for a second after each of them. -/
structure ForwardClock (zone : Zone) (rounds : List (Round α)) : Prop where
  years : ∀ round ∈ rounds, (zone.localDateTime round.calendar).FourDigitYear ∧
    (zone.localDateTime round.cullNow).FourDigitYear ∧ 1 ≤ (zone.localDateTime round.cullNow).date.year
  steady : ∀ round ∈ rounds, zone.Steady (round.cullNow - millisPerDay) round.cullNow
  culls_after : ∀ round ∈ rounds, zone.wall round.calendar ≤ zone.wall round.cullNow
  sleeps : rounds.Pairwise fun earlier later =>
    zone.wall earlier.cullNow + 1000 ≤ zone.wall later.calendar

omit [JavaLong α] in
/-- A culling goes by the age of the rounds. -/
theorem judge_iff {platform : Platform} {rounds : List (Round α)} (hrender : LocalRendering platform)
    (hclock : ForwardClock platform.zone rounds) {round row : Round α} (hround : round ∈ rounds)
    (hrow : row ∈ rounds) :
    judge platform round row.calendar = some true ↔
      platform.zone.localSecond row.calendar ≤ platform.zone.localSecond round.cullNow - 86400 := by
  have hcutoff := localDateTime_cutoff hrender.reads_back (hclock.steady round hround)
  rcases hclock.years round hround with ⟨-, hnow, hfirst⟩
  have hfour := hnow.dayEarlier hfirst
  rw [judge, hrender.condition_eq, timeSearch_eq (hcutoff ▸ hfour), hcutoff, datetimeCondition,
    Option.map_some, Option.some_inj, decide_eq_true_iff,
    LocalDateTime.text_le_iff (hclock.years row hrow).1 hfour, LocalDateTime.NotLater,
    LocalDateTime.seconds_dayEarlier, seconds_localDateTime, seconds_localDateTime]

omit [JavaLong α] in
/-- The kept stamps are those of a sliding window. -/
theorem keptStamps_window {platform : Platform} {rounds : List (Round α)}
    (hrender : LocalRendering platform) (hclock : ForwardClock platform.zone rounds) {past : List (Round α)}
    (hpast : past ⊆ rounds) :
    keptStamps platform past =
      (window (fun round => platform.zone.localSecond round.calendar)
        (fun round => platform.zone.localSecond round.cullNow - 86400) past).map (·.calendar) := by
  induction past using List.reverseRecOn with
  | nil => rfl
  | append_singleton past round ih =>
      have hround : round ∈ rounds := hpast (by simp)
      rw [keptStamps_snoc, ih fun r hr => hpast (List.mem_append_left _ hr), window_snoc,
        ← List.map_singleton, ← List.map_append, List.filter_map]
      congr 1
      apply List.filter_congr
      intro r hr
      have hr : r ∈ rounds := by
        rcases List.mem_append.mp hr with hr | hr
        · exact hpast (List.mem_append_left _ (mem_of_mem_window hr))
        · exact List.mem_singleton.mp hr ▸ hround
      have hiff := judge_iff hrender hclock hround hr
      rw [Function.comp_apply, Bool.eq_iff_iff, bne_iff_ne, Ne, hiff, not_le, decide_eq_true_iff]

omit [JavaLong α] in
theorem ForwardClock.levels {zone : Zone} {rounds : List (Round α)} (h : ForwardClock zone rounds) :
    rounds.Pairwise fun earlier later =>
      zone.localSecond earlier.calendar < zone.localSecond later.calendar := by
  refine h.sleeps.imp_of_mem ?_
  intro earlier later hearlier _ hsleep
  have hcull := h.culls_after earlier hearlier
  unfold Zone.localSecond
  omega

omit [JavaLong α] in
theorem ForwardClock.thresholds {zone : Zone} {rounds : List (Round α)} (h : ForwardClock zone rounds) :
    rounds.Pairwise fun earlier later =>
      zone.localSecond earlier.cullNow - 86400 ≤ zone.localSecond later.cullNow - 86400 := by
  refine h.sleeps.imp_of_mem ?_
  intro earlier later _ hlater hsleep
  have hcull := h.culls_after later hlater
  unfold Zone.localSecond
  omega

/-- The rounds of the day before the last culling. -/
def lastDay (zone : Zone) (past : List (Round α)) (last : Round α) : List (Round α) :=
  (past ++ [last]).filter fun round =>
    zone.localSecond last.cullNow - 86400 < zone.localSecond round.calendar

/-- With that rendering the tables hold, after every round of a run, exactly the rounds of the last day:
they are the last ones of the run, and never more than one for each of the seconds of a day. -/
theorem sliding_day {platform : Platform} {hw : Hardware α} {now : Int} (past : List (Round α))
    (last : Round α) {state : CrumState α} (hrender : LocalRendering platform)
    (hclock : ForwardClock platform.zone (past ++ [last]))
    (h : runMain platform hw now (past ++ [last]) = .ok state) :
    (state.database.cpu.rows.map (·.timestamp) = (lastDay platform.zone past last).map (·.calendar) ∧
      state.database.ram.rows.map (·.timestamp) = (lastDay platform.zone past last).map (·.calendar) ∧
      state.database.network.rows.map (·.timestamp) = (lastDay platform.zone past last).map (·.calendar) ∧
      state.database.disc.rows.map (fun row => (row.timestamp, row.discId)) =
        (lastDay platform.zone past last).flatMap fun round =>
          (List.range hw.fileStores.length).map fun i => (round.calendar, i)) ∧
      lastDay platform.zone past last <:+ past ++ [last] ∧
      (lastDay platform.zone past last).length ≤ 86400 := by
  have hday : window (fun round => platform.zone.localSecond round.calendar)
      (fun round => platform.zone.localSecond round.cullNow - 86400) (past ++ [last]) =
      lastDay platform.zone past last := window_eq_filter hclock.thresholds
  refine ⟨?_, ?_, ?_⟩
  · rcases stored_stamps h with ⟨hcpu, hram, hnetwork, hdisc⟩
    rw [keptStamps_window hrender hclock (List.Subset.refl _), hday] at hcpu hram hnetwork hdisc
    refine ⟨hcpu, hram, hnetwork, ?_⟩
    rw [hdisc, List.flatMap_map]
  · rw [← hday]
    exact window_suffix hclock.thresholds (hclock.levels.imp le_of_lt)
  · rw [← hday]
    apply length_window_le hclock.thresholds hclock.levels
    have hcull := hclock.culls_after last (by simp)
    unfold Zone.localSecond
    push_cast
    omega

/-- UTC, with a `DATETIME` that renders milliseconds. -/
def localPlatform : Platform where
  zone := .utc
  condition := datetimeCondition fun stamp => some (String.ofList (Zone.utc.localDateTime stamp).text)
  loadBetweenTicks := pairedLoads fun _ _ => 0

theorem distant_rounds_forward : ForwardClock Zone.utc distantRounds where
  years := by
    unfold LocalDateTime.FourDigitYear
    decide
  steady _ _ := Zone.utc_steady _ _
  culls_after := by decide
  sleeps := by decide

/-- After two days only the second round is left, in every table. -/
theorem distant_rounds_culled :
    ∃ state, runMain localPlatform smallComputer 1618920000000 distantRounds = .ok state ∧
      state.database.ram.rows.map (·.timestamp) = [1619092801000] ∧
      state.database.disc.rows.map (fun row => (row.timestamp, row.discId)) = [(1619092801000, 0)] := by
  obtain ⟨state, hrun⟩ := JavaRuntime.exists_of_isOk
    (by decide : (runMain localPlatform smallComputer 1618920000000 distantRounds).isOk = true)
  have hday := sliding_day [smallRound 1618920001000 1618920001000 0]
    (smallRound 1619092801000 1619092801000 0) ⟨rfl, Zone.utc_readsBack⟩ distant_rounds_forward hrun
  rcases hday with ⟨⟨-, hram, -, hdisc⟩, -, -⟩
  refine ⟨state, hrun, ?_, ?_⟩
  · rw [hram]
    decide
  · rw [hdisc]
    decide

end Crum
