import FloorHeating.App
import FloorHeating.TimeAxis
import FloorHeating.Lib.Spans

/-! # The chart (`app.html`)

    `loadHistory` draws the history document over the last 24 hours: shaded
    columns where the pump was on, and a line for the temperature.  Both go
    over the samples once, and what they find are the maximal runs of those
    with the pump on and of those with a reading (`Lib/Spans.lean`).

    * `chart_line_drawn`: one stroke of the line for each run of readings,
      and nothing outside the frame.
    * `chart_shades_pump`: the columns are where the pump was on, in real
      time, as far as the time axis is right; but without any reading, or
      before the first status, nothing at all is drawn.

    Source: `loadHistory` (`app.html`).  Numbers are exact rationals. -/

namespace FloorHeating

open LTS Json Periodic Spans

/-! ## The document as the app has it -/

/-- The fields of `h` that the chart is made of. -/
structure HistoryJson where
  period_s : Int
  newest_age_s : Int
  t : List (Option Int)
  p : CStr
  deriving DecidableEq, Repr

/-- An item of `h.t`. -/
def json_temp : Value → Option (Option Int)
  | .null => some none
  | .number n => some (some n)
  | _ => none

/-- The document of the handler, as the app's `h`. -/
def history_json (document : Value) : Option HistoryJson :=
  match value_of "period_s".toList document, value_of "newest_age_s".toList document,
    value_of "t".toList document, value_of "p".toList document with
  | some (.number period_s), some (.number newest_age_s), some (.array t), some (.string p) =>
    (t.mapM json_temp).map fun t => ⟨period_s, newest_age_s, t, p.val⟩
  | _, _, _, _ => none

/-- A stored temperature as the app has it. -/
def shown_temp (t : Int16) : Option Int := if t = HISTORY_NO_READING then none else some t.toInt

theorem history_json_document (newest newest_age : Int64) (temps : List Int16)
    (pump : List Bool) :
    history_json (history_document newest newest_age temps pump) =
      some ⟨HISTORY_PERIOD_S, newest_age.toInt, temps.map shown_temp, pump.map pump_char⟩ := by
  have hitem : ∀ t, json_temp (reading_value t) = some (shown_temp t) := by
    intro t
    unfold reading_value shown_temp
    split <;> rfl
  have htemps : (temps.map reading_value).mapM json_temp = some (temps.map shown_temp) := by
    induction temps with
    | nil => simp
    | cons t temps ih => simp [hitem, ih]
  have hperiod : value_of "period_s".toList (history_document newest newest_age temps pump) =
      some (.number HISTORY_PERIOD_S) := rfl
  have hage : value_of "newest_age_s".toList (history_document newest newest_age temps pump) =
      some (.number newest_age.toInt) := rfl
  have ht : value_of "t".toList (history_document newest newest_age temps pump) =
      some (.array (temps.map reading_value)) := rfl
  have hp : value_of "p".toList (history_document newest newest_age temps pump) =
      some (.string (pump_text pump)) := rfl
  unfold history_json
  simp only [hperiod, hage, ht, hp, htemps, Option.map_some]
  rfl

/-! ## The scales -/

namespace Chart

def W : ℚ := 360
def H : ℚ := 170
def L : ℚ := 30
def R : ℚ := 6
def T : ℚ := 8
def B : ℚ := 22
def span : ℚ := 24 * 3600

/-- `x`. -/
def x (age : ℚ) : ℚ := L + (W - L - R) * (1 - age / span)

/-- `lo`. -/
def lo (vals : List ℚ) (st : SettingsStatus) : Int := ⌊vals.foldr min st.stop_c - 2⌋

/-- `hi_`. -/
def hi (vals : List ℚ) (st : SettingsStatus) : Int := ⌈vals.foldr max st.critical_c + 1⌉

/-- `y`. -/
def y (lo hi : Int) (c : ℚ) : ℚ := T + (H - T - B) * (1 - (c - lo) / (hi - lo))

/-- The axis runs backwards, 400 s to 1.5 units. -/
theorem x_eq (age : ℚ) : x age = 354 - age * 3 / 800 := by
  norm_num [x, W, L, R, span]
  ring

theorem x_le_x_iff {a b : ℚ} : x a ≤ x b ↔ b ≤ a := by
  rw [x_eq, x_eq]
  constructor <;> intro h <;> linarith

theorem L_le_x_iff {a : ℚ} : L ≤ x a ↔ a ≤ span := by
  rw [x_eq, L, span]
  constructor <;> intro h <;> linarith

theorem L_lt_x_iff {a : ℚ} : L < x a ↔ a < span := by
  rw [x_eq, L, span]
  constructor <;> intro h <;> linarith

/-- A temperature between the two ends is drawn inside the frame. -/
theorem y_in_frame {lo hi : Int} {c : ℚ} (hlow : (lo : ℚ) ≤ c) (hhigh : c ≤ hi)
    (hlt : (lo : ℚ) < hi) : T ≤ y lo hi c ∧ y lo hi c ≤ H - B := by
  have hpos : (0 : ℚ) < hi - lo := by linarith
  have hfrac : 0 ≤ (c - lo) / (hi - lo) ∧ (c - lo) / (hi - lo) ≤ 1 :=
    ⟨div_nonneg (by linarith) hpos.le, (div_le_one hpos).mpr (by linarith)⟩
  norm_num [y, T, H, B]
  constructor <;> linarith

end Chart

/-! ## The columns -/

/-- A shaded column, over the whole height. -/
structure Column where
  x : ℚ
  width : ℚ
  deriving DecidableEq, Repr

/-- One of the columns is over `x`. -/
def Shaded (columns : List Column) (x : ℚ) : Prop := ∃ c ∈ columns, c.x ≤ x ∧ x ≤ c.x + c.width

namespace HistoryJson
variable (h : HistoryJson)

/-- `ageOf`. -/
def ageOf (i : Nat) : Int := h.newest_age_s + ((h.t.length : Int) - 1 - i) * h.period_s

/-- `h.p[i] === "1"`. -/
def on (i : Nat) : Bool := h.p[i]? == some '1'

/-- The column of the samples from `i` to `j`. -/
def column (i j : Nat) : Option Column :=
  let x1 := Chart.x (h.ageOf i + h.period_s / 2)
  let x2 := Chart.x (max 0 (h.ageOf j - h.period_s / 2))
  if x2 > Chart.L then
    some { x := max Chart.L x1, width := max (3 / 2) (x2 - max Chart.L x1) }
  else none

/-- The loop over the samples with the pump on. -/
def columns : List Column := (spans h.on h.t.length).filterMap fun s => h.column s.1 s.2

variable {h}

theorem ageOf_succ (i : Nat) : h.ageOf (i + 1) = h.ageOf i - h.period_s := by
  unfold ageOf
  push_cast
  ring

theorem ageOf_antitone (hperiod : 0 ≤ h.period_s) {i j : Nat} (hij : i ≤ j) :
    h.ageOf j ≤ h.ageOf i := by
  induction hij with
  | refl => exact le_rfl
  | step _ ih =>
    rw [ageOf_succ]
    omega

/-- Where a sample has the pump on, the columns are there for half a period
    on both sides, as far as the chart goes. -/
theorem shaded_of_on (hperiod : 0 ≤ h.period_s) {i : Nat} (hi : i < h.t.length)
    (hon : h.on i = true) {a : ℚ} (hnow : 0 ≤ a) (hspan : a < Chart.span)
    (hlow : h.ageOf i - h.period_s / 2 ≤ a) (hhigh : a ≤ h.ageOf i + h.period_s / 2) :
    Shaded h.columns (Chart.x a) := by
  obtain ⟨⟨i₁, i₂⟩, hs, h₁, h₂⟩ := (mem_span_iff i).mpr ⟨hi, hon⟩
  have hage₁ : (h.ageOf i : ℚ) ≤ h.ageOf i₁ := by exact_mod_cast ageOf_antitone hperiod h₁
  have hage₂ : (h.ageOf i₂ : ℚ) ≤ h.ageOf i := by exact_mod_cast ageOf_antitone hperiod h₂
  have hend : max 0 ((h.ageOf i₂ : ℚ) - h.period_s / 2) ≤ a := max_le hnow (by linarith)
  refine ⟨_, List.mem_filterMap.mpr ⟨(i₁, i₂), hs, if_pos ?_⟩, ?_, ?_⟩
  · exact Chart.L_lt_x_iff.mpr (lt_of_le_of_lt hend hspan)
  · exact max_le (Chart.L_le_x_iff.mpr hspan.le) (Chart.x_le_x_iff.mpr (by linarith))
  · have hx := Chart.x_le_x_iff.mpr hend
    have hwidth := le_max_right (3 / 2 : ℚ)
      (Chart.x (max 0 ((h.ageOf i₂ : ℚ) - h.period_s / 2)) -
        max Chart.L (Chart.x (h.ageOf i₁ + h.period_s / 2)))
    dsimp only
    linarith

/-- The half periods around the samples `i`, …, `i + m` leave no gap. -/
theorem exists_sample {a : ℚ} (m : Nat) {i : Nat} (hhigh : a ≤ h.ageOf i + h.period_s / 2)
    (hlow : h.ageOf (i + m) - h.period_s / 2 ≤ a) :
    ∃ k, i ≤ k ∧ k ≤ i + m ∧ h.ageOf k - h.period_s / 2 ≤ a ∧
      a ≤ h.ageOf k + h.period_s / 2 := by
  induction m generalizing i with
  | zero => exact ⟨i, le_rfl, le_rfl, hlow, hhigh⟩
  | succ m ih =>
    by_cases hhere : h.ageOf i - h.period_s / 2 ≤ a
    · exact ⟨i, le_rfl, by omega, hhere, hhigh⟩
    · have hnext : ((h.ageOf (i + 1) : Int) : ℚ) = h.ageOf i - h.period_s := by
        exact_mod_cast ageOf_succ i
      obtain ⟨k, hi, hm, hk⟩ := ih (i := i + 1) (by linarith)
        (by rw [show i + 1 + m = i + (m + 1) by omega]; exact hlow)
      exact ⟨k, by omega, by omega, hk⟩

/-- Where there is a column a sample has the pump on, at most half a period
    away, or 400 s more where its column is drawn wider than it is. -/
theorem on_of_shaded (hperiod : 0 ≤ h.period_s) {a : ℚ} (hshaded : Shaded h.columns (Chart.x a)) :
    ∃ i < h.t.length, h.on i = true ∧ h.ageOf i - h.period_s / 2 - 400 ≤ a ∧
      a ≤ h.ageOf i + h.period_s / 2 := by
  obtain ⟨c, hc, hleft, hright⟩ := hshaded
  obtain ⟨⟨i, j⟩, hs, hcolumn⟩ := List.mem_filterMap.mp hc
  have hrun := (mem_spans_iff i j).mp hs
  unfold column at hcolumn
  obtain ⟨hdrawn, hcolumn⟩ := Option.ite_none_right_eq_some.mp hcolumn
  obtain rfl := Option.some.inj hcolumn
  have hperiod' : (0 : ℚ) ≤ h.period_s := by exact_mod_cast hperiod
  have hlt := Chart.L_lt_x_iff.mp hdrawn
  have hstart : a ≤ h.ageOf i + h.period_s / 2 :=
    Chart.x_le_x_iff.mp (le_trans (le_max_right _ _) hleft)
  dsimp only at hright
  by_cases hend : Chart.x a ≤ Chart.x (max 0 (h.ageOf j - h.period_s / 2))
  · obtain ⟨m, rfl⟩ := Nat.exists_eq_add_of_le hrun.le
    have hlow : h.ageOf (i + m) - h.period_s / 2 ≤ a :=
      le_trans (le_max_right _ _) (Chart.x_le_x_iff.mp hend)
    obtain ⟨k, hik, hkj, hklow, hkhigh⟩ := exists_sample m hstart hlow
    exact ⟨k, Nat.lt_of_le_of_lt hkj hrun.lt, hrun.marked k hik hkj, by linarith, hkhigh⟩
  · -- right of its end the column has the least width
    have hpast := not_le.mp hend
    have hwide : Chart.x a ≤
        max Chart.L (Chart.x (h.ageOf i + h.period_s / 2)) + 3 / 2 := by
      rcases le_total (3 / 2 : ℚ) (Chart.x (max 0 (h.ageOf j - h.period_s / 2)) -
          max Chart.L (Chart.x (h.ageOf i + h.period_s / 2))) with hmax | hmax
      · rw [max_eq_right hmax] at hright
        linarith
      · rw [max_eq_left hmax] at hright
        exact hright
    rcases le_total Chart.L (Chart.x (h.ageOf i + h.period_s / 2)) with hin | hout
    · refine ⟨i, Nat.lt_of_le_of_lt hrun.le hrun.lt, hrun.marked i le_rfl hrun.le, ?_, hstart⟩
      rw [max_eq_right hin, Chart.x_eq, Chart.x_eq] at hwide
      linarith
    · refine ⟨j, hrun.lt, hrun.marked j hrun.le le_rfl, ?_, ?_⟩
      · rw [max_eq_left hout, Chart.x_eq, Chart.L] at hwide
        have hj := lt_of_le_of_lt (le_max_right _ _) hlt
        rw [Chart.span] at hj
        linarith
      · rw [max_eq_left hout, Chart.x_eq, Chart.L] at hwide
        have ha : max 0 ((h.ageOf j : ℚ) - h.period_s / 2) > a := by
          rw [Chart.x_eq, Chart.x_eq] at hpast
          linarith
        rcases lt_max_iff.mp ha with hneg | hj
        · linarith
        · linarith

end HistoryJson

/-! ## The line and the drawing -/

/-- A point of the path: whether the pen is lifted on the way to it. -/
structure PathPoint where
  move : Bool
  x : ℚ
  y : ℚ
  deriving DecidableEq, Repr

namespace HistoryJson
variable (h : HistoryJson)

/-- There is a reading, and it is not too old. -/
def shown (i : Nat) : Bool := h.t[i]?.join.isSome && h.ageOf i ≤ 24 * 3600

/-- What one turn of the loop adds to the path. -/
def point (y : ℚ → ℚ) (pen : Bool) (i : Nat) : List PathPoint :=
  match h.t[i]?.join with
  | none => []
  | some v => [⟨!pen, Chart.x (h.ageOf i), y (v / 10)⟩]

/-- The loop over the readings. -/
def line (y : ℚ → ℚ) : List PathPoint := pen_loop h.shown (h.point y) h.t.length false 0

/-- `vals`. -/
def vals : List ℚ := (h.t.filterMap id).map fun v : Int => (v : ℚ) / 10

end HistoryJson

/-- What `loadHistory` draws. -/
structure Drawing where
  /-- The heights of the lines of the grid. -/
  grid : List ℚ
  columns : List Column
  /-- The heights of the thresholds. -/
  guides : List ℚ
  line : List PathPoint
  deriving DecidableEq, Repr

/-- `Math.round((lo + hi_) / 2)`. -/
def middle (lo hi : Int) : Int := ⌊((lo : ℚ) + hi) / 2 + 1 / 2⌋

/-- `loadHistory`, with the document that it got. -/
def loadHistory (state : Option StatusJson) (h : HistoryJson) : Option Drawing :=
  if h.vals = [] then none
  else match state with
    | none => none
    | some s =>
      let st := s.settings
      let lo := Chart.lo h.vals st
      let hi := Chart.hi h.vals st
      let y := Chart.y lo hi
      some {
        grid := [lo, middle lo hi, hi].map fun c : Int => y c
        columns := h.columns
        guides := [st.start_c, st.stop_c, st.critical_c].map y
        line := h.line y }

/-! ## The columns and the pump -/

/-- The clock has gone on since every sample. -/
theorem taken_clock {nvs : NvsBlob} {clock_us : Nat} {acts : List Label} {s : Firmware}
    (h : firmware.exec (boot nvs clock_us) acts = some s) :
    ∀ t ∈ firmware_taken nvs clock_us acts, 0 ≤ t.now ∧ t.now ≤ s.mono_s := by
  have hboot : ∀ t ∈ ([] : List Add), 0 ≤ t.now ∧ t.now ≤ (boot nvs clock_us).mono_s := by
    simp
  refine trace_invariant (P := fun (ts : List Add) s =>
    ∀ t ∈ ts, 0 ≤ t.now ∧ t.now ≤ s.mono_s) ?_ hboot h
    (steps_of_forall (fun _ _ _ => trivial) _)
  intro ts s a s' _ hts hstep t ht
  have hclock : s.mono_s ≤ s'.mono_s := (step_times hstep).clock
  rcases List.mem_append.mp ht with ht | ht
  · exact ⟨(hts t ht).1, (hts t ht).2.trans hclock⟩
  · rcases step_takes hstep with hno | ⟨u, htakes⟩
    · simp [hno.taken] at ht
    · obtain rfl : t = u := by simpa [htakes.taken] using ht
      rw [htakes.now]
      exact ⟨Int.natCast_nonneg _, hclock⟩

/-- The samples of a run as the app gets them, with the times of the axis. -/
structure Shows (hist : HistoryJson) (samples : List Add) (newest_mono_s now_s : Int) : Prop where
  period : hist.period_s = HISTORY_PERIOD_S
  count : hist.t.length = samples.length
  on : ∀ i, hist.on i = true ↔ ∃ t, samples[i]? = some t ∧ t.pump_on = true
  age : ∀ i < samples.length, hist.ageOf i = now_s - assigned_s newest_mono_s samples.length i
  vals : hist.vals = [] ↔ ∀ t ∈ samples, t.stored = HISTORY_NO_READING

theorem newest_mono_s_le {nvs : NvsBlob} {clock_us : Nat} {acts : List Label} {s : Firmware}
    (h : firmware.exec (boot nvs clock_us) acts = some s) :
    0 ≤ (history_copy s.history HISTORY_SAMPLES).newest_mono_s ∧
      (history_copy s.history HISTORY_SAMPLES).newest_mono_s ≤ s.mono_s := by
  rw [kept_copy (firmware_ring h)]
  cases hlast : (firmware_taken nvs clock_us acts).getLast? with
  | none => exact ⟨le_rfl, Int.natCast_nonneg _⟩
  | some t => exact taken_clock h t (List.mem_of_getLast? hlast)

/-- What the app gets from the handler. -/
theorem history_shows {nvs : NvsBlob} {clock_us : Nat} {acts : List Label} {s : Firmware}
    (h : firmware.exec (boot nvs clock_us) acts = some s) (c : HandlerClock)
    (hclock : s.mono_s ≤ c.age_mono_s) (hrange : c.age_mono_s < 2 ^ 63) :
    ∃ chunks document hist, history_handler (fun _ => true) s.history c =
        .ok (chunks ++ [[]]) ∧ parse chunks.flatten = some document ∧
      history_json document = some hist ∧
      Shows hist (kept (firmware_taken nvs clock_us acts))
        (history_copy s.history HISTORY_SAMPLES).newest_mono_s c.age_mono_s := by
  obtain ⟨hpos, hnewest⟩ := newest_mono_s_le h
  have hcopy := kept_copy (firmware_ring h)
  have htemps := congrArg HistoryCopy.temps hcopy
  have hpump := congrArg HistoryCopy.pump hcopy
  dsimp only at htemps hpump
  unfold history_handler
  generalize history_copy s.history HISTORY_SAMPLES = copy at hpos hnewest htemps hpump ⊢
  generalize kept (firmware_taken nvs clock_us acts) = samples at htemps hpump ⊢
  have hn : copy.temps.length = copy.pump.length := by
    rw [htemps, hpump, List.length_map, List.length_map]
  obtain ⟨chunks, hresponse, -, -, hparse⟩ := response_streamed
    (Int64.ofInt (if copy.temps.length ≠ 0 then events_unix_time c copy.newest_mono_s else 0))
    (Int64.ofInt (if copy.temps.length ≠ 0 then c.age_mono_s - copy.newest_mono_s else 0)) hn
  refine ⟨chunks, _, _, hresponse, hparse, history_json_document _ _ _ _, ?_⟩
  have hlength : copy.temps.length = samples.length := by rw [htemps, List.length_map]
  refine ⟨rfl, by rw [List.length_map, hlength], ?_, ?_, ?_⟩
  · intro i
    cases ht : samples[i]? with
    | none => simp [HistoryJson.on, hpump, ht]
    | some t => cases hon : t.pump_on <;> simp [HistoryJson.on, hpump, ht, hon, pump_char]
  · intro i hi
    rw [HistoryJson.ageOf, assigned_s, List.length_map, hlength, if_pos (by omega),
      Int64.toInt_ofInt_of_le (by omega) (by omega)]
    dsimp only
    omega
  · simp [HistoryJson.vals, htemps, shown_temp, List.filterMap_eq_nil_iff]

/-- The columns of the samples, on a time axis that is right. -/
theorem columns_shade {hist : HistoryJson} {samples : List Add} {newest_mono_s now_s : Int}
    (hshows : Shows hist samples newest_mono_s now_s)
    (haxis : ∀ i t, samples[i]? = some t →
      t.now - HISTORY_PERIOD_S ≤ assigned_s newest_mono_s samples.length i ∧
        assigned_s newest_mono_s samples.length i ≤ t.now + HISTORY_PERIOD_S) :
    (∀ t ∈ samples, t.pump_on = true →
      ∃ taken_s : Int, t.now - 60 ≤ taken_s ∧ taken_s ≤ t.now + 60 ∧
        ∀ at_s : ℚ, taken_s - 30 ≤ at_s → at_s ≤ taken_s + 30 →
          now_s - Chart.span < at_s → at_s ≤ now_s →
          Shaded hist.columns (Chart.x (now_s - at_s))) ∧
      ∀ at_s : ℚ, Shaded hist.columns (Chart.x (now_s - at_s)) →
        ∃ t ∈ samples, t.pump_on = true ∧ (t.now : ℚ) - 90 ≤ at_s ∧ at_s ≤ t.now + 490 := by
  have hage : ∀ i < samples.length, ((hist.ageOf i : Int) : ℚ) =
      now_s - (assigned_s newest_mono_s samples.length i : Int) := by
    intro i hi
    rw [hshows.age i hi]
    push_cast
    rfl
  have hperiod : (hist.period_s : ℚ) = 60 := by
    rw [hshows.period]
    norm_num [HISTORY_PERIOD_S]
  refine ⟨?_, ?_⟩
  · intro t ht hon
    obtain ⟨i, hi⟩ := List.mem_iff_getElem?.mp ht
    obtain ⟨hlow, hhigh⟩ := haxis i t hi
    have hlt : i < samples.length := (List.getElem?_eq_some_iff.mp hi).1
    refine ⟨_, hlow, hhigh, ?_⟩
    intro at_s hfrom hto hday hnow
    refine HistoryJson.shaded_of_on (by rw [hshows.period]; decide) (hshows.count ▸ hlt)
      ((hshows.on i).mpr ⟨t, hi, hon⟩) (by linarith) (by linarith) ?_ ?_
    · rw [hage i hlt, hperiod]
      linarith
    · rw [hage i hlt, hperiod]
      linarith
  · intro at_s hshaded
    obtain ⟨i, hi, hon, hlow, hhigh⟩ :=
      HistoryJson.on_of_shaded (by rw [hshows.period]; decide) hshaded
    obtain ⟨t, ht, hpump⟩ := (hshows.on i).mp hon
    obtain ⟨haxis_low, haxis_high⟩ := haxis i t ht
    have hlow' : ((t.now - HISTORY_PERIOD_S : Int) : ℚ) ≤
        (assigned_s newest_mono_s samples.length i : Int) := by
      exact_mod_cast haxis_low
    have hhigh' : ((assigned_s newest_mono_s samples.length i : Int) : ℚ) ≤
        ((t.now + HISTORY_PERIOD_S : Int) : ℚ) := by
      exact_mod_cast haxis_high
    rw [hage i (hshows.count ▸ hi), hperiod] at hlow hhigh
    push_cast [HISTORY_PERIOD_S] at hlow' hhigh'
    exact ⟨t, List.mem_of_getElem? ht, hpump, by linarith, by linarith⟩

/-- **The columns are where the pump was on.**  Whatever run the history comes
    from and whenever it is asked for: without a status, or with no reading
    among the samples, `loadHistory` draws nothing.  Else, if the time axis is
    right, each sample with the pump on has a minute of the chart shaded, not
    more than a minute from when it was taken, as far as that is in the last
    24 hours; and where the chart is shaded one of them had been taken at most
    a minute and a half before or 490 s after the time of that place.  The
    difference is the least width of a column. -/
theorem chart_shades_pump (nvs : NvsBlob) (clock_us : Nat) (acts : List Label) (s : Firmware)
    (h : firmware.exec (boot nvs clock_us) acts = some s) (c : HandlerClock)
    (hclock : s.mono_s ≤ c.age_mono_s) (hrange : c.age_mono_s < 2 ^ 63) :
    ∃ chunks document hist, history_handler (fun _ => true) s.history c =
        .ok (chunks ++ [[]]) ∧ parse chunks.flatten = some document ∧
      history_json document = some hist ∧ loadHistory none hist = none ∧
      ∀ state : StatusJson,
        ((∀ t ∈ kept (firmware_taken nvs clock_us acts), t.stored = HISTORY_NO_READING) →
          loadHistory (some state) hist = none) ∧
        ((∃ t ∈ kept (firmware_taken nvs clock_us acts), t.stored ≠ HISTORY_NO_READING) →
          OnAxis (history_copy s.history HISTORY_SAMPLES)
            (kept (firmware_taken nvs clock_us acts)) →
          ∃ d, loadHistory (some state) hist = some d ∧
            (∀ t ∈ kept (firmware_taken nvs clock_us acts), t.pump_on = true →
              ∃ taken_s : Int, t.now - 60 ≤ taken_s ∧ taken_s ≤ t.now + 60 ∧
                ∀ at_s : ℚ, taken_s - 30 ≤ at_s → at_s ≤ taken_s + 30 →
                  c.age_mono_s - Chart.span < at_s → at_s ≤ c.age_mono_s →
                  Shaded d.columns (Chart.x (c.age_mono_s - at_s))) ∧
            ∀ at_s : ℚ, Shaded d.columns (Chart.x (c.age_mono_s - at_s)) →
              ∃ t ∈ kept (firmware_taken nvs clock_us acts), t.pump_on = true ∧
                (t.now : ℚ) - 90 ≤ at_s ∧ at_s ≤ t.now + 490) := by
  obtain ⟨chunks, document, hist, hresponse, hparse, hjson, hshows⟩ :=
    history_shows h c hclock hrange
  refine ⟨chunks, document, hist, hresponse, hparse, hjson, ?_, ?_⟩
  · unfold loadHistory
    split <;> rfl
  intro state
  refine ⟨fun hnone => if_pos (hshows.vals.mpr hnone), ?_⟩
  rintro ⟨t₀, ht₀, hreading⟩ haxis
  have hvals : hist.vals ≠ [] := fun hnone => hreading (hshows.vals.mp hnone t₀ ht₀)
  refine ⟨_, if_neg hvals, ?_⟩
  have hlength : (history_copy s.history HISTORY_SAMPLES).temps.length =
      (kept (firmware_taken nvs clock_us acts)).length := by
    rw [kept_copy (firmware_ring h), List.length_map]
  exact columns_shade hshows (hlength ▸ haxis)

/-- 45.0 °C, a read that failed a minute later, and 45.0 °C again after 121 s,
    a second late. -/
def chart_labels : List Label :=
  iteration_labels ⟨0, some ⟨default_settings, true, 450⟩, default_settings, ⟨false, 0⟩⟩ ++
    .tick 60000000 ::
      iteration_labels ⟨60, some ⟨default_settings, false, 0⟩, default_settings, ⟨false, 0⟩⟩ ++
    .tick 61000000 ::
      iteration_labels ⟨121, some ⟨default_settings, true, 450⟩, default_settings, ⟨false, 0⟩⟩

/-- Three samples with the pump on, asked for after 125 s: that of the read that
    failed is shaded as the others. -/
theorem chart_shades_pump_failed_read : ∃ s chunks document hist d,
    firmware.exec (boot .missing 0) chart_labels = some s ∧
      history_handler (fun _ => true) s.history ⟨false, 0, 125, 125⟩ = .ok (chunks ++ [[]]) ∧
      parse chunks.flatten = some document ∧ history_json document = some hist ∧
      loadHistory (some (status_json (control_status s.dev 125) default_settings
        ⟨false, 0, 125, 125⟩)) hist = some d ∧
      ∃ taken_s : Int, 0 ≤ taken_s ∧ taken_s ≤ 120 ∧
        ∀ at_s : ℚ, taken_s - 30 ≤ at_s → at_s ≤ taken_s + 30 → 125 - Chart.span < at_s →
          at_s ≤ 125 → Shaded d.columns (Chart.x (125 - at_s)) := by
  obtain ⟨s, hexec, hclock⟩ :
      ∃ s, firmware.exec (boot .missing 0) chart_labels = some s ∧ s.mono_s = 121 :=
    ⟨_, rfl, rfl⟩
  have htaken : firmware_taken .missing 0 chart_labels =
      [⟨true, 450, true, 0⟩, ⟨false, 0, true, 60⟩, ⟨true, 450, true, 121⟩] := rfl
  have hkept : kept (firmware_taken .missing 0 chart_labels) =
      [⟨true, 450, true, 0⟩, ⟨false, 0, true, 60⟩, ⟨true, 450, true, 121⟩] := by
    rw [htaken]
    rfl
  have haxis : OnAxis (history_copy s.history HISTORY_SAMPLES)
      (kept (firmware_taken .missing 0 chart_labels)) := by
    have hgrid : OnGrid HISTORY_PERIOD_S 0
        ((firmware_taken .missing 0 chart_labels).map Add.now) := by
      rw [htaken]
      decide
    exact onAxis_of_onGrid (firmware_ring hexec) hgrid
  obtain ⟨chunks, document, hist, hresponse, hparse, hjson, -, hdraws⟩ :=
    chart_shades_pump .missing 0 chart_labels s hexec ⟨false, 0, 125, 125⟩ (by rw [hclock]; decide)
      (by norm_num)
  obtain ⟨d, hd, hon, -⟩ := (hdraws (status_json (control_status s.dev 125) default_settings
    ⟨false, 0, 125, 125⟩)).2 (hkept ▸ ⟨_, List.mem_cons_self, by decide⟩) haxis
  obtain ⟨taken_s, hlow, hhigh, hshaded⟩ := hon ⟨false, 0, true, 60⟩ (by simp [hkept]) rfl
  exact ⟨s, chunks, document, hist, d, hexec, hresponse, hparse, hjson, hd, taken_s,
    hlow, hhigh, by simpa using hshaded⟩

/-! ## The line in the frame -/

/-- A point of the drawing is inside the frame. -/
def InFrame (x y : ℚ) : Prop :=
  Chart.L ≤ x ∧ x ≤ Chart.W - Chart.R ∧ Chart.T ≤ y ∧ y ≤ Chart.H - Chart.B

theorem foldr_min_le (vals : List ℚ) (c : ℚ) :
    vals.foldr min c ≤ c ∧ ∀ v ∈ vals, vals.foldr min c ≤ v := by
  induction vals with
  | nil => exact ⟨le_rfl, fun v hv => nomatch hv⟩
  | cons u vals ih =>
    refine ⟨min_le_of_right_le ih.1, ?_⟩
    intro v hv
    rcases List.mem_cons.mp hv with rfl | hv
    · exact min_le_left _ _
    · exact min_le_of_right_le (ih.2 v hv)

theorem le_foldr_max (vals : List ℚ) (c : ℚ) :
    c ≤ vals.foldr max c ∧ ∀ v ∈ vals, v ≤ vals.foldr max c := by
  induction vals with
  | nil => exact ⟨le_rfl, fun v hv => nomatch hv⟩
  | cons u vals ih =>
    refine ⟨le_max_of_le_right ih.1, ?_⟩
    intro v hv
    rcases List.mem_cons.mp hv with rfl | hv
    · exact le_max_left _ _
    · exact le_max_of_le_right (ih.2 v hv)

/-- The scale leaves room at both ends for what it has to show. -/
theorem scale_reaches (vals : List ℚ) (st : SettingsStatus) {c : ℚ}
    (hc : c ∈ vals ∨ st.stop_c ≤ c ∧ c ≤ st.critical_c) :
    (Chart.lo vals st : ℚ) + 2 ≤ c ∧ c + 1 ≤ Chart.hi vals st := by
  have hlo := Int.floor_le (vals.foldr min st.stop_c - 2)
  have hhi := Int.le_ceil (vals.foldr max st.critical_c + 1)
  obtain ⟨hstop, hmin⟩ := foldr_min_le vals st.stop_c
  obtain ⟨hcritical, hmax⟩ := le_foldr_max vals st.critical_c
  unfold Chart.lo Chart.hi
  rcases hc with hc | ⟨hlow, hhigh⟩
  · have h₁ := hmin c hc
    have h₂ := hmax c hc
    constructor <;> linarith
  · constructor <;> linarith

/-- The thresholds of a document are in order. -/
theorem settings_status_ordered {st : Settings} (h : st.Valid) :
    (settings_status st).stop_c ≤ (settings_status st).start_c ∧
      (settings_status st).start_c ≤ (settings_status st).critical_c := by
  obtain ⟨-, -, -, hstop, hcritical, -⟩ := h
  have hstop' : (st.stop_x10.toInt : ℚ) ≤ st.start_x10.toInt := by
    rw [HYSTERESIS_MIN_X10] at hstop
    exact_mod_cast (by omega : st.stop_x10.toInt ≤ st.start_x10.toInt)
  have hcritical' : (st.start_x10.toInt : ℚ) ≤ st.critical_x10.toInt := by
    rw [CRITICAL_MARGIN_MIN_X10] at hcritical
    exact_mod_cast (by omega : st.start_x10.toInt ≤ st.critical_x10.toInt)
  show celsius st.stop_x10 ≤ celsius st.start_x10 ∧ celsius st.start_x10 ≤ celsius st.critical_x10
  unfold celsius
  constructor <;> linarith

theorem middle_between {lo hi : Int} (h : lo ≤ hi) : lo ≤ middle lo hi ∧ middle lo hi ≤ hi := by
  have h' : (lo : ℚ) ≤ hi := by exact_mod_cast h
  constructor
  · exact Int.le_floor.mpr (by linarith)
  · rw [middle, ← Int.lt_add_one_iff, Int.floor_lt]
    push_cast
    linarith

namespace HistoryJson
variable {h : HistoryJson} (hperiod : 0 ≤ h.period_s) (hage : 0 ≤ h.newest_age_s)
include hperiod hage

theorem ageOf_nonneg {i : Nat} (hi : i < h.t.length) : 0 ≤ h.ageOf i := by
  have hlast : h.ageOf (h.t.length - 1) = h.newest_age_s := by
    have hzero : ((h.t.length : Int) - 1 - (h.t.length - 1 : Nat)) = 0 := by omega
    rw [ageOf, hzero, zero_mul, add_zero]
  rw [← hlast] at hage
  exact hage.trans (ageOf_antitone hperiod (by omega))

/-- A column is as far inside the frame as its least width allows. -/
theorem column_in_frame {c : Column} (hc : c ∈ h.columns) :
    Chart.L ≤ c.x ∧ c.x + c.width ≤ Chart.W - Chart.R + 3 / 2 := by
  obtain ⟨⟨i, j⟩, hs, hcolumn⟩ := List.mem_filterMap.mp hc
  have hrun := (mem_spans_iff i j).mp hs
  obtain ⟨-, hcolumn⟩ := Option.ite_none_right_eq_some.mp hcolumn
  obtain rfl := Option.some.inj hcolumn
  have hage' : (0 : ℚ) ≤ h.ageOf i := by
    exact_mod_cast ageOf_nonneg hperiod hage (Nat.lt_of_le_of_lt hrun.le hrun.lt)
  have hperiod' : (0 : ℚ) ≤ h.period_s := by exact_mod_cast hperiod
  have hright : ∀ {a : ℚ}, 0 ≤ a → Chart.x a ≤ Chart.W - Chart.R := by
    intro a ha
    rw [Chart.x_eq, Chart.W, Chart.R]
    linarith
  have hx : max Chart.L (Chart.x (h.ageOf i + h.period_s / 2)) ≤ Chart.W - Chart.R :=
    max_le (by norm_num [Chart.L, Chart.W, Chart.R]) (hright (by linarith))
  have hend := hright (le_max_left 0 ((h.ageOf j : ℚ) - h.period_s / 2))
  refine ⟨le_max_left _ _, ?_⟩
  dsimp only
  rw [← max_add_add_left]
  exact max_le (by linarith) (by linarith)

/-- A point of the line is a reading at its time. -/
theorem point_in_frame {lo hi : Int} {i : Nat} {pen : Bool} (hi' : i < h.t.length)
    (hshown : h.shown i = true)
    (hvals : ∀ v ∈ h.vals, (lo : ℚ) ≤ v ∧ v ≤ hi) (hlt : (lo : ℚ) < hi) :
    ∀ pt ∈ h.point (Chart.y lo hi) pen i, InFrame pt.x pt.y := by
  intro pt hpt
  obtain ⟨hsome, hspan⟩ := Bool.and_eq_true_iff.mp hshown
  have hspan' : (h.ageOf i : ℚ) ≤ Chart.span := by
    rw [Chart.span]
    exact_mod_cast of_decide_eq_true hspan
  have hage' : (0 : ℚ) ≤ h.ageOf i := by exact_mod_cast ageOf_nonneg hperiod hage hi'
  unfold point at hpt
  cases hv : h.t[i]?.join with
  | none => simp [hv] at hsome
  | some v =>
    rw [hv] at hpt
    obtain rfl := List.mem_singleton.mp hpt
    have hmem : (v : ℚ) / 10 ∈ h.vals := by
      refine List.mem_map.mpr ⟨v, List.mem_filterMap.mpr ⟨some v, ?_, rfl⟩, rfl⟩
      exact List.mem_of_getElem? (Option.join_eq_some_iff.mp hv)
    obtain ⟨hlow, hhigh⟩ := hvals _ hmem
    obtain ⟨htop, hbottom⟩ := Chart.y_in_frame hlow hhigh hlt
    refine ⟨Chart.L_le_x_iff.mpr hspan', ?_, htop, hbottom⟩
    show Chart.x (h.ageOf i) ≤ Chart.W - Chart.R
    rw [Chart.x_eq, Chart.W, Chart.R]
    linarith

end HistoryJson

/-- **One stroke for each run of readings, and nothing outside the frame.**
    For all thresholds in force and any history the line has one stroke for
    every maximal run of samples with a reading of the last 24 hours, in
    order, so it is broken exactly where a reading is missing; and all that is
    drawn is inside the frame, but for the least width of a last column.  The
    stroke of a run of one reading is a single point: a move without a line,
    for which nothing is painted. -/
theorem chart_line_drawn (st : Settings) (hst : st.Valid) (s : StatusJson)
    (hs : s.settings = settings_status st) (h : HistoryJson) (hperiod : 0 ≤ h.period_s)
    (hage : 0 ≤ h.newest_age_s) (d : Drawing) (hd : loadHistory (some s) h = some d) :
    (∃ strokes : List (Nat × Nat),
      (∀ i j, (i, j) ∈ strokes ↔ IsRun h.shown h.t.length i j) ∧
      strokes.Pairwise (fun a b => a.2 + 1 < b.1) ∧
      d.line = strokes.flatMap (stroke (h.point
        (Chart.y (Chart.lo h.vals s.settings) (Chart.hi h.vals s.settings))))) ∧
      (∀ pt ∈ d.line, InFrame pt.x pt.y) ∧
      (∀ y ∈ d.grid ++ d.guides, Chart.T ≤ y ∧ y ≤ Chart.H - Chart.B) ∧
      ∀ c ∈ d.columns, Chart.L ≤ c.x ∧ c.x + c.width ≤ Chart.W - Chart.R + 3 / 2 := by
  obtain ⟨hstop, hcritical⟩ := settings_status_ordered hst
  rw [← hs] at hstop hcritical
  have hreach := fun {c : ℚ} => scale_reaches h.vals s.settings (c := c)
  obtain ⟨-, hd⟩ := Option.ite_none_left_eq_some.mp hd
  obtain rfl := Option.some.inj hd
  dsimp only
  have hstart := hreach (Or.inr ⟨hstop, hcritical⟩)
  generalize Chart.lo h.vals s.settings = lo at hreach hstart ⊢
  generalize Chart.hi h.vals s.settings = hi at hreach hstart ⊢
  have hlt : (lo : ℚ) < hi := by linarith
  have hframe : ∀ {c : ℚ}, (lo : ℚ) ≤ c → c ≤ hi →
      Chart.T ≤ Chart.y lo hi c ∧ Chart.y lo hi c ≤ Chart.H - Chart.B :=
    fun hlow hhigh => Chart.y_in_frame hlow hhigh hlt
  have hline : h.line (Chart.y lo hi) =
      (spans h.shown h.t.length).flatMap (stroke (h.point (Chart.y lo hi))) := pen_strokes _
  refine ⟨⟨_, fun i j => mem_spans_iff i j, spans_sorted _ _, hline⟩, ?_, ?_, ?_⟩
  · intro pt hpt
    rw [hline] at hpt
    obtain ⟨⟨i, j⟩, hrun, hpt⟩ := List.mem_flatMap.mp hpt
    have hrun := (mem_spans_iff i j).mp hrun
    have hvals : ∀ v ∈ h.vals, (lo : ℚ) ≤ v ∧ v ≤ hi := by
      intro v hv
      have hv' := hreach (Or.inl hv)
      constructor <;> linarith
    have hinside : ∀ {k : Nat} {pen : Bool}, i ≤ k → k ≤ j →
        pt ∈ h.point (Chart.y lo hi) pen k → InFrame pt.x pt.y := fun hlow hhigh hpt =>
      HistoryJson.point_in_frame hperiod hage (Nat.lt_of_le_of_lt hhigh hrun.lt)
        (hrun.marked _ hlow hhigh) hvals hlt pt hpt
    rcases List.mem_append.mp hpt with hpt | hpt
    · exact hinside le_rfl hrun.le hpt
    · obtain ⟨k, hk, hpt⟩ := List.mem_flatMap.mp hpt
      obtain ⟨hlow, hhigh⟩ := List.mem_range'_1.mp hk
      exact hinside (by omega) (by have := hrun.le; omega) hpt
  · intro y hy
    have hmiddle : lo ≤ middle lo hi ∧ middle lo hi ≤ hi :=
      middle_between (by exact_mod_cast hlt.le)
    have hmiddle' : (lo : ℚ) ≤ middle lo hi ∧ (middle lo hi : ℚ) ≤ hi := by
      exact_mod_cast hmiddle
    have hstop' := hreach (Or.inr ⟨le_rfl, hstop.trans hcritical⟩)
    have hcritical' := hreach (Or.inr ⟨hstop.trans hcritical, le_rfl⟩)
    simp only [List.map_cons, List.map_nil, List.cons_append, List.nil_append, List.mem_cons,
      List.not_mem_nil, or_false] at hy
    rcases hy with rfl | rfl | rfl | rfl | rfl | rfl
    · exact hframe le_rfl hlt.le
    · exact hframe hmiddle'.1 hmiddle'.2
    · exact hframe hlt.le le_rfl
    · exact hframe (by linarith) (by linarith)
    · exact hframe (by linarith) (by linarith)
    · exact hframe (by linarith) (by linarith)
  · exact fun c hc => HistoryJson.column_in_frame hperiod hage hc

/-- Six samples, two of them without a reading. -/
def broken_history : HistoryJson :=
  ⟨60, 5, [none, some 300, some 305, none, some 310, some 312], "011011".toList⟩

/-- The status at boot. -/
def boot_status : StatusJson :=
  status_json (control_status (control_start 0) 3) default_settings ⟨false, 0, 3, 3⟩

/-- A line of two strokes. -/
theorem chart_line_drawn_broken : ∃ d, ∃ strokes : List (Nat × Nat),
    loadHistory (some boot_status) broken_history = some d ∧
      (1, 2) ∈ strokes ∧ (4, 5) ∈ strokes ∧
      d.line = strokes.flatMap (stroke (broken_history.point (Chart.y 23 46))) ∧
      ∀ pt ∈ d.line, InFrame pt.x pt.y := by
  have hlo : Chart.lo broken_history.vals boot_status.settings = 23 := by decide +kernel
  have hhi : Chart.hi broken_history.vals boot_status.settings = 46 := by decide +kernel
  obtain ⟨d, hd⟩ : ∃ d, loadHistory (some boot_status) broken_history = some d := ⟨_, rfl⟩
  obtain ⟨⟨strokes, hruns, -, hline⟩, hframe, -, -⟩ := chart_line_drawn default_settings
    default_settings_valid boot_status rfl broken_history (by decide) (by decide) d hd
  rw [hlo, hhi] at hline
  have hrun : ∀ i j, IsRun broken_history.shown 6 i j → (i, j) ∈ strokes := fun i j =>
    (hruns i j).mpr
  refine ⟨d, strokes, hd, hrun 1 2 ⟨by decide, by decide, ?_, by decide, by decide⟩,
    hrun 4 5 ⟨by decide, by decide, ?_, by decide, by decide⟩, hline, hframe⟩
  · intro k hlow hhigh
    rcases (by omega : k = 1 ∨ k = 2) with rfl | rfl <;> decide
  · intro k hlow hhigh
    rcases (by omega : k = 4 ∨ k = 5) with rfl | rfl <;> decide

end FloorHeating
