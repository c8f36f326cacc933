import FloorHeating.Lib.PackedFlags
import FloorHeating.Lib.Ring

/-! # The 24 h history (`history.c`)

    Temperatures in one ring, pump flags bit-packed in another, one sample
    a minute.  The two share their head and their count, so they are one ring
    of samples, and it refines the list of all samples: `history_copy` reads
    the end of it back, oldest first. -/

namespace FloorHeating

open PackedFlags Ring

def HISTORY_PERIOD_S : Int := 60
def HISTORY_SAMPLES : Nat := 1440

/-- `INT16_MIN`: no reading in this sample. -/
def HISTORY_NO_READING : Int16 := -32768

/-- The bytes of the packed pump flags. -/
def HISTORY_PUMP_BYTES : Nat := (HISTORY_SAMPLES + 7) / 8

/-- The statics of `history.c`, with their bounds. -/
structure History where
  s_temps : Vector Int16 HISTORY_SAMPLES
  s_pump : Vector UInt8 HISTORY_PUMP_BYTES
  s_head : Nat
  s_count : Nat
  s_newest_mono_s : Int
  head_lt : s_head < HISTORY_SAMPLES
  count_le : s_count ≤ HISTORY_SAMPLES

/-- Zeroed statics. -/
def history_zero : History where
  s_temps := Vector.replicate HISTORY_SAMPLES 0
  s_pump := Vector.replicate HISTORY_PUMP_BYTES 0
  s_head := 0
  s_count := 0
  s_newest_mono_s := 0
  head_lt := by decide
  count_le := by decide

theorem pump_byte_lt {i : Nat} (h : i < HISTORY_SAMPLES) : i / 8 < HISTORY_PUMP_BYTES := by
  simp only [HISTORY_SAMPLES, HISTORY_PUMP_BYTES] at h ⊢
  omega

/-- `history_add`, at the clock reading `now`. -/
def history_add (h : History) (valid : Bool) (temp_x10 : Int16) (pump_on : Bool) (now : Int) :
    History :=
  have hbyte := pump_byte_lt h.head_lt
  let bit : UInt8 := 1 <<< UInt8.ofNat (h.s_head % 8)
  let byte := h.s_pump[h.s_head / 8]
  { s_temps := h.s_temps.set h.s_head (if valid then temp_x10 else HISTORY_NO_READING) h.head_lt
    s_pump := h.s_pump.set (h.s_head / 8) (if pump_on then byte ||| bit else byte &&& ~~~bit) hbyte
    s_head := (h.s_head + 1) % HISTORY_SAMPLES
    s_count := if h.s_count < HISTORY_SAMPLES then h.s_count + 1 else h.s_count
    s_newest_mono_s := now
    head_lt := Nat.mod_lt _ (by decide)
    count_le := by
      have := h.count_le
      split <;> omega }

/-- What `history_copy` leaves in its arrays, cut to the count it returns, and
    the time of the newest sample. -/
structure HistoryCopy where
  temps : List Int16
  pump : List Bool
  newest_mono_s : Int
  deriving DecidableEq, Repr

theorem HISTORY_SAMPLES_pos : 0 < HISTORY_SAMPLES := by decide

/-- `history_copy`. -/
def history_copy (h : History) (max : Nat) : HistoryCopy :=
  let n := if h.s_count < max then h.s_count else max
  let start := (h.s_head + HISTORY_SAMPLES - n) % HISTORY_SAMPLES
  { temps := (List.range n).map fun i =>
      have hidx := Nat.mod_lt (start + i) HISTORY_SAMPLES_pos
      h.s_temps[(start + i) % HISTORY_SAMPLES]
    pump := (List.range n).map fun i =>
      let idx := (start + i) % HISTORY_SAMPLES
      have hbyte := pump_byte_lt (Nat.mod_lt (start + i) HISTORY_SAMPLES_pos)
      (h.s_pump[idx / 8] >>> UInt8.ofNat (idx % 8)) &&& 1 != 0
    newest_mono_s := h.s_newest_mono_s }

/-! ## The two rings and the samples -/

/-- A call of `history_add`, with the clock reading it makes. -/
structure Add where
  valid : Bool
  temp_x10 : Int16
  pump_on : Bool
  now : Int
  deriving DecidableEq, Repr

/-- The temperature that is stored. -/
def Add.stored (a : Add) : Int16 := if a.valid then a.temp_x10 else HISTORY_NO_READING

/-- The samples after a sequence of calls, from power-on. -/
def history_run (adds : List Add) : History :=
  adds.foldl (fun h a => history_add h a.valid a.temp_x10 a.pump_on a.now) history_zero

/-- The sample in a slot of the two rings. -/
def History.sample (h : History) (i : Fin HISTORY_SAMPLES) : Int16 × Bool :=
  (h.s_temps[i], flag h.s_pump i (pump_byte_lt i.isLt))

/-- The rings hold the end of what was added. -/
structure History.InRing (h : History) (adds : List Add) : Prop where
  ring : Holds HISTORY_SAMPLES_pos h.sample h.s_head h.s_count
    (adds.map fun a => (a.stored, a.pump_on))
  newest : h.s_newest_mono_s = (adds.getLast?.map Add.now).getD 0

theorem history_zero_inRing : history_zero.InRing [] := ⟨Holds.empty _ _, rfl⟩

/-- Only the slot at the head gets another sample; the flags that share its
    byte are those of other samples, and stay. -/
theorem history_add_sample (h : History) (a : Add) (i : Fin HISTORY_SAMPLES) :
    (history_add h a.valid a.temp_x10 a.pump_on a.now).sample i =
      if i.val = h.s_head then (a.stored, a.pump_on) else h.sample i := by
  have hflag := flag_write_flag h.s_pump a.pump_on (pump_byte_lt i.isLt) (pump_byte_lt h.head_lt)
  have hpump : (history_add h a.valid a.temp_x10 a.pump_on a.now).s_pump =
      write_flag h.s_pump h.s_head a.pump_on (pump_byte_lt h.head_lt) := rfl
  unfold History.sample
  simp only [hpump, hflag]
  by_cases hi : i.val = h.s_head
  · simp [history_add, hi, Add.stored]
  · simp [history_add, hi, Ne.symm hi]

theorem history_add_inRing {h : History} {adds : List Add} (hring : h.InRing adds) (a : Add) :
    (history_add h a.valid a.temp_x10 a.pump_on a.now).InRing (adds ++ [a]) where
  ring := by
    rw [List.map_append]
    apply hring.ring.push
    · intro i hi
      rw [history_add_sample, if_pos hi]
    · intro i hi
      rw [history_add_sample, if_neg hi]
  newest := by simp [history_add]

theorem history_run_inRing (adds : List Add) : (history_run adds).InRing adds := by
  induction adds using List.reverseRecOn with
  | nil => exact history_zero_inRing
  | append_singleton adds a ih =>
    unfold history_run at ih ⊢
    rw [List.foldl_append]
    exact history_add_inRing ih a

/-- The number of samples copied. -/
def copied (adds : List Add) (max : Nat) : Nat := min adds.length (min HISTORY_SAMPLES max)

theorem History.InRing.copy {h : History} {adds : List Add} (hring : h.InRing adds) (max : Nat) :
    history_copy h max =
      { temps := (adds.rtake (copied adds max)).map Add.stored
        pump := (adds.rtake (copied adds max)).map Add.pump_on
        newest_mono_s := (adds.getLast?.map Add.now).getD 0 } := by
  have hcount := hring.ring.count_eq
  rw [List.length_map] at hcount
  have hn : copied adds max = if h.s_count < max then h.s_count else max := by
    unfold copied
    split <;> omega
  have hlatest := hring.ring.latest
    (k := if h.s_count < max then h.s_count else max) (by split <;> omega)
  rw [List.rtake, List.length_map, ← List.map_drop, ← List.rtake] at hlatest
  -- the two arrays are the two halves of the samples
  have htemps := congrArg (List.map Prod.fst) hlatest
  have hpump := congrArg (List.map Prod.snd) hlatest
  rw [List.map_map, List.map_map] at htemps hpump
  rw [hn]
  exact congr (congr (congrArg HistoryCopy.mk htemps) hpump) hring.newest

/-- The copy of everything that is kept. -/
theorem History.InRing.copy_all {h : History} {adds : List Add} (hring : h.InRing adds) :
    history_copy h HISTORY_SAMPLES =
      { temps := (adds.rtake HISTORY_SAMPLES).map Add.stored
        pump := (adds.rtake HISTORY_SAMPLES).map Add.pump_on
        newest_mono_s := (adds.getLast?.map Add.now).getD 0 } := by
  have hlen : adds.length - copied adds HISTORY_SAMPLES = adds.length - HISTORY_SAMPLES := by
    unfold copied
    omega
  have hkept : adds.rtake (copied adds HISTORY_SAMPLES) = adds.rtake HISTORY_SAMPLES := by
    rw [List.rtake, hlen, ← List.rtake]
  rw [hring.copy, hkept]

/-- **The history refines the list of the latest samples.**  After any
    sequence of additions `history_copy` returns as many samples as there
    are, as fit the rings, and as were asked for: the latest ones, oldest
    first, each with its own temperature and its own pump flag, and the time
    of the last addition.  No index it computes leaves the rings, and none of
    the subtractions goes below zero. -/
theorem history_copy_latest (adds : List Add) (max : Nat) :
    history_copy (history_run adds) max =
        { temps := (adds.rtake (copied adds max)).map Add.stored
          pump := (adds.rtake (copied adds max)).map Add.pump_on
          newest_mono_s := (adds.getLast?.map Add.now).getD 0 } ∧
      (history_copy (history_run adds) max).temps.length = copied adds max ∧
      copied adds max ≤ (history_run adds).s_head + HISTORY_SAMPLES ∧
      (history_run adds).s_head < HISTORY_SAMPLES ∧
      (history_run adds).s_head / 8 < HISTORY_PUMP_BYTES ∧
      ∀ start i, (start + i) % HISTORY_SAMPLES < HISTORY_SAMPLES ∧
        (start + i) % HISTORY_SAMPLES / 8 < HISTORY_PUMP_BYTES := by
  have hcopy := (history_run_inRing adds).copy max
  have hhead := (history_run adds).head_lt
  have hidx : ∀ i, i % HISTORY_SAMPLES < HISTORY_SAMPLES := fun i =>
    Nat.mod_lt i HISTORY_SAMPLES_pos
  refine ⟨hcopy, ?_, ?_, hhead, pump_byte_lt hhead, fun start i =>
    ⟨hidx (start + i), pump_byte_lt (hidx (start + i))⟩⟩
  · rw [hcopy, List.length_map, List.rtake, List.length_drop]
    unfold copied
    omega
  · unfold copied
    omega

end FloorHeating
