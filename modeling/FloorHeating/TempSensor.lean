import FloorHeating.ControlRuns
import FloorHeating.Settings
import FloorHeating.Lib.Transition

/-! # The sensor driver (`temp_sensor.c`)

    `temp_sensor_read` keeps the address of the one sensor on the 1-Wire bus,
    scans for one while it has none, and drops the address after three failed
    measurements in a row.  What the bus answers during a read is arbitrary.

    Two counters run over the same reads: that of the driver, which a scan
    without a result leaves alone, and that of `ctl_sensor`, which counts
    every failed read. -/

namespace FloorHeating

open LTS PastTime

def SENSOR_POWER_ON_VALUE_X10 : Int := 850

/-- `onewire_addr_t`. -/
abbrev OnewireAddr := UInt64

/-- The statics of `temp_sensor.c`. -/
structure TempSensor where
  s_addr : OnewireAddr
  s_found : Bool
  s_failures : UInt8
  deriving DecidableEq, Repr

/-- The zeroed statics of the boot. -/
def temp_sensor_init : TempSensor := ⟨0, false, 0⟩

/-- What `ds18x20_scan_devices` answers: its status, what is in `s_addr`
    afterwards, and how many devices it found. -/
structure Scan where
  ok : Bool
  addr : OnewireAddr
  found : Nat
  deriving DecidableEq, Repr

/-- The bus during one read.  A measurement comes in 0.1 °C, rounded as by
    `lroundf(t * 10)`, or is an error. -/
structure Bus where
  scan : Scan
  measure : OnewireAddr → Option Int

/-- The values a DS18B20 delivers, without the one it has after power-on. -/
def Deliverable (value : Int) : Prop :=
  -550 ≤ value ∧ value ≤ 1250 ∧ value ≠ SENSOR_POWER_ON_VALUE_X10

instance (value : Int) : Decidable (Deliverable value) := inferInstanceAs (Decidable (_ ∧ _ ∧ _))

/-- `temp_sensor_read` once it has an address: what it leaves, and the reading
    of a successful read. -/
def temp_sensor_measure (d : TempSensor) (bus : Bus) : TempSensor × Option Int16 :=
  let measured := bus.measure d.s_addr
  let value := measured.getD 0
  if measured = none ∨ value = SENSOR_POWER_ON_VALUE_X10 ∨ value < -550 ∨ value > 1250 then
    let failures := d.s_failures + 1
    -- the sensor may have been replaced: look for another one
    if failures ≥ SENSOR_FAIL_READS then ({ d with s_found := false, s_failures := 0 }, none)
    else ({ d with s_failures := failures }, none)
  else ({ d with s_failures := 0 }, some (Int16.ofInt value))

/-- `temp_sensor_read`. -/
def temp_sensor_read (d : TempSensor) (bus : Bus) : TempSensor × Option Int16 :=
  if !d.s_found then
    let d := { d with s_addr := bus.scan.addr }
    -- a scan without a result is no failed measurement
    if !bus.scan.ok ∨ bus.scan.found < 1 then (d, none)
    else temp_sensor_measure { d with s_found := true } bus
  else temp_sensor_measure d bus

/-- The driver on any bus. -/
def temp_sensor : System TempSensor Bus where
  init d := d = temp_sensor_init
  step d bus := some (temp_sensor_read d bus).1

/-- What the reads of a list of bus answers deliver, in order. -/
def sensor_readings (d : TempSensor) (buses : List Bus) : List (Option Int16) :=
  outputs (fun d bus => (temp_sensor_read d bus).1) (fun d bus => (temp_sensor_read d bus).2) d buses

/-! ## One read -/

/-- What a measurement has to be refused for. -/
theorem not_deliverable_iff (value : Int) :
    ¬ Deliverable value ↔ value = SENSOR_POWER_ON_VALUE_X10 ∨ value < -550 ∨ value > 1250 := by
  unfold Deliverable
  omega

theorem measure_delivers {d : TempSensor} {bus : Bus} {value : Int}
    (hmeasure : bus.measure d.s_addr = some value) (hvalue : Deliverable value) :
    temp_sensor_measure d bus = ({ d with s_failures := 0 }, some (Int16.ofInt value)) := by
  have hin : ¬ (value = SENSOR_POWER_ON_VALUE_X10 ∨ value < -550 ∨ value > 1250) := fun hout =>
    (not_deliverable_iff value).mpr hout hvalue
  unfold temp_sensor_measure
  simp [hmeasure, hin]

/-- The device at the address does not answer, or with a value that is refused. -/
def Bus.Fails (bus : Bus) (addr : OnewireAddr) : Prop :=
  ∀ value, bus.measure addr = some value → ¬ Deliverable value

theorem measure_fails {d : TempSensor} {bus : Bus} (h : bus.Fails d.s_addr) :
    temp_sensor_measure d bus =
      (if d.s_failures + 1 ≥ SENSOR_FAIL_READS then { d with s_found := false, s_failures := 0 }
        else { d with s_failures := d.s_failures + 1 }, none) := by
  have hrefused : bus.measure d.s_addr = none ∨
      (bus.measure d.s_addr).getD 0 = SENSOR_POWER_ON_VALUE_X10 ∨
      (bus.measure d.s_addr).getD 0 < -550 ∨ (bus.measure d.s_addr).getD 0 > 1250 := by
    cases hm : bus.measure d.s_addr with
    | none => exact Or.inl rfl
    | some value => exact Or.inr ((not_deliverable_iff value).mp (h value hm))
  unfold temp_sensor_measure
  dsimp only
  rw [if_pos hrefused]
  split <;> rfl

/-- A measurement is delivered, or it fails. -/
theorem measure_cases (bus : Bus) (addr : OnewireAddr) :
    (∃ value, bus.measure addr = some value ∧ Deliverable value) ∨ bus.Fails addr := by
  by_cases h : ∃ value, bus.measure addr = some value ∧ Deliverable value
  · exact Or.inl h
  · right
    intro value hm hvalue
    exact h ⟨value, hm, hvalue⟩

section read
variable {d : TempSensor} {bus : Bus}

/-- A read with an address measures. -/
theorem read_held (h : d.s_found = true) : temp_sensor_read d bus = temp_sensor_measure d bus := by
  unfold temp_sensor_read
  simp [h]

/-- The scan of a read without one comes to nothing, or to a device that is
    measured at once. -/
theorem read_scans (h : d.s_found = false) :
    (¬ (bus.scan.ok = true ∧ 1 ≤ bus.scan.found) ∧
        temp_sensor_read d bus = ({ d with s_addr := bus.scan.addr }, none)) ∨
      ((bus.scan.ok = true ∧ 1 ≤ bus.scan.found) ∧
        temp_sensor_read d bus =
          temp_sensor_measure { d with s_addr := bus.scan.addr, s_found := true } bus) := by
  have hnone : (!bus.scan.ok ∨ bus.scan.found < 1) ↔
      ¬ (bus.scan.ok = true ∧ 1 ≤ bus.scan.found) := by
    cases bus.scan.ok <;> simp
  unfold temp_sensor_read
  rw [if_pos (by simp [h])]
  dsimp only
  by_cases hscan : bus.scan.ok = true ∧ 1 ≤ bus.scan.found
  · rw [if_neg fun hn => hnone.mp hn hscan]
    exact Or.inr ⟨hscan, rfl⟩
  · rw [if_pos (hnone.mpr hscan)]
    exact Or.inl ⟨hscan, rfl⟩

end read

/-! ## The driver over whole runs -/

/-- The counter stays below the limit, and counts only for an address. -/
structure DriverInv (d : TempSensor) : Prop where
  failures : d.s_failures < SENSOR_FAIL_READS
  idle : d.s_found = false → d.s_failures = 0

theorem driverInv_init : DriverInv temp_sensor_init := ⟨by decide, fun _ => rfl⟩

/-- A measurement establishes the invariant, whatever was counted before. -/
theorem driverInv_measure {d : TempSensor} (bus : Bus) (hfound : d.s_found = true) :
    DriverInv (temp_sensor_measure d bus).1 := by
  have hzero : (0 : UInt8) < SENSOR_FAIL_READS := by decide
  rcases measure_cases bus d.s_addr with ⟨value, hm, hvalue⟩ | hfails
  · rw [measure_delivers hm hvalue]
    exact ⟨hzero, fun _ => rfl⟩
  · rw [measure_fails hfails]
    dsimp only
    by_cases hlimit : d.s_failures + 1 ≥ SENSOR_FAIL_READS
    · rw [if_pos hlimit]
      exact ⟨hzero, fun _ => rfl⟩
    · rw [if_neg hlimit]
      refine ⟨?_, ?_⟩
      · exact UInt8.not_le.mp hlimit
      · intro hidle
        simp [hfound] at hidle

theorem driverInv_read {d : TempSensor} (h : DriverInv d) (bus : Bus) :
    DriverInv (temp_sensor_read d bus).1 := by
  cases hfound : d.s_found with
  | true =>
    rw [read_held hfound]
    exact driverInv_measure bus hfound
  | false =>
    rcases read_scans hfound with ⟨-, hread⟩ | ⟨-, hread⟩
    · rw [hread]
      exact ⟨h.failures, h.idle⟩
    · rw [hread]
      exact driverInv_measure bus rfl

theorem driverInv_run {acts : List Bus} {d : TempSensor} (h : Run temp_sensor acts d) :
    DriverInv d := by
  refine Run.invariant (P := DriverInv) ?_ ?_ h
  · rintro d rfl
    exact driverInv_init
  · intro d bus d' hd hstep
    obtain rfl : (temp_sensor_read d bus).1 = d' := Option.some.inj hstep
    exact driverInv_read hd bus

theorem measure_deliverable {d : TempSensor} {bus : Bus} {t : Int16}
    (h : (temp_sensor_measure d bus).2 = some t) : Deliverable t.toInt := by
  rcases measure_cases bus d.s_addr with ⟨value, hm, hvalue⟩ | hfails
  · rw [measure_delivers hm hvalue] at h
    obtain rfl := Option.some.inj h
    -- the cast is exact
    obtain ⟨hlow, hhigh, -⟩ := id hvalue
    rwa [Int16.toInt_ofInt_of_le (by omega) (by omega)]
  · rw [measure_fails hfails] at h
    simp at h

/-- Only values of a working sensor are delivered. -/
theorem read_deliverable {d : TempSensor} {bus : Bus} {t : Int16}
    (h : (temp_sensor_read d bus).2 = some t) : Deliverable t.toInt := by
  cases hfound : d.s_found with
  | true =>
    rw [read_held hfound] at h
    exact measure_deliverable h
  | false =>
    rcases @read_scans d bus hfound with ⟨-, hread⟩ | ⟨-, hread⟩
    · rw [hread] at h
      simp at h
    · rw [hread] at h
      exact measure_deliverable h

/-! ## A replaced sensor -/

/-- The device `b` is the one on the bus: scans find it, it delivers, and no
    other address does. -/
structure Replaced (b : OnewireAddr) (bus : Bus) : Prop where
  scan : bus.scan.ok = true ∧ 1 ≤ bus.scan.found ∧ bus.scan.addr = b
  measure : ∃ value, bus.measure b = some value ∧ Deliverable value
  other : ∀ addr, addr ≠ b → bus.Fails addr

/-- How many reads still go to a device that is gone. -/
def stale_reads (b : OnewireAddr) (d : TempSensor) : Nat :=
  if d.s_found ∧ d.s_addr ≠ b then SENSOR_FAIL_READS.toNat - d.s_failures.toNat else 0

theorem stale_reads_le (b : OnewireAddr) (d : TempSensor) : stale_reads b d ≤ 3 := by
  unfold stale_reads
  split
  · exact Nat.sub_le _ _
  · exact Nat.zero_le _

section replaced
variable {b : OnewireAddr} {d : TempSensor} {bus : Bus}

theorem measure_replaced (h : Replaced b bus) (haddr : d.s_addr = b) :
    (temp_sensor_measure d bus).2.isSome = true ∧
      (temp_sensor_measure d bus).1 = { d with s_failures := 0 } := by
  obtain ⟨value, hm, hvalue⟩ := h.measure
  rw [← haddr] at hm
  rw [measure_delivers hm hvalue]
  exact ⟨rfl, rfl⟩

/-- Without a stale address the read goes to `b`. -/
theorem read_replaced (h : Replaced b bus) (hstale : stale_reads b d = 0) (hinv : DriverInv d) :
    (temp_sensor_read d bus).2.isSome = true ∧ stale_reads b (temp_sensor_read d bus).1 = 0 := by
  have hfresh : ∀ d' : TempSensor, d'.s_addr = b → stale_reads b d' = 0 := by
    intro d' haddr
    simp [stale_reads, haddr]
  cases hfound : d.s_found with
  | true =>
    have haddr : d.s_addr = b := by
      by_contra hne
      have hlt := UInt8.lt_iff_toNat_lt.mp hinv.failures
      rw [stale_reads, if_pos ⟨hfound, hne⟩] at hstale
      omega
    obtain ⟨hsome, hleft⟩ := measure_replaced (d := d) h haddr
    rw [read_held hfound]
    exact ⟨hsome, hleft ▸ hfresh _ haddr⟩
  | false =>
    obtain ⟨hok, hone, haddr⟩ := h.scan
    rcases @read_scans d bus hfound with ⟨hnone, -⟩ | ⟨-, hread⟩
    · exact absurd ⟨hok, hone⟩ hnone
    · rw [hread]
      obtain ⟨hsome, hleft⟩ := measure_replaced
        (d := { d with s_addr := bus.scan.addr, s_found := true }) h haddr
      exact ⟨hsome, hleft ▸ hfresh _ haddr⟩

/-- A read of a stale address is one read less to wait for. -/
theorem read_stale (h : Replaced b bus) (hstale : stale_reads b d ≠ 0) (hinv : DriverInv d) :
    stale_reads b (temp_sensor_read d bus).1 = stale_reads b d - 1 := by
  have hheld : d.s_found = true ∧ d.s_addr ≠ b := by
    by_contra hnot
    rw [stale_reads, if_neg hnot] at hstale
    exact hstale rfl
  obtain ⟨hfound, hne⟩ := hheld
  have hlt := UInt8.lt_iff_toNat_lt.mp hinv.failures
  have hlimit : SENSOR_FAIL_READS.toNat = 3 := rfl
  have hbump : (d.s_failures + 1).toNat = d.s_failures.toNat + 1 := by
    rw [UInt8.toNat_add]
    simp
    omega
  rw [read_held hfound, measure_fails (h.other d.s_addr hne)]
  dsimp only
  have hbefore : stale_reads b d = 3 - d.s_failures.toNat := by
    rw [stale_reads, if_pos ⟨hfound, hne⟩, hlimit]
  by_cases hdrop : d.s_failures + 1 ≥ SENSOR_FAIL_READS
  · -- the last one: the address is dropped
    have hdrop' := UInt8.le_iff_toNat_le.mp hdrop
    rw [if_pos hdrop, hbefore]
    simp only [stale_reads, Bool.false_eq_true, false_and, if_false]
    omega
  · rw [if_neg hdrop, hbefore]
    simp only [stale_reads, hfound, hne, hbump, hlimit, ne_eq, not_false_eq_true, and_self, if_true]
    omega

/-- Every read after the stale ones succeeds. -/
theorem readings_replaced {buses : List Bus} (hinv : DriverInv d)
    (h : ∀ bus ∈ buses, Replaced b bus) :
    ∀ r ∈ (sensor_readings d buses).drop (stale_reads b d), r.isSome = true := by
  refine outputs_drop DriverInv (stale_reads b) ?_ ?_ ?_ hinv h
  · intro d bus _ hd
    exact driverInv_read hd bus
  · intro d bus hbus hd
    by_cases hstale : stale_reads b d = 0
    · rw [(read_replaced hbus hstale hd).2]
      exact Nat.zero_le _
    · exact le_of_eq (read_stale hbus hstale hd)
  · intro d bus hbus hd hstale
    exact (read_replaced hbus hstale hd).1

end replaced

/-! ## The control logic behind the driver -/

/-- What the reads of a run of the control logic brought to `ctl_sensor`. -/
def read_results (ops : List CtlOp) : List (Option Int16) :=
  ops.filterMap fun
    | .sensor _ _ valid t => some (if valid then some t else none)
    | _ => none

/-- The fail-safe is off whenever the last read was valid. -/
theorem sensor_failed_last (st : CtlState) (ops : List CtlOp) {r : Option Int16}
    (hlast : (read_results ops).getLast? = some r) (hvalid : r.isSome = true) :
    (ops.foldl ctl_step st).sensor_failed = false := by
  induction ops using List.reverseRecOn with
  | nil => simp [read_results] at hlast
  | append_singleton ops op ih =>
    rw [List.foldl_append, List.foldl_cons, List.foldl_nil]
    rw [read_results, List.filterMap_append] at hlast
    cases op with
    | sensor cfg now_s valid t =>
      cases valid with
      | true => rw [ctl_step_good]
      | false =>
        obtain rfl : none = r := by simpa using hlast
        simp at hvalid
    | manual m duration_s now_s =>
      obtain ⟨m', u, hstep⟩ := ctl_step_manual_frame (ops.foldl ctl_step st) m duration_s now_s
      rw [hstep]
      exact ih (by simpa [read_results] using hlast)
    | decide cfg now_s =>
      rw [ctl_step_decide]
      exact ih (by simpa [read_results] using hlast)

/-- **A replaced sensor is always picked up again.**  In every state the driver
    can reach its counter is below the limit, and zero without an address; a
    read delivers nothing but a value of a working sensor.  Once the device
    `b` is the only one that delivers and the one every scan finds, every
    read from the fourth on succeeds: so whatever the control logic did
    before, and whatever commands and decisions it makes in between, its
    fail-safe is off after the fourth read and stays off. -/
theorem replaced_sensor_found (acts : List Bus) (d : TempSensor) (h : Run temp_sensor acts d) :
    (d.s_failures < SENSOR_FAIL_READS ∧ (d.s_found = false → d.s_failures = 0)) ∧
      (∀ bus t, (temp_sensor_read d bus).2 = some t → Deliverable t.toInt) ∧
      ∀ (b : OnewireAddr) (buses : List Bus), (∀ bus ∈ buses, Replaced b bus) →
        (∀ r ∈ (sensor_readings d buses).drop 3, r.isSome = true) ∧
        ∀ (st : CtlState) (ops : List CtlOp), read_results ops = sensor_readings d buses →
          4 ≤ buses.length → (ops.foldl ctl_step st).sensor_failed = false := by
  have hinv := driverInv_run h
  refine ⟨⟨hinv.failures, hinv.idle⟩, fun bus t => read_deliverable, ?_⟩
  intro b buses hbuses
  have hfourth : ∀ r ∈ (sensor_readings d buses).drop 3, r.isSome = true := by
    intro r hr
    exact readings_replaced hinv hbuses r
      (List.drop_subset_drop_left _ (stale_reads_le b d) hr)
  refine ⟨hfourth, ?_⟩
  intro st ops hops hlength
  have hcount : (sensor_readings d buses).length = buses.length := outputs_length _ _ _ _
  have hne : (sensor_readings d buses).drop 3 ≠ [] := by
    rw [ne_eq, List.drop_eq_nil_iff]
    omega
  -- the last of them is at least the fourth
  obtain ⟨r, hlast, hvalid⟩ : ∃ r, (sensor_readings d buses).getLast? = some r ∧
      r.isSome = true := by
    refine ⟨((sensor_readings d buses).drop 3).getLast hne, ?_, hfourth _ (List.getLast_mem hne)⟩
    rw [← List.getLast?_eq_some_getLast hne, List.getLast?_drop, if_neg (by omega)]
  rw [← hops] at hlast
  exact sensor_failed_last st ops hlast hvalid

/-- A bus with one device, which delivers `value`. -/
def one_device (addr : OnewireAddr) (value : Int) : Bus where
  scan := ⟨true, addr, 1⟩
  measure a := if a = addr then some value else none

theorem replaced_one_device (addr : OnewireAddr) {value : Int} (h : Deliverable value) :
    Replaced addr (one_device addr value) where
  scan := ⟨rfl, Nat.le_refl 1, rfl⟩
  measure := ⟨value, by simp [one_device], h⟩
  other a ha v hv := by simp [one_device, ha] at hv

/-- The device 7 is replaced by the device 9: three reads fail, and the
    fail-safe goes on and off again. -/
theorem replaced_sensor_found_fourth :
    ∃ d, Run temp_sensor [one_device 7 215] d ∧
      sensor_readings d (List.replicate 4 (one_device 9 220)) = [none, none, none, some 220] ∧
      ([.sensor ⟨300, 250, 450, 604800, 60, 3⟩ 5 false 0,
        .sensor ⟨300, 250, 450, 604800, 60, 3⟩ 10 false 0,
        .sensor ⟨300, 250, 450, 604800, 60, 3⟩ 15 false 0,
        .sensor ⟨300, 250, 450, 604800, 60, 3⟩ 20 true 220].foldl ctl_step
          (ctl_init 0)).sensor_failed = false := by
  have hrun : Run temp_sensor [one_device 7 215] ⟨7, true, 0⟩ := Run.of_exec rfl rfl
  refine ⟨_, hrun, by decide, ?_⟩
  have hbuses : ∀ bus ∈ List.replicate 4 (one_device 9 220), Replaced 9 bus := by
    intro bus hbus
    rw [List.eq_of_mem_replicate hbus]
    exact replaced_one_device 9 (by decide)
  exact ((replaced_sensor_found _ _ hrun).2.2 9 _ hbuses).2 (ctl_init 0) _ (by decide) (by decide)

end FloorHeating
