import FloorHeating.ControlLogic
import FloorHeating.Lib.Ring

/-! # The event ring (`events.h`, `events.c`)

    `events_publish` writes the event into a ring of the latest events and
    then hands it to `notify`, which queues the notifications and never
    changes the ring.  What `notify` was called with is kept in order, as the
    log a listener outside sees.

    The ring refines that log: `events_recent` reads the end of it back,
    newest first. -/

namespace FloorHeating

open Ring

/-- A C string: its characters up to the terminator. -/
abbrev CStr := List Char

/-- `snprintf(buf, size, ...)` of a text: what fits with the terminator. -/
def snprintf (size : Nat) (text : CStr) : CStr := text.take (size - 1)

/-- Only the text behind what fits can be cut. -/
theorem snprintf_append {size : Nat} {text : CStr} (h : text.length < size) (more : CStr) :
    snprintf size (text ++ more) = text ++ more.take (size - 1 - text.length) := by
  unfold snprintf
  rw [List.take_append, List.take_of_length_le (by omega)]

theorem snprintf_fits {size : Nat} {text : CStr} (h : text.length < size) :
    snprintf size text = text := by
  simpa using snprintf_append h []

/-- `event_type_t`. -/
inductive EventType where
  | pump
  | overheat
  | sensor
  | manual_end
  deriving DecidableEq, Repr

/-- The size of `event_t.detail`. -/
def DETAIL_SIZE : Nat := 24

/-- `event_t`.  Fields an initialiser leaves out are zero. -/
structure Event where
  type : EventType
  mono_s : Int
  on : Bool
  reason : CtlReason
  prev_reason : CtlReason := .auto_cold
  has_temp : Bool
  temp_x10 : Int16
  detail : CStr := []
  deriving DecidableEq, Repr

def EVENTS_RING_SIZE : Nat := 50

/-- The statics of `events.c`, with their bounds, and the calls of `notify`. -/
structure EventLog where
  s_ring : Vector Event EVENTS_RING_SIZE
  s_head : Nat
  s_count : Nat
  notified : List Event
  head_lt : s_head < EVENTS_RING_SIZE
  count_le : s_count ≤ EVENTS_RING_SIZE

/-- The ring at power-on: zeroed statics, and `events_init`. -/
def events_init : EventLog where
  s_ring := Vector.replicate EVENTS_RING_SIZE
    { type := .pump, mono_s := 0, on := false, reason := .auto_cold, has_temp := false,
      temp_x10 := 0 }
  s_head := 0
  s_count := 0
  notified := []
  head_lt := by decide
  count_le := by decide

/-- `events_publish`. -/
def events_publish (log : EventLog) (e : Event) : EventLog where
  s_ring := log.s_ring.set log.s_head e log.head_lt
  s_head := (log.s_head + 1) % EVENTS_RING_SIZE
  -- a full ring has dropped its oldest event
  s_count := if log.s_count < EVENTS_RING_SIZE then log.s_count + 1 else log.s_count
  notified := log.notified ++ [e]
  head_lt := Nat.mod_lt _ (by decide)
  count_le := by
    have := log.count_le
    split <;> omega

theorem EVENTS_RING_SIZE_pos : 0 < EVENTS_RING_SIZE := by decide

/-- The loop of `events_recent`: `left` rounds to go, `i` behind it. -/
def recent_loop (log : EventLog) (max : Nat) : Nat → Nat → List Event → List Event
  | 0, _, out => out
  | left + 1, i, out =>
    have hidx := Nat.mod_lt (log.s_head + EVENTS_RING_SIZE - 1 - i) EVENTS_RING_SIZE_pos
    if out.length < max then
      recent_loop log max left (i + 1)
        (out ++ [log.s_ring[(log.s_head + EVENTS_RING_SIZE - 1 - i) % EVENTS_RING_SIZE]])
    else out

/-- `events_recent`: what it has copied to `out`. -/
def events_recent (log : EventLog) (max : Nat) : List Event :=
  recent_loop log max log.s_count 0 []

/-! ## The ring and the log -/

/-- The ring holds the end of what was published. -/
def EventLog.InRing (log : EventLog) : Prop :=
  Holds EVENTS_RING_SIZE_pos (fun i => log.s_ring[i]) log.s_head log.s_count log.notified

theorem events_init_inRing : events_init.InRing := Holds.empty _ _

theorem events_publish_inRing {log : EventLog} (h : log.InRing) (e : Event) :
    (events_publish log e).InRing := by
  refine Holds.push h ?_ ?_
  · intro i hi
    simp [events_publish, hi]
  · intro i hi
    simp [events_publish, Ne.symm hi]

/-- The loop copies until it has seen all that is there, or `max` are copied. -/
theorem recent_loop_eq (log : EventLog) (max left i : Nat) {out : List Event}
    (hout : out.length = i) : recent_loop log max left i out =
      out ++ (List.range' i (min left (max - i))).map
        fun j => log.s_ring[slot EVENTS_RING_SIZE_pos log.s_head j] := by
  induction left generalizing i out with
  | zero => simp [recent_loop]
  | succ left ih =>
    unfold recent_loop
    by_cases hmax : i < max
    · have hrounds : min (left + 1) (max - i) = min left (max - (i + 1)) + 1 := by omega
      rw [if_pos (by omega), ih (i + 1) (by simp [hout]), hrounds, List.range'_succ]
      simp [slot]
    · have hrounds : min (left + 1) (max - i) = 0 := by omega
      rw [if_neg (by omega), hrounds]
      simp

theorem EventLog.InRing.recent {log : EventLog} (h : log.InRing) (max : Nat) :
    events_recent log max = log.notified.reverse.take (min EVENTS_RING_SIZE max) := by
  have hcount := h.count_eq
  have htake := Holds.recent h (Nat.min_le_left log.s_count max)
  unfold events_recent
  rw [recent_loop_eq log max log.s_count 0 rfl, Nat.sub_zero, ← List.range_eq_range',
    List.nil_append, htake, hcount, List.take_eq_take_iff, List.length_reverse]
  omega

/-- The log after a sequence of calls of `events_publish`, from `events_init`. -/
def events_run (es : List Event) : EventLog := es.foldl events_publish events_init

theorem events_run_inRing (es : List Event) :
    (events_run es).InRing ∧ (events_run es).notified = es := by
  induction es using List.reverseRecOn with
  | nil => exact ⟨events_init_inRing, rfl⟩
  | append_singleton es e ih =>
    obtain ⟨hring, hlog⟩ := ih
    unfold events_run at hring hlog ⊢
    rw [List.foldl_append]
    refine ⟨events_publish_inRing hring e, ?_⟩
    show (es.foldl events_publish events_init).notified ++ [e] = es ++ [e]
    rw [hlog]

/-- **The event ring refines the list of the latest events.**  After any
    sequence of publications `events_recent` returns the latest ones, newest
    first, as they were published: as many as there are, as fit the ring, and
    as were asked for.  No index it computes leaves the ring, and none of the
    subtractions goes below zero. -/
theorem events_recent_latest (es : List Event) (max : Nat) :
    events_recent (events_run es) max = es.reverse.take (min EVENTS_RING_SIZE max) ∧
      (events_recent (events_run es) max).length = min es.length (min EVENTS_RING_SIZE max) ∧
      (events_run es).s_head < EVENTS_RING_SIZE ∧
      ∀ i, i < (events_run es).s_count → 1 + i ≤ (events_run es).s_head + EVENTS_RING_SIZE ∧
        ((events_run es).s_head + EVENTS_RING_SIZE - 1 - i) % EVENTS_RING_SIZE <
          EVENTS_RING_SIZE := by
  obtain ⟨hring, hlog⟩ := events_run_inRing es
  have hrecent := hring.recent max
  rw [hlog] at hrecent
  refine ⟨hrecent, ?_, (events_run es).head_lt, ?_⟩
  · rw [hrecent, List.length_take, List.length_reverse, Nat.min_comm]
  · intro i hi
    have hle := (events_run es).count_le
    exact ⟨by omega, Nat.mod_lt _ EVENTS_RING_SIZE_pos⟩

end FloorHeating
