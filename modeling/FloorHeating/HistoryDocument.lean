import FloorHeating.Control
import FloorHeating.History
import FloorHeating.Lib.Json

/-! # The history document (`api.c`)

    `history_handler` streams its answer through a buffer of 512 bytes: it
    prints and stores behind what the buffer holds, and sends a chunk where
    the room left falls under a margin, 16 bytes in the loop over the
    readings and 8 in the loop over the pump flags.  Nothing checks a print
    that does not fit; here it stops the handler, so that an answer is also a
    proof that every print fitted.

    * `history_streamed`: the chunks are the document, cut up.
    * `history_handler_samples`: it holds the samples of the ring. -/

namespace FloorHeating

open Json

/-! ## The handler -/

/-- `sizeof(buf)`. -/
def BUF_SIZE : Nat := 512

/-- What can stop the handler. -/
inductive Failure where
  /-- A `snprintf` had to cut its text. -/
  | truncated
  /-- A byte was stored behind the end of the buffer. -/
  | overrun
  /-- `httpd_resp_send_chunk` did not return `ESP_OK`. -/
  | send_failed
  deriving DecidableEq, Repr

/-- The buffer up to `len`, and the chunks sent so far. -/
structure Out where
  buf : CStr
  chunks : List CStr
  len_le : buf.length ≤ BUF_SIZE

/-- An empty buffer, and no chunk. -/
def Out.start : Out := ⟨[], [], Nat.zero_le _⟩

/-- `len += snprintf(buf + len, sizeof(buf) - len, ...)`: the text and its
    terminating zero have to fit. -/
def print_at (o : Out) (text : CStr) : Except Failure Out :=
  if h : o.buf.length + text.length < BUF_SIZE then
    .ok { o with buf := o.buf ++ text, len_le := by rw [List.length_append]; omega }
  else .error .truncated

/-- `buf[len++] = c`. -/
def store (o : Out) (c : Char) : Except Failure Out :=
  if h : o.buf.length < BUF_SIZE then
    .ok { o with buf := o.buf ++ [c], len_le := by rw [List.length_append]; exact h }
  else .error .overrun

/-- `httpd_resp_send_chunk` of the buffer, and `len = 0`; `sends k` is the
    outcome of the call for the chunk number `k`. -/
def send_chunk (sends : Nat → Bool) (o : Out) : Except Failure Out :=
  if sends o.chunks.length then
    .ok { buf := [], chunks := o.chunks ++ [o.buf], len_le := Nat.zero_le _ }
  else .error .send_failed

/-- The flush at the head of a loop. -/
def flush (sends : Nat → Bool) (margin : Nat) (o : Out) : Except Failure Out :=
  if o.buf.length > BUF_SIZE - margin then send_chunk sends o else .ok o

/-- `i ? "," : ""`. -/
def sep (i : Nat) : CStr := if i = 0 then [] else ",".toList

/-- A temperature of the document: `null` or `%d`. -/
def reading (t : Int16) : CStr :=
  if t = HISTORY_NO_READING then "null".toList else decimal t.toInt

/-- The loop over the readings, from index `i`. -/
def history_temps (sends : Nat → Bool) : Nat → List Int16 → Out → Except Failure Out
  | _, [], o => .ok o
  | i, t :: temps, o => do
    let o ← flush sends 16 o
    let o ← print_at o (sep i ++ reading t)
    history_temps sends (i + 1) temps o

/-- `pump[i] ? '1' : '0'`. -/
def pump_char (on : Bool) : Char := if on then '1' else '0'

/-- The loop over the pump flags. -/
def history_pump (sends : Nat → Bool) : List Bool → Out → Except Failure Out
  | [], o => .ok o
  | on :: pump, o => do
    let o ← flush sends 8 o
    let o ← store o (pump_char on)
    history_pump sends pump o

/-- The text before the readings. -/
def history_head (newest newest_age : Int64) : CStr :=
  "\x7b\"period_s\":".toList ++ decimal HISTORY_PERIOD_S ++ ",\"newest\":".toList ++
    decimal newest.toInt ++ ",\"newest_age_s\":".toList ++ decimal newest_age.toInt ++
    ",\"t\":[".toList

/-- `history_handler` after the copy: the chunks it sends. -/
def history_response (sends : Nat → Bool) (newest newest_age : Int64) (temps : List Int16)
    (pump : List Bool) : Except Failure (List CStr) := do
  let o ← print_at .start (history_head newest newest_age)
  let o ← history_temps sends 0 temps o
  let o ← print_at o "],\"p\":\"".toList
  let o ← history_pump sends pump o
  let o ← print_at o "\"\x7d".toList
  let o ← send_chunk sends o
  -- the empty chunk that ends the response
  let o ← send_chunk sends o
  .ok o.chunks

/-- What `history_handler` reads of the clocks. -/
structure HandlerClock where
  /-- `hi_ntp_synced()`. -/
  synced : Bool
  /-- `time(NULL)`. -/
  time : Int
  /-- `events_mono_s()` in `events_unix_time`. -/
  unix_mono_s : Int
  /-- `events_mono_s()` for the age. -/
  age_mono_s : Int
  deriving DecidableEq, Repr

/-- `events_unix_time`: 0 until the clock is set. -/
def events_unix_time (c : HandlerClock) (mono_s : Int) : Int :=
  if c.synced then c.time - (c.unix_mono_s - mono_s) else 0

/-- `history_handler` of a session. -/
def history_handler (sends : Nat → Bool) (h : History) (c : HandlerClock) :
    Except Failure (List CStr) :=
  let copy := history_copy h HISTORY_SAMPLES
  let n := copy.temps.length
  let newest := if n ≠ 0 then events_unix_time c copy.newest_mono_s else 0
  let newest_age := if n ≠ 0 then c.age_mono_s - copy.newest_mono_s else 0
  history_response sends (Int64.ofInt newest) (Int64.ofInt newest_age) copy.temps copy.pump

/-! ## The document -/

/-- The text of the document. -/
def history_text (newest newest_age : Int64) (temps : List Int16) (pump : List Bool) : CStr :=
  "\x7b\"period_s\":60,\"newest\":".toList ++ decimal newest.toInt ++
    ",\"newest_age_s\":".toList ++ decimal newest_age.toInt ++
    ",\"t\":[".toList ++ commas (temps.map reading) ++ "],\"p\":\"".toList ++
    pump.map pump_char ++ "\"\x7d".toList

/-- A temperature as a value. -/
def reading_value (t : Int16) : Value :=
  if t = HISTORY_NO_READING then .null else .number t.toInt

theorem pump_char_plain (on : Bool) : Plain (pump_char on) := by
  cases on <;> decide

/-- The pump flags as a string. -/
def pump_text (pump : List Bool) : Text :=
  ⟨pump.map pump_char, by
    intro c hc
    obtain ⟨on, -, rfl⟩ := List.mem_map.mp hc
    exact pump_char_plain on⟩

/-- The document as a value. -/
def history_document (newest newest_age : Int64) (temps : List Int16) (pump : List Bool) : Value :=
  .object [
    (literal "period_s".toList (by decide), .number HISTORY_PERIOD_S),
    (literal "newest".toList (by decide), .number newest.toInt),
    (literal "newest_age_s".toList (by decide), .number newest_age.toInt),
    (literal "t".toList (by decide), .array (temps.map reading_value)),
    (literal "p".toList (by decide), .string (pump_text pump))]

theorem render_reading_value (t : Int16) : render (reading_value t) = reading t := by
  unfold reading_value reading
  split <;> rw [render]

theorem render_history_document (newest newest_age : Int64) (temps : List Int16)
    (pump : List Bool) :
    render (history_document newest newest_age temps pump) =
      history_text newest newest_age temps pump := by
  have hreadings : render_items (temps.map reading_value) = temps.map reading := by
    rw [render_items_eq, List.map_map]
    exact List.map_congr_left fun t _ => render_reading_value t
  have hperiod : decimal HISTORY_PERIOD_S = "60".toList := by decide
  unfold history_document history_text
  simp only [render, render_fields, commas_cons, hreadings, hperiod]
  simp [quoted, literal, pump_text]

/-- The value of a key. -/
def value_of (key : CStr) : Value → Option Value
  | .object fields => (fields.find? fun f => f.1.val = key).map Prod.snd
  | _ => none

/-- A temperature of the document, read back. -/
def read_temp : Value → Option Int16
  | .null => some HISTORY_NO_READING
  | .number n => some (Int16.ofInt n)
  | _ => none

/-- The samples of a document: its `t`, and where its `p` says `1`. -/
def read_samples (document : Value) : Option (List Int16 × List Bool) :=
  match value_of "t".toList document, value_of "p".toList document with
  | some (.array temps), some (.string flags) =>
    (temps.mapM read_temp).map fun temps => (temps, flags.val.map fun c => c == '1')
  | _, _ => none

theorem read_reading_value (t : Int16) : read_temp (reading_value t) = some t := by
  unfold reading_value
  split
  · rename_i h
    rw [h, read_temp]
  · rw [read_temp, Int16.ofInt_toInt]

theorem read_pump_char (on : Bool) : (pump_char on == '1') = on := by
  cases on <;> decide

/-- The document keeps the samples. -/
theorem read_samples_document (newest newest_age : Int64) (temps : List Int16)
    (pump : List Bool) :
    read_samples (history_document newest newest_age temps pump) = some (temps, pump) := by
  have htemps : (temps.map reading_value).mapM read_temp = some temps := by
    induction temps with
    | nil => simp
    | cons t temps ih => simp [read_reading_value, ih]
  have ht : value_of "t".toList (history_document newest newest_age temps pump) =
      some (.array (temps.map reading_value)) := by
    simp [value_of, history_document, literal]
  have hp : value_of "p".toList (history_document newest newest_age temps pump) =
      some (.string (pump_text pump)) := by
    simp [value_of, history_document, literal]
  have hpump : (pump_text pump).val.map (fun c => c == '1') = pump := by
    simp [pump_text, Function.comp_def, read_pump_char]
  unfold read_samples
  simp only [ht, hp, htemps, hpump, Option.map_some]

/-! ## What the handler writes -/

/-- Everything written so far, sent or not. -/
def Out.text (o : Out) : CStr := o.chunks.flatten ++ o.buf

variable {α β : Type} {sends : Nat → Bool}

/-- A part of the handler ends with `P`, or at a send that fails; it never
    leaves the buffer. -/
def Ends (sends : Nat → Bool) (P : α → Prop) : Except Failure α → Prop
  | .ok a => P a
  | .error .send_failed => ∃ k, sends k = false
  | .error _ => False

theorem Ends.bind {P : α → Prop} {Q : β → Prop} {x : Except Failure α} {f : α → Except Failure β}
    (hx : Ends sends P x) (hf : ∀ a, P a → Ends sends Q (f a)) : Ends sends Q (x >>= f) := by
  cases x with
  | ok a => exact hf a hx
  | error e =>
    cases e with
    | send_failed => exact hx
    | truncated | overrun => exact hx.elim

theorem Ends.imp {P Q : α → Prop} {x : Except Failure α} (hx : Ends sends P x)
    (hPQ : ∀ a, P a → Q a) : Ends sends Q x := by
  cases x with
  | ok a => exact hPQ a hx
  | error e => cases e <;> exact hx

theorem Ends.and {P Q : α → Prop} {x : Except Failure α} (hP : Ends sends P x)
    (hQ : Ends sends Q x) : Ends sends (fun a => P a ∧ Q a) x := by
  cases x with
  | ok a => exact ⟨hP, hQ⟩
  | error e => cases e <;> exact hP

/-- From `o` to `o'` the text was written, the chunks sent are not empty, and
    at most `bound` bytes are left in the buffer. -/
structure Wrote (o : Out) (text : CStr) (bound : Nat) (o' : Out) : Prop where
  text : o'.text = o.text ++ text
  len : o'.buf.length ≤ bound
  sent : (∀ chunk ∈ o.chunks, chunk ≠ []) → ∀ chunk ∈ o'.chunks, chunk ≠ []

theorem Wrote.trans {o o' o'' : Out} {text text' : CStr} {bound bound' : Nat}
    (h : Wrote o text bound o') (h' : Wrote o' text' bound' o'') :
    Wrote o (text ++ text') bound' o'' where
  text := by rw [h'.text, h.text, List.append_assoc]
  len := h'.len
  sent := fun hsent => h'.sent (h.sent hsent)

theorem Wrote.le {o o' : Out} {text : CStr} {bound bound' : Nat} (h : Wrote o text bound o')
    (hle : bound ≤ bound') : Wrote o text bound' o' where
  text := h.text
  len := Nat.le_trans h.len hle
  sent := h.sent

theorem Wrote.from_start {o : Out} {text : CStr} {bound : Nat}
    (h : Wrote Out.start text bound o) : o.text = text ∧ ∀ chunk ∈ o.chunks, chunk ≠ [] :=
  ⟨h.text, h.sent (by simp [Out.start])⟩

theorem print_at_ends {o : Out} {text : CStr} {len : Nat} (hlen : o.buf.length ≤ len)
    (hfits : len + text.length < BUF_SIZE) :
    Ends sends (Wrote o text (len + text.length)) (print_at o text) := by
  unfold print_at
  rw [dif_pos (by omega)]
  refine ⟨?_, ?_, fun hsent => hsent⟩
  · simp [Out.text]
  · rw [List.length_append]
    omega

/-- A print leaves its text in the buffer. -/
theorem print_at_buf {o : Out} {text : CStr} (hfits : o.buf.length + text.length < BUF_SIZE) :
    Ends sends (fun o' => o'.buf = o.buf ++ text) (print_at o text) := by
  unfold print_at
  rw [dif_pos hfits]
  exact rfl

theorem store_ends {o : Out} {c : Char} {len : Nat} (hlen : o.buf.length ≤ len)
    (hfits : len < BUF_SIZE) : Ends sends (Wrote o [c] (len + 1)) (store o c) := by
  unfold store
  rw [dif_pos (by omega)]
  refine ⟨?_, ?_, fun hsent => hsent⟩
  · simp [Out.text]
  · rw [List.length_append, List.length_singleton]
    omega

/-- A chunk with text in it. -/
theorem send_chunk_ends {o : Out} (hbuf : o.buf ≠ []) :
    Ends sends (Wrote o [] 0) (send_chunk sends o) := by
  unfold send_chunk
  split
  · refine ⟨?_, Nat.le_refl _, fun hsent chunk hchunk => ?_⟩
    · simp [Out.text]
    · rcases List.mem_append.mp hchunk with hchunk | hchunk
      · exact hsent chunk hchunk
      · rwa [List.mem_singleton.mp hchunk]
  · rename_i hsends
    exact ⟨o.chunks.length, by simpa using hsends⟩

/-- The flush leaves the margin free. -/
theorem flush_ends {margin : Nat} (o : Out) :
    Ends sends (Wrote o [] (BUF_SIZE - margin)) (flush sends margin o) := by
  unfold flush
  by_cases hfull : o.buf.length > BUF_SIZE - margin
  · rw [if_pos hfull]
    have hbuf : o.buf ≠ [] := by
      rintro hnil
      rw [hnil, List.length_nil] at hfull
      omega
    exact (send_chunk_ends hbuf).imp fun o' h => h.le (Nat.zero_le _)
  · rw [if_neg hfull]
    exact ⟨by rw [List.append_nil], by omega, fun hsent => hsent⟩

/-- No `%d` of an `int16_t` is longer than `-32768`. -/
theorem reading_length (t : Int16) : (reading t).length ≤ 6 := by
  unfold reading
  split
  · decide
  · have hlow := Int16.le_toInt t
    have hhigh := Int16.toInt_lt t
    exact decimal_length (k := 5) (by decide) (by simp; omega)

/-- One round of the loop over the readings. -/
theorem history_temp_ends (sends : Nat → Bool) (i : Nat) (t : Int16) (o : Out) :
    Ends sends (Wrote o (sep i ++ reading t) 503)
      (flush sends 16 o >>= fun o => print_at o (sep i ++ reading t)) := by
  have htext : (sep i ++ reading t).length ≤ 7 := by
    have hreading := reading_length t
    have hsep : (sep i).length ≤ 1 := by
      unfold sep
      split <;> decide
    rw [List.length_append]
    omega
  apply (flush_ends o).bind
  intro o₁ hflush
  have hprint : Ends sends
      (Wrote o₁ (sep i ++ reading t) (BUF_SIZE - 16 + (sep i ++ reading t).length))
      (print_at o₁ (sep i ++ reading t)) :=
    print_at_ends hflush.len (by simp only [BUF_SIZE]; omega)
  exact hprint.imp fun o₂ h => (hflush.trans h).le (by simp only [BUF_SIZE]; omega)

/-- The readings after the first one, each behind its comma. -/
theorem history_temps_later (sends : Nat → Bool) (temps : List Int16) {i : Nat} (hi : i ≠ 0)
    (o : Out) (hlen : o.buf.length ≤ 503) :
    Ends sends (Wrote o ((temps.map reading).flatMap (',' :: ·)) 503)
      (history_temps sends i temps o) := by
  induction temps generalizing i o with
  | nil => exact ⟨by simp, hlen, fun hsent => hsent⟩
  | cons t temps ih =>
    have hround := history_temp_ends sends i t o
    have hsep : sep i = [','] := if_neg hi
    unfold history_temps
    rw [← bind_assoc]
    apply hround.bind
    intro o₁ hfirst
    have hrest := ih (Nat.succ_ne_zero i) o₁ hfirst.len
    refine hrest.imp fun o₂ h => ?_
    have htext := hfirst.trans h
    rwa [hsep] at htext

theorem history_temps_ends (temps : List Int16) {o : Out} {len : Nat} (hlen : o.buf.length ≤ len) :
    Ends sends (Wrote o (commas (temps.map reading)) (if temps = [] then len else 503))
      (history_temps sends 0 temps o) := by
  cases temps with
  | nil => exact ⟨by simp, hlen, fun hsent => hsent⟩
  | cons t temps =>
    have hround := history_temp_ends sends 0 t o
    unfold history_temps
    rw [← bind_assoc]
    apply hround.bind
    intro o₁ hfirst
    have hrest := history_temps_later sends temps (Nat.succ_ne_zero 0) o₁ hfirst.len
    exact hrest.imp fun o₂ h => hfirst.trans h

theorem history_pump_ends (pump : List Bool) {o : Out} {len : Nat} (hlen : o.buf.length ≤ len) :
    Ends sends (Wrote o (pump.map pump_char) (if pump = [] then len else 505))
      (history_pump sends pump o) := by
  induction pump generalizing o len with
  | nil => exact ⟨by simp, hlen, fun hsent => hsent⟩
  | cons on pump ih =>
    unfold history_pump
    apply (flush_ends o).bind
    intro o₁ hflush
    apply (store_ends hflush.len (c := pump_char on) (by decide)).bind
    intro o₂ hstore
    have hrest := ih hstore.len
    refine hrest.imp fun o₃ h => ((hflush.trans hstore).trans h).le ?_
    rw [if_neg (List.cons_ne_nil _ _)]
    split
    · decide
    · exact Nat.le_refl _

/-- The head of the longest document. -/
theorem history_head_length (newest newest_age : Int64) :
    (history_head newest newest_age).length ≤ 86 := by
  have hdecimal : ∀ n : Int64, (decimal n.toInt).length ≤ 20 := by
    intro n
    have hlow := Int64.le_toInt n
    have hhigh := Int64.toInt_lt n
    exact decimal_length (k := 19) (by decide) (by simp; omega)
  have hperiod : (decimal HISTORY_PERIOD_S).length = 2 := by decide
  have hnewest := hdecimal newest
  have hage := hdecimal newest_age
  unfold history_head
  simp only [List.length_append, hperiod]
  simp
  omega

theorem history_head_eq (newest newest_age : Int64) :
    history_head newest newest_age = "\x7b\"period_s\":60,\"newest\":".toList ++
      decimal newest.toInt ++ ",\"newest_age_s\":".toList ++ decimal newest_age.toInt ++
      ",\"t\":[".toList := by
  have hperiod : decimal HISTORY_PERIOD_S = "60".toList := by decide
  unfold history_head
  rw [hperiod]
  simp

/-- The end of the response: what the buffer holds, and the empty chunk. -/
theorem finish_ends (sends : Nat → Bool) {o : Out} (hbuf : o.buf ≠ []) (hsent : ∀ chunk ∈ o.chunks, chunk ≠ []) :
    Ends sends (fun chunks => ∃ body, chunks = body ++ [[]] ∧ (∀ chunk ∈ body, chunk ≠ []) ∧
        body.flatten = o.text)
      (send_chunk sends o >>= fun o => send_chunk sends o >>= fun o => .ok o.chunks) := by
  apply (send_chunk_ends hbuf).bind
  intro o₁ hsend
  have hempty : o₁.buf = [] := List.length_eq_zero_iff.mp (Nat.le_zero.mp hsend.len)
  have htext : o₁.chunks.flatten = o.text := by
    have htext := hsend.text
    rwa [Out.text, hempty, List.append_nil, List.append_nil] at htext
  unfold send_chunk
  split
  · exact ⟨o₁.chunks, by rw [hempty], hsend.sent hsent, htext⟩
  · rename_i hsends
    exact ⟨o₁.chunks.length, by simpa using hsends⟩

/-- Whatever the sends do, nothing leaves the buffer and no text is cut. -/
theorem history_response_ends (sends : Nat → Bool) (newest newest_age : Int64)
    {temps : List Int16} {pump : List Bool} (hn : temps.length = pump.length) :
    Ends sends (fun chunks => ∃ body, chunks = body ++ [[]] ∧ (∀ chunk ∈ body, chunk ≠ []) ∧
        body.flatten = history_text newest newest_age temps pump)
      (history_response sends newest newest_age temps pump) := by
  have hhead := history_head_length newest newest_age
  have hsame : temps = [] ↔ pump = [] := by
    rw [← List.length_eq_zero_iff, ← List.length_eq_zero_iff, hn]
  have hempty : Out.start.buf.length ≤ 0 := Nat.le_refl 0
  unfold history_response
  apply (print_at_ends hempty (by simp only [BUF_SIZE]; omega)).bind
  intro o₁ h₁
  have hlen₁ : o₁.buf.length ≤ 86 := Nat.le_trans h₁.len (by omega)
  apply (history_temps_ends temps hlen₁).bind
  intro o₂ h₂
  apply (print_at_ends h₂.len (by split <;> decide)).bind
  intro o₃ h₃
  apply (history_pump_ends pump h₃.len).bind
  intro o₄ h₄
  -- without a sample the buffer still holds no more than the head
  have hroom : o₄.buf.length + "\"\x7d".toList.length < BUF_SIZE := by
    have hlen := h₄.len
    by_cases hnil : temps = []
    · rw [if_pos (hsame.mp hnil), if_pos hnil] at hlen
      exact Nat.lt_of_le_of_lt (Nat.add_le_add_right hlen _) (by decide)
    · rw [if_neg (mt hsame.mpr hnil)] at hlen
      exact Nat.lt_of_le_of_lt (Nat.add_le_add_right hlen _) (by decide)
  apply ((print_at_ends (Nat.le_refl _) hroom).and (print_at_buf hroom)).bind
  rintro o₅ ⟨h₅, hbuf⟩
  have hwrote := (((h₁.trans h₂).trans h₃).trans h₄).trans h₅
  have hlast : o₅.buf ≠ [] := by
    rw [hbuf]
    exact List.append_ne_nil_of_right_ne_nil _ (by decide)
  have hfinish := finish_ends sends hlast hwrote.from_start.2
  refine hfinish.imp ?_
  rintro chunks ⟨body, hchunks, hbody, hflat⟩
  refine ⟨body, hchunks, hbody, ?_⟩
  rw [hflat, hwrote.from_start.1, history_head_eq]
  exact rfl

/-- The response when every send succeeds. -/
theorem response_streamed (newest newest_age : Int64) {temps : List Int16} {pump : List Bool}
    (hn : temps.length = pump.length) :
    ∃ chunks, history_response (fun _ => true) newest newest_age temps pump =
        .ok (chunks ++ [[]]) ∧
      (∀ chunk ∈ chunks, chunk ≠ []) ∧
      chunks.flatten = history_text newest newest_age temps pump ∧
      parse chunks.flatten = some (history_document newest newest_age temps pump) := by
  have hends := history_response_ends (fun _ => true) newest newest_age hn
  cases hresponse : history_response (fun _ => true) newest newest_age temps pump with
  | error e =>
    rw [hresponse] at hends
    cases e with
    | send_failed =>
      obtain ⟨k, hk⟩ := hends
      cases hk
    | truncated | overrun => exact hends.elim
  | ok chunks =>
    rw [hresponse] at hends
    obtain ⟨body, rfl, hbody, hflat⟩ := hends
    refine ⟨body, rfl, hbody, hflat, ?_⟩
    rw [hflat, ← render_history_document, parse_render]

/-- **The streamed document is the plain one.**  For any samples and any
    header values, when every send succeeds: the handler ends, which it only
    does when every print and every store stayed inside the buffer; only the
    last chunk is empty; and what the others hold together is the text of the
    document, which parses to the document and gives the samples back. -/
theorem history_streamed {n : Nat} (newest newest_age : Int64) (temps : Vector Int16 n)
    (pump : Vector Bool n) :
    ∃ chunks, history_response (fun _ => true) newest newest_age temps.toList pump.toList =
        .ok (chunks ++ [[]]) ∧
      (∀ chunk ∈ chunks, chunk ≠ []) ∧
      chunks.flatten = history_text newest newest_age temps.toList pump.toList ∧
      ∃ document, parse chunks.flatten = some document ∧
        document = history_document newest newest_age temps.toList pump.toList ∧
        read_samples document = some (temps.toList, pump.toList) := by
  have hn : temps.toList.length = pump.toList.length := by
    rw [Vector.length_toList, Vector.length_toList]
  obtain ⟨chunks, hresponse, hbody, hflat, hparse⟩ := response_streamed newest newest_age hn
  exact ⟨chunks, hresponse, hbody, hflat, _, hparse, rfl, read_samples_document _ _ _ _⟩

/-- After any additions the answer of the handler reads back as the samples
    that are kept, the latest ones. -/
theorem history_handler_samples (adds : List Add) (c : HandlerClock) :
    ∃ chunks document, history_handler (fun _ => true) (history_run adds) c =
        .ok (chunks ++ [[]]) ∧ parse chunks.flatten = some document ∧
      read_samples document =
        some ((adds.rtake HISTORY_SAMPLES).map Add.stored,
          (adds.rtake HISTORY_SAMPLES).map Add.pump_on) := by
  have hcopy := (history_run_inRing adds).copy_all
  have hn : ((adds.rtake HISTORY_SAMPLES).map Add.stored).length =
      ((adds.rtake HISTORY_SAMPLES).map Add.pump_on).length := by
    rw [List.length_map, List.length_map]
  unfold history_handler
  simp only [hcopy]
  obtain ⟨chunks, hresponse, -, -, hparse⟩ := response_streamed _ _ hn
  exact ⟨chunks, _, hresponse, hparse, read_samples_document _ _ _ _⟩

end FloorHeating
