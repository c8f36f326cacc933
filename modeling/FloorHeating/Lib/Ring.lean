import Mathlib.Data.List.DropRight

/-! # A ring that keeps the latest elements

    A ring of `n` slots with the position of the next write and the number
    of slots in use.  `Holds` says that it holds the end of a log, the whole
    of what was ever written; one rule for a write, and one for each of the
    two ways to read it back.

    * `Holds.push`: a write appends to the log.
    * `Holds.recent`: backwards from the head, newest first.
    * `Holds.latest`: forwards to the head, oldest first. -/

namespace Ring

universe u

variable {α : Type u} {n : Nat}

/-- The slot of the element written `i` writes before the latest one. -/
def slot (hn : 0 < n) (head i : Nat) : Fin n := ⟨(head + n - 1 - i) % n, Nat.mod_lt _ hn⟩

/-- The slot, without the division. -/
theorem slot_val (hn : 0 < n) {head i : Nat} (hhead : head < n) (hi : i < n) :
    (slot hn head i).val = if i < head then head - 1 - i else head + n - 1 - i := by
  unfold slot
  dsimp only
  split
  · have hwrap : head + n - 1 - i = (head - 1 - i) + n := by omega
    rw [hwrap, Nat.add_mod_right, Nat.mod_eq_of_lt (by omega)]
  · exact Nat.mod_eq_of_lt (by omega)

/-- The next write position. -/
theorem advance_val {head : Nat} (hhead : head < n) :
    (head + 1) % n = if head + 1 = n then 0 else head + 1 := by
  split
  · rename_i h
    rw [h, Nat.mod_self]
  · exact Nat.mod_eq_of_lt (by omega)

theorem slot_zero (hn : 0 < n) {head : Nat} (hhead : head < n) :
    (slot hn ((head + 1) % n) 0).val = head := by
  have hadv := advance_val hhead
  rw [slot_val hn (Nat.mod_lt _ hn) hn, hadv]
  split <;> split <;> omega

/-- A write makes every element one write older. -/
theorem slot_succ (hn : 0 < n) {head i : Nat} (hhead : head < n) (hi : i + 1 < n) :
    slot hn ((head + 1) % n) (i + 1) = slot hn head i := by
  have hadv := advance_val hhead
  apply Fin.ext
  rw [slot_val hn (Nat.mod_lt _ hn) hi, slot_val hn hhead (by omega), hadv]
  split <;> split <;> split <;> omega

/-- The slot of the next write is that of no element that survives it. -/
theorem slot_ne_head (hn : 0 < n) {head i : Nat} (hhead : head < n) (hi : i + 1 < n) :
    (slot hn head i).val ≠ head := by
  rw [slot_val hn hhead (by omega)]
  split <;> omega

/-- The ring holds the end of the log. -/
structure Holds (hn : 0 < n) (cell : Fin n → α) (head count : Nat) (log : List α) : Prop where
  head_eq : head = log.length % n
  count_eq : count = min log.length n
  cells : ∀ i, i < count → log.reverse[i]? = some (cell (slot hn head i))

theorem Holds.empty (hn : 0 < n) (cell : Fin n → α) : Holds hn cell 0 0 [] where
  head_eq := (Nat.zero_mod n).symm
  count_eq := (Nat.zero_min n).symm
  cells := by
    intro i hi
    exact absurd hi (Nat.not_lt_zero i)

theorem Holds.head_lt {hn : 0 < n} {cell : Fin n → α} {head count : Nat} {log : List α}
    (h : Holds hn cell head count log) : head < n := by
  rw [h.head_eq]
  exact Nat.mod_lt _ hn

/-- A write at the head, which moves on; the other slots keep what they have. -/
theorem Holds.push {hn : 0 < n} {cell cell' : Fin n → α} {head count : Nat} {log : List α}
    (h : Holds hn cell head count log) {x : α} (hnew : ∀ i, i.val = head → cell' i = x)
    (hother : ∀ i, i.val ≠ head → cell' i = cell i) :
    Holds hn cell' ((head + 1) % n) (if count < n then count + 1 else count) (log ++ [x]) where
  head_eq := by
    rw [h.head_eq, List.length_append, List.length_singleton, Nat.mod_add_mod]
  count_eq := by
    have hcount := h.count_eq
    rw [List.length_append, List.length_singleton]
    split <;> omega
  cells := by
    have hhead := h.head_lt
    have hcount := h.count_eq
    intro i hi
    rw [List.reverse_append, List.reverse_singleton, List.singleton_append]
    cases i with
    | zero => rw [List.getElem?_cons_zero, hnew _ (slot_zero hn hhead)]
    | succ i =>
      -- an element from before, in the slot where it was
      have hi' : i < count ∧ i + 1 < n := by
        split at hi <;> omega
      rw [List.getElem?_cons_succ, h.cells i hi'.1, slot_succ hn hhead hi'.2,
        hother _ (slot_ne_head hn hhead hi'.2)]

/-- Backwards from the head the latest elements come newest first. -/
theorem Holds.recent {hn : 0 < n} {cell : Fin n → α} {head count : Nat} {log : List α}
    (h : Holds hn cell head count log) {k : Nat} (hk : k ≤ count) :
    (List.range k).map (fun i => cell (slot hn head i)) = log.reverse.take k := by
  have hcount := h.count_eq
  apply List.ext_getElem?
  intro i
  rw [List.getElem?_map, List.getElem?_take]
  by_cases hi : i < k
  · rw [List.getElem?_range hi, if_pos hi, h.cells i (by omega)]
    rfl
  · rw [if_neg hi, List.getElem?_eq_none (by simpa using hi)]
    rfl

/-- The slot `i` steps after the oldest of the latest `k`. -/
theorem slot_forward (hn : 0 < n) {head k i : Nat} (hk : k ≤ n) (hi : i < k) :
    ((head + n - k) % n + i) % n = (slot hn head (k - 1 - i)).val := by
  have hwrap : head + n - k + i = head + n - 1 - (k - 1 - i) := by omega
  rw [Nat.mod_add_mod, hwrap]
  rfl

/-- Forwards to the head the latest elements come oldest first. -/
theorem Holds.latest {hn : 0 < n} {cell : Fin n → α} {head count : Nat} {log : List α}
    (h : Holds hn cell head count log) {k : Nat} (hk : k ≤ count) :
    (List.range k).map (fun i => cell ⟨((head + n - k) % n + i) % n, Nat.mod_lt _ hn⟩) =
      log.rtake k := by
  have hcount := h.count_eq
  apply List.ext_getElem?
  intro i
  rw [List.getElem?_map, List.rtake, List.getElem?_drop]
  by_cases hi : i < k
  · have hcell := h.cells (k - 1 - i) (by omega)
    rw [List.getElem?_reverse (by omega)] at hcell
    have hpos : log.length - 1 - (k - 1 - i) = log.length - k + i := by omega
    rw [hpos] at hcell
    rw [List.getElem?_range hi, hcell]
    exact congrArg some (congrArg cell (Fin.ext (slot_forward hn (by omega) hi)))
  · rw [List.getElem?_eq_none (by simpa using hi), List.getElem?_eq_none (by omega)]
    rfl

end Ring
