import Mathlib.Data.List.Basic
import Mathlib.Data.Int.Basic

/-! # JSON texts

    Values, the text of a value without white space, and a parser for such
    texts.  Strings hold only what needs no escape, and numbers are whole:
    what the parser accepts a full one reads as the same value.

    * `parse_render`: parsing the text of a value gives the value back. -/

namespace Json

variable {α : Type}

/-! ## Values and their texts -/

/-- A character that stands for itself in a string. -/
def Plain (c : Char) : Prop := c ≠ '"' ∧ c ≠ '\\' ∧ ' ' ≤ c

instance (c : Char) : Decidable (Plain c) := inferInstanceAs (Decidable (_ ∧ _ ∧ _))

/-- The contents of a string. -/
abbrev Text := {text : List Char // ∀ c ∈ text, Plain c}

/-- A string that is known: the check is evaluated. -/
def literal (text : List Char) (h : (text.all fun c => decide (Plain c)) = true) : Text :=
  ⟨text, fun c hc => of_decide_eq_true (List.all_eq_true.mp h c hc)⟩

inductive Value where
  | null
  | number (n : Int)
  | string (text : Text)
  | array (items : List Value)
  | object (fields : List (Text × Value))

/-- A number in decimal, as `%d` prints it. -/
def decimal (n : Int) : List Char :=
  if n < 0 then '-' :: Nat.toDigits 10 n.natAbs else Nat.toDigits 10 n.natAbs

/-- Texts with commas between them. -/
def commas : List (List Char) → List Char
  | [] => []
  | text :: more => text ++ more.flatMap (',' :: ·)

@[simp] theorem commas_nil : commas [] = [] := rfl

@[simp] theorem commas_cons (text : List Char) (more : List (List Char)) :
    commas (text :: more) = text ++ more.flatMap (',' :: ·) := rfl

/-- A string in its quotes. -/
def quoted (text : Text) : List Char := '"' :: text.val ++ ['"']

mutual

/-- The text of a value. -/
def render : Value → List Char
  | .null => "null".toList
  | .number n => decimal n
  | .string text => quoted text
  | .array items => '[' :: commas (render_items items) ++ [']']
  | .object fields => '{' :: commas (render_fields fields) ++ ['}']

def render_items : List Value → List (List Char)
  | [] => []
  | item :: items => render item :: render_items items

def render_fields : List (Text × Value) → List (List Char)
  | [] => []
  | (key, value) :: fields => (quoted key ++ ':' :: render value) :: render_fields fields

end

/-- The text of a field. -/
def render_field (f : Text × Value) : List Char := quoted f.1 ++ ':' :: render f.2

theorem render_items_eq (vs : List Value) : render_items vs = vs.map render := by
  induction vs with
  | nil => simp [render_items]
  | cons v vs ih => simp [render_items, ih]

theorem render_fields_eq (fs : List (Text × Value)) : render_fields fs = fs.map render_field := by
  induction fs with
  | nil => simp [render_fields]
  | cons f fs ih => simp [render_fields, render_field, ih]

/-- Induction over the values inside a value. -/
theorem Value.ind {P : Value → Prop} (null : P .null) (number : ∀ n, P (.number n))
    (string : ∀ text, P (.string text)) (array : ∀ vs, (∀ v ∈ vs, P v) → P (.array vs))
    (object : ∀ fs, (∀ f ∈ fs, P f.2) → P (.object fs)) (v : Value) : P v :=
  Value.rec (motive_1 := P) (motive_2 := fun vs => ∀ v ∈ vs, P v)
    (motive_3 := fun fs => ∀ f ∈ fs, P f.2) (motive_4 := fun f => P f.2)
    null number string array object
    (by simp) (fun _ _ hv hvs => List.forall_mem_cons.mpr ⟨hv, hvs⟩)
    (by simp) (fun _ _ hf hfs => List.forall_mem_cons.mpr ⟨hf, hfs⟩) (fun _ _ hv => hv) v

/-! ## The parser -/

/-- A reader takes a value off the front of a text. -/
abbrev Reader (α : Type) := List Char → Option (α × List Char)

/-- One character. -/
def expect (c : Char) : List Char → Option (List Char)
  | [] => none
  | d :: rest => if d = c then some rest else none

/-- Some characters. -/
def keyword : List Char → List Char → Option (List Char)
  | [], text => some text
  | c :: word, text => expect c text >>= keyword word

/-- The rest of a string, after its opening quote. -/
def string : Reader Text
  | [] => none
  | c :: rest =>
    if c = '"' then some (⟨[], by simp⟩, rest)
    else if hc : Plain c then
      (string rest).map fun (text, rest) =>
        (⟨c :: text.val, by simpa [hc] using text.property⟩, rest)
    else none

/-- The digits of a number, without leading zeros. -/
def digits : Reader Nat := fun text =>
  let word := text.takeWhile Char.isDigit
  let n := Nat.ofDigitChars 10 word 0
  if Nat.toDigits 10 n = word then some (n, text.dropWhile Char.isDigit) else none

def number : Reader Int := fun text =>
  match expect '-' text with
  | some rest => (digits rest).map fun (n, rest) => (-(n : Int), rest)
  | none => (digits text).map fun (n, rest) => ((n : Int), rest)

/-- The items after the first one, each behind a comma, up to the closing
    bracket. -/
def more (item : Reader α) (close : Char) : Nat → Reader (List α)
  | 0, _ => none
  | _ + 1, [] => none
  | fuel + 1, c :: rest =>
    if c = close then some ([], rest)
    else if c = ',' then do
      let (x, rest) ← item rest
      let (xs, rest) ← more item close fuel rest
      some (x :: xs, rest)
    else none

/-- The items of a list, up to its closing bracket. -/
def items (item : Reader α) (close : Char) (fuel : Nat) : Reader (List α) := fun text =>
  match expect close text with
  | some rest => some ([], rest)
  | none => do
    let (x, rest) ← item text
    let (xs, rest) ← more item close fuel rest
    some (x :: xs, rest)

/-- A field of an object. -/
def field (item : Reader α) : Reader (Text × α) := fun text => do
  let rest ← expect '"' text
  let (key, rest) ← string rest
  let rest ← expect ':' rest
  let (x, rest) ← item rest
  some ((key, x), rest)

/-- A value, of at most `fuel` levels. -/
def value : Nat → Reader Value
  | 0, _ => none
  | _ + 1, [] => none
  | fuel + 1, c :: rest =>
    if c = 'n' then (keyword "ull".toList rest).map fun rest => (.null, rest)
    else if c = '"' then (string rest).map fun (text, rest) => (.string text, rest)
    else if c = '[' then (items (value fuel) ']' fuel rest).map fun (vs, rest) => (.array vs, rest)
    else if c = '{' then
      (items (field (value fuel)) '}' fuel rest).map fun (fs, rest) => (.object fs, rest)
    else (number (c :: rest)).map fun (n, rest) => (.number n, rest)

/-- The value of a whole text. -/
def parse (text : List Char) : Option Value :=
  match value text.length text with
  | some (v, []) => some v
  | _ => none

/-! ## Numbers -/

theorem decimal_length {n : Int} {k : Nat} (hk : 0 < k) (h : n.natAbs < Nat.pow 10 k) :
    (decimal n).length ≤ k + 1 := by
  have hdigits := (Nat.length_toDigits_le_iff (b := 10) (by decide) hk).mpr h
  unfold decimal
  split
  · rw [List.length_cons]
    omega
  · omega

/-- Text that a number can stand before. -/
def Stops (rest : List Char) : Prop := ∀ c ∈ rest.head?, c.isDigit = false

theorem stops_cons {c : Char} {rest : List Char} (hc : c.isDigit = false) : Stops (c :: rest) := by
  intro d hd
  rw [List.head?_cons, Option.mem_some] at hd
  rw [← hd, hc]

theorem toDigits_isDigit {n : Nat} {c : Char} (h : c ∈ Nat.toDigits 10 n) : c.isDigit = true :=
  Nat.isDigit_of_mem_toDigits (by decide) (by decide) h

theorem digits_toDigits (n : Nat) {rest : List Char} (hrest : Stops rest) :
    digits (Nat.toDigits 10 n ++ rest) = some (n, rest) := by
  have hall : ∀ c ∈ Nat.toDigits 10 n, c.isDigit = true := fun c => toDigits_isDigit
  have htake : rest.takeWhile Char.isDigit = [] ∧ rest.dropWhile Char.isDigit = rest := by
    cases rest with
    | nil => exact ⟨rfl, rfl⟩
    | cons c rest =>
      have hc : c.isDigit = false := hrest c rfl
      simp [hc]
  have hword : (Nat.toDigits 10 n ++ rest).takeWhile Char.isDigit = Nat.toDigits 10 n := by
    rw [List.takeWhile_append_of_pos hall, htake.1, List.append_nil]
  have hleft : (Nat.toDigits 10 n ++ rest).dropWhile Char.isDigit = rest := by
    rw [List.dropWhile_append_of_pos hall, htake.2]
  unfold digits
  simp only [hword, hleft, Nat.ofDigitChars_ten_toDigits, if_true]

/-- A natural number and the text behind it can be told apart. -/
theorem toDigits_append_inj {n m : Nat} {rest rest' : List Char} (hrest : Stops rest)
    (hrest' : Stops rest') :
    Nat.toDigits 10 n ++ rest = Nat.toDigits 10 m ++ rest' ↔ n = m ∧ rest = rest' := by
  constructor
  · intro h
    have hread := digits_toDigits m hrest'
    rw [← h, digits_toDigits n hrest] at hread
    simpa using hread
  · rintro ⟨rfl, rfl⟩
    rfl

/-- A number starts with a sign or a digit. -/
theorem decimal_cons (n : Int) :
    ∃ c text, decimal n = c :: text ∧ (c = '-' ∨ c.isDigit = true) := by
  unfold decimal
  split
  · exact ⟨'-', _, rfl, Or.inl rfl⟩
  · obtain ⟨c, text, hdigits⟩ := List.exists_cons_of_ne_nil (Nat.toDigits_ne_nil (n := n.natAbs))
    exact ⟨c, text, hdigits, Or.inr (toDigits_isDigit (hdigits ▸ List.mem_cons_self))⟩

/-! ## The parser inverts the texts -/

/-- The reader takes this text for this value. -/
def Reads (p : Reader α) (text : List Char) (x : α) : Prop :=
  ∀ rest, Stops rest → p (text ++ rest) = some (x, rest)

theorem number_reads (n : Int) : Reads number (decimal n) n := by
  intro rest hrest
  have hdigits := digits_toDigits n.natAbs hrest
  unfold number decimal
  by_cases hn : n < 0
  · rw [if_pos hn]
    have habs : -(n.natAbs : Int) = n := by omega
    have hsign : expect '-' ('-' :: (Nat.toDigits 10 n.natAbs ++ rest)) =
        some (Nat.toDigits 10 n.natAbs ++ rest) := by simp [expect]
    simp only [List.cons_append, hsign, hdigits, Option.map_some, habs]
  · rw [if_neg hn]
    have habs : (n.natAbs : Int) = n := by omega
    have hsign : expect '-' (Nat.toDigits 10 n.natAbs ++ rest) = none := by
      obtain ⟨c, text, htext⟩ := List.exists_cons_of_ne_nil (Nat.toDigits_ne_nil (n := n.natAbs))
      have hc : c ≠ '-' := by
        rintro rfl
        exact absurd (toDigits_isDigit (htext ▸ List.mem_cons_self)) (by decide)
      simp [htext, expect, hc]
    simp only [hsign, hdigits, Option.map_some, habs]

theorem string_quoted (text : Text) (rest : List Char) :
    string (text.val ++ '"' :: rest) = some (text, rest) := by
  obtain ⟨text, htext⟩ := text
  induction text with
  | nil => simp [string]
  | cons c text ih =>
    have hc : Plain c := htext c List.mem_cons_self
    have hquote : c ≠ '"' := hc.1
    have ih := ih fun d hd => htext d (List.mem_cons_of_mem _ hd)
    simp only at ih
    simp [string, hquote, hc, ih]

section Items

variable {item : Reader α} {print : α → List Char} {close : Char}

/-- What stands behind an item is a comma or the bracket. -/
theorem stops_items (print : α → List Char) (hclose : close.isDigit = false) (xs : List α)
    (rest : List Char) :
    Stops ((xs.map print).flatMap (',' :: ·) ++ close :: rest) := by
  cases xs with
  | nil => exact stops_cons hclose
  | cons y ys => exact stops_cons (by decide)

theorem more_reads (hclose : close.isDigit = false) (hcomma : close ≠ ',') (xs : List α)
    (hitem : ∀ x ∈ xs, Reads item (print x) x) (fuel : Nat) (hfuel : xs.length < fuel)
    (rest : List Char) :
    more item close fuel ((xs.map print).flatMap (',' :: ·) ++ close :: rest) = some (xs, rest) := by
  induction xs generalizing fuel with
  | nil =>
    obtain ⟨fuel, rfl⟩ := Nat.exists_eq_succ_of_ne_zero (by omega : fuel ≠ 0)
    simp [more]
  | cons x xs ih =>
    obtain ⟨fuel, rfl⟩ := Nat.exists_eq_succ_of_ne_zero (by omega : fuel ≠ 0)
    have hx := hitem x List.mem_cons_self
    have ih := ih (fun y hy => hitem y (List.mem_cons_of_mem _ hy)) fuel
      (by rw [List.length_cons] at hfuel; omega)
    have hread := hx _ (stops_items print hclose xs rest)
    simp only [List.map_cons, List.flatMap_cons, List.cons_append, List.append_assoc, more,
      if_neg hcomma.symm, if_true, hread, Option.bind_eq_bind, Option.bind_some, ih]

theorem items_reads (hclose : close.isDigit = false) (hcomma : close ≠ ',') (xs : List α)
    (hitem : ∀ x ∈ xs, Reads item (print x) x)
    (hhead : ∀ x ∈ xs, ∃ c text, print x = c :: text ∧ c ≠ close)
    (fuel : Nat) (hfuel : xs.length ≤ fuel) (rest : List Char) :
    items item close fuel (commas (xs.map print) ++ close :: rest) = some (xs, rest) := by
  cases xs with
  | nil => simp [items, commas, expect]
  | cons x xs =>
    have hmore := more_reads hclose hcomma xs (fun y hy => hitem y (List.mem_cons_of_mem _ hy))
      fuel (by rw [List.length_cons] at hfuel; omega) rest
    have hread := hitem x List.mem_cons_self _ (stops_items print hclose xs rest)
    obtain ⟨c, text, hprint, hc⟩ := hhead x List.mem_cons_self
    have hopen : expect close (print x ++ ((xs.map print).flatMap (',' :: ·) ++ close :: rest)) =
        none := by simp [hprint, expect, hc]
    simp only [items, List.map_cons, commas, List.append_assoc, hopen, hread, Option.bind_eq_bind,
      Option.bind_some, hmore]

end Items

theorem field_reads {item : Reader Value} {f : Text × Value}
    (hitem : Reads item (render f.2) f.2) : Reads (field item) (render_field f) f := by
  intro rest hrest
  have hread := hitem rest hrest
  simp [field, render_field, quoted, expect, string_quoted, hread]

/-- No value starts with a closing bracket. -/
theorem render_cons (v : Value) : ∃ c text, render v = c :: text ∧ c ≠ ']' := by
  cases v with
  | null => exact ⟨'n', "ull".toList, by simp [render], by decide⟩
  | number n =>
    obtain ⟨c, text, hn, hc⟩ := decimal_cons n
    refine ⟨c, text, by rw [render, hn], ?_⟩
    rintro rfl
    revert hc
    decide
  | string text => exact ⟨'"', text.val ++ ['"'], by simp [render, quoted], by decide⟩
  | array items => exact ⟨'[', commas (render_items items) ++ [']'], by simp [render], by decide⟩
  | object fields =>
    exact ⟨'\x7b', commas (render_fields fields) ++ ['\x7d'], by simp [render], by decide⟩

theorem length_le_commas {text : List Char} {texts : List (List Char)} (h : text ∈ texts) :
    text.length ≤ (commas texts).length := by
  cases texts with
  | nil => simp at h
  | cons first more =>
    rw [commas, List.length_append]
    rcases List.mem_cons.mp h with rfl | h
    · omega
    · have hsub := List.sublist_flatten_of_mem
        (List.mem_map_of_mem (f := fun text : List Char => ',' :: text) h)
      have hlen := hsub.length_le
      rw [← List.flatMap_def, List.length_cons] at hlen
      omega

theorem count_le_commas (texts : List (List Char)) : texts.length ≤ (commas texts).length + 1 := by
  cases texts with
  | nil => simp
  | cons first more =>
    have hmore : ∀ texts : List (List Char), texts.length ≤ (texts.flatMap (',' :: ·)).length := by
      intro texts
      induction texts with
      | nil => simp
      | cons text texts ih =>
        rw [List.flatMap_cons, List.length_append, List.length_cons, List.length_cons]
        omega
    have := hmore more
    rw [commas, List.length_append, List.length_cons]
    omega

theorem render_length_pos (v : Value) : 0 < (render v).length := by
  obtain ⟨c, text, hcons, -⟩ := render_cons v
  rw [hcons, List.length_cons]
  omega

/-- With fuel for its length a value is read back from its text. -/
theorem value_reads (v : Value) (fuel : Nat) (hfuel : (render v).length ≤ fuel + 1) :
    Reads (value (fuel + 1)) (render v) v := by
  induction v using Value.ind generalizing fuel with
  | null =>
    intro rest hrest
    simp [render, value, keyword, expect]
  | number n =>
    intro rest hrest
    have hread := number_reads n rest hrest
    obtain ⟨c, text, hn, hc⟩ := decimal_cons n
    -- no other value starts like a number
    have hne : c ≠ 'n' ∧ c ≠ '"' ∧ c ≠ '[' ∧ c ≠ '\x7b' := by
      refine ⟨?_, ?_, ?_, ?_⟩ <;> rintro rfl <;> revert hc <;> decide
    rw [hn, List.cons_append] at hread
    rw [render, hn, List.cons_append]
    simp [value, hne, hread]
  | string text =>
    intro rest hrest
    simp [render, quoted, value, string_quoted]
  | array vs ih =>
    intro rest hrest
    rw [render, render_items_eq] at hfuel ⊢
    rw [List.length_append, List.length_cons, List.length_singleton] at hfuel
    have hcount := count_le_commas (vs.map render)
    rw [List.length_map] at hcount
    have hitem : ∀ v ∈ vs, Reads (value fuel) (render v) v := by
      intro v hv
      have hlen := length_le_commas (List.mem_map_of_mem (f := render) hv)
      have hpos := render_length_pos v
      have hread := ih v hv (fuel - 1) (by omega)
      rwa [Nat.sub_add_cancel (by omega)] at hread
    have hread : items (value fuel) ']' fuel (commas (vs.map render) ++ ']' :: rest) =
        some (vs, rest) :=
      items_reads (by decide) (by decide) vs hitem (fun v _ => render_cons v) fuel (by omega) rest
    simp [value, hread]
  | object fs ih =>
    intro rest hrest
    rw [render, render_fields_eq] at hfuel ⊢
    rw [List.length_append, List.length_cons, List.length_singleton] at hfuel
    have hcount := count_le_commas (fs.map render_field)
    rw [List.length_map] at hcount
    have hitem : ∀ f ∈ fs, Reads (field (value fuel)) (render_field f) f := by
      intro f hf
      have hlen := length_le_commas (List.mem_map_of_mem (f := render_field) hf)
      have hpos := render_length_pos f.2
      rw [render_field, List.length_append, List.length_cons] at hlen
      have hread := ih f hf (fuel - 1) (by omega)
      rw [Nat.sub_add_cancel (by omega)] at hread
      exact field_reads hread
    have hhead : ∀ f ∈ fs, ∃ c text, render_field f = c :: text ∧ c ≠ '\x7d' := fun f _ =>
      ⟨'"', f.1.val ++ '"' :: ':' :: render f.2, by simp [render_field, quoted], by decide⟩
    have hread : items (field (value fuel)) '\x7d' fuel
        (commas (fs.map render_field) ++ '\x7d' :: rest) = some (fs, rest) :=
      items_reads (by decide) (by decide) fs hitem hhead fuel (by omega) rest
    simp [value, hread]

/-- **Parsing inverts rendering.** -/
theorem parse_render (v : Value) : parse (render v) = some v := by
  have hpos := render_length_pos v
  have hread := value_reads v ((render v).length - 1) (by omega) [] (by simp [Stops])
  rw [List.append_nil, Nat.sub_add_cancel hpos] at hread
  unfold parse
  rw [hread]

end Json
