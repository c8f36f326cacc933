import FloorHeating.Lib.Json

/-! # IPv4 addresses as text

    * `IpAddress.text_inj`: different addresses have different dotted quads.
    * `IpAddress.text_length`: how long a dotted quad is. -/

namespace DottedQuad

open Json

/-- An IPv4 address, by its octets. -/
structure IpAddress where
  a : UInt8
  b : UInt8
  c : UInt8
  d : UInt8
  deriving DecidableEq, Repr

/-- The octet in decimal. -/
def octet (n : UInt8) : List Char := Nat.toDigits 10 n.toNat

/-- The dotted quad. -/
def IpAddress.text (ip : IpAddress) : List Char :=
  octet ip.a ++ '.' :: (octet ip.b ++ '.' :: (octet ip.c ++ '.' :: octet ip.d))

theorem octet_append_inj {n m : UInt8} {rest rest' : List Char} (hrest : Stops rest)
    (hrest' : Stops rest') : octet n ++ rest = octet m ++ rest' ↔ n = m ∧ rest = rest' := by
  rw [octet, octet, toDigits_append_inj hrest hrest', UInt8.toNat_inj]

/-- Different addresses have different texts. -/
theorem IpAddress.text_inj {x y : IpAddress} : x.text = y.text ↔ x = y := by
  have hdot : ∀ rest : List Char, Stops ('.' :: rest) := fun rest => stops_cons (by decide)
  have hlast : octet x.d = octet y.d ↔ x.d = y.d := by
    have hnil : Stops [] := by simp [Stops]
    have hend : octet x.d ++ [] = octet y.d ++ [] ↔ _ := octet_append_inj hnil hnil
    simpa using hend
  constructor
  · intro h
    obtain ⟨ha, h⟩ := (octet_append_inj (hdot _) (hdot _)).mp h
    obtain ⟨hb, h⟩ := (octet_append_inj (hdot _) (hdot _)).mp (List.cons.inj h).2
    obtain ⟨hc, h⟩ := (octet_append_inj (hdot _) (hdot _)).mp (List.cons.inj h).2
    have hd := hlast.mp (List.cons.inj h).2
    cases x
    cases y
    simp only at ha hb hc hd
    rw [ha, hb, hc, hd]
  · rintro rfl
    rfl

theorem digits_length (n : Nat) :
    ((Nat.toDigits 10 n).length ≤ 3 ↔ n < 1000) ∧ ((Nat.toDigits 10 n).length ≤ 2 ↔ n < 100) :=
  ⟨Nat.length_toDigits_le_iff (by decide) (by decide),
    Nat.length_toDigits_le_iff (by decide) (by decide)⟩

/-- An octet has three digits from 100 on. -/
theorem octet_length (n : UInt8) :
    (octet n).length ≤ 3 ∧ ((octet n).length ≤ 2 ↔ n < 100) := by
  have hlt := n.toNat_lt
  obtain ⟨hthree, htwo⟩ := digits_length n.toNat
  refine ⟨hthree.mpr (by omega), ?_⟩
  rw [octet, htwo, UInt8.lt_iff_toNat_lt]
  rfl

/-- One of the octets is below 100. -/
def IpAddress.Short (ip : IpAddress) : Prop :=
  ip.a < 100 ∨ ip.b < 100 ∨ ip.c < 100 ∨ ip.d < 100

/-- A dotted quad has fifteen characters, or fewer if an octet is short. -/
theorem IpAddress.text_length (ip : IpAddress) :
    ip.text.length ≤ 15 ∧ (ip.text.length ≤ 14 ↔ ip.Short) := by
  obtain ⟨ha, ha'⟩ := octet_length ip.a
  obtain ⟨hb, hb'⟩ := octet_length ip.b
  obtain ⟨hc, hc'⟩ := octet_length ip.c
  obtain ⟨hd, hd'⟩ := octet_length ip.d
  unfold IpAddress.Short
  rw [← ha', ← hb', ← hc', ← hd']
  simp only [IpAddress.text, List.length_append, List.length_cons]
  omega

end DottedQuad
