import MustachePath.Text.Basic

/-!
# Texts as bytes

In UTF-8 a character of ASCII is one byte, and the bytes of any other character are all beyond
ASCII. So a byte of ASCII among the bytes of a text is a character of the text
(`exists_utf8EncodeChar_eq_cons`).
-/

namespace MustachePath.Text

/-- The bytes of a text in UTF-8. -/
def bytes (cs : Text) : List UInt8 := cs.flatMap String.utf8EncodeChar

@[simp] theorem bytes_nil : bytes [] = [] := rfl

theorem bytes_cons (c : Char) (cs : Text) :
    bytes (c :: cs) = String.utf8EncodeChar c ++ bytes cs := rfl

theorem toNat_toUInt8 {c : Char} (hc : c.toNat < 128) : c.toUInt8.toNat = c.toNat := by
  have hmod : c.toUInt8.toNat = c.toNat % 256 := rfl
  omega

theorem utf8EncodeChar_of_ascii {c : Char} (hc : c.toNat < 128) :
    String.utf8EncodeChar c = [c.toUInt8] := by
  have hval : c.val.toNat ≤ 0x7f := Nat.le_of_lt_succ hc
  rw [String.utf8EncodeChar, if_pos hval]
  rfl

/-- All bytes of a character beyond ASCII are beyond ASCII. -/
theorem le_of_mem_utf8EncodeChar {c : Char} (hc : 128 ≤ c.toNat) :
    ∀ b ∈ String.utf8EncodeChar c, 128 ≤ b.toNat := by
  have hval : ¬ c.val.toNat ≤ 0x7f := Nat.not_le_of_lt hc
  intro b hb
  rw [String.utf8EncodeChar, if_neg hval] at hb
  -- two, three or four bytes
  split at hb
  · simp only [List.mem_cons, List.not_mem_nil, or_false] at hb
    obtain rfl | rfl := hb <;> (simp; omega)
  · split at hb
    · simp only [List.mem_cons, List.not_mem_nil, or_false] at hb
      obtain rfl | rfl | rfl := hb <;> (simp; omega)
    · simp only [List.mem_cons, List.not_mem_nil, or_false] at hb
      obtain rfl | rfl | rfl | rfl := hb <;> (simp; omega)

/-- Whether a byte looks like a character: it is the byte of a character of ASCII exactly if the
character is that one. -/
def LooksLike (b : UInt8) (c : Char) : Prop := ∀ x : Char, x.toNat < 128 → (b = x.toUInt8 ↔ c = x)

/-- The first byte of a character looks like the character, and the further bytes are beyond
ASCII. -/
theorem exists_utf8EncodeChar_eq_cons (c : Char) :
    ∃ b w, String.utf8EncodeChar c = b :: w ∧ LooksLike b c ∧ ∀ d ∈ w, 128 ≤ d.toNat := by
  by_cases hc : c.toNat < 128
  · refine ⟨c.toUInt8, [], utf8EncodeChar_of_ascii hc,
      fun x hx => ⟨fun h => ?_, congrArg _⟩, by simp⟩
    apply Char.toNat_inj.1
    rw [← toNat_toUInt8 hc, h, toNat_toUInt8 hx]
  · have hwide := le_of_mem_utf8EncodeChar (Nat.le_of_not_lt hc)
    obtain ⟨b, w, hbytes⟩ := List.exists_cons_of_ne_nil (String.utf8EncodeChar_ne_nil (c := c))
    rw [hbytes] at hwide
    refine ⟨b, w, hbytes, fun x hx => ⟨fun h => ?_, fun h => ?_⟩,
      fun d hd => hwide d (List.mem_cons_of_mem b hd)⟩
    · have hb := hwide b (by simp)
      rw [h, toNat_toUInt8 hx] at hb
      omega
    · rw [h] at hc
      exact absurd hx hc

end MustachePath.Text
