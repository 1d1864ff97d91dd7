import ActorLinks.Text.Digit
import Mathlib.Data.List.Basic

/-! # Digits read back

A digit is read as the number that it was made from, and so is a number that is written out in base
ten, which never begins with a zero unless it is zero.
-/
namespace ActorLinks.Text

theorem hexDigit?_hexChar {n : Nat} (h : n < 16) : hexDigit? (hexChar n) = some n :=
  (by decide : ∀ n < 16, hexDigit? (hexChar n) = some n) n h

theorem hexDigit?_upperHexChar {n : Nat} (h : n < 16) : hexDigit? (upperHexChar n) = some n :=
  (by decide : ∀ n < 16, hexDigit? (upperHexChar n) = some n) n h

/-- Two zeros and two digits stand for a number below 256. -/
theorem hexValue?_of_digits {n : Nat} {high low : Char} (hhigh : hexDigit? high = some (n / 16))
    (hlow : hexDigit? low = some (n % 16)) : hexValue? ['0', '0', high, low] = some n := by
  have hzero : hexDigit? '0' = some 0 := by decide
  simp only [hexValue?, List.foldlM_cons, List.foldlM_nil, hzero, hhigh, hlow, Option.map_some,
    Option.bind_eq_bind, Option.bind_some, Option.pure_def, Option.some.injEq]
  omega

theorem hexDigit?_of_isDigit {c : Char} (h : c.isDigit = true) :
    hexDigit? c = some (c.toNat - '0'.toNat) := by
  have hrange : ('0' ≤ c && c ≤ '9') = true := h
  rw [hexDigit?, if_pos hrange]

theorem valueIn_toDigits (n : Nat) : valueIn 10 (Nat.toDigits 10 n) = n := by
  have hvalue {base init : Nat} {cs : List Char} (h : ∀ c ∈ cs, c.isDigit = true) :
      cs.foldl (fun n c => base * n + (hexDigit? c).getD 0) init
        = cs.foldl (fun n c => base * n + (c.toNat - '0'.toNat)) init := by
    refine List.foldl_ext _ _ _ fun m c hc => ?_
    rw [hexDigit?_of_isDigit (h c hc), Option.getD_some]
  rw [valueIn, hvalue fun c hc => Nat.isDigit_of_mem_toDigits (by decide) (by decide) hc,
    ← Nat.ofDigitChars_eq_foldl, Nat.ofDigitChars_ten_toDigits]

theorem head?_toDigits {n : Nat} (h : 0 < n) : (Nat.toDigits 10 n).head? ≠ some '0' := by
  induction n using Nat.strongRecOn with
  | ind n ih =>
    rcases Nat.lt_or_ge n 10 with hlt | hge
    · rw [Nat.toDigits_of_lt_base hlt]
      exact (by decide : ∀ n < 10, 0 < n → [n.digitChar].head? ≠ some '0') n hlt h
    · rw [Nat.toDigits_of_base_le (by decide) hge,
        List.head?_append_of_ne_nil _ Nat.toDigits_ne_nil]
      exact ih (n / 10) (Nat.div_lt_self h (by decide)) (Nat.div_pos hge (by decide))

/-- Only zero is written with a zero in front. -/
theorem no_leading_zero (n : Nat) :
    (Nat.toDigits 10 n).length = 1 ∨ (Nat.toDigits 10 n).head? ≠ some '0' := by
  rcases Nat.eq_zero_or_pos n with rfl | hpos
  · exact Or.inl rfl
  · exact Or.inr (head?_toDigits hpos)

end ActorLinks.Text
