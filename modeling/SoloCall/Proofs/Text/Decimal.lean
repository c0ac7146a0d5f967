import SoloCall.Text.Decimal

namespace SoloCall

theorem decimal_ne_nil (n : Nat) : decimal n ≠ [] := Nat.toDigits_ne_nil

theorem isDigit_of_mem_decimal {n : Nat} {c : Char} (h : c ∈ decimal n) : c.isDigit = true :=
  Nat.isDigit_of_mem_toDigits (by decide) (by decide) h

theorem ofDigits_eq_ofDigitChars (t : Text) : ofDigits t = Nat.ofDigitChars 10 t 0 := by
  rw [ofDigits, Nat.ofDigitChars_eq_foldl]
  congr 1
  funext n c
  rw [Nat.mul_comm]
  rfl

theorem ofDigits_decimal (n : Nat) : ofDigits (decimal n) = n := by
  rw [ofDigits_eq_ofDigitChars, decimal, Nat.ofDigitChars_ten_toDigits]

theorem decimal_injective {m n : Nat} (h : decimal m = decimal n) : m = n := by
  rw [← ofDigits_decimal m, h, ofDigits_decimal]

theorem decimal_zero_cons {n : Nat} {r : Text} (h : decimal n = '0' :: r) : n = 0 := by
  induction n using Nat.strongRecOn generalizing r with
  | ind n ih =>
      rw [decimal, Nat.toDigits_eq_if (by decide)] at h
      split at h
      · rename_i hlt
        have hdigit : n.digitChar = '0' := (List.cons.inj h).1
        have hzero : ∀ m < 10, m.digitChar = '0' → m = 0 := by decide
        exact hzero n hlt hdigit
      · cases hd : decimal (n / 10) with
        | nil => exact absurd hd (decimal_ne_nil _)
        | cons c front =>
            rw [← decimal, hd] at h
            obtain rfl : c = '0' := (List.cons.inj h).1
            have hquotient := ih (n / 10) (by omega) hd
            omega

end SoloCall
