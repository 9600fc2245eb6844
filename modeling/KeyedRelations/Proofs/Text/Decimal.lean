import KeyedRelations.Text.DecimalDigit

/-!
# Decimal digits

A natural number is read back from its digits, so no two numbers are spelled alike.
-/

namespace KeyedRelations.Text

theorem toList_decimal (n : Nat) : (decimal n).toList = Nat.toDigits 10 n := by
  have hsign : ¬(n : Int) < 0 := by omega
  unfold decimal
  dsimp only
  rw [if_neg hsign, String.toList_ofList, Int.natAbs_natCast]

theorem decimal_injective {m n : Nat} (h : decimal m = decimal n) : m = n := by
  have hdigits := congrArg (fun text => Nat.ofDigitChars 10 text.toList 0) h
  simpa only [toList_decimal, Nat.ofDigitChars_ten_toDigits] using hdigits

theorem append_decimal_injective {name : String} {m n : Nat}
    (h : name ++ decimal m = name ++ decimal n) : m = n := by
  have hdigits := congrArg String.toList h
  rw [String.toList_append, String.toList_append, List.append_cancel_left_eq,
    String.toList_inj] at hdigits
  exact decimal_injective hdigits

end KeyedRelations.Text
