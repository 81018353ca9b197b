/-!
# Decimal numerals

Natural numbers as runs of decimal digits. Reading a numeral that was written
gives the number back, and leading zeros do not count.
-/

namespace Monkey.Text.Decimal

/-- The number that a run of digits denotes, most significant digit first. -/
def read (digits : List Char) : Nat :=
  digits.foldl (fun number digit => 10 * number + (digit.toNat - '0'.toNat)) 0

/-- The digits of a number, without leading zeros. -/
def write (number : Nat) : List Char :=
  Nat.toDigits 10 number

/-- An integer is written with a minus sign in front if it is negative. -/
def writeInt : Int → String
  | .ofNat number => String.ofList (write number)
  | .negSucc number => "-" ++ String.ofList (write (number + 1))

theorem read_append_singleton (digits : List Char) (digit : Char) :
    read (digits ++ [digit]) = 10 * read digits + (digit.toNat - '0'.toNat) := by
  simp [read, List.foldl_append]

/-- A single digit denotes its value. -/
theorem toNat_digitChar_sub {digit : Nat} (lt : digit < 10) :
    digit.digitChar.toNat - '0'.toNat = digit := by
  rw [Nat.toNat_digitChar_of_lt_ten lt]
  have zero : '0'.toNat = 48 := rfl
  omega

/-- Reading undoes writing. -/
@[simp]
theorem read_write (number : Nat) : read (write number) = number := by
  induction number using Nat.strongRecOn with
  | ind number inductionHypothesis =>
    by_cases small : number < 10
    · have single : write number = [] ++ [number.digitChar] := Nat.toDigits_of_lt_base small
      rw [single, read_append_singleton, toNat_digitChar_sub small]
      simp [read]
    · have split : write number =
          write (number / 10) ++ [(number % 10).digitChar] := by
        have last : number % 10 < 10 := Nat.mod_lt _ (by decide)
        have joined := Nat.toDigits_append_toDigits (b := 10) (n := number / 10)
          (d := number % 10) (by decide) (by omega) last
        rw [Nat.toDigits_of_lt_base last, Nat.div_add_mod] at joined
        exact joined.symm
      rw [split, read_append_singleton, inductionHypothesis (number / 10) (by omega),
        toNat_digitChar_sub (Nat.mod_lt _ (by decide))]
      exact Nat.div_add_mod number 10

end Monkey.Text.Decimal
