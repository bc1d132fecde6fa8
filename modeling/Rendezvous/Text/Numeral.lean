/-!
# Numerals

The digits of a natural number in a base up to 36, in lower case and without leading
zeros, and the value of a row of digits. Main statement: the value of a numeral is the
number it was written for.
-/

namespace Rendezvous.Text

/-- The lower-case digit of a number below 36. -/
def digitChar (n : Nat) : Char :=
  if n < 10 then Char.ofNat (48 + n) else Char.ofNat (87 + n)

/-- The value of an ASCII digit or letter in `base`, in either case. -/
def digitValue? (base : Nat) (c : Char) : Option Nat :=
  let value :=
    if '0' ≤ c ∧ c ≤ '9' then c.toNat - 48
    else if 'a' ≤ c ∧ c ≤ 'z' then c.toNat - 87
    else if 'A' ≤ c ∧ c ≤ 'Z' then c.toNat - 55
    else base
  if value < base then some value else none

def isDecimalDigit (c : Char) : Bool := (digitValue? 10 c).isSome

/-- Put the digits of `n` in front of `acc`; the first argument bounds their number. -/
def numeralAux (base : Nat) : Nat → Nat → List Char → List Char
  | 0, _, acc => acc
  | fuel + 1, n, acc =>
      if n < base then digitChar n :: acc
      else numeralAux base fuel (n / base) (digitChar (n % base) :: acc)

def numeral (base n : Nat) : List Char :=
  numeralAux base (n + 1) n []

def decimal (n : Nat) : List Char := numeral 10 n

/-- An integer in decimal digits, with a sign if it is negative. -/
def decimalInt (n : Int) : List Char :=
  if n < 0 then '-' :: decimal n.natAbs else decimal n.natAbs

/-- The value of a row of decimal digits; a character that is none counts as zero. -/
def ofDecimal (digits : List Char) : Nat :=
  digits.foldl (fun n c => 10 * n + (digitValue? 10 c).getD 0) 0

theorem digitValue?_digitChar {n : Nat} (h : n < 16) : digitValue? 16 (digitChar n) = some n := by
  revert n
  decide

theorem digitValue?_digitChar_ten {n : Nat} (h : n < 10) :
    digitValue? 10 (digitChar n) = some n := by
  revert n
  decide

theorem numeralAux_append (base fuel n : Nat) (acc : List Char) :
    numeralAux base fuel n acc = numeralAux base fuel n [] ++ acc := by
  induction fuel generalizing n acc with
  | zero => simp [numeralAux]
  | succ fuel ih =>
      simp only [numeralAux]
      split
      · simp
      · rw [ih, ih (n / base) [digitChar (n % base)]]
        simp

theorem numeralAux_fuel {base : Nat} (hbase : 2 ≤ base) {fuel fuel' n : Nat} (h : n < fuel)
    (h' : n < fuel') (acc : List Char) :
    numeralAux base fuel n acc = numeralAux base fuel' n acc := by
  induction fuel generalizing fuel' n acc with
  | zero => omega
  | succ fuel ih =>
      cases fuel' with
      | zero => omega
      | succ fuel' =>
          simp only [numeralAux]
          split
          · rfl
          · have hdiv : n / base < n := Nat.div_lt_self (by omega) (by omega)
            exact ih (by omega) (by omega) _

theorem numeral_of_lt {base n : Nat} (h : n < base) : numeral base n = [digitChar n] := by
  simp [numeral, numeralAux, h]

theorem numeral_of_le {base n : Nat} (hbase : 2 ≤ base) (h : base ≤ n) :
    numeral base n = numeral base (n / base) ++ [digitChar (n % base)] := by
  have hdiv : n / base < n := Nat.div_lt_self (by omega) (by omega)
  have hfuel := numeralAux_fuel hbase hdiv (Nat.lt_succ_self (n / base)) []
  simp only [numeral]
  rw [numeralAux, if_neg (by omega), numeralAux_append, hfuel]

theorem numeral_ne_nil (base n : Nat) : numeral base n ≠ [] := by
  simp only [numeral, numeralAux]
  split
  · simp
  · rw [numeralAux_append]
    simp

theorem ofDecimal_append_digit (digits : List Char) (c : Char) :
    ofDecimal (digits ++ [c]) = 10 * ofDecimal digits + (digitValue? 10 c).getD 0 := by
  simp [ofDecimal]

/-- The digits written for a number have it as their value. -/
theorem ofDecimal_decimal (n : Nat) : ofDecimal (decimal n) = n := by
  induction n using Nat.strongRecOn with
  | ind n ih =>
      by_cases h : n < 10
      · rw [decimal, numeral_of_lt h]
        simp [ofDecimal, digitValue?_digitChar_ten h]
      · have hdiv := ih (n / 10) (by omega)
        rw [decimal] at hdiv ⊢
        rw [numeral_of_le (by omega) (by omega), ofDecimal_append_digit, hdiv,
          digitValue?_digitChar_ten (Nat.mod_lt _ (by omega))]
        simp only [Option.getD_some]
        omega

theorem decimal_digits (n : Nat) : ∀ c ∈ decimal n, isDecimalDigit c = true := by
  induction n using Nat.strongRecOn with
  | ind n ih =>
      intro c hc
      by_cases h : n < 10
      · rw [decimal, numeral_of_lt h, List.mem_singleton] at hc
        simp [hc, isDecimalDigit, digitValue?_digitChar_ten h]
      · rw [decimal, numeral_of_le (by omega) (by omega), List.mem_append,
          List.mem_singleton] at hc
        rcases hc with hc | rfl
        · exact ih (n / 10) (by omega) c hc
        · simp [isDecimalDigit, digitValue?_digitChar_ten (Nat.mod_lt n (by omega : 0 < 10))]

theorem length_decimal_le {n k : Nat} (h : n < Nat.pow 10 (k + 1)) :
    (decimal n).length ≤ k + 1 := by
  induction k generalizing n with
  | zero =>
      have hn : n < 10 := h
      rw [decimal, numeral_of_lt hn]
      exact Nat.le_refl 1
  | succ k ih =>
      by_cases hn : n < 10
      · rw [decimal, numeral_of_lt hn, List.length_singleton]
        omega
      · have hpow : Nat.pow 10 (k + 1 + 1) = Nat.pow 10 (k + 1) * 10 := rfl
        have hdiv : n / 10 < Nat.pow 10 (k + 1) := Nat.div_lt_of_lt_mul (by omega)
        have hshorter := ih hdiv
        rw [decimal] at hshorter
        rw [decimal, numeral_of_le (by omega) (by omega), List.length_append,
          List.length_singleton]
        omega

end Rendezvous.Text
