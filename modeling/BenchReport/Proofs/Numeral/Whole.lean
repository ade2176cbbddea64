import BenchReport.Numeral.Whole

/-!
# Written whole numbers read back

The reader checks its limit at every digit, but values only grow from one digit
to the next, so a value below the limit at the end was below it all the way.
-/

namespace BenchReport.Whole

theorem digitValue?_of_isDigit {c : Char} (hc : c.isDigit) :
    digitValue? 10 c = some (c.toNat - '0'.toNat) := by
  have hrange : '0' ≤ c ∧ c ≤ '9' := by
    simpa [Char.isDigit, Char.le_def] using hc
  have hbound : c.toNat ≤ '9'.toNat := Char.le_def.1 hrange.2
  have hnine : '9'.toNat = 57 := rfl
  have hzero : '0'.toNat = 48 := rfl
  simp only [digitValue?, if_pos hrange]
  rw [if_pos (by omega)]

theorem le_ofDigitChars (digits : List Char) (value : Nat) :
    value ≤ Nat.ofDigitChars 10 digits value := by
  induction digits generalizing value with
  | nil => simp
  | cons c rest ih =>
      rw [Nat.ofDigitChars_cons]
      have := ih (10 * value + (c.toNat - '0'.toNat))
      omega

theorem readDigits_of_lt {limit : Nat} {digits : List Char}
    (hdigits : ∀ c ∈ digits, c.isDigit) {value : Nat}
    (hlt : Nat.ofDigitChars 10 digits value < limit) :
    readDigits 10 limit value digits =
      .ok (Nat.ofDigitChars 10 digits value) := by
  induction digits generalizing value with
  | nil => simp [readDigits]
  | cons c rest ih =>
      have hc := hdigits c (List.mem_cons_self ..)
      rw [Nat.ofDigitChars_cons] at hlt ⊢
      have hle := le_ofDigitChars rest (10 * value + (c.toNat - '0'.toNat))
      simp only [readDigits, digitValue?_of_isDigit hc]
      rw [if_pos (by omega)]
      exact ih (fun d hd => hdigits d (List.mem_cons_of_mem _ hd)) hlt

theorem isDigit_of_mem_toDigits {n : Nat} {c : Char}
    (hc : c ∈ Nat.toDigits 10 n) :
    c.isDigit :=
  Nat.isDigit_of_mem_toDigits (by decide) (by decide) hc

theorem read_toDigits {limit n : Nat} (hlt : n < limit) :
    read 10 limit (Nat.toDigits 10 n) = .ok n := by
  have hdigits : ∀ c ∈ Nat.toDigits 10 n, c.isDigit :=
    fun c hc => isDigit_of_mem_toDigits hc
  have hvalue : Nat.ofDigitChars 10 (Nat.toDigits 10 n) 0 < limit := by
    rwa [Nat.ofDigitChars_ten_toDigits]
  have hread := readDigits_of_lt hdigits hvalue
  rw [Nat.ofDigitChars_ten_toDigits] at hread
  have hplus : ∀ rest, Nat.toDigits 10 n ≠ '+' :: rest := by
    intro rest h
    have hdigit : '+'.isDigit :=
      isDigit_of_mem_toDigits (h ▸ List.mem_cons_self ..)
    exact absurd hdigit (by decide)
  rw [read.eq_def]
  split
  · next h => exact absurd h Nat.toDigits_ne_nil
  · next h => exact absurd h (hplus _)
  · next h => exact absurd h (hplus _)
  · exact hread

theorem readUInt32OrHex_toDigits (n : UInt32) :
    readUInt32OrHex (Nat.toDigits 10 n.toNat) = .ok n := by
  have hhex : ∀ rest, Nat.toDigits 10 n.toNat ≠ '0' :: 'x' :: rest := by
    intro rest h
    have hdigit : 'x'.isDigit := isDigit_of_mem_toDigits
      (h ▸ List.mem_cons_of_mem _ (List.mem_cons_self ..))
    exact absurd hdigit (by decide)
  rw [readUInt32OrHex.eq_def]
  split
  · next h => exact absurd h (hhex _)
  · rw [readUInt32, read_toDigits n.toNat_lt]
    exact congrArg Except.ok UInt32.ofNat_toNat

end BenchReport.Whole
