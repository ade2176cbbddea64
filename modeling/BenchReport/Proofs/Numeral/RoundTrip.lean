import BenchReport.Numeral.Read
import BenchReport.Numeral.Style
import BenchReport.Proofs.Numeral.Decimal
import Mathlib.Data.List.TakeWhile

/-!
# Written doubles read back

A written double is digits with a point, zeros and an exponent around them, and
every style puts the same decimal there. The proof keeps to the grammar: first
what the reader makes of digits with and without a point (`read?_whole`,
`read?_point`) and of an exponent, then the three layouts, each of which reads
as the significant digits and an exponent. The zeros that a layout adds are the
only thing in which the decimal that comes back can differ from the one that
was written, and `toMagnitude_mul_pow` does not see them.

What a style may choose freely is told by `Readable`; all styles in use are.
-/

namespace BenchReport

/-! ## Significant digits -/

/-- The digits of a number without the zeros at its end. -/
def significantDigits (n : Nat) : List Char :=
  ((Nat.toDigits 10 n).reverse.dropWhile (· = '0')).reverse

theorem toDigits_eq_significantDigits (n : Nat) :
    ∃ k, Nat.toDigits 10 n = significantDigits n ++ List.replicate k '0' := by
  let reversed := (Nat.toDigits 10 n).reverse
  have hzeros : (reversed.takeWhile (· = '0')).reverse =
      List.replicate (reversed.takeWhile (· = '0')).length '0' := by
    rw [List.eq_replicate_iff]
    refine ⟨List.length_reverse, fun c hc => ?_⟩
    simpa using List.mem_takeWhile_imp (List.mem_reverse.1 hc)
  refine ⟨(reversed.takeWhile (· = '0')).length, ?_⟩
  rw [← hzeros, significantDigits, ← List.reverse_append,
    List.takeWhile_append_dropWhile, List.reverse_reverse]

theorem isDigit_of_mem_significantDigits {n : Nat} {c : Char}
    (hc : c ∈ significantDigits n) :
    c.isDigit := by
  have hmem : c ∈ Nat.toDigits 10 n := by
    have := (List.dropWhile_sublist (· = '0')).subset (List.mem_reverse.1 hc)
    exact List.mem_reverse.1 this
  exact Nat.isDigit_of_mem_toDigits (by decide) (by decide) hmem

/-- What the significant digits leave out are zeros. -/
theorem exists_significant (n : Nat) :
    ∃ k, n = Nat.ofDigitChars 10 (significantDigits n) 0 * 10 ^ k ∧
      digitCount n = (significantDigits n).length + k := by
  obtain ⟨k, hk⟩ := toDigits_eq_significantDigits n
  refine ⟨k,
    ?_, by rw [digitCount, hk, List.length_append, List.length_replicate]⟩
  have hvalue := congrArg (Nat.ofDigitChars 10 · 0) hk
  simp only [Nat.ofDigitChars_ten_toDigits, Nat.ofDigitChars_append,
    Nat.ofDigitChars_replicate_zero] at hvalue
  rw [Nat.mul_comm]
  exact hvalue

theorem significantDigits_ne_nil {n : Nat} (hn : 0 < n) :
    significantDigits n ≠ [] := by
  intro hnil
  obtain ⟨k, hvalue, -⟩ := exists_significant n
  rw [hnil] at hvalue
  simp at hvalue
  omega

namespace Decimal

/-! ## The reader on digits -/

/-- No part of a number before its exponent goes on with this text. -/
def Ends (tail : List Char) : Prop :=
  ∀ c ∈ tail.head?, c.isDigit = false ∧ c ≠ '.'

theorem ends_nil : Ends [] := by simp [Ends]

theorem takeWhile_isDigit_append {digits tail : List Char}
    (hdigits : ∀ c ∈ digits, c.isDigit)
    (htail : ∀ c ∈ tail.head?, c.isDigit = false) :
    (digits ++ tail).takeWhile Char.isDigit = digits := by
  rw [List.takeWhile_append_of_pos hdigits]
  cases tail with
  | nil => simp
  | cons c rest => simp [htail c rfl]

theorem dropWhile_isDigit_append {digits tail : List Char}
    (hdigits : ∀ c ∈ digits, c.isDigit)
    (htail : ∀ c ∈ tail.head?, c.isDigit = false) :
    (digits ++ tail).dropWhile Char.isDigit = tail := by
  rw [List.dropWhile_append_of_pos hdigits]
  cases tail with
  | nil => simp
  | cons c rest => simp [htail c rfl]

theorem read?_whole {digits tail : List Char} {e : Int}
    (hdigits : ∀ c ∈ digits, c.isDigit) (hne : digits ≠ []) (htail : Ends tail)
    (he : readExponent? tail = some e) :
    read? (digits ++ tail) = some ⟨Nat.ofDigitChars 10 digits 0, e⟩ := by
  have hend : ∀ c ∈ tail.head?, c.isDigit = false := fun c hc => (htail c hc).1
  simp only [read?, takeWhile_isDigit_append hdigits hend,
    dropWhile_isDigit_append hdigits hend]
  cases tail with
  | nil => simp [he, hne]
  | cons c rest =>
      have hpoint : c ≠ '.' := (htail c rfl).2
      split
      · next h => exact absurd (List.cons.inj h).1 hpoint
      · simp [he, hne]

theorem read?_point {digits fraction tail : List Char} {e : Int}
    (hdigits : ∀ c ∈ digits, c.isDigit) (hfraction : ∀ c ∈ fraction, c.isDigit)
    (hne : digits ≠ [] ∨ fraction ≠ []) (htail : Ends tail)
    (he : readExponent? tail = some e) :
    read? (digits ++ '.' :: (fraction ++ tail)) =
      some ⟨Nat.ofDigitChars 10 (digits ++ fraction) 0,
        e - fraction.length⟩ := by
  have hpoint : ∀ c ∈ ('.' :: (fraction ++ tail)).head?, c.isDigit = false := by
    rintro c ⟨⟩
    decide
  have hend : ∀ c ∈ tail.head?, c.isDigit = false := fun c hc => (htail c hc).1
  simp only [read?, takeWhile_isDigit_append hdigits hpoint,
    dropWhile_isDigit_append hdigits hpoint,
    takeWhile_isDigit_append hfraction hend,
    dropWhile_isDigit_append hfraction hend]
  rcases hne with hne | hne <;> simp [he, hne]

/-! ## The reader on exponents -/

theorem readExponent?_digits {mark : Char} {digits : List Char}
    (hmark : mark = 'e' ∨ mark = 'E') (hdigits : ∀ c ∈ digits, c.isDigit)
    (hne : digits ≠ []) :
    readExponent? (mark :: digits) =
      some (Nat.ofDigitChars 10 digits 0 : Int) := by
  obtain ⟨c, rest, rfl⟩ := List.exists_cons_of_ne_nil hne
  have hall : (c :: rest).all Char.isDigit := List.all_eq_true.2 hdigits
  have hc := hdigits c (List.mem_cons_self ..)
  simp only [readExponent?]
  split
  · next h =>
      obtain ⟨rfl, -⟩ := List.cons.inj h
      exact absurd hc (by decide)
  · next h =>
      obtain ⟨rfl, -⟩ := List.cons.inj h
      exact absurd hc (by decide)
  · simp [hall, hmark]

theorem readExponent?_signed {mark : Char} {digits : List Char}
    (negative : Bool) (hmark : mark = 'e' ∨ mark = 'E')
    (hdigits : ∀ c ∈ digits, c.isDigit) (hne : digits ≠ []) :
    readExponent? (mark :: (if negative then '-' else '+') :: digits) =
      some (if negative then -(Nat.ofDigitChars 10 digits 0 : Int)
        else (Nat.ofDigitChars 10 digits 0 : Int)) := by
  have hall : digits.all Char.isDigit := List.all_eq_true.2 hdigits
  cases negative <;> simp [readExponent?, hall, hne, hmark]

end Decimal

namespace NumeralStyle

/-- What a style may put after a whole number and before a positive exponent for
its numbers to be read back. -/
structure Readable (style : NumeralStyle) : Prop where
  wholeEnd : style.wholeEnd = [] ∨ style.wholeEnd = ['.', '0']
  exponentPlus : style.exponentPlus = [] ∨ style.exponentPlus = ['+']

theorem readable_fractional : fractional.Readable := ⟨.inr rfl, .inl rfl⟩

theorem readable_tabular : tabular.Readable := ⟨.inr rfl, .inl rfl⟩

theorem readable_json : json.Readable := ⟨.inr rfl, .inr rfl⟩

variable {style : NumeralStyle} {digits : List Char}

/-! ## The three layouts -/

theorem read?_wholeEnd (hstyle : style.Readable)
    (hdigits : ∀ c ∈ digits, c.isDigit) (hne : digits ≠ []) :
    ∃ j : Nat, Decimal.read? (digits ++ style.wholeEnd) =
      some ⟨Nat.ofDigitChars 10 digits 0 * 10 ^ j, -j⟩ := by
  rcases hstyle.wholeEnd with h | h
  · refine ⟨0, ?_⟩
    rw [h, Decimal.read?_whole hdigits hne Decimal.ends_nil rfl]
    simp
  · refine ⟨1, ?_⟩
    have hzero : ∀ c ∈ ['0'], c.isDigit := List.forall_mem_singleton.2 rfl
    rw [h]
    have hread :=
      Decimal.read?_point hdigits hzero (.inl hne) Decimal.ends_nil rfl
    rw [List.append_nil] at hread
    rw [hread, Nat.ofDigitChars_append]
    simp [Nat.ofDigitChars_cons, Nat.mul_comm]

theorem read?_positionalText (hstyle : style.Readable)
    (hdigits : ∀ c ∈ digits, c.isDigit) (hne : digits ≠ []) (leading : Int) :
    ∃ j : Nat, Decimal.read? (style.positionalText digits leading) =
      some ⟨Nat.ofDigitChars 10 digits 0 * 10 ^ j,
        leading + 1 - digits.length - j⟩ := by
  have hzeros : ∀ n, ∀ c ∈ List.replicate n '0', c.isDigit := by
    intro n c hc
    rw [List.eq_of_mem_replicate hc]
    decide
  rw [positionalText]
  split
  · next hneg =>
      refine ⟨0, ?_⟩
      have hfraction :
          ∀ c ∈ List.replicate (-leading - 1).toNat '0' ++ digits, c.isDigit :=
        List.forall_mem_append.2 ⟨hzeros _, hdigits⟩
      have hread :=
        Decimal.read?_point (hzeros 1) hfraction (.inl (by simp))
          Decimal.ends_nil rfl
      rw [List.append_nil] at hread
      simp only [List.cons_append, List.nil_append]
      rw [show ('0' :: '.' ::
        (List.replicate (-leading - 1).toNat '0' ++ digits)) =
          List.replicate 1 '0' ++ '.' ::
            (List.replicate (-leading - 1).toNat '0' ++ digits) from rfl,
        hread]
      simp only [Nat.ofDigitChars_append, Nat.ofDigitChars_replicate_zero,
        Nat.mul_zero, List.length_append, List.length_replicate, Nat.pow_zero,
        Nat.mul_one, Option.some.injEq, Decimal.mk.injEq, true_and]
      omega
  · next hneg =>
      dsimp only
      split
      · next hlen =>
          have hpadded : ∀ c ∈ digits ++
              List.replicate (leading.toNat + 1 - digits.length) '0',
                c.isDigit :=
            List.forall_mem_append.2 ⟨hdigits, hzeros _⟩
          obtain ⟨j, hread⟩ := read?_wholeEnd hstyle hpadded (by simp [hne])
          refine ⟨leading.toNat + 1 - digits.length + j, ?_⟩
          rw [hread, Nat.ofDigitChars_append, Nat.ofDigitChars_replicate_zero]
          simp only [Option.some.injEq, Decimal.mk.injEq]
          exact ⟨by ring, by omega⟩
      · next hlen =>
          refine ⟨0, ?_⟩
          have hwhole : ∀ c ∈ digits.take (leading.toNat + 1), c.isDigit :=
            fun c hc => hdigits c (List.mem_of_mem_take hc)
          have hfraction : ∀ c ∈ digits.drop (leading.toNat + 1), c.isDigit :=
            fun c hc => hdigits c (List.mem_of_mem_drop hc)
          have hread :=
            Decimal.read?_point hwhole hfraction (.inl (by simp [hne]))
              Decimal.ends_nil rfl
          rw [List.append_nil] at hread
          rw [hread, List.take_append_drop]
          simp only [List.length_drop, Nat.pow_zero, Nat.mul_one,
            Option.some.injEq, Decimal.mk.injEq, true_and]
          omega

theorem readExponent?_written (hstyle : style.Readable) (leading : Int) :
    Decimal.readExponent?
      ('e' :: ((if leading < 0 then ['-'] else style.exponentPlus) ++
        Nat.toDigits 10 leading.natAbs)) = some leading := by
  have hdigits : ∀ c ∈ Nat.toDigits 10 leading.natAbs, c.isDigit := fun c hc =>
    Nat.isDigit_of_mem_toDigits (by decide) (by decide) hc
  have hne : Nat.toDigits 10 leading.natAbs ≠ [] := Nat.toDigits_ne_nil
  have hsigned :=
    fun negative => Decimal.readExponent?_signed negative (.inl rfl) hdigits hne
  have hplain := Decimal.readExponent?_digits (.inl rfl) hdigits hne
  simp only [Nat.ofDigitChars_ten_toDigits] at hsigned hplain
  split
  · next hneg =>
      have hvalue : leading = -(leading.natAbs : Int) := by omega
      exact (hsigned true).trans (congrArg some hvalue.symm)
  · next hneg =>
      have hvalue : leading = (leading.natAbs : Int) := by omega
      rcases hstyle.exponentPlus with h | h
      · rw [h]
        exact hplain.trans (congrArg some hvalue.symm)
      · rw [h]
        exact (hsigned false).trans (congrArg some hvalue.symm)

theorem read?_scientificText (hstyle : style.Readable)
    (hdigits : ∀ c ∈ digits, c.isDigit) (hne : digits ≠ []) (leading : Int) :
    Decimal.read? (style.scientificText digits leading) =
      some ⟨Nat.ofDigitChars 10 digits 0, leading + 1 - digits.length⟩ := by
  obtain ⟨first, rest, rfl⟩ := List.exists_cons_of_ne_nil hne
  have hfirst : ∀ c ∈ [first], c.isDigit := by
    simpa using hdigits first (List.mem_cons_self ..)
  have hrest : ∀ c ∈ rest, c.isDigit :=
    fun c hc => hdigits c (List.mem_cons_of_mem _ hc)
  have htail :
      Decimal.Ends
        ('e' :: ((if leading < 0 then ['-'] else style.exponentPlus) ++
          Nat.toDigits 10 leading.natAbs)) := by
    rintro c ⟨⟩
    decide
  have hexponent := readExponent?_written hstyle leading
  cases rest with
  | nil =>
      have hread := Decimal.read?_whole hfirst (by simp) htail hexponent
      simpa [scientificText] using hread
  | cons second rest =>
      have hread :=
        Decimal.read?_point hfirst hrest (.inl (by simp)) htail hexponent
      have hlength : leading + 1 - ((first :: second :: rest).length : Int) =
          leading - ((second :: rest).length : Int) := by
        simp only [List.length_cons]
        omega
      rw [hlength]
      simpa [scientificText] using hread

/-- Whatever the layout, the decimal that comes back has the value of the one
that was written. -/
theorem toMagnitude_read?_decimalText (hstyle : style.Readable) {d : Decimal}
    (hpos : 0 < d.coefficient) :
    ∃ read, Decimal.read? (style.decimalText d) = some read ∧
      read.toMagnitude = d.toMagnitude := by
  obtain ⟨k, hvalue, hcount⟩ := exists_significant d.coefficient
  have hdigits : ∀ c ∈ significantDigits d.coefficient, c.isDigit := fun c hc =>
    isDigit_of_mem_significantDigits hc
  have hne := significantDigits_ne_nil hpos
  have hwritten : d.toMagnitude = (Decimal.mk
      (Nat.ofDigitChars 10 (significantDigits d.coefficient) 0)
        (d.exponent + k)).toMagnitude := by
    rw [← Decimal.toMagnitude_mul_pow, ← hvalue]
  have hleading :
      d.leadingExponent + 1 - (significantDigits d.coefficient).length =
        d.exponent + k := by
    rw [Decimal.leadingExponent, hcount]
    omega
  rw [decimalText, hwritten, ← hleading, ← significantDigits]
  split
  · obtain ⟨j, hread⟩ :=
      read?_positionalText hstyle hdigits hne d.leadingExponent
    refine ⟨_, hread, ?_⟩
    rw [Decimal.toMagnitude_mul_pow]
    congr 2
    omega
  · exact ⟨_, read?_scientificText hstyle hdigits hne d.leadingExponent, rfl⟩

end NumeralStyle

/-! ## Doubles -/

namespace Double

theorem readUnsigned_of_read? {cs : List Char} {d : Decimal} (negative : Bool)
    (h : Decimal.read? cs = some d) :
    readUnsigned negative cs = .ok (.signed negative d.toMagnitude) := by
  rw [readUnsigned, h]

theorem readUnsigned_magnitudeText {style : NumeralStyle}
    (hstyle : style.Readable) (negative : Bool) (m : Magnitude) :
    readUnsigned negative (style.magnitudeText m) =
      .ok (.signed negative m) := by
  rw [NumeralStyle.magnitudeText]
  split
  · next hzero =>
      have hdigit : ∀ c ∈ ['0'], c.isDigit := List.forall_mem_singleton.2 rfl
      obtain ⟨j, hread⟩ := NumeralStyle.read?_wholeEnd hstyle hdigit (by decide)
      obtain rfl : m = .zero := Magnitude.eq_of_rank_eq hzero
      have hvalue : Nat.ofDigitChars 10 ['0'] 0 * 10 ^ j = 0 := by
        simp [Nat.ofDigitChars_cons]
      rw [List.singleton_append, hvalue] at hread
      rw [readUnsigned_of_read? negative hread]
      rfl
  · next hzero =>
      split
      · next hfinite =>
          obtain ⟨read, hread, hvalue⟩ :=
            NumeralStyle.toMagnitude_read?_decimalText hstyle
              (Magnitude.coefficient_shortest_pos style.tie hzero)
          rw [readUnsigned_of_read? negative hread, hvalue,
            Magnitude.toMagnitude_shortest]
      · next hfinite =>
          obtain rfl := Magnitude.eq_infinity_of_not_isFinite hfinite
          rfl

/-- No number goes on with another sign after its own. -/
theorem readUnsigned_sign {sign : Char} (hsign : sign = '-' ∨ sign = '+')
    (rest : List Char) :
    readUnsigned false (sign :: rest) = .error .invalid := by
  rcases hsign with rfl | rfl <;>
    simp [readUnsigned, Decimal.read?, ofWord?]

theorem read_minus (cs : List Char) : read ('-' :: cs) = readUnsigned true cs :=
  rfl

theorem read_of_readUnsigned {cs : List Char} {x : Double}
    (h : readUnsigned false cs = .ok x) : read cs = .ok x := by
  match cs with
  | [] => cases h
  | c :: rest =>
      rw [read.eq_def]
      split
      · next heq => cases heq
      · next heq =>
          rw [heq, readUnsigned_sign (.inl rfl)] at h
          cases h
      · next heq =>
          rw [heq, readUnsigned_sign (.inr rfl)] at h
          cases h
      · exact h

/-- Reading undoes writing, in every readable style and for every double. -/
theorem read_toChars {style : NumeralStyle} (hstyle : style.Readable)
    (x : Double) :
    read (x.toChars style) = .ok x := by
  cases x with
  | nan => rfl
  | signed negative m =>
      have hread := readUnsigned_magnitudeText hstyle negative m
      cases negative with
      | true => exact hread
      | false => exact read_of_readUnsigned hread

/-- A whole number is read as the double nearest to it. -/
theorem read_toDigits (n : Nat) :
    read (Nat.toDigits 10 n) = .ok (.ofNat n) := by
  have hdigits : ∀ c ∈ Nat.toDigits 10 n, c.isDigit := fun c hc =>
    Nat.isDigit_of_mem_toDigits (by decide) (by decide) hc
  have hread :=
    Decimal.read?_whole (e := 0) hdigits Nat.toDigits_ne_nil
      Decimal.ends_nil rfl
  rw [List.append_nil, Nat.ofDigitChars_ten_toDigits] at hread
  have hvalue :
      (Decimal.mk n 0).toMagnitude = .nearest (n * unitsPerOne) 1 := by
    rw [Decimal.toMagnitude_eq_nearest]
    simp
  refine read_of_readUnsigned ?_
  rw [readUnsigned_of_read? false hread, hvalue]
  rfl

end Double

end BenchReport
