import DeskCalculator.Proofs.Numeric.Digits
import DeskCalculator.Proofs.Text.Trim
import DeskCalculator.Text.Integer

/-!
# Reading written integers

An integer that has few enough digits to be written is read from its text again, since the text is a
sign and a run of digits.  Every integer that can be read, in whatever digits, has few enough of
them to be written.
-/

namespace DeskCalculator
namespace Text

private theorem toNat_bounds {c : Char} (digit : c.isDigit) : 48 ≤ c.toNat ∧ c.toNat ≤ 57 :=
  Char.isDigit_iff_toNat.mp digit

theorem decimalDigit?_of_isDigit {c : Char} (digit : c.isDigit) :
    decimalDigit? c = some (Decimal.digitValue c) := by
  obtain ⟨least, most⟩ := toNat_bounds digit
  have first : 0x30 ≤ c.toNat ∧ c.toNat < 0x30 + 10 := by omega
  rw [decimalDigit?, zeroDigits, List.find?_cons_of_pos (by simpa using first)]
  rfl

theorem isBlank_of_isDigit {c : Char} (digit : c.isDigit) : isBlank c = false := by
  obtain ⟨least, most⟩ := toNat_bounds digit
  simp [isBlank, blankRanges]
  omega

theorem isSpacing_of_isDigit {c : Char} (digit : c.isDigit) : isSpacing c = false := by
  rw [isSpacing, isBlank_of_isDigit digit, Bool.false_and]

theorem decimalDigit?_lt {c : Char} {digit : Nat} (read : decimalDigit? c = some digit) :
    digit < 10 := by
  obtain ⟨start, found, rfl⟩ := Option.map_eq_some_iff.mp read
  have within : start ≤ c.toNat ∧ c.toNat < start + 10 := by simpa using List.find?_some found
  omega

namespace Integer

/-- The text of an integer, if it has few enough digits to be written. -/
def write? (n : Int) : Option String := if isWritable n then some (toString n) else none

theorem toList_toString (n : Int) :
    (toString n).toList = Layout.sign (n < 0) ++ Nat.toDigits 10 n.natAbs := by
  cases n with
  | ofNat n => exact Nat.toList_repr
  | negSucc n => simp [Layout.sign, Int.toString_eq_repr, Int.repr, Nat.toList_repr]

theorem digits?_of_isDigit {run : List Char} (nonempty : run ≠ [])
    (digits : ∀ c ∈ run, c.isDigit) : digits? run = some (run.map Decimal.digitValue) := by
  induction run with
  | nil => exact absurd rfl nonempty
  | cons c rest induction =>
      have first := decimalDigit?_of_isDigit (digits c List.mem_cons_self)
      cases rest with
      | nil => simp [digits?, first]
      | cons next others =>
          have later := induction (by simp) fun d member => digits d (List.mem_cons_of_mem c member)
          have no_line : next ≠ '_' := by
            rintro rfl
            exact absurd (digits '_' (by simp)) (by decide)
          rw [digits?]
          · simp [first, later]
          · simp
          · simpa using no_line

theorem one_lt_tenPow {limit : Nat} (positive : 0 < limit) : 1 < tenPow limit :=
  Nat.one_lt_pow positive.ne' (by decide)

theorem length_toDigits_le {n limit : Nat} (positive : 0 < limit) (fits : n < tenPow limit) :
    (Nat.toDigits 10 n).length ≤ limit :=
  (Nat.length_toDigits_le_iff (by decide) positive).mpr fits

theorem readNatural?_toDigits {n : Nat} (writable : n < tenPow digitLimit) :
    readNatural? (Nat.toDigits 10 n) = some n := by
  have digits := digits?_of_isDigit Nat.toDigits_ne_nil
    fun c member => FixedPlaces.isDigit_of_mem_toDigits (n := n) member
  have short : (Nat.toDigits 10 n).length ≤ digitLimit :=
    length_toDigits_le (by decide) writable
  have value := Decimal.ofDigits_toDigits n
  rw [Decimal.ofDigits] at value
  simp only [readNatural?, digits, Option.bind_eq_bind, Option.bind_some, List.length_map, short,
    if_true, List.foldl_map, value]

/-- A written integer is read as the integer that it is. -/
theorem read?_write {n : Int} {text : String} (written : write? n = some text) :
    read? text = some n := by
  obtain ⟨writable, rfl⟩ : isWritable n ∧ toString n = text := by simpa [write?] using written
  have run_read := readNatural?_toDigits (n := n.natAbs) (by simpa [isWritable] using writable)
  have digits : ∀ c ∈ Nat.toDigits 10 n.natAbs, c.isDigit :=
    fun c member => FixedPlaces.isDigit_of_mem_toDigits member
  have unspaced : ∀ c ∈ (toString n).toList, isSpacing c = false := by
    intro c member
    rw [toList_toString, List.mem_append] at member
    rcases member with inSign | inRun
    · obtain rfl : c = '-' := by
        rw [Layout.sign] at inSign
        split at inSign
        · exact List.mem_singleton.mp inSign
        · exact absurd inSign List.not_mem_nil
      decide
    · exact isSpacing_of_isDigit (digits c inRun)
  rw [read?, trim_eq_self unspaced, toList_toString]
  rcases lt_or_ge n 0 with negative | nonneg
  · have signed : Layout.sign (n < 0) = ['-'] := by simp [Layout.sign, negative]
    have restored : -(n.natAbs : Int) = n := by omega
    simp only [signed, List.singleton_append, run_read]
    exact congrArg some restored
  · have unsigned : Layout.sign (n < 0) = [] := by simp [Layout.sign, nonneg]
    have restored : (n.natAbs : Int) = n := Int.natAbs_of_nonneg nonneg
    rw [unsigned, List.nil_append]
    split
    next run shown => exact absurd (digits '-' (by simp [shown])) (by decide)
    next run shown => exact absurd (digits '+' (by simp [shown])) (by decide)
    next =>
      rw [run_read]
      exact congrArg some restored

theorem head?_toList_write {n : Int} {text : String} (positive : 0 < n)
    (written : write? n = some text) : text.toList.head? ≠ some '-' := by
  obtain ⟨-, rfl⟩ : isWritable n ∧ toString n = text := by simpa [write?] using written
  have unsigned : Layout.sign (n < 0) = [] := by simp [Layout.sign, positive.le]
  rw [toList_toString, unsigned, List.nil_append]
  intro first
  have digit := FixedPlaces.isDigit_of_mem_toDigits (List.mem_of_head? first)
  exact absurd digit (by decide)

theorem lt_of_mem_digits? {run : List Char} {digits : List Nat} (read : digits? run = some digits) :
    ∀ digit ∈ digits, digit < 10 := by
  have step {c : Char} {rest : Option (List Nat)} {digits : List Nat}
      (later : ∀ others, rest = some others → ∀ digit ∈ others, digit < 10)
      (whole : (do let digit ← decimalDigit? c; let digits ← rest; some (digit :: digits)) =
        some digits) : ∀ digit ∈ digits, digit < 10 := by
    obtain ⟨first, single, others, read, rfl⟩ :
        ∃ first, decimalDigit? c = some first ∧ ∃ others, rest = some others ∧
          first :: others = digits := by
      simpa [Option.bind_eq_some_iff] using whole
    exact List.forall_mem_cons.mpr ⟨decimalDigit?_lt single, later others read⟩
  fun_induction digits? run generalizing digits with
  | case1 => simp at read
  | case2 c =>
      obtain ⟨digit, single, rfl⟩ := Option.map_eq_some_iff.mp read
      simpa using decimalDigit?_lt single
  | case3 c rest induction => exact step (fun _ => induction) read
  | case4 c rest _ _ induction => exact step (fun _ => induction) read

theorem readNatural?_lt {run : List Char} {n : Nat} (read : readNatural? run = some n) :
    n < tenPow digitLimit := by
  rw [readNatural?] at read
  -- The bound is a power that nothing here should compute.
  generalize digitLimit = limit at read ⊢
  obtain ⟨digits, found, short, rfl⟩ :
      ∃ digits, digits? run = some digits ∧ digits.length ≤ limit ∧
        digits.foldl (fun value digit => 10 * value + digit) 0 = n := by
    simpa [Option.bind_eq_some_iff] using read
  have small : ∀ digit ∈ digits.reverse, digit < 10 :=
    fun digit member => lt_of_mem_digits? found digit (List.mem_reverse.mp member)
  calc
    digits.foldl (fun value digit => 10 * value + digit) 0
        = Nat.ofDigits 10 digits.reverse := by
      rw [Nat.ofDigits_eq_foldr, List.foldr_reverse]
      simp [add_comm]
    _ < 10 ^ digits.reverse.length := Nat.ofDigits_lt_base_pow_length (by decide) small
    _ ≤ tenPow limit := Nat.pow_le_pow_right (by decide) (by simpa using short)

/-- An integer that can be read has few enough digits to be written. -/
theorem natAbs_lt_of_read? {text : String} {n : Int} (read : read? text = some n) :
    n.natAbs < tenPow digitLimit := by
  have bound {run : List Char} {signed : Int → Int} (same : ∀ n, (signed n).natAbs = n.natAbs)
      (whole : Option.map signed (do let n ← readNatural? run; pure (n : Int)) = some n) :
      n.natAbs < tenPow digitLimit := by
    obtain ⟨magnitude, found, rfl⟩ :
        ∃ magnitude : Nat, readNatural? run = some magnitude ∧ signed magnitude = n := by
      simpa [Option.bind_eq_some_iff] using whole
    rw [same, Int.natAbs_natCast]
    exact readNatural?_lt found
  rw [read?] at read
  split at read
  · exact bound Int.natAbs_neg read
  · exact bound (fun _ => rfl) read
  · exact bound (fun _ => rfl) read

end Integer
end Text
end DeskCalculator
