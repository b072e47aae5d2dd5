import Mathlib.Data.List.TakeWhile
import PartitionSnapshot.Proofs.Decimals

/-!
# Numerals between blanks

A numeral is an optional plus sign and at least one decimal digit, with or without zeros in front.
Just these are read as numbers, as long as their value stays below the bound; and what is dropped
around them is blanks, any number of them on either side.

## Main statements

* `Text.number?_eq_some_iff`: which characters are read as which number.
* `Text.exists_trim`, `Text.trim_padded`: what is dropped at the ends of a text.
* `Text.number64?_trim_eq_some_iff`: which texts hold a number.
-/

namespace PartitionSnapshot.Text

/-! ## Numerals -/

/-- The characters write a decimal number: an optional plus sign, and then digits. -/
inductive Numeral : List Char → Nat → Prop
  | plain {digits : List Char} : IsDigits digits →
      Numeral digits (Nat.ofDigitChars 10 digits 0)
  | signed {digits : List Char} : IsDigits digits →
      Numeral ('+' :: digits) (Nat.ofDigitChars 10 digits 0)

theorem isDigit_of_digit? {c : Char} {value : Nat} (h : digit? c = some value) :
    c.isDigit = true := by
  unfold digit? at h
  split at h
  · next hdigit =>
    rw [Char.isDigit, Bool.and_eq_true, decide_eq_true_eq, decide_eq_true_eq]
    exact hdigit
  · cases h

/-- Characters are read on to their end just when they are digits. -/
theorem digitsFrom?_eq_some_iff {cs : List Char} {value n : Nat} :
    digitsFrom? value cs = some n ↔
      (∀ c ∈ cs, c.isDigit = true) ∧ n = Nat.ofDigitChars 10 cs value := by
  constructor
  · intro h
    have hdigits : ∀ c ∈ cs, c.isDigit = true := by
      -- along the characters, each of which has to be a digit
      induction cs generalizing value with
      | nil => exact nofun
      | cons c cs ih =>
        simp only [digitsFrom?, Option.bind_eq_bind, Option.bind_eq_some_iff] at h
        obtain ⟨digit, hdigit, hrest⟩ := h
        rw [List.forall_mem_cons]
        exact ⟨isDigit_of_digit? hdigit, ih hrest⟩
    rw [digitsFrom?_of_isDigit hdigits, Option.some.injEq] at h
    exact ⟨hdigits, h.symm⟩
  · rintro ⟨hdigits, rfl⟩
    exact digitsFrom?_of_isDigit hdigits value

theorem digits?_eq_some_iff {cs : List Char} {n : Nat} :
    digits? cs = some n ↔ IsDigits cs ∧ n = Nat.ofDigitChars 10 cs 0 := by
  cases cs with
  | nil => exact iff_of_false nofun fun h => h.1.ne_nil rfl
  | cons c cs =>
    rw [digits?, digitsFrom?_eq_some_iff]
    · exact and_congr_left fun _ => ⟨fun hdigits => ⟨List.cons_ne_nil c cs, hdigits⟩,
        fun hdigits => hdigits.isDigit⟩
    · exact List.cons_ne_nil c cs

/-- **Just the numerals with a value below the bound are read as numbers.** -/
theorem number?_eq_some_iff {bound n : Nat} {cs : List Char} :
    number? bound cs = some n ↔ Numeral cs n ∧ n < bound := by
  have hbounded {digits : List Char} :
      ((digits? digits).bind fun value => if value < bound then some value else none) = some n ↔
        (IsDigits digits ∧ n = Nat.ofDigitChars 10 digits 0) ∧ n < bound := by
    rw [Option.bind_eq_some_iff, ← digits?_eq_some_iff]
    constructor
    · rintro ⟨value, hvalue, hlt⟩
      split at hlt
      · next hbound =>
        cases hlt
        exact ⟨hvalue, hbound⟩
      · cases hlt
    · rintro ⟨hvalue, hbound⟩
      exact ⟨n, hvalue, if_pos hbound⟩
  unfold number?
  -- a plus sign is no digit, so it is seen at once whether there is one
  split
  · next digits =>
    refine hbounded.trans (and_congr_left fun _ => ⟨?_, ?_⟩)
    · rintro ⟨hdigits, rfl⟩
      exact .signed hdigits
    · intro hnumeral
      cases hnumeral with
      | plain hdigits => exact absurd (hdigits.isDigit '+' List.mem_cons_self) (by decide)
      | signed hdigits => exact ⟨hdigits, rfl⟩
  · next hplus =>
    refine hbounded.trans (and_congr_left fun _ => ⟨?_, ?_⟩)
    · rintro ⟨hdigits, rfl⟩
      exact .plain hdigits
    · intro hnumeral
      cases hnumeral with
      | plain hdigits => exact ⟨hdigits, rfl⟩
      | signed hdigits => exact absurd rfl (hplus _)

/-- Numbers of a type that has all those below the bound are read from the numerals of their
values. -/
theorem map_number?_eq_some_iff {α : Type} {bound : Nat} {toNat : α → Nat} {ofNat : Nat → α}
    (hlt : ∀ n, toNat n < bound) (hofNat : ∀ value, value < bound → toNat (ofNat value) = value)
    (htoNat : ∀ n, ofNat (toNat n) = n) {cs : List Char} {n : α} :
    (number? bound cs).map ofNat = some n ↔ Numeral cs (toNat n) := by
  rw [Option.map_eq_some_iff]
  constructor
  · rintro ⟨value, hvalue, rfl⟩
    obtain ⟨hnumeral, hbound⟩ := number?_eq_some_iff.1 hvalue
    rwa [hofNat value hbound]
  · intro hnumeral
    exact ⟨toNat n, number?_eq_some_iff.2 ⟨hnumeral, hlt n⟩, htoNat n⟩

theorem number64?_eq_some_iff {cs : List Char} {n : UInt64} :
    number64? cs = some n ↔ Numeral cs n.toNat :=
  map_number?_eq_some_iff UInt64.toNat_lt (fun _ => UInt64.toNat_ofNat_of_lt')
    fun _ => UInt64.ofNat_toNat

theorem number32?_eq_some_iff {cs : List Char} {n : UInt32} :
    number32? cs = some n ↔ Numeral cs n.toNat :=
  map_number?_eq_some_iff UInt32.toNat_lt (fun _ => UInt32.toNat_ofNat_of_lt')
    fun _ => UInt32.ofNat_toNat

/-! ## Blanks at the ends -/

/-- There are only blanks. -/
def AllBlank (cs : List Char) : Prop := ∀ c ∈ cs, isBlank c = true

theorem AllBlank.reverse {cs : List Char} (h : AllBlank cs) : AllBlank cs.reverse :=
  fun c hc => h c (List.mem_reverse.1 hc)

theorem AllBlank.append {cs cs' : List Char} (h : AllBlank cs) (h' : AllBlank cs') :
    AllBlank (cs ++ cs') :=
  fun c hc => (List.mem_append.1 hc).elim (h c) (h' c)

/-- Blanks in front are dropped, up to the first other character. -/
theorem exists_dropWhile (cs : List Char) :
    ∃ front, cs = front ++ cs.dropWhile isBlank ∧ AllBlank front :=
  ⟨cs.takeWhile isBlank, List.takeWhile_append_dropWhile.symm, fun _ => List.mem_takeWhile_imp⟩

theorem dropWhile_append {front : List Char} (h : AllBlank front) (cs : List Char) :
    (front ++ cs).dropWhile isBlank = cs.dropWhile isBlank :=
  List.dropWhile_append_of_pos h

/-- What is dropped at the two ends is blanks. -/
theorem exists_trim (cs : List Char) :
    ∃ front back, cs = front ++ trim cs ++ back ∧ AllBlank front ∧ AllBlank back := by
  obtain ⟨front, hfront, hblank⟩ := exists_dropWhile cs
  obtain ⟨back, hback, hblank'⟩ := exists_dropWhile (cs.dropWhile isBlank).reverse
  refine ⟨front, back.reverse, ?_, hblank, hblank'.reverse⟩
  -- the second time the blanks are dropped from behind
  have hreverse := congrArg List.reverse hback
  rw [List.reverse_reverse, List.reverse_append] at hreverse
  rw [trim, List.append_assoc, ← hreverse]
  exact hfront

/-- Blanks that are put at the two ends are dropped again. -/
theorem trim_padded {front back : List Char} (hfront : AllBlank front) (hback : AllBlank back)
    (cs : List Char) : trim (front ++ cs ++ back) = trim cs := by
  rw [trim, List.append_assoc, dropWhile_append hfront, trim, List.dropWhile_append]
  split
  · next hempty =>
    -- there is nothing but blanks
    have hnone : back.dropWhile isBlank = [] := List.dropWhile_eq_nil_iff.2 hback
    rw [hnone, List.isEmpty_iff.1 hempty]
  · rw [List.reverse_append, dropWhile_append hback.reverse]

/-! ## Texts that hold a number -/

theorem Numeral.not_isBlank {cs : List Char} {n : Nat} (h : Numeral cs n) :
    ∀ c ∈ cs, isBlank c = false := by
  cases h with
  | plain hdigits => exact fun c hc => not_isBlank_of_isDigit (hdigits.isDigit c hc)
  | signed hdigits =>
    rw [List.forall_mem_cons]
    exact ⟨by decide, fun c hc => not_isBlank_of_isDigit (hdigits.isDigit c hc)⟩

/-- The characters are a numeral of the given value between blanks. -/
def Holds (cs : List Char) (n : UInt64) : Prop :=
  ∃ front numeral back, cs = front ++ numeral ++ back ∧ AllBlank front ∧ AllBlank back ∧
    Numeral numeral n.toNat

/-- Without the blanks at its ends a text is read as a number just when it holds that number. -/
theorem number64?_trim_eq_some_iff {cs : List Char} {n : UInt64} :
    number64? (trim cs) = some n ↔ Holds cs n := by
  rw [number64?_eq_some_iff]
  constructor
  · intro hnumeral
    obtain ⟨front, back, hcs, hfront, hback⟩ := exists_trim cs
    exact ⟨front, trim cs, back, hcs, hfront, hback, hnumeral⟩
  · rintro ⟨front, numeral, back, rfl, hfront, hback, hnumeral⟩
    rwa [trim_padded hfront hback, trim_of_not_isBlank hnumeral.not_isBlank]

end PartitionSnapshot.Text
