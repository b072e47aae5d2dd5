import PartitionSnapshot.ApplyPosition
import PartitionSnapshot.Signs

/-!
# Small text files are read back

Apply positions and signs are kept as decimal numbers between bars and blanks. Numbers are written
in digits alone, so the bar and the blanks are where the numbers end, and each number is read back.

## Main statements

* `ApplyPosition.text_eq`, `Signs.text_eq`: the texts in full.
* `ApplyPosition.parse?_text`: positions are read back.
* `Signs.parse?_text`: signs are read back.
-/

namespace PartitionSnapshot

/-! ## Digits -/

namespace Text

/-- A number in decimal digits, without zeros in front. -/
def decimal (n : Nat) : String := String.ofList (Nat.toDigits 10 n)

@[simp] theorem toList_decimal (n : Nat) : (decimal n).toList = Nat.toDigits 10 n :=
  String.toList_ofList

/-- A run of at least one decimal digit. -/
structure IsDigits (cs : List Char) : Prop where
  ne_nil : cs ≠ []
  isDigit : ∀ c ∈ cs, c.isDigit = true

theorem isDigits_toDigits (n : Nat) : IsDigits (Nat.toDigits 10 n) where
  ne_nil := Nat.toDigits_ne_nil
  isDigit _ h := Nat.isDigit_of_mem_toDigits (by decide) (by decide) h

theorem digit?_of_isDigit {c : Char} (h : c.isDigit = true) :
    digit? c = some (c.toNat - '0'.toNat) := by
  unfold digit?
  rw [Char.isDigit, Bool.and_eq_true, decide_eq_true_eq, decide_eq_true_eq] at h
  exact if_pos h

theorem ne_of_isDigit {c other : Char} (h : c.isDigit = true) (hother : other.isDigit = false) :
    c ≠ other := by
  rintro rfl
  rw [h] at hother
  cases hother

theorem not_isBlank_of_isDigit {c : Char} (h : c.isDigit = true) : isBlank c = false := by
  simp only [isBlank, Bool.or_eq_false_iff, beq_eq_false_iff_ne]
  refine ⟨⟨⟨⟨?_, ?_⟩, ?_⟩, ?_⟩, ?_⟩ <;> exact ne_of_isDigit h (by decide)

theorem digitsFrom?_of_isDigit {cs : List Char} (h : ∀ c ∈ cs, c.isDigit = true) (value : Nat) :
    digitsFrom? value cs = some (Nat.ofDigitChars 10 cs value) := by
  -- along the digits, with the value of those in front
  induction cs generalizing value with
  | nil => rfl
  | cons c cs ih =>
    have hfirst := digit?_of_isDigit (h c List.mem_cons_self)
    have hrest := ih fun other hother => h other (List.mem_cons_of_mem _ hother)
    simp only [digitsFrom?, hfirst, Option.bind_eq_bind, Option.bind_some, hrest,
      Nat.ofDigitChars_cons]

/-- A number is read back from its digits. -/
theorem number?_toDigits {bound n : Nat} (h : n < bound) :
    number? bound (Nat.toDigits 10 n) = some n := by
  have hdigits := isDigits_toDigits n
  obtain ⟨c, cs, hcs⟩ := List.exists_cons_of_ne_nil hdigits.ne_nil
  -- digits have no sign in front
  have hplus : c ≠ '+' := ne_of_isDigit (hdigits.isDigit c (by rw [hcs]; simp)) (by decide)
  have hvalue : digits? (Nat.toDigits 10 n) = some n := by
    rw [hcs, digits?, ← hcs, digitsFrom?_of_isDigit hdigits.isDigit,
      Nat.ofDigitChars_ten_toDigits]
    simp
  unfold number?
  split
  · next heq =>
    rw [hcs] at heq
    cases heq
    exact absurd rfl hplus
  · rw [hvalue]
    simp [h]

theorem number64?_toDigits (n : UInt64) : number64? (Nat.toDigits 10 n.toNat) = some n := by
  rw [number64?, number?_toDigits n.toNat_lt, Option.map_some, UInt64.ofNat_toNat]

theorem number32?_toDigits (n : UInt32) : number32? (Nat.toDigits 10 n.toNat) = some n := by
  rw [number32?, number?_toDigits n.toNat_lt, Option.map_some, UInt32.ofNat_toNat]

/-! ## Blanks -/

theorem dropWhile_isBlank {cs : List Char} (h : ∀ c ∈ cs, isBlank c = false) :
    cs.dropWhile isBlank = cs := by
  cases cs with
  | nil => rfl
  | cons c cs => rw [List.dropWhile_cons_of_neg (by simp [h c List.mem_cons_self])]

/-- Without blanks there is nothing to trim. -/
theorem trim_of_not_isBlank {cs : List Char} (h : ∀ c ∈ cs, isBlank c = false) : trim cs = cs := by
  have hreverse : ∀ c ∈ cs.reverse, isBlank c = false := fun c hc => h c (List.mem_reverse.1 hc)
  rw [trim, dropWhile_isBlank h, dropWhile_isBlank hreverse, List.reverse_reverse]

theorem trim_of_isDigits {cs : List Char} (h : IsDigits cs) : trim cs = cs :=
  trim_of_not_isBlank fun c hc => not_isBlank_of_isDigit (h.isDigit c hc)

/-- A field: at least one character, and no blank among them. -/
structure IsField (cs : List Char) : Prop where
  ne_nil : cs ≠ []
  not_isBlank : ∀ c ∈ cs, isBlank c = false

theorem IsDigits.isField {cs : List Char} (h : IsDigits cs) : IsField cs where
  ne_nil := h.ne_nil
  not_isBlank c hc := not_isBlank_of_isDigit (h.isDigit c hc)

/-- Up to a blank all characters are taken into one field. -/
theorem fieldsFrom_append {run : List Char} (h : ∀ c ∈ run, isBlank c = false)
    (field rest : List Char) :
    fieldsFrom field (run ++ rest) = fieldsFrom (run.reverse ++ field) rest := by
  -- along the characters, none of which is blank
  induction run generalizing field with
  | nil => rfl
  | cons c run ih =>
    have hblank := h c List.mem_cons_self
    have hrest := ih (fun other hother => h other (List.mem_cons_of_mem _ hother)) (c :: field)
    rw [List.cons_append, fieldsFrom, hblank, if_neg Bool.false_ne_true, hrest,
      List.reverse_cons, List.append_assoc]
    rfl

theorem fields_of_isField {field : List Char} (h : IsField field) : fields field = [field] := by
  have hfields := fieldsFrom_append h.not_isBlank [] []
  rw [List.append_nil, List.append_nil] at hfields
  simp [fields, hfields, fieldsFrom, h.ne_nil]

theorem fields_append_blank {field : List Char} (h : IsField field) {blank : Char}
    (hblank : isBlank blank = true) (rest : List Char) :
    fields (field ++ blank :: rest) = field :: fields rest := by
  -- the characters are taken up to the blank, and there the field is closed
  rw [fields, fieldsFrom_append h.not_isBlank, List.append_nil, fieldsFrom, hblank, if_pos rfl]
  simp [fields, h.ne_nil]

end Text

open Text

/-! ## Positions -/

namespace ApplyPosition

theorem text_eq (position : ApplyPosition) :
    position.text = decimal position.index.toNat ++ "|" ++ decimal position.cursor.toNat := rfl

theorem toList_text (position : ApplyPosition) :
    position.text.toList =
      Nat.toDigits 10 position.index.toNat ++ '|' :: Nat.toDigits 10 position.cursor.toNat := by
  rw [text_eq, String.toList_append, String.toList_append, toList_decimal, toList_decimal,
    List.append_assoc]
  rfl

theorem splitAtBar?_append {front : List Char} (h : IsDigits front) (back : List Char) :
    splitAtBar? (front ++ '|' :: back) = some (front, back) := by
  have hdigits := h.isDigit
  clear h
  -- along the digits, none of which is a bar
  induction front with
  | nil => rfl
  | cons c front ih =>
    have hbar : c ≠ '|' := ne_of_isDigit (hdigits c List.mem_cons_self) (by decide)
    have hrest := ih fun other hother => hdigits other (List.mem_cons_of_mem _ hother)
    rw [List.cons_append, splitAtBar?, if_neg hbar, hrest]
    rfl

/-- A position is read back from its text. -/
theorem parse?_text (position : ApplyPosition) :
    parse? position.text = some (position.index, some position.cursor) := by
  have hindex := isDigits_toDigits position.index.toNat
  have hcursor := isDigits_toDigits position.cursor.toNat
  -- nothing is trimmed, since there are no blanks
  have hblank : ∀ c ∈ position.text.toList, isBlank c = false := by
    intro c hc
    rw [toList_text, List.mem_append, List.mem_cons] at hc
    rcases hc with hc | rfl | hc
    · exact not_isBlank_of_isDigit (hindex.isDigit c hc)
    · decide
    · exact not_isBlank_of_isDigit (hcursor.isDigit c hc)
  unfold parse?
  rw [trim_of_not_isBlank hblank, toList_text]
  simp only [splitAtBar?_append hindex, trim_of_isDigits hindex, trim_of_isDigits hcursor,
    number64?_toDigits, Option.bind_eq_bind, Option.bind_some, Option.pure_def]

end ApplyPosition

/-! ## Signs -/

namespace Signs

theorem text_eq (signs : Signs) :
    signs.text = decimal signs.inode.toNat ++ " " ++ decimal signs.dentry.toNat ++ " " ++
      decimal signs.extend.toNat ++ " " ++ decimal signs.multipart.toNat := rfl

theorem toList_text (signs : Signs) :
    signs.text.toList = Nat.toDigits 10 signs.inode.toNat ++ ' ' ::
      (Nat.toDigits 10 signs.dentry.toNat ++ ' ' ::
        (Nat.toDigits 10 signs.extend.toNat ++ ' ' ::
          Nat.toDigits 10 signs.multipart.toNat)) := by
  rw [text_eq]
  simp only [String.toList_append, toList_decimal, List.append_assoc]
  rfl

/-- Signs are read back from their text. -/
theorem parse?_text (signs : Signs) : parse? signs.text = some signs := by
  -- each number is a field of its own
  have hfields : fields signs.text.toList =
      [Nat.toDigits 10 signs.inode.toNat, Nat.toDigits 10 signs.dentry.toNat,
        Nat.toDigits 10 signs.extend.toNat, Nat.toDigits 10 signs.multipart.toNat] := by
    have hfield (n : Nat) : IsField (Nat.toDigits 10 n) := (isDigits_toDigits n).isField
    have hblank : isBlank ' ' = true := by decide
    rw [toList_text, fields_append_blank (hfield _) hblank, fields_append_blank (hfield _) hblank,
      fields_append_blank (hfield _) hblank, fields_of_isField (hfield _)]
  unfold parse?
  rw [hfields]
  simp only [number32?_toDigits, Option.bind_eq_bind, Option.bind_some, Option.pure_def]

end Signs

end PartitionSnapshot
