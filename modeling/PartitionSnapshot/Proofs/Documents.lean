import PartitionSnapshot.Config
import PartitionSnapshot.Proofs.Codec
import PartitionSnapshot.Proofs.Decimals

/-!
# What is written as JSON is read back

In the compact form a value is followed by a comma, by the mark that closes an array or an object,
or by nothing. Any of these ends a number, so a scanner can take a value off the front of what
stands there and leave the rest; strings, arrays and objects end by themselves.

An object is read member by member into a draft. Which draft that comes to is said by a relation
with one rule for each member, so that records of other fields are read back by other chains of
these rules.

## Main statements

* `Json.Scanner.reads_text`, `Json.Scanner.reads_natural`: strings and numbers are read back.
* `Json.Scanner.reads_list`, `Json.Scanner.reads_record`: so are arrays and objects.
* `Config.decode_encode`: configurations are read back.
-/

namespace PartitionSnapshot

namespace Json

variable {α β δ : Type}

/-! ## Scanners that read what was written -/

namespace Scanner

/-- What may follow a value in the compact form. -/
def Delimited (back : Bytes) : Prop :=
  ∀ byte ∈ back.head?, byte = 0x2C ∨ byte = 0x5D ∨ byte = 0x7D

/-- The scanner takes `front` for `value`, whatever follows. -/
def Reads (scanner : Scanner α) (front : Bytes) (value : α) : Prop :=
  ∀ steps back, front.length ≤ steps → Delimited back →
    scanner steps (front ++ back) = .ok (value, back)

theorem bind_ok {first : Scanner α} {next : α → Scanner β} {steps : Nat} {text rest : Bytes}
    {value : α} (h : first steps text = .ok (value, rest)) :
    (first >>= next) steps text = next value steps rest := by
  show (first steps text).bind (fun result => next result.1 steps result.2) = _
  rw [h]
  rfl

theorem Reads.map {scanner : Scanner α} {front : Bytes} {value : α} (h : scanner.Reads front value)
    (f : α → β) : Reads (do return f (← scanner)) front (f value) := by
  intro steps back hsteps hback
  rw [bind_ok (h steps back hsteps hback)]
  rfl

/-- Where no blank comes first, the first byte is the next one. -/
theorem next?_cons {byte : UInt8} (h : isBlankByte byte = false) (steps : Nat) (rest : Bytes) :
    next? steps (byte :: rest) = .ok (some byte, byte :: rest) := by
  simp [next?, afterBlanks, h]

theorem skip_cons (byte : UInt8) (steps : Nat) (rest : Bytes) :
    skip steps (byte :: rest) = .ok ((), rest) := rfl

theorem colon_cons (steps : Nat) (rest : Bytes) : colon steps (0x3A :: rest) = .ok ((), rest) :=
  rfl

/-! ## Strings -/

theorem hexValue?_hexByte : ∀ n < 0x20,
    hexValue? [0x30, 0x30, hexByte (n / 16), hexByte (n % 16)] = some n := by
  decide

theorem takeUnit_control : ∀ n < 0x20,
    (takeUnit none n).toOption = some ([UInt8.ofNat n], .plain) := by
  decide

/-- A control character is read back from the four digits of its code. -/
theorem insideFrom_control {byte : UInt8} (h : byte < 0x20) (done rest : Bytes) :
    insideFrom done .plain
        ([0x5C, 0x75, 0x30, 0x30, hexByte (byte.toNat / 16), hexByte (byte.toNat % 16)] ++ rest) =
      insideFrom (byte :: done) .plain rest := by
  have hbyte : byte.toNat < 0x20 := UInt8.lt_iff_toNat_lt.1 h
  have hvalue := hexValue?_hexByte byte.toNat hbyte
  have hunit : takeUnit none byte.toNat = .ok ([byte], .plain) := by
    have hcontrol := takeUnit_control byte.toNat hbyte
    rw [UInt8.ofNat_toNat] at hcontrol
    cases htake : takeUnit none byte.toNat with
    | ok result =>
      rw [htake] at hcontrol
      exact congrArg Except.ok (Option.some.inj hcontrol)
    | error cause =>
      rw [htake] at hcontrol
      cases hcontrol
  simp [insideFrom, Inside.take, hvalue, hunit]

/-- So is a byte from the letter that stands for it. -/
theorem insideFrom_short {letter byte : UInt8} (h : shortEscape? letter = some byte)
    (done rest : Bytes) :
    insideFrom done .plain (0x5C :: letter :: rest) = insideFrom (byte :: done) .plain rest := by
  have hletter : letter ≠ 0x75 := by
    rintro rfl
    cases h
  simp [insideFrom, Inside.take, h, hletter]

/-- A byte of a string is read back, however it is escaped. -/
theorem insideFrom_escapeByte (byte : UInt8) (done rest : Bytes) :
    insideFrom done .plain (escapeByte byte ++ rest) = insideFrom (byte :: done) .plain rest := by
  -- seven bytes have letters of their own
  by_cases hquote : byte = 0x22
  · subst hquote
    exact insideFrom_short rfl done rest
  by_cases hbackslash : byte = 0x5C
  · subst hbackslash
    exact insideFrom_short rfl done rest
  by_cases hbackspace : byte = 0x08
  · subst hbackspace
    exact insideFrom_short rfl done rest
  by_cases hfeed : byte = 0x0C
  · subst hfeed
    exact insideFrom_short rfl done rest
  by_cases hline : byte = 0x0A
  · subst hline
    exact insideFrom_short rfl done rest
  by_cases hreturn : byte = 0x0D
  · subst hreturn
    exact insideFrom_short rfl done rest
  by_cases htab : byte = 0x09
  · subst htab
    exact insideFrom_short rfl done rest
  rw [escapeByte, if_neg hquote, if_neg hbackslash, if_neg hbackspace, if_neg hfeed, if_neg hline,
    if_neg hreturn, if_neg htab]
  by_cases hcontrol : byte < 0x20
  · rw [if_pos hcontrol]
    exact insideFrom_control hcontrol done rest
  · rw [if_neg hcontrol]
    simp [insideFrom, Inside.take, hquote, hbackslash, hcontrol]

/-- The inside of a string is read back up to its closing quote. -/
theorem insideFrom_escape (bytes done rest : Bytes) :
    insideFrom done .plain (escape bytes ++ 0x22 :: rest) = .ok (done.reverse ++ bytes, rest) := by
  -- along the bytes, each of which joins those that are done
  induction bytes generalizing done with
  | nil => simp [escape, insideFrom]
  | cons byte bytes ih =>
    have hrest := ih (byte :: done)
    rw [escape, List.flatMap_cons, List.append_assoc, insideFrom_escapeByte]
    simpa [escape] using hrest

theorem quoted_quotedBytes (text : String) (steps : Nat) (back : Bytes) :
    quoted steps (quotedBytes text ++ back) = .ok (text, back) := by
  have hinside : insideFrom [] .plain (escape (Bytes.ofString text) ++ 0x22 :: back) =
      .ok (Bytes.ofString text, back) := insideFrom_escape _ _ _
  simp [quoted, quotedBytes, hinside, Bytes.toString?_ofString]

/-- Strings are read back. -/
theorem reads_text (text : String) : Scanner.text.Reads (quotedBytes text) text := by
  intro steps back _ _
  have hnext : next? steps (quotedBytes text ++ back) =
      .ok (some 0x22, quotedBytes text ++ back) := next?_cons (by decide) _ _
  unfold Scanner.text
  rw [bind_ok hnext]
  exact quoted_quotedBytes text steps back

/-! ## Numbers -/

theorem toNat_of_isDigit {c : Char} (h : c.isDigit = true) : 0x30 ≤ c.toNat ∧ c.toNat ≤ 0x39 := by
  rw [Char.isDigit, Bool.and_eq_true, decide_eq_true_eq, decide_eq_true_eq] at h
  exact h

theorem toNat_toUInt8 {c : Char} (h : c.isDigit = true) : c.toUInt8.toNat = c.toNat := by
  have := toNat_of_isDigit h
  show c.toNat % 2 ^ 8 = c.toNat
  omega

theorem not_isBlankByte_toUInt8 {c : Char} (h : c.isDigit = true) :
    isBlankByte c.toUInt8 = false := by
  have := toNat_of_isDigit h
  simp only [isBlankByte, Bool.or_eq_false_iff, beq_eq_false_iff_ne, ne_eq, ← UInt8.toNat_inj,
    toNat_toUInt8 h, UInt8.reduceToNat]
  omega

theorem isDigitByte_toUInt8 {c : Char} (h : c.isDigit = true) : isDigitByte c.toUInt8 = true := by
  simp only [isDigitByte, Bool.and_eq_true, decide_eq_true_eq, UInt8.le_iff_toNat_le,
    toNat_toUInt8 h]
  exact toNat_of_isDigit h

theorem ne_of_isDigitByte {byte other : UInt8} (h : isDigitByte byte = true)
    (hother : isDigitByte other = false) : byte ≠ other := by
  rintro rfl
  rw [h] at hother
  cases hother

/-- A number is written as the bytes of its digits. -/
theorem naturalBytes_eq (n : Nat) : naturalBytes n = (Nat.toDigits 10 n).map Char.toUInt8 := by
  have hdigits (cs : List Char) (h : ∀ c ∈ cs, c.isDigit = true) :
      cs.flatMap String.utf8EncodeChar = cs.map Char.toUInt8 := by
    induction cs with
    | nil => rfl
    | cons c cs ih =>
      have hc : c.utf8Size = 1 := by
        have := toNat_of_isDigit (h c List.mem_cons_self)
        rw [Char.utf8Size_eq_one_iff, UInt32.le_iff_toNat_le]
        show c.toNat ≤ 127
        omega
      rw [List.flatMap_cons, String.utf8EncodeChar_eq_singleton hc,
        ih fun other hother => h other (List.mem_cons_of_mem _ hother)]
      rfl
  have htext : toString n = String.ofList (Nat.toDigits 10 n) := rfl
  rw [naturalBytes, htext, Bytes.ofString_ofList, hdigits _ (Text.isDigits_toDigits n).isDigit]

/-- Only the number zero begins with the digit zero. -/
theorem toDigits_of_zero {n : Nat} {cs : List Char} (h : Nat.toDigits 10 n = '0' :: cs) :
    n = 0 := by
  induction n using Nat.strongRecOn generalizing cs with
  | ind n ih =>
    by_cases hn : n < 10
    · rw [Nat.toDigits_of_lt_base hn] at h
      have hzero : n.digitChar = '0' := (List.cons.inj h).1
      have hdigit : ∀ n < 10, n.digitChar = '0' → n = 0 := by decide
      exact hdigit n hn hzero
    · -- a longer number begins as the number without its last digit does
      rw [Nat.toDigits_of_base_le (by decide) (by omega)] at h
      obtain ⟨c, front, hfront⟩ := List.exists_cons_of_ne_nil
        (Nat.toDigits_ne_nil (b := 10) (n := n / 10))
      rw [hfront, List.cons_append] at h
      rw [(List.cons.inj h).1] at hfront
      have := ih (n / 10) (by omega) hfront
      omega

theorem le_ofDigitChars (cs : List Char) (value : Nat) : value ≤ Nat.ofDigitChars 10 cs value := by
  induction cs generalizing value with
  | nil => exact Nat.le_refl _
  | cons c cs ih =>
    rw [Nat.ofDigitChars_cons]
    have := ih (10 * value + (c.toNat - '0'.toNat))
    omega

/-- As long as a number fits into 64 bits, all of its digits are taken. -/
theorem appendDigits_toUInt8 {cs : List Char} (h : ∀ c ∈ cs, c.isDigit = true) {value : Nat}
    (hfits : Nat.ofDigitChars 10 cs value < UInt64.size) :
    appendDigits value (cs.map Char.toUInt8) = (Nat.ofDigitChars 10 cs value, 0) := by
  -- along the digits, with the value of those in front
  induction cs generalizing value with
  | nil => rfl
  | cons c cs ih =>
    have hdigit : digitValue c.toUInt8 = c.toNat - '0'.toNat := by
      rw [digitValue, toNat_toUInt8 (h c List.mem_cons_self)]
      rfl
    rw [Nat.ofDigitChars_cons] at hfits ⊢
    have hlonger := le_ofDigitChars cs (10 * value + (c.toNat - '0'.toNat))
    simp only [List.map_cons, appendDigits, hdigit]
    rw [if_pos (by omega)]
    exact ih (fun other hother => h other (List.mem_cons_of_mem _ hother)) hfits

/-- What may follow a value is no part of a number. -/
theorem Delimited.not_number {back : Bytes} (h : Delimited back) :
    ∀ byte ∈ back.head?, isDigitByte byte = false ∧ byte ≠ 0x2E ∧ isExponentMark byte = false := by
  intro byte hbyte
  rcases h byte hbyte with rfl | rfl | rfl <;> decide

/-- A number begins with a digit. -/
theorem naturalBytes_cons (n : Nat) : ∃ c cs, Nat.toDigits 10 n = c :: cs ∧ c.isDigit = true ∧
    naturalBytes n = c.toUInt8 :: cs.map Char.toUInt8 := by
  have hdigits := Text.isDigits_toDigits n
  obtain ⟨c, cs, hcs⟩ := List.exists_cons_of_ne_nil hdigits.ne_nil
  refine ⟨c, cs, hcs, hdigits.isDigit c (hcs ▸ List.mem_cons_self), ?_⟩
  rw [naturalBytes_eq, hcs, List.map_cons]

/-- All digits of a number are taken, and nothing that follows it. -/
theorem integerDigits_naturalBytes (n steps : Nat) {back : Bytes} (hback : Delimited back) :
    integerDigits steps (naturalBytes n ++ back) = .ok (naturalBytes n, back) := by
  have hnone : ∀ byte ∈ back.head?, isDigitByte byte = false :=
    fun byte hbyte => (hback.not_number byte hbyte).1
  obtain ⟨c, cs, hcs, hc, hbytes⟩ := naturalBytes_cons n
  by_cases hzero : c = '0'
  · -- zero is written with one digit, behind which there may be no other
    subst hzero
    obtain rfl := toDigits_of_zero hcs
    have hread : integerDigits steps (naturalBytes 0 ++ back) =
      (if back.head?.any isDigitByte then stopBehind .badNumber else pure [0x30] : Scanner Bytes)
        steps back := rfl
    have hany : back.head?.any isDigitByte = false := by
      cases hhead : back.head? with
      | none => rfl
      | some byte => exact hnone byte hhead
    rw [hread, hany]
    rfl
  · -- any other number is written with all the digits that come next
    have hne : c.toUInt8 ≠ 0x30 := by
      intro heq
      have hvalue : c.toNat = '0'.toNat := (toNat_toUInt8 hc).symm.trans (congrArg UInt8.toNat heq)
      exact hzero (Char.toNat_inj.1 hvalue)
    have hread : integerDigits steps (naturalBytes n ++ back) =
        digits steps (naturalBytes n ++ back) := by
      have hhead : head? steps (naturalBytes n ++ back) =
          .ok (some c.toUInt8, naturalBytes n ++ back) := by
        rw [hbytes]
        rfl
      unfold integerDigits
      rw [bind_ok hhead]
      dsimp only
      rw [if_neg hne, if_pos (isDigitByte_toUInt8 hc)]
    have hall : ∀ byte ∈ naturalBytes n, isDigitByte byte = true := by
      intro byte hbyte
      rw [naturalBytes_eq, List.mem_map] at hbyte
      obtain ⟨d, hd, rfl⟩ := hbyte
      exact isDigitByte_toUInt8 ((Text.isDigits_toDigits n).isDigit d hd)
    have hend : back.takeWhile isDigitByte = [] ∧ back.dropWhile isDigitByte = back := by
      cases back with
      | nil => exact ⟨rfl, rfl⟩
      | cons byte back => simp [hnone byte rfl]
    rw [hread, digits, List.takeWhile_append_of_pos hall, List.dropWhile_append_of_pos hall,
      hend.1, hend.2, List.append_nil]

theorem number_naturalBytes {n : Nat} (h : n < UInt64.size) (steps : Nat) {back : Bytes}
    (hback : Delimited back) :
    number false steps (naturalBytes n ++ back) = .ok (.natural n, back) := by
  have happend : appendDigits 0 (naturalBytes n) = (n, 0) := by
    have hvalue : Nat.ofDigitChars 10 (Nat.toDigits 10 n) 0 = n := Nat.ofDigitChars_ten_toDigits
    have htaken := appendDigits_toUInt8 (Text.isDigits_toDigits n).isDigit
      (show Nat.ofDigitChars 10 (Nat.toDigits 10 n) 0 < UInt64.size by rw [hvalue]; exact h)
    rw [naturalBytes_eq, htaken, hvalue]
  unfold number
  rw [bind_ok (integerDigits_naturalBytes n steps hback), happend]
  -- without a point and an exponent behind it, the number is an integer
  cases back with
  | nil => rfl
  | cons byte back =>
    rcases hback byte rfl with rfl | rfl | rfl <;> rfl

/-- Numbers of 64 bits are read back. -/
theorem reads_natural (wanted : String) (n : UInt64) :
    (Scanner.natural wanted).Reads (naturalBytes n.toNat) n := by
  intro steps back _ hback
  obtain ⟨c, cs, -, hc, hbytes⟩ := naturalBytes_cons n.toNat
  have hsign : c.toUInt8 ≠ 0x2D := ne_of_isDigitByte (isDigitByte_toUInt8 hc) (by decide)
  have hnext : next? steps (naturalBytes n.toNat ++ back) =
      .ok (some c.toUInt8, naturalBytes n.toNat ++ back) := by
    rw [hbytes]
    exact next?_cons (not_isBlankByte_toUInt8 hc) _ _
  unfold Scanner.natural
  rw [bind_ok hnext]
  dsimp only
  rw [if_neg hsign, if_pos (isDigitByte_toUInt8 hc),
    bind_ok (number_naturalBytes n.toNat_lt steps hback)]
  show Except.ok (UInt64.ofNat n.toNat, back) = _
  rw [UInt64.ofNat_toNat]

/-! ## Arrays -/

/-- The compact form of a value begins with a byte that is neither blank nor the end of an array. -/
theorem compact_cons (value : Json) : ∃ byte rest, value.compact = byte :: rest ∧
    isBlankByte byte = false ∧ byte ≠ 0x5D := by
  cases value with
  | null => exact ⟨0x6E, _, rfl, by decide, by decide⟩
  | bool value => cases value <;> exact ⟨_, _, rfl, by decide, by decide⟩
  | natural n =>
    obtain ⟨c, cs, -, hc, hbytes⟩ := naturalBytes_cons n
    exact ⟨_, _, hbytes, not_isBlankByte_toUInt8 hc,
      ne_of_isDigitByte (isDigitByte_toUInt8 hc) (by decide)⟩
  | string text => exact ⟨0x22, _, rfl, by decide, by decide⟩
  | array elements => cases elements <;> exact ⟨0x5B, _, rfl, by decide, by decide⟩
  | object members =>
    rcases members with _ | ⟨⟨name, value⟩, rest⟩ <;> exact ⟨0x7B, _, rfl, by decide, by decide⟩

/-- What stands in front of a further part of an array or object. -/
def comma (isFirst : Bool) : Bytes := if isFirst then [] else [0x2C]

/-- The elements of an array from the first or from a further one on, up to its end. -/
def elementsBytes (isFirst : Bool) : List Json → Bytes
  | [] => [0x5D]
  | element :: rest => comma isFirst ++ (element.compact ++ compactElements rest)

theorem compact_array (elements : List Json) :
    (Json.array elements).compact = 0x5B :: elementsBytes true elements := by
  cases elements <;> rfl

theorem compactElements_eq (elements : List Json) :
    compactElements elements = elementsBytes false elements := by
  cases elements <;> rfl

theorem delimited_compactElements (elements : List Json) (back : Bytes) :
    Delimited (compactElements elements ++ back) := by
  cases elements with
  | nil =>
    rintro byte hbyte
    cases hbyte
    exact .inr (.inl rfl)
  | cons element elements =>
    rintro byte hbyte
    cases hbyte
    exact .inl rfl

theorem length_lt_elementsBytes (isFirst : Bool) (elements : List Json) :
    elements.length < (elementsBytes isFirst elements).length := by
  induction elements generalizing isFirst with
  | nil => exact Nat.zero_lt_one
  | cons element elements ih =>
    obtain ⟨byte, rest, hbytes, -⟩ := compact_cons element
    have hrest := ih false
    rw [← compactElements_eq] at hrest
    simp only [elementsBytes, hbytes, List.length_append, List.length_cons]
    omega

theorem nextElement_end (isFirst : Bool) (steps : Nat) (back : Bytes) :
    nextElement isFirst steps (0x5D :: back) = .ok (false, 0x5D :: back) := rfl

theorem nextElement_comma (isFirst : Bool) (value : Json) (steps : Nat) (back : Bytes) :
    nextElement isFirst steps (comma isFirst ++ (value.compact ++ back)) =
      .ok (true, value.compact ++ back) := by
  obtain ⟨byte, rest, hbytes, hblank, hend⟩ := compact_cons value
  have hnext : next? steps (value.compact ++ back) = .ok (some byte, value.compact ++ back) := by
    rw [hbytes]
    exact next?_cons hblank _ _
  unfold nextElement
  cases isFirst with
  | true =>
    rw [comma, if_pos rfl, List.nil_append, bind_ok hnext]
    dsimp only
    rw [if_neg hend]
    rfl
  | false =>
    have hcomma : next? steps (0x2C :: (value.compact ++ back)) =
        .ok (some 0x2C, 0x2C :: (value.compact ++ back)) := next?_cons (by decide) _ _
    rw [comma, if_neg Bool.false_ne_true, List.singleton_append, bind_ok hcomma]
    dsimp only
    rw [if_neg (by decide), if_neg Bool.false_ne_true, if_pos rfl, bind_ok (skip_cons _ _ _),
      bind_ok hnext]
    dsimp only
    rw [if_neg hend]
    rfl

section

variable {element : Scanner α} {toJson : α → Json} {values : List α}

/-- The elements that are left are read back. -/
theorem elementsFrom_elementsBytes
    (h : ∀ value ∈ values, element.Reads (toJson value).compact value) {n : Nat} (done : List α)
    {steps : Nat} (back : Bytes) (hn : values.length < n)
    (hsteps : (elementsBytes done.isEmpty (values.map toJson)).length ≤ steps) :
    elementsFrom element n done steps (elementsBytes done.isEmpty (values.map toJson) ++ back) =
      .ok (done.reverse ++ values, 0x5D :: back) := by
  -- along the elements, each of which joins those that are done
  induction values generalizing n done with
  | nil =>
    obtain ⟨n, rfl⟩ := Nat.exists_eq_succ_of_ne_zero (Nat.ne_of_gt hn)
    unfold elementsFrom
    rw [List.map_nil, elementsBytes, List.singleton_append, bind_ok (nextElement_end _ _ _),
      List.append_nil]
    rfl
  | cons value values ih =>
    obtain ⟨n, rfl⟩ := Nat.exists_eq_succ_of_ne_zero (Nat.ne_of_gt (Nat.zero_lt_of_lt hn))
    simp only [List.map_cons, elementsBytes, List.length_append, List.length_cons] at hn hsteps
    have hvalue := h value List.mem_cons_self steps (compactElements (values.map toJson) ++ back)
      (by omega) (delimited_compactElements _ _)
    have hrest := ih (fun other hother => h other (List.mem_cons_of_mem _ hother)) (n := n)
      (value :: done) (by omega) (by rw [List.isEmpty_cons, ← compactElements_eq]; omega)
    rw [List.isEmpty_cons, ← compactElements_eq] at hrest
    unfold elementsFrom
    rw [List.map_cons, elementsBytes, List.append_assoc, List.append_assoc,
      bind_ok (nextElement_comma _ _ _ _), if_pos rfl, bind_ok hvalue, hrest]
    simp

theorem endArray_end (steps : Nat) (back : Bytes) :
    endArray steps (0x5D :: back) = .ok ((), back) := rfl

/-- Arrays are read back. -/
theorem reads_list (h : ∀ value ∈ values, element.Reads (toJson value).compact value) :
    (Scanner.list element).Reads (Json.array (values.map toJson)).compact values := by
  intro steps back hsteps _
  rw [compact_array, List.length_cons] at hsteps
  have hcount := length_lt_elementsBytes true (values.map toJson)
  rw [List.length_map] at hcount
  have hopen : next? steps (0x5B :: (elementsBytes true (values.map toJson) ++ back)) =
      .ok (some 0x5B, 0x5B :: (elementsBytes true (values.map toJson) ++ back)) :=
    next?_cons (by decide) _ _
  have helements : elementsFrom element steps [] steps
      (elementsBytes true (values.map toJson) ++ back) = .ok (values, 0x5D :: back) :=
    elementsFrom_elementsBytes h [] back (by omega) (Nat.le_of_succ_le hsteps)
  unfold Scanner.list
  rw [compact_array, List.cons_append, bind_ok hopen]
  dsimp only
  rw [if_pos rfl, bind_ok (skip_cons _ _ _),
    bind_ok (show (read : Scanner Nat) steps _ = .ok (steps, _) from rfl), bind_ok helements,
    bind_ok (endArray_end _ _)]
  rfl

end

/-! ## Objects -/

/-- The members of an object from the first or from a further one on, up to its end. -/
def membersBytes (isFirst : Bool) : List (String × Json) → Bytes
  | [] => [0x7D]
  | (name, value) :: rest =>
    comma isFirst ++ (quotedBytes name ++ 0x3A :: (value.compact ++ compactMembers rest))

theorem compact_object (members : List (String × Json)) :
    (Json.object members).compact = 0x7B :: membersBytes true members := by
  rcases members with _ | ⟨⟨name, value⟩, rest⟩
  · rfl
  · simp [compact, membersBytes, comma]

theorem compactMembers_eq (members : List (String × Json)) :
    compactMembers members = membersBytes false members := by
  rcases members with _ | ⟨⟨name, value⟩, rest⟩
  · rfl
  · simp [compactMembers, membersBytes, comma]

theorem delimited_compactMembers (members : List (String × Json)) (back : Bytes) :
    Delimited (compactMembers members ++ back) := by
  rcases members with _ | ⟨⟨name, value⟩, rest⟩
  · rintro byte hbyte
    cases hbyte
    exact .inr (.inr rfl)
  · rintro byte hbyte
    cases hbyte
    exact .inl rfl

theorem length_lt_membersBytes (isFirst : Bool) (members : List (String × Json)) :
    members.length < (membersBytes isFirst members).length := by
  induction members generalizing isFirst with
  | nil => exact Nat.zero_lt_one
  | cons member members ih =>
    have hrest := ih false
    rw [← compactMembers_eq] at hrest
    simp only [membersBytes, List.length_append, List.length_cons]
    omega

theorem nextName?_end (isFirst : Bool) (steps : Nat) (back : Bytes) :
    nextName? isFirst steps (0x7D :: back) = .ok (none, 0x7D :: back) := rfl

theorem nextName?_comma (isFirst : Bool) (name : String) (steps : Nat) (back : Bytes) :
    nextName? isFirst steps (comma isFirst ++ (quotedBytes name ++ back)) =
      .ok (some name, back) := by
  have hquote : next? steps (quotedBytes name ++ back) =
      .ok (some 0x22, quotedBytes name ++ back) := next?_cons (by decide) _ _
  have hname := quoted_quotedBytes name steps back
  unfold nextName?
  cases isFirst with
  | true =>
    rw [comma, if_pos rfl, List.nil_append, bind_ok hquote]
    dsimp only
    rw [if_neg (by decide), if_pos rfl, if_pos rfl, bind_ok hname]
    rfl
  | false =>
    have hcomma : next? steps (0x2C :: (quotedBytes name ++ back)) =
        .ok (some 0x2C, 0x2C :: (quotedBytes name ++ back)) := next?_cons (by decide) _ _
    rw [comma, if_neg Bool.false_ne_true, List.singleton_append, bind_ok hcomma]
    dsimp only
    rw [if_neg (by decide), if_neg Bool.false_ne_true, if_pos rfl, bind_ok (skip_cons _ _ _),
      bind_ok hquote]
    dsimp only
    rw [if_pos rfl, bind_ok hname]
    rfl

/-- How the members of an object fill a draft, when fields of the names `seen` were read already. -/
inductive Fills (fields : List (Field δ)) : List String → δ → List (String × Json) → δ → Prop
  /-- Every field that has to be there was read. -/
  | done {seen : List String} {draft : δ} :
      (fields.find? fun field => field.isRequired && !seen.contains field.name) = none →
      Fills fields seen draft [] draft
  /-- A member is read as the field of its name. -/
  | member {seen : List String} {draft draft' final : δ} {field : Field δ} {name : String}
      {value : Json} {rest : List (String × Json)} :
      (fields.find? fun field => field.name == name) = some field → seen.contains name = false →
      (field.read draft).Reads value.compact draft' →
      Fills fields (name :: seen) draft' rest final →
      Fills fields seen draft ((name, value) :: rest) final

section

variable {fields : List (Field δ)} {seen : List String} {draft final : δ}
variable {parts : List (String × Json)}

/-- The members that are left are read back. -/
theorem members_membersBytes (h : Fills fields seen draft parts final) {n steps : Nat}
    (isFirst : Bool) (back : Bytes) (hn : parts.length < n)
    (hsteps : (membersBytes isFirst parts).length ≤ steps) :
    members fields n isFirst seen draft steps (membersBytes isFirst parts ++ back) =
      .ok (.ok final, 0x7D :: back) := by
  -- along the members, each of which fills one field
  induction h generalizing n isFirst with
  | done hrequired =>
    obtain ⟨n, rfl⟩ := Nat.exists_eq_succ_of_ne_zero (Nat.ne_of_gt hn)
    unfold members
    rw [membersBytes, List.singleton_append, bind_ok (nextName?_end _ _ _)]
    dsimp only
    rw [hrequired]
    rfl
  | @member seen draft draft' final field name value rest hfield hseen hread _ ih =>
    obtain ⟨n, rfl⟩ := Nat.exists_eq_succ_of_ne_zero (Nat.ne_of_gt (Nat.zero_lt_of_lt hn))
    simp only [membersBytes, List.length_append, List.length_cons] at hn hsteps
    have hvalue := hread steps (compactMembers rest ++ back) (by omega)
      (delimited_compactMembers _ _)
    have hrest := ih (n := n) false (by omega) (by rw [← compactMembers_eq]; omega)
    rw [← compactMembers_eq] at hrest
    unfold members
    rw [membersBytes, List.append_assoc, List.append_assoc, bind_ok (nextName?_comma _ _ _ _)]
    dsimp only
    rw [hfield]
    dsimp only
    rw [hseen, if_neg Bool.false_ne_true, List.cons_append, List.append_assoc,
      bind_ok (colon_cons _ _), bind_ok hvalue, hrest]

/-- Records are read back from objects. -/
theorem reads_record (name : String) (h : Fills fields [] draft parts final) :
    (Scanner.record name fields draft).Reads (Json.object parts).compact final := by
  intro steps back hsteps _
  rw [compact_object, List.length_cons] at hsteps
  have hcount := length_lt_membersBytes true parts
  have hopen : next? steps (0x7B :: (membersBytes true parts ++ back)) =
      .ok (some 0x7B, 0x7B :: (membersBytes true parts ++ back)) := next?_cons (by decide) _ _
  have hmembers : members fields steps true [] draft steps (membersBytes true parts ++ back) =
      .ok (.ok final, 0x7D :: back) :=
    members_membersBytes h true back (by omega) (by omega)
  have hclose : passClosing 0x7D steps (0x7D :: back) = .ok ((), back) := rfl
  unfold Scanner.record
  rw [compact_object, List.cons_append, bind_ok hopen]
  dsimp only
  rw [if_neg (by decide), if_pos rfl, bind_ok (skip_cons _ _ _),
    bind_ok (show (read : Scanner Nat) steps _ = .ok (steps, _) from rfl), bind_ok hmembers,
    bind_ok hclose]
  rfl

end

end Scanner

/-- A text that a scanner reads back is one that it decodes. -/
theorem decode_of_reads {scanner : Scanner α} {text : Bytes} {value : α}
    (h : scanner.Reads text value) : decode scanner text = .ok value := by
  have hread := h (2 * text.length + 2) [] (by omega) nofun
  rw [List.append_nil] at hread
  have hwhole : scanner.whole (2 * text.length + 2) text = .ok (value, []) := by
    unfold Scanner.whole
    rw [Scanner.bind_ok hread]
    rfl
  rw [decode, hwhole]

end Json

/-! ## Configurations -/

namespace Config

open Json.Scanner

/-- Replicas are read back. -/
theorem reads_peer (value : Peer) : peer.Reads (peerToJson value).compact value := by
  apply reads_record
  refine .member rfl rfl ((reads_natural "u64" value.id).map _) ?_
  refine .member rfl rfl ((reads_text value.addr).map _) ?_
  exact .done rfl

/-- A configuration is read back, under whatever root directory it is read. -/
theorem decode_encode (config : Config) (root : Path) :
    decode root config.encode = .ok { config with root } := by
  apply Json.decode_of_reads
  apply reads_record
  refine .member rfl rfl ((reads_natural "u64" config.partition).map _) ?_
  refine .member rfl rfl ((reads_text config.volume).map _) ?_
  refine .member rfl rfl ((reads_natural "u64" config.first).map _) ?_
  refine .member rfl rfl ((reads_natural "u64" config.last).map _) ?_
  refine .member rfl rfl ((reads_list fun peer _ => reads_peer peer).map _) ?_
  exact .done rfl

end Config

end PartitionSnapshot
