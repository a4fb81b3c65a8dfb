import Mathlib.Data.List.TakeWhile

/-!
# Bytes and integers as Python writes and reads them

`bytes.hex` and `bytes.fromhex`, and `int` on a string.  Both readers take more than the
writers write: spaces between the bytes and capital letters, spaces and a sign around an
integer, underscores inside it, and digits of any script.

* `fromhex_hex`: the bytes that were written are read.
* `parseInt_toDigits`: so is the integer, if it is not too long.
-/

namespace PythonText

/-- The whitespace of ASCII. -/
def isAsciiSpace (c : Char) : Bool := (9 ≤ c.toNat && c.toNat ≤ 13) || c.toNat == 32

/-! ## Bytes -/

/-- The value of a hexadecimal digit. -/
def hexDigit? (c : Char) : Option Nat :=
  if 48 ≤ c.toNat ∧ c.toNat ≤ 57 then some (c.toNat - 48)
  else if 97 ≤ c.toNat ∧ c.toNat ≤ 102 then some (c.toNat - 87)
  else if 65 ≤ c.toNat ∧ c.toNat ≤ 70 then some (c.toNat - 55)
  else none

/-- The byte with these two digits. -/
def hexByte? (top bottom : Char) : Option UInt8 := do
  let high ← hexDigit? top
  let low ← hexDigit? bottom
  return UInt8.ofNat (16 * high + low)

/-- `bytes.fromhex`, and `none` where it raises a `ValueError`: whitespace may stand between
the bytes, and not inside one. -/
def fromhex : List Char → Option (List UInt8)
  | [] => some []
  | [c] => if isAsciiSpace c then some [] else none
  | c :: d :: rest =>
      if isAsciiSpace c then fromhex (d :: rest)
      else do
        let byte ← hexByte? c d
        let bytes ← fromhex rest
        return byte :: bytes

/-- The two digits of a byte. -/
def hexPair (byte : UInt8) : List Char :=
  [(byte.toNat / 16).digitChar, (byte.toNat % 16).digitChar]

/-- `bytes.hex`. -/
def hex (bytes : List UInt8) : List Char := bytes.flatMap hexPair

/-- A digit is no space and reads as its value. -/
theorem hexDigit?_digitChar {n : Nat} (h : n < 16) :
    isAsciiSpace n.digitChar = false ∧ hexDigit? n.digitChar = some n := by
  have hall : ∀ k : Fin 16, isAsciiSpace k.val.digitChar = false ∧
      hexDigit? k.val.digitChar = some k.val := by decide
  exact hall ⟨n, h⟩

theorem hexByte?_hexPair (byte : UInt8) :
    hexByte? (byte.toNat / 16).digitChar (byte.toNat % 16).digitChar = some byte := by
  have hbyte : byte.toNat < 256 := byte.toNat_lt
  have hhigh := (hexDigit?_digitChar (n := byte.toNat / 16) (by omega)).2
  have hlow := (hexDigit?_digitChar (n := byte.toNat % 16) (by omega)).2
  have hsum : 16 * (byte.toNat / 16) + byte.toNat % 16 = byte.toNat := by omega
  unfold hexByte?
  rw [hhigh, hlow]
  show some (UInt8.ofNat (16 * (byte.toNat / 16) + byte.toNat % 16)) = some byte
  rw [hsum, UInt8.ofNat_toNat]

/-- Reading what was written gives the bytes back. -/
theorem fromhex_hex (bytes : List UInt8) : fromhex (hex bytes) = some bytes := by
  induction bytes with
  | nil => rfl
  | cons byte rest ih =>
    have hbyte : byte.toNat < 256 := byte.toNat_lt
    have hdigit := (hexDigit?_digitChar (n := byte.toNat / 16) (by omega)).1
    have hcons : hex (byte :: rest) =
        (byte.toNat / 16).digitChar :: (byte.toNat % 16).digitChar :: hex rest := rfl
    rw [hcons, fromhex, hdigit, hexByte?_hexPair, ih]
    rfl

/-- A digit of a byte is not a separator. -/
theorem not_mem_hex {c : Char} (hc : hexDigit? c = none) (bytes : List UInt8) : c ∉ hex bytes := by
  intro hmem
  obtain ⟨byte, -, hpair⟩ := List.mem_flatMap.1 hmem
  have hbyte : byte.toNat < 256 := byte.toNat_lt
  have hdigit {n : Nat} (hn : n < 16) : c ≠ n.digitChar := by
    intro he
    rw [he, (hexDigit?_digitChar hn).2] at hc
    cases hc
  unfold hexPair at hpair
  rcases List.mem_cons.1 hpair with he | hpair
  · exact hdigit (by omega) he
  · exact hdigit (by omega) (List.mem_singleton.1 hpair)

/-! ## Integers -/

/-- What the Unicode database says beyond ASCII: which characters are whitespace, and which
are decimal digits. -/
structure UnicodeTables where
  isSpace : Char → Bool
  decimal : Char → Option Nat

/-- A character as `int` sees it. -/
def toAscii (tables : UnicodeTables) (c : Char) : Char :=
  if c.toNat < 127 then c
  else if tables.isSpace c then ' '
  else
    match tables.decimal c with
    | some digit => digit.digitChar
    | none => '?'

/-- `-1` behind a minus sign. -/
def sign (chars : List Char) : Int := if chars.head? = some '-' then -1 else 1

/-- What stands behind a sign. -/
def unsigned (chars : List Char) : List Char :=
  if chars.head? = some '+' ∨ chars.head? = some '-' then chars.tail else chars

/-- A character of the body of an integer. -/
def isBody (c : Char) : Bool := c.isDigit || c == '_'

/-- How many digits `int` and `str` convert. -/
def maxStrDigits : Nat := 4300

/-- `int` on a string, and `none` where it raises a `ValueError`: single underscores may
stand between digits, and whitespace around the number. -/
def parseInt (tables : UnicodeTables) (text : List Char) : Option Int :=
  let chars := (text.map (toAscii tables)).dropWhile isAsciiSpace
  let body := (unsigned chars).takeWhile isBody
  let rest := (unsigned chars).dropWhile isBody
  let digits := body.filter Char.isDigit
  if (body.splitOn '_').all (fun part => !part.isEmpty) && rest.all isAsciiSpace &&
      digits.length ≤ maxStrDigits then
    some (sign chars * Nat.ofDigitChars 10 digits 0)
  else none

/-- A digit is itself, and neither space nor sign. -/
theorem ascii_digit (tables : UnicodeTables) {c : Char} (h : c.isDigit = true) :
    toAscii tables c = c ∧ isAsciiSpace c = false ∧ c ≠ '+' ∧ c ≠ '-' := by
  have hbounds : 48 ≤ c.toNat ∧ c.toNat ≤ 57 := by
    unfold Char.isDigit at h
    simp only [Bool.and_eq_true, decide_eq_true_eq] at h
    exact ⟨h.1, h.2⟩
  refine ⟨if_pos (by omega), ?_, ?_, ?_⟩
  · unfold isAsciiSpace
    have hlow : ¬ c.toNat ≤ 13 := by omega
    have hspace : ¬ c.toNat = 32 := by omega
    simp [hlow, hspace]
  · rintro rfl
    exact absurd hbounds (by decide)
  · rintro rfl
    exact absurd hbounds (by decide)

/-- Reading the digits of a number gives the number back. -/
theorem parseInt_toDigits (tables : UnicodeTables) {n : Nat}
    (hlength : (Nat.toDigits 10 n).length ≤ maxStrDigits) :
    parseInt tables (Nat.toDigits 10 n) = some (n : Int) := by
  have hdigit : ∀ c ∈ Nat.toDigits 10 n, c.isDigit = true := fun c hc =>
    Nat.isDigit_of_mem_toDigits (by decide) (by decide) hc
  have hmap : (Nat.toDigits 10 n).map (toAscii tables) = Nat.toDigits 10 n := by
    rw [List.map_congr_left fun c hc => (ascii_digit tables (hdigit c hc)).1, List.map_id']
  have hhead {c : Char} (hc : (Nat.toDigits 10 n).head? = some c) : c.isDigit = true :=
    hdigit c (List.mem_of_head? hc)
  have hspace : (Nat.toDigits 10 n).dropWhile isAsciiSpace = Nat.toDigits 10 n := by
    cases hchars : Nat.toDigits 10 n with
    | nil => rfl
    | cons c rest =>
      have hc : c.isDigit = true := hdigit c (hchars ▸ List.mem_cons_self)
      rw [List.dropWhile_cons, (ascii_digit tables hc).2.1]
      rfl
  have hplus : (Nat.toDigits 10 n).head? ≠ some '+' := fun h => by
    have := hhead h
    cases this
  have hminus : (Nat.toDigits 10 n).head? ≠ some '-' := fun h => by
    have := hhead h
    cases this
  have hbody : ∀ c ∈ Nat.toDigits 10 n, isBody c = true := fun c hc => by
    unfold isBody
    rw [hdigit c hc]
    rfl
  have hunsigned : unsigned (Nat.toDigits 10 n) = Nat.toDigits 10 n :=
    if_neg fun h => h.elim hplus hminus
  have hsign : sign (Nat.toDigits 10 n) = 1 := if_neg hminus
  have htake : (Nat.toDigits 10 n).takeWhile isBody = Nat.toDigits 10 n :=
    List.takeWhile_eq_self_iff.2 hbody
  have hdrop : (Nat.toDigits 10 n).dropWhile isBody = [] :=
    List.dropWhile_eq_nil_iff.2 hbody
  have hparts : (Nat.toDigits 10 n).splitOn '_' = [Nat.toDigits 10 n] :=
    List.splitOn_eq_singleton Nat.underscore_not_in_toDigits
  have hfilter : (Nat.toDigits 10 n).filter Char.isDigit = Nat.toDigits 10 n :=
    List.filter_eq_self.2 hdigit
  have hnonempty : (Nat.toDigits 10 n).isEmpty = false := by
    rw [List.isEmpty_eq_false_iff]
    exact Nat.toDigits_ne_nil
  unfold parseInt
  simp only [hmap, hspace, hunsigned, htake, hdrop, hparts, hfilter, hsign,
    Nat.ofDigitChars_ten_toDigits, List.all_cons, List.all_nil, hnonempty, Int.one_mul]
  rw [if_pos (by simpa using hlength)]

end PythonText
