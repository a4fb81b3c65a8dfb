import VideoSite.Lib.PythonText

/-!
# The stored hashes of passwords

`PBKDF2PasswordHasher` of `adapter/security/password_hasher.py` writes the hash of a password
as `pbkdf2_sha256$<iterations>$<salt_hex>$<hash_hex>` and takes such a string apart again to
verify a password.  PBKDF2 itself is a parameter, and so is what the Unicode database says
about characters beyond ASCII.

* `verify_of_fields` says what `verify` does, from the fields of the string.
* `verify_exact_iff` is the result about all strings.
* `verify_hash` is the case of those that the hasher writes.
-/

namespace VideoSite.Users

open PythonText

namespace PBKDF2PasswordHasher

def algorithm : String := "pbkdf2_sha256"

/-- What raises a `ValueError`. -/
inductive ValueError where
  | notHexadecimal
  | notAnInteger
  | tooFewIterations
  | tooManyDigits
  deriving DecidableEq, Repr

/-- The value, or an error where there is none. -/
def orError {α : Type} (value : Option α) (e : ValueError) : Except ValueError α :=
  match value with
  | some a => .ok a
  | none => .error e

/-- `password.encode("utf-8")`. -/
def utf8 (text : String) : List UInt8 := text.toUTF8.toList

section

variable (tables : UnicodeTables) (pbkdf2 : List UInt8 → List UInt8 → Nat → List UInt8)

/-- `_derive`. -/
def derive (password : String) (salt : List UInt8) (iterations : Int) :
    Except ValueError (List UInt8) :=
  if 1 ≤ iterations then .ok (pbkdf2 (utf8 password) salt iterations.toNat)
  else .error .tooFewIterations

/-- The stored format. -/
def format (iterations : Nat) (salt digest : List UInt8) : String :=
  s!"{algorithm}${iterations}${String.ofList (hex salt)}${String.ofList (hex digest)}"

/-- `hash`, with the salt that is drawn. -/
def hash (iterations : Int) (salt : List UInt8) (plainPassword : String) :
    Except ValueError String := do
  let digest ← derive pbkdf2 plainPassword salt iterations
  if (Nat.toDigits 10 iterations.toNat).length ≤ maxStrDigits then
    return format iterations.toNat salt digest
  else throw .tooManyDigits

/-- `password_hash.split("$")`. -/
def fields (passwordHash : String) : List (List Char) := passwordHash.toList.splitOn '$'

def verify (plainPassword passwordHash : String) : Except ValueError Bool :=
  match fields passwordHash with
  | [name, iterations, saltHex, digestHex] =>
      if name ≠ algorithm.toList then .ok false
      else do
        let salt ← orError (fromhex saltHex) .notHexadecimal
        let expected ← orError (fromhex digestHex) .notHexadecimal
        let count ← orError (parseInt tables iterations) .notAnInteger
        let actual ← derive pbkdf2 plainPassword salt count
        return actual == expected
  | _ => .ok false

/-! ## What is verified -/

/-- The string splits into four fields and the first names the algorithm. -/
def HasFields (passwordHash : String) (iterations saltHex digestHex : List Char) : Prop :=
  fields passwordHash = [algorithm.toList, iterations, saltHex, digestHex]

/-- The other three fields are what they should be. -/
def Parses (iterations saltHex digestHex : List Char) : Prop :=
  (∃ count, parseInt tables iterations = some count ∧ 1 ≤ count) ∧
    (fromhex saltHex).isSome = true ∧ (fromhex digestHex).isSome = true

/-- The string is the hash of the password. -/
def Fits (plainPassword passwordHash : String) : Prop :=
  ∃ iterations saltHex digestHex, HasFields passwordHash iterations saltHex digestHex ∧
    ∃ count salt, parseInt tables iterations = some count ∧ 1 ≤ count ∧
      fromhex saltHex = some salt ∧
      fromhex digestHex = some (pbkdf2 (utf8 plainPassword) salt count.toNat)

end

variable {tables : UnicodeTables} {pbkdf2 : List UInt8 → List UInt8 → Nat → List UInt8}
  {plainPassword passwordHash : String} {iterations saltHex digestHex : List Char}

theorem derive_of_pos {count : Int} (hpositive : 1 ≤ count) (salt : List UInt8) :
    derive pbkdf2 plainPassword salt count =
      .ok (pbkdf2 (utf8 plainPassword) salt count.toNat) := if_pos hpositive

theorem derive_of_not_pos {count : Int} (hfew : ¬ 1 ≤ count) (salt : List UInt8) :
    derive pbkdf2 plainPassword salt count = .error .tooFewIterations := if_neg hfew

/-- A string without the algorithm and three more fields just fails to verify. -/
theorem verify_of_foreign (h : ∀ iterations saltHex digestHex,
    ¬ HasFields passwordHash iterations saltHex digestHex) :
    verify tables pbkdf2 plainPassword passwordHash = .ok false := by
  unfold verify
  split
  · rename_i name iterations saltHex digestHex hfields
    rw [if_pos]
    rintro rfl
    exact h iterations saltHex digestHex hfields
  · rfl

/-- With the fields of a hash, the digest is compared. -/
theorem verify_of_fields {count : Int} {salt expected : List UInt8}
    (hfields : HasFields passwordHash iterations saltHex digestHex)
    (hcount : parseInt tables iterations = some count) (hpositive : 1 ≤ count)
    (hsalt : fromhex saltHex = some salt) (hdigest : fromhex digestHex = some expected) :
    verify tables pbkdf2 plainPassword passwordHash =
      .ok (pbkdf2 (utf8 plainPassword) salt count.toNat == expected) := by
  unfold HasFields at hfields
  simp only [verify, hfields, hsalt, hdigest, hcount, orError, ne_eq, not_true_eq_false,
    if_false]
  show (do
    let actual ← derive pbkdf2 plainPassword salt count
    return actual == expected) = _
  rw [derive_of_pos hpositive]
  rfl

/-- With a field that is not what it should be, an error is raised. -/
theorem verify_of_malformed (hfields : HasFields passwordHash iterations saltHex digestHex)
    (hmalformed : ¬ Parses tables iterations saltHex digestHex) (b : Bool) :
    verify tables pbkdf2 plainPassword passwordHash ≠ .ok b := by
  unfold HasFields at hfields
  unfold verify
  rw [hfields]
  simp only [ne_eq, not_true_eq_false, if_false]
  intro hok
  apply hmalformed
  unfold Parses
  cases hsalt : fromhex saltHex with
  | none =>
    rw [hsalt] at hok
    cases hok
  | some salt =>
    cases hdigest : fromhex digestHex with
    | none =>
      rw [hsalt, hdigest] at hok
      cases hok
    | some expected =>
      cases hcount : parseInt tables iterations with
      | none =>
        rw [hsalt, hdigest, hcount] at hok
        cases hok
      | some count =>
        refine ⟨⟨count, rfl, ?_⟩, rfl, rfl⟩
        by_contra hfew
        rw [hsalt, hdigest, hcount] at hok
        have hraised : (do
            let actual ← derive pbkdf2 plainPassword salt count
            return actual == expected) = .ok b := hok
        rw [derive_of_not_pos hfew] at hraised
        cases hraised

/-- The fields of a string are determined. -/
theorem HasFields.unique {iterations' saltHex' digestHex' : List Char}
    (h : HasFields passwordHash iterations saltHex digestHex)
    (h' : HasFields passwordHash iterations' saltHex' digestHex') :
    iterations = iterations' ∧ saltHex = saltHex' ∧ digestHex = digestHex' := by
  unfold HasFields at h h'
  rw [h] at h'
  simpa using h'

/-- Where the fields are what they should be, `verify` answers, and with `True` just if the
string is the hash of the password. -/
theorem verify_iff_fits (hfields : HasFields passwordHash iterations saltHex digestHex)
    (hparses : Parses tables iterations saltHex digestHex) :
    ∃ b, verify tables pbkdf2 plainPassword passwordHash = .ok b ∧
      (b = true ↔ Fits tables pbkdf2 plainPassword passwordHash) := by
  obtain ⟨⟨count, hcount, hpositive⟩, hsaltSome, hdigestSome⟩ := hparses
  obtain ⟨salt, hsalt⟩ := Option.isSome_iff_exists.1 hsaltSome
  obtain ⟨expected, hdigest⟩ := Option.isSome_iff_exists.1 hdigestSome
  refine ⟨_, verify_of_fields hfields hcount hpositive hsalt hdigest, ?_⟩
  rw [beq_iff_eq]
  constructor
  · intro hsame
    exact ⟨iterations, saltHex, digestHex, hfields, count, salt, hcount, hpositive, hsalt,
      hsame ▸ hdigest⟩
  · rintro ⟨iterations', saltHex', digestHex', hfields', count', salt', hcount', -, hsalt',
      hdigest'⟩
    obtain ⟨rfl, rfl, rfl⟩ := hfields.unique hfields'
    rw [hcount] at hcount'
    rw [hsalt] at hsalt'
    rw [hdigest] at hdigest'
    cases hcount'
    cases hsalt'
    exact (Option.some.inj hdigest').symm

/-! ## Hashes of the hasher's own -/

/-- The fields of the stored format. -/
theorem fields_format (iterations : Nat) (salt digest : List UInt8) :
    HasFields (format iterations salt digest) (Nat.toDigits 10 iterations) (hex salt)
      (hex digest) := by
  have htext : (format iterations salt digest).toList =
      ['$'].intercalate [algorithm.toList, Nat.toDigits 10 iterations, hex salt, hex digest] := by
    have htext (text : String) : toString text = text := rfl
    simp [format, htext]
  have hdollar : ∀ part ∈ [algorithm.toList, Nat.toDigits 10 iterations, hex salt, hex digest],
      '$' ∉ part := by
    have hname : '$' ∉ algorithm.toList := by decide
    have hdigits : '$' ∉ Nat.toDigits 10 iterations := fun hmem => by
      have hdigit := Nat.isDigit_of_mem_toDigits (by decide) (by decide) hmem
      cases hdigit
    have hhex (bytes : List UInt8) : '$' ∉ hex bytes := not_mem_hex (by decide) bytes
    simp [hname, hdigits, hhex]
  unfold HasFields fields
  rw [htext, List.splitOn_intercalate '$' hdollar (by simp)]

/-- What `hash` has returned verifies, whatever the hasher is configured with later. -/
theorem verify_hash {count : Int} {salt : List UInt8}
    (h : hash pbkdf2 count salt plainPassword = .ok passwordHash) :
    verify tables pbkdf2 plainPassword passwordHash = .ok true := by
  unfold hash at h
  by_cases hpositive : 1 ≤ count
  · rw [derive_of_pos hpositive] at h
    by_cases hlength : (Nat.toDigits 10 count.toNat).length ≤ maxStrDigits
    · have hformat : format count.toNat salt (pbkdf2 (utf8 plainPassword) salt count.toNat) =
          passwordHash := by
        simpa [bind, Except.bind, pure, Except.pure, hlength] using h
      have hfields := fields_format count.toNat salt
        (pbkdf2 (utf8 plainPassword) salt count.toNat)
      rw [hformat] at hfields
      have hcount : parseInt tables (Nat.toDigits 10 count.toNat) = some count := by
        rw [parseInt_toDigits tables hlength, Int.toNat_of_nonneg (by omega)]
      rw [verify_of_fields hfields hcount hpositive (fromhex_hex salt) (fromhex_hex _)]
      simp
    · simp [bind, Except.bind, hlength] at h
  · rw [derive_of_not_pos hpositive] at h
    cases h

/-- `verify` answers for a string, and with `True` just if the string is the hash of the
password, unless the string names the algorithm and has three more fields one of which is
not what it should be; and it verifies what `hash` has returned under any iteration count
and salt. -/
theorem verify_exact_iff (tables : UnicodeTables)
    (pbkdf2 : List UInt8 → List UInt8 → Nat → List UInt8) :
    (∀ plainPassword passwordHash,
      ((∃ b, verify tables pbkdf2 plainPassword passwordHash = .ok b) ∧
          (verify tables pbkdf2 plainPassword passwordHash = .ok true ↔
            Fits tables pbkdf2 plainPassword passwordHash)) ↔
        ∀ iterations saltHex digestHex, HasFields passwordHash iterations saltHex digestHex →
          Parses tables iterations saltHex digestHex) ∧
    ∀ count salt plainPassword passwordHash,
      hash pbkdf2 count salt plainPassword = .ok passwordHash →
        verify tables pbkdf2 plainPassword passwordHash = .ok true := by
  refine ⟨fun plainPassword passwordHash => ⟨?_, ?_⟩, fun count salt plainPassword passwordHash h =>
    verify_hash h⟩
  · rintro ⟨⟨b, hb⟩, -⟩ iterations saltHex digestHex hfields
    by_contra hmalformed
    exact verify_of_malformed hfields hmalformed b hb
  · intro h
    by_cases hown : ∃ iterations saltHex digestHex,
        HasFields passwordHash iterations saltHex digestHex
    · obtain ⟨iterations, saltHex, digestHex, hfields⟩ := hown
      have hanswer : ∃ b, verify tables pbkdf2 plainPassword passwordHash = .ok b ∧
          (b = true ↔ Fits tables pbkdf2 plainPassword passwordHash) :=
        verify_iff_fits hfields (h _ _ _ hfields)
      obtain ⟨b, hb, hiff⟩ := hanswer
      refine ⟨⟨b, hb⟩, ?_⟩
      rw [hb, ← hiff]
      simp
    · have hforeign : ∀ iterations saltHex digestHex,
          ¬ HasFields passwordHash iterations saltHex digestHex :=
        fun iterations saltHex digestHex hfields => hown ⟨_, _, _, hfields⟩
      rw [verify_of_foreign hforeign]
      refine ⟨⟨false, rfl⟩, ?_⟩
      constructor
      · intro hok
        cases hok
      · rintro ⟨iterations, saltHex, digestHex, hfields, -⟩
        exact absurd hfields (hforeign _ _ _)

namespace Sample

/-- Tables for a database without characters beyond ASCII. -/
def asciiTables : UnicodeTables where
  isSpace := fun _ => false
  decimal := fun _ => none

/-- A derivation that can be evaluated. -/
def derived (password salt : List UInt8) (iterations : Nat) : List UInt8 :=
  UInt8.ofNat iterations :: (salt ++ password)

end Sample

/-- The hash of `secret` under two iterations and the salt `0a`. -/
theorem verify_exact_secret :
    verify Sample.asciiTables Sample.derived "secret"
      (format 2 [10] (Sample.derived (utf8 "secret") [10] 2)) = .ok true := by
  have hhash : hash Sample.derived 2 [10] "secret" =
      .ok (format 2 [10] (Sample.derived (utf8 "secret") [10] 2)) := rfl
  exact (verify_exact_iff Sample.asciiTables Sample.derived).2 _ _ _ _ hhash

/-- With a salt that is not hexadecimal, `verify` raises instead of failing. -/
theorem verify_raises :
    ¬ ∃ b, verify Sample.asciiTables Sample.derived "secret" "pbkdf2_sha256$1000$zz$00" =
      .ok b := by
  have herror : verify Sample.asciiTables Sample.derived "secret" "pbkdf2_sha256$1000$zz$00" =
      .error .notHexadecimal := by decide +kernel
  rintro ⟨b, hb⟩
  rw [herror] at hb
  cases hb

end PBKDF2PasswordHasher

end VideoSite.Users
