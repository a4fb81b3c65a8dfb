import Mathlib.Algebra.Order.BigOperators.Group.List
import Mathlib.Algebra.Ring.Nat
import Mathlib.Data.List.TakeWhile

/-!
# Absolute URLs

What a client makes of the text of an absolute URL: it is cut into its parts, the `.`
and `..` segments of the path are removed, and characters that may not stand in a
path are percent-encoded.  An escape `%XX` that is there already is left alone.

All three steps lose something on some texts.  Decoding gives the path back just if it
is `Clean`.  The argument is a count of bytes: no step adds any.

* `unquote_quote` and `unquote_quote_length` are the percent-encoding.
* `normalizePath_eq` and `normalizePath_length` are the dot segments.
* `parse_origin_iff` puts them together.
-/

namespace VideoSite.Url

/-! ## Text and bytes -/

/-- The UTF-8 encoding of a text. -/
def utf8 (text : List Char) : List UInt8 := text.flatMap String.utf8EncodeChar

@[simp] theorem utf8_nil : utf8 [] = [] := rfl

@[simp] theorem utf8_cons (c : Char) (text : List Char) :
    utf8 (c :: text) = String.utf8EncodeChar c ++ utf8 text := rfl

@[simp] theorem utf8_append (a b : List Char) : utf8 (a ++ b) = utf8 a ++ utf8 b :=
  List.flatMap_append

/-! ## Percent-encoding -/

/-- The value of a hexadecimal digit. -/
def hexDigit? (c : Char) : Option Nat :=
  if '0' ≤ c ∧ c ≤ '9' then some (c.toNat - '0'.toNat)
  else if 'A' ≤ c ∧ c ≤ 'F' then some (c.toNat - 'A'.toNat + 10)
  else if 'a' ≤ c ∧ c ≤ 'f' then some (c.toNat - 'a'.toNat + 10)
  else none

/-- The byte that two hexadecimal digits stand for. -/
def hexByte? (a b : Char) : Option UInt8 :=
  match hexDigit? a, hexDigit? b with
  | some hi, some lo => some (UInt8.ofNat (16 * hi + lo))
  | _, _ => none

/-- The digit for a number below 16. -/
def hexChar (n : Nat) : Char :=
  Char.ofNat (if n < 10 then '0'.toNat + n else 'A'.toNat + (n - 10))

/-- `%XX`. -/
def percentEncode (b : UInt8) : List Char :=
  ['%', hexChar (b.toNat / 16), hexChar (b.toNat % 16)]

/-- A character as it stands in a path. -/
def quoteChar (safe : Char → Bool) (c : Char) : List Char :=
  if safe c then [c] else (String.utf8EncodeChar c).flatMap percentEncode

/-- Percent-encode what is not safe, and leave the escapes that are there alone. -/
def quote (safe : Char → Bool) : List Char → List Char
  | '%' :: a :: b :: rest =>
      if (hexByte? a b).isSome then '%' :: a :: b :: quote safe rest
      else quoteChar safe '%' ++ quote safe (a :: b :: rest)
  | c :: rest => quoteChar safe c ++ quote safe rest
  | [] => []

/-- Replace the escapes by the bytes they stand for. -/
def unquote : List Char → List UInt8
  | '%' :: a :: b :: rest =>
      match hexByte? a b with
      | some byte => byte :: unquote rest
      | none => String.utf8EncodeChar '%' ++ unquote (a :: b :: rest)
  | c :: rest => String.utf8EncodeChar c ++ unquote rest
  | [] => []

/-- There is an escape in the text. -/
def hasEscape : List Char → Bool
  | '%' :: a :: b :: rest => (hexByte? a b).isSome || hasEscape (a :: b :: rest)
  | _ :: rest => hasEscape rest
  | [] => false

/-- The text begins with two hexadecimal digits. -/
def startsHex : List Char → Bool
  | a :: b :: _ => (hexByte? a b).isSome
  | _ => false

theorem quote_cons {safe : Char → Bool} {c : Char} {rest : List Char}
    (h : c = '%' → startsHex rest = false) :
    quote safe (c :: rest) = quoteChar safe c ++ quote safe rest := by
  by_cases hc : c = '%'
  · subst hc
    match rest, h rfl with
    | [], _ => rw [quote]; simp
    | [a], _ => rw [quote]; simp
    | a :: b :: rest, hstart =>
      have hbyte : (hexByte? a b).isSome = false := hstart
      rw [quote, if_neg (by simp [hbyte])]
  · rw [quote]
    intro a b rest' hc'
    exact absurd hc' hc

theorem unquote_cons {c : Char} {rest : List Char} (h : c = '%' → startsHex rest = false) :
    unquote (c :: rest) = String.utf8EncodeChar c ++ unquote rest := by
  by_cases hc : c = '%'
  · subst hc
    match rest, h rfl with
    | [], _ => rw [unquote]; simp
    | [a], _ => rw [unquote]; simp
    | a :: b :: rest, hstart =>
      have hbyte : hexByte? a b = none := by simpa [startsHex] using hstart
      rw [unquote, hbyte]
  · rw [unquote]
    intro a b rest' hc'
    exact absurd hc' hc

theorem hasEscape_cons (c : Char) (rest : List Char) :
    hasEscape (c :: rest) = (decide (c = '%') && startsHex rest || hasEscape rest) := by
  by_cases hc : c = '%'
  · subst hc
    match rest with
    | [] => rfl
    | [a] => rw [hasEscape]; simp [startsHex]; simp
    | a :: b :: rest => rw [hasEscape]; rfl
  · rw [hasEscape]
    · simp [hc]
    · intro a b rest' hc'
      exact absurd hc' hc

theorem hexDigit?_hexChar {n : Nat} (h : n < 16) : hexDigit? (hexChar n) = some n := by
  have hall : ∀ m : Fin 16, hexDigit? (hexChar m) = some m.val := by decide
  exact hall ⟨n, h⟩

/-- The escape of a byte stands for it. -/
theorem hexByte?_percent (b : UInt8) :
    hexByte? (hexChar (b.toNat / 16)) (hexChar (b.toNat % 16)) = some b := by
  have hb : b.toNat < 256 := b.toNat_lt_size
  unfold hexByte?
  rw [hexDigit?_hexChar (by omega), hexDigit?_hexChar (by omega)]
  simp only [Nat.div_add_mod, UInt8.ofNat_toNat]

theorem unquote_percentEncode (bytes : List UInt8) (rest : List Char) :
    unquote (bytes.flatMap percentEncode ++ rest) = bytes ++ unquote rest := by
  induction bytes with
  | nil => rfl
  | cons b bytes ih =>
    rw [List.flatMap_cons, List.append_assoc, percentEncode]
    simp only [List.cons_append, List.nil_append]
    rw [unquote, hexByte?_percent]
    simp only [ih]

theorem unquote_quoteChar {safe : Char → Bool} {c : Char} {rest : List Char}
    (h : c = '%' → startsHex rest = false) :
    unquote (quoteChar safe c ++ rest) = String.utf8EncodeChar c ++ unquote rest := by
  unfold quoteChar
  split_ifs with hsafe
  · exact unquote_cons h
  · exact unquote_percentEncode _ _

theorem hexByte?_percent_left (b : Char) : hexByte? '%' b = none := rfl

theorem hexByte?_percent_right (a : Char) : hexByte? a '%' = none := by
  unfold hexByte?
  cases hexDigit? a <;> rfl

theorem startsHex_percent (rest : List Char) : startsHex ('%' :: rest) = false := by
  cases rest with
  | nil => rfl
  | cons b rest => rw [startsHex, hexByte?_percent_left]; rfl

/-- The first character of a quoted text is the one of the text, or begins an escape. -/
theorem quote_head (safe : Char → Bool) (c : Char) (rest : List Char) :
    quote safe (c :: rest) = c :: quote safe rest ∨
      ∃ tail, quote safe (c :: rest) = '%' :: tail := by
  have hquoted (tail : List Char) (h : safe c = false) :
      ∃ tail', quoteChar safe c ++ tail = '%' :: tail' := by
    unfold quoteChar
    rw [if_neg (by simp [h])]
    cases hbytes : String.utf8EncodeChar c with
    | nil => exact absurd hbytes String.utf8EncodeChar_ne_nil
    | cons b bytes => exact ⟨_, rfl⟩
  by_cases hescape : c = '%' ∧ startsHex rest = true
  · obtain ⟨rfl, hstart⟩ := hescape
    right
    match rest, hstart with
    | a :: b :: rest, hstart =>
      have hbyte : (hexByte? a b).isSome = true := hstart
      rw [quote, if_pos hbyte]
      exact ⟨_, rfl⟩
  · rw [quote_cons fun hc => by simpa [hc] using hescape]
    cases hsafe : safe c with
    | true =>
      left
      unfold quoteChar
      rw [if_pos hsafe]
      rfl
    | false => exact .inr (hquoted _ hsafe)

/-- Quoting puts no hexadecimal digits at the front. -/
theorem startsHex_quote (safe : Char → Bool) {text : List Char}
    (h : startsHex text = false) : startsHex (quote safe text) = false := by
  cases text with
  | nil => rw [quote]; rfl
  | cons a rest =>
    rcases quote_head safe a rest with hkept | ⟨tail, hescape⟩
    · rw [hkept]
      cases rest with
      | nil => rw [quote]; rfl
      | cons b rest =>
        rcases quote_head safe b rest with hkept' | ⟨tail, hescape⟩
        · rw [hkept']
          exact h
        · rw [hescape, startsHex, hexByte?_percent_right]
          rfl
    · rw [hescape, startsHex_percent]

/-- A character that begins no escape is decoded to its bytes. -/
theorem unquote_quote_cons (safe : Char → Bool) {c : Char} {rest : List Char}
    (h : c = '%' → startsHex rest = false) :
    unquote (quote safe (c :: rest)) =
      String.utf8EncodeChar c ++ unquote (quote safe rest) := by
  rw [quote_cons h, unquote_quoteChar fun hc => startsHex_quote safe (h hc)]

/-- Decoding undoes the encoding of a text without escapes. -/
theorem unquote_quote (safe : Char → Bool) {text : List Char} (h : hasEscape text = false) :
    unquote (quote safe text) = utf8 text := by
  induction text with
  | nil => rw [quote, unquote]; rfl
  | cons c rest ih =>
    rw [hasEscape_cons, Bool.or_eq_false_iff, Bool.and_eq_false_iff] at h
    obtain ⟨hhead, hrest⟩ := h
    have hstart (hc : c = '%') : startsHex rest = false := by simpa [hc] using hhead
    rw [unquote_quote_cons safe hstart, ih hrest, utf8_cons]

theorem hasEscape_cons_of_not {c : Char} {rest : List Char}
    (h : c = '%' → startsHex rest = false) : hasEscape (c :: rest) = hasEscape rest := by
  rw [hasEscape_cons]
  by_cases hc : c = '%'
  · simp [h hc]
  · simp [hc]

/-- Decoding an encoded text adds no byte, and loses some at every escape of the text. -/
theorem unquote_quote_length (safe : Char → Bool) (text : List Char) :
    (unquote (quote safe text)).length + (if hasEscape text then 1 else 0) ≤
      (utf8 text).length := by
  have hstep {c : Char} {rest : List Char} (h : c = '%' → startsHex rest = false)
      (ih : (unquote (quote safe rest)).length + (if hasEscape rest then 1 else 0) ≤
        (utf8 rest).length) :
      (unquote (quote safe (c :: rest))).length +
        (if hasEscape (c :: rest) then 1 else 0) ≤ (utf8 (c :: rest)).length := by
    rw [unquote_quote_cons safe h, hasEscape_cons_of_not h, utf8_cons, List.length_append,
      List.length_append]
    omega
  induction text using quote.induct with
  | case1 a b rest hbyte ih =>
    obtain ⟨byte, hvalue⟩ := Option.isSome_iff_exists.1 hbyte
    have hescape : hasEscape ('%' :: a :: b :: rest) = true := by
      rw [hasEscape, hbyte, Bool.true_or]
    have ha := List.length_pos_of_ne_nil (String.utf8EncodeChar_ne_nil (c := a))
    have hb := List.length_pos_of_ne_nil (String.utf8EncodeChar_ne_nil (c := b))
    have hpercent : (String.utf8EncodeChar '%').length = 1 := rfl
    rw [quote, if_pos hbyte, unquote, hvalue, if_pos hescape]
    simp only [utf8_cons, List.length_append, List.length_cons, hpercent]
    omega
  | case2 a b rest hbyte ih =>
    refine hstep (fun _ => ?_) ih
    rw [startsHex]
    exact Bool.eq_false_iff.2 hbyte
  | case3 c rest hne ih =>
    refine hstep (fun hc => ?_) ih
    match rest, hne with
    | [], _ => rfl
    | [a], _ => rfl
    | a :: b :: rest, hne => exact (hne a b rest hc rfl).elim
  | case4 => rw [quote, unquote]; rfl

/-! ## Dot segments -/

/-- `/`-separated text. -/
def joinSegments (segments : List (List Char)) : List Char :=
  ['/'].intercalate segments

def isDotSegment (segment : List Char) : Bool := segment = ['.'] || segment = ['.', '.']

/-- One more segment: `.` adds nothing and `..` takes the last one away. -/
def pushSegment (output : List (List Char)) (segment : List Char) : List (List Char) :=
  if segment = ['.'] then output
  else if segment = ['.', '.'] then
    if output = [] ∨ output = [[]] then output else output.dropLast
  else output ++ [segment]

/-- The path without its `.` and `..` segments. -/
def normalizePath (path : List Char) : List Char :=
  joinSegments ((path.splitOn '/').foldl pushSegment [])

/-- There is a `.` or `..` segment in the path. -/
def hasDotSegment (path : List Char) : Bool := (path.splitOn '/').any isDotSegment

/-- The bytes of the segments with one separator each. -/
def weight (segments : List (List Char)) : Nat :=
  (segments.map fun segment => (utf8 segment).length + 1).sum

@[simp] theorem weight_nil : weight [] = 0 := rfl

@[simp] theorem weight_cons (segment : List Char) (rest : List (List Char)) :
    weight (segment :: rest) = (utf8 segment).length + 1 + weight rest := by
  simp [weight]

@[simp] theorem weight_append (a b : List (List Char)) :
    weight (a ++ b) = weight a + weight b := by
  simp [weight]

theorem weight_joinSegments {segments : List (List Char)} (h : segments ≠ []) :
    (utf8 (joinSegments segments)).length + 1 = weight segments := by
  unfold joinSegments
  induction segments with
  | nil => exact absurd rfl h
  | cons segment rest ih =>
    cases rest with
    | nil => simp
    | cons next rest =>
      have hslash : (String.utf8EncodeChar '/').length = 1 := rfl
      have hrest := ih (by simp)
      rw [List.intercalate_cons_cons, utf8_append, utf8_append, weight_cons]
      simp only [List.length_append, utf8_cons, utf8_nil, hslash, List.length_nil]
      omega

theorem weight_dropLast_le (segments : List (List Char)) :
    weight segments.dropLast ≤ weight segments := by
  rcases List.eq_nil_or_concat segments with rfl | ⟨rest, last, rfl⟩
  · exact le_rfl
  · rw [List.concat_eq_append, List.dropLast_concat, weight_append]
    omega

/-- A dot segment loses its bytes. -/
theorem weight_pushSegment (output : List (List Char)) (segment : List Char) :
    weight (pushSegment output segment) + (if isDotSegment segment then 1 else 0) ≤
      weight output + weight [segment] := by
  have hdrop := weight_dropLast_le output
  unfold pushSegment
  by_cases hdot : segment = ['.']
  · simp [hdot, isDotSegment]
  · by_cases hdots : segment = ['.', '.']
    · have hpop : weight (if output = [] ∨ output = [[]] then output else output.dropLast) ≤
          weight output := by
        split_ifs
        · exact le_rfl
        · exact hdrop
      simp [hdots, isDotSegment]
      omega
    · simp [hdot, hdots, isDotSegment]

theorem weight_foldl_pushSegment (segments output : List (List Char)) :
    weight (segments.foldl pushSegment output) +
      (if segments.any isDotSegment then 1 else 0) ≤ weight output + weight segments := by
  induction segments generalizing output with
  | nil => simp
  | cons segment rest ih =>
    have hstep := weight_pushSegment output segment
    have hrest := ih (pushSegment output segment)
    have hany : (if (isDotSegment segment || rest.any isDotSegment) = true then 1 else 0) ≤
        (if isDotSegment segment = true then 1 else 0) +
          if rest.any isDotSegment = true then 1 else 0 := by
      cases isDotSegment segment <;> simp
    rw [weight_cons, weight_nil, Nat.add_zero] at hstep
    rw [List.foldl_cons, List.any_cons, weight_cons]
    omega

/-- Without dot segments nothing is removed. -/
theorem foldl_pushSegment {segments : List (List Char)} (h : segments.any isDotSegment = false)
    (output : List (List Char)) : segments.foldl pushSegment output = output ++ segments := by
  induction segments generalizing output with
  | nil => simp
  | cons segment rest ih =>
    rw [List.any_cons, Bool.or_eq_false_iff] at h
    obtain ⟨hsegment, hrest⟩ := h
    have hpush : pushSegment output segment = output ++ [segment] := by
      simp [isDotSegment] at hsegment
      simp [pushSegment, hsegment]
    rw [List.foldl_cons, hpush, ih hrest, List.append_assoc, List.singleton_append]

/-- The empty segment before the first `/` stays. -/
theorem foldl_pushSegment_ne_nil (segments tail : List (List Char)) :
    segments.foldl pushSegment ([] :: tail) ≠ [] := by
  induction segments generalizing tail with
  | nil => simp
  | cons segment rest ih =>
    have hpush : ∃ tail', pushSegment ([] :: tail) segment = [] :: tail' := by
      unfold pushSegment
      split_ifs with hdot hdots hroot
      · exact ⟨tail, rfl⟩
      · exact ⟨tail, rfl⟩
      · cases tail with
        | nil => exact absurd (.inr rfl) hroot
        | cons next tail => exact ⟨_, List.dropLast_cons_cons⟩
      · exact ⟨_, List.cons_append⟩
    obtain ⟨tail', hpush⟩ := hpush
    rw [List.foldl_cons, hpush]
    exact ih tail'

theorem normalizePath_eq {path : List Char} (h : hasDotSegment path = false) :
    normalizePath path = path := by
  unfold normalizePath joinSegments
  rw [foldl_pushSegment h, List.nil_append, List.intercalate_splitOn]

/-- Normalising a path adds no byte, and loses some at every dot segment. -/
theorem normalizePath_length {path : List Char} (h : path.head? = some '/') :
    (utf8 (normalizePath path)).length + (if hasDotSegment path then 1 else 0) ≤
      (utf8 path).length := by
  obtain ⟨rest, rfl⟩ : ∃ rest, path = '/' :: rest := by
    cases path with
    | nil => cases h
    | cons c rest => exact ⟨rest, by rw [Option.some.inj h]⟩
  have hsplit : ('/' :: rest).splitOn '/' = [] :: rest.splitOn '/' := by
    rw [List.splitOn_cons_eq_if_modifyHead]
    rfl
  have houtput : (('/' :: rest).splitOn '/').foldl pushSegment [] ≠ [] := by
    rw [hsplit, List.foldl_cons]
    exact foldl_pushSegment_ne_nil _ []
  have hjoined := weight_joinSegments houtput
  have hpath := weight_joinSegments (List.splitOn_ne_nil '/' ('/' :: rest))
  have hfold := weight_foldl_pushSegment (('/' :: rest).splitOn '/') []
  rw [joinSegments, List.intercalate_splitOn] at hpath
  unfold normalizePath hasDotSegment
  rw [weight_nil] at hfold
  omega

/-! ## The parts of an absolute URL -/

/-- An absolute URL `scheme://authority/path?query#fragment` in its parts. -/
structure Parts where
  scheme : List Char
  authority : List Char
  path : List Char
  query : Option (List Char)
  fragment : Option (List Char)
  deriving DecidableEq, Repr

def endsAuthority (c : Char) : Bool := c = '/' || c = '?' || c = '#'

def endsPath (c : Char) : Bool := c = '?' || c = '#'

/-- The query and the fragment, from the first character that is not in the path. -/
def splitTail (tail : List Char) : Option (List Char) × Option (List Char) :=
  match tail with
  | '?' :: rest =>
      (some (rest.takeWhile (· ≠ '#')),
        match rest.dropWhile (· ≠ '#') with
        | _ :: fragment => some fragment
        | [] => none)
  | _ :: fragment => (none, some fragment)
  | [] => (none, none)

/-- Cut an absolute URL into its parts. -/
def split (text : List Char) : Parts :=
  let afterScheme := (text.dropWhile (· ≠ ':')).drop "://".length
  let hierarchy := afterScheme.dropWhile fun c => !endsAuthority c
  let tail := splitTail (hierarchy.dropWhile fun c => !endsPath c)
  { scheme := text.takeWhile (· ≠ ':')
    authority := afterScheme.takeWhile fun c => !endsAuthority c
    path := hierarchy.takeWhile fun c => !endsPath c
    query := tail.1
    fragment := tail.2 }

/-- A URL as the client has it: the path is normalised and quoted. -/
def parse (safe : Char → Bool) (text : List Char) : Parts :=
  let parts := split text
  { parts with path := quote safe (normalizePath parts.path) }

/-- The front of an absolute URL, up to the path. -/
structure Origin where
  scheme : List Char
  authority : List Char
  schemePlain : ':' ∉ scheme
  authorityPlain : ∀ c ∈ authority, endsAuthority c = false

def Origin.text (origin : Origin) : List Char :=
  origin.scheme ++ "://".toList ++ origin.authority

theorem takeWhile_append_of_head {p : Char → Bool} {front tail : List Char}
    (hfront : ∀ c ∈ front, p c = true) (htail : ∀ c ∈ tail.head?, p c = false) :
    (front ++ tail).takeWhile p = front ∧ (front ++ tail).dropWhile p = tail := by
  rw [List.takeWhile_append_of_pos hfront, List.dropWhile_append_of_pos hfront]
  cases tail with
  | nil => simp
  | cons c rest =>
    have hc : p c = false := htail c rfl
    simp [hc]

/-- The path ends where the query or the fragment begins. -/
theorem split_origin (origin : Origin) {path : List Char} (h : path.head? = some '/') :
    (split (origin.text ++ path)).path = path.takeWhile (fun c => !endsPath c) ∧
      ((split (origin.text ++ path)).query, (split (origin.text ++ path)).fragment) =
        splitTail (path.dropWhile fun c => !endsPath c) := by
  have hscheme : ∀ c ∈ origin.scheme, (decide (c ≠ ':')) = true := by
    intro c hc
    rw [decide_eq_true_eq]
    intro he
    exact origin.schemePlain (he ▸ hc)
  have hafter : ((origin.text ++ path).dropWhile (· ≠ ':')).drop "://".length =
      origin.authority ++ path := by
    have htext : origin.text ++ path =
        origin.scheme ++ (':' :: '/' :: '/' :: (origin.authority ++ path)) := by
      simp [Origin.text]
    rw [htext, (takeWhile_append_of_head hscheme (by simp)).2]
    rfl
  have hhierarchy : (origin.authority ++ path).dropWhile (fun c => !endsAuthority c) =
      path := by
    refine (takeWhile_append_of_head (fun c hc => ?_) fun c hc => ?_).2
    · rw [origin.authorityPlain c hc]
      rfl
    · rw [h] at hc
      obtain rfl := Option.some.inj hc
      rfl
  unfold split
  simp only [hafter, hhierarchy, and_self]

theorem splitTail_eq_none {tail : List Char} : splitTail tail = (none, none) ↔ tail = [] := by
  constructor
  · intro h
    unfold splitTail at h
    split at h
    · cases h
    · cases h
    · rfl
  · intro h
    rw [h]
    rfl

/-! ## Paths that survive -/

/-- Nothing in the path is taken for something else. -/
structure Clean (path : List Char) : Prop where
  plain : ∀ c ∈ path, endsPath c = false
  noDots : hasDotSegment path = false
  noEscape : hasEscape path = false

/-- The URL of an origin and a path has that path, decoded, and no query or fragment,
just if the path is clean. -/
theorem parse_origin_iff (safe : Char → Bool) (origin : Origin) {path : List Char}
    (h : path.head? = some '/') :
    let url := parse safe (origin.text ++ path)
    (unquote url.path = utf8 path ∧ url.query = none ∧ url.fragment = none) ↔
      Clean path := by
  intro url
  obtain ⟨hpath, htail⟩ := split_origin origin h
  have hurl : url.path =
      quote safe (normalizePath (path.takeWhile fun c => !endsPath c)) := by
    show quote safe (normalizePath (split (origin.text ++ path)).path) = _
    rw [hpath]
  have hrest : (url.query = none ∧ url.fragment = none) ↔
      path.dropWhile (fun c => !endsPath c) = [] := by
    rw [← splitTail_eq_none, ← htail, Prod.mk.injEq]
    rfl
  have hhead : (path.takeWhile fun c => !endsPath c).head? = some '/' := by
    cases path with
    | nil => cases h
    | cons c rest =>
      obtain rfl := Option.some.inj h
      rfl
  rw [hrest, hurl]
  constructor
  · intro hfaithful
    obtain ⟨hdecoded, hnone⟩ := hfaithful
    have htake : path.takeWhile (fun c => !endsPath c) = path := by
      have hwhole := List.takeWhile_append_dropWhile (p := fun c => !endsPath c) (l := path)
      rwa [hnone, List.append_nil] at hwhole
    rw [htake] at hdecoded hhead
    -- no step has lost a byte
    have hlength := congrArg List.length hdecoded
    have hquote := unquote_quote_length safe (normalizePath path)
    have hnormal := normalizePath_length hhead
    have hnoDots : hasDotSegment path = false := by
      by_contra hdots
      rw [if_pos (by simpa using hdots)] at hnormal
      omega
    rw [normalizePath_eq hnoDots] at hquote hlength
    refine ⟨fun c hc => ?_, hnoDots, ?_⟩
    · have hall := List.takeWhile_eq_self_iff.1 htake c hc
      simpa using hall
    · by_contra hescape
      rw [if_pos (by simpa using hescape)] at hquote
      omega
  · intro hclean
    have htake : path.takeWhile (fun c => !endsPath c) = path := by
      rw [List.takeWhile_eq_self_iff]
      intro c hc
      rw [hclean.plain c hc]
      rfl
    have hnone : path.dropWhile (fun c => !endsPath c) = [] := by
      rw [List.dropWhile_eq_nil_iff]
      intro c hc
      rw [hclean.plain c hc]
      rfl
    rw [htake, normalizePath_eq hclean.noDots, unquote_quote safe hclean.noEscape]
    exact ⟨rfl, hnone⟩

end VideoSite.Url
