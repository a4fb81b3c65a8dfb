import VideoSite.Lib.Dict
import Mathlib.Data.String.Basic

/-!
# Requests as the gateway's framework shows them

A client sends header lines with names of any spelling.  The server in front of the
application lower-cases the names and keeps the lines in their order; `Headers` are such
lines.  Starlette's `Headers` reads them in two ways: `items` yields every line, and a
lookup takes the first line of a name.
-/

namespace VideoSite.Gateway

/-! ## Text -/

/-- `str.lower` on one Latin-1 character. -/
def lowerChar (c : Char) : Char :=
  if 0xC0 ≤ c.toNat ∧ c.toNat ≤ 0xDE ∧ c.toNat ≠ 0xD7 then Char.ofNat (c.toNat + 32)
  else c.toLower

/-- `str.lower` on text that was decoded as Latin-1. -/
def lower (text : String) : String := String.ofList (text.toList.map lowerChar)

/-- `str.isspace` of one Latin-1 character. -/
def isSpace (c : Char) : Bool :=
  (9 ≤ c.toNat && c.toNat ≤ 13) || (28 ≤ c.toNat && c.toNat ≤ 32) || c.toNat == 0x85 ||
    c.toNat == 0xA0

/-- `str.strip`. -/
def strip (text : String) : String :=
  String.ofList ((text.toList.dropWhile isSpace).reverse.dropWhile isSpace).reverse

/-- `text.split(",")[0]`. -/
def beforeComma (text : String) : String := String.ofList (text.toList.takeWhile (· ≠ ','))

/-- An optional string that counts as true. -/
def truthy (text : Option String) : Option String := text.filter (· ≠ "")

theorem truthy_empty : truthy (some "") = none := rfl

theorem truthy_some {text : String} (h : text ≠ "") : truthy (some text) = some text := by
  unfold truthy
  rw [Option.filter_some, if_pos (by simpa using h)]

theorem toLower_toLower (c : Char) : c.toLower.toLower = c.toLower := by
  unfold Char.toLower
  by_cases h : c.val ≥ 'A'.val ∧ c.val ≤ 'Z'.val
  · rw [dif_pos h, dif_neg]
    intro hlow
    have ha : 65 ≤ c.val.toNat := h.1
    have hz : c.val.toNat ≤ 90 := h.2
    have hshifted : (c.val + ('a'.val - 'A'.val)).toNat ≤ 90 := hlow.2
    have hshift : ('a'.val - 'A'.val).toNat = 32 := rfl
    rw [UInt32.toNat_add, hshift] at hshifted
    omega
  · simp only [dif_neg h]

/-- Only letters of ASCII are changed by `Char.toLower`, to letters of ASCII. -/
theorem toLower_of_le {c : Char} (h : 0xC0 ≤ c.toNat) : c.toLower = c := by
  unfold Char.toLower
  rw [dif_neg]
  intro hupper
  have hz : c.toNat ≤ 90 := hupper.2
  omega

theorem toNat_toLower_lt {c : Char} (h : c.toLower ≠ c) : c.toLower.toNat < 0xC0 := by
  unfold Char.toLower at h ⊢
  by_cases hupper : c.val ≥ 'A'.val ∧ c.val ≤ 'Z'.val
  · rw [dif_pos hupper]
    have hz : c.val.toNat ≤ 90 := hupper.2
    have hshift : ('a'.val - 'A'.val).toNat = 32 := rfl
    show (c.val + ('a'.val - 'A'.val)).toNat < 0xC0
    rw [UInt32.toNat_add, hshift]
    omega
  · rw [dif_neg hupper] at h
    exact absurd rfl h

theorem lowerChar_lowerChar (c : Char) : lowerChar (lowerChar c) = lowerChar c := by
  by_cases hc : 0xC0 ≤ c.toNat ∧ c.toNat ≤ 0xDE ∧ c.toNat ≠ 0xD7
  · have hvalid : (c.toNat + 32).isValidChar := .inl (by omega)
    have hnat : (Char.ofNat (c.toNat + 32)).toNat = c.toNat + 32 := by
      rw [Char.ofNat, dif_pos hvalid]
      rfl
    unfold lowerChar
    rw [if_pos hc, if_neg (by omega), toLower_of_le (by omega)]
  · have hlow : lowerChar c = c.toLower := if_neg hc
    rw [hlow]
    by_cases hsame : c.toLower = c
    · rw [hsame, hlow, hsame]
    · have hlt := toNat_toLower_lt hsame
      unfold lowerChar
      rw [if_neg (by omega), toLower_toLower]

theorem lower_lower (text : String) : lower (lower text) = lower text := by
  unfold lower
  rw [String.toList_ofList, List.map_map]
  congr 1
  exact List.map_congr_left fun c _ => lowerChar_lowerChar c

/-! ## Headers -/

/-- Header lines as a server hands them to the application.  The names are tokens, so
that it does not matter whether the bytes or the text of a name is lower-cased. -/
structure Headers where
  lines : List (String × String)
  lowered : ∀ line ∈ lines, lower line.1 = line.1

/-- What the server makes of the lines that a client has sent. -/
def Headers.receive (sent : List (String × String)) : Headers where
  lines := sent.map fun line => (lower line.1, line.2)
  lowered := by
    intro line hline
    obtain ⟨old, -, rfl⟩ := List.mem_map.1 hline
    exact lower_lower old.1

/-- The values under a name, line by line. -/
def Headers.values (headers : Headers) (name : String) : List String :=
  (headers.lines.filter fun line => line.1 = lower name).map Prod.snd

/-- `headers.get(name)`: the first line. -/
def Headers.get? (headers : Headers) (name : String) : Option String :=
  (headers.values name).head?

/-- `dict(headers)`: every name once, with the value that a lookup gives. -/
def Headers.toDict (headers : Headers) : Dict String String :=
  Dict.ofItems (headers.lines.filterMap fun line =>
    (headers.get? line.1).map fun value => (line.1, value))

/-- What the handler reads of a request. -/
structure Request where
  headers : Headers
  /-- `request.url.scheme`. -/
  scheme : String
  /-- `request.client.host`. -/
  client : Option String

/-- The address that a service takes for the caller's, if it trusts the proxy in front of
it and if it does not. -/
def callerAddress (trusted : Bool) (request : Request) : Option String :=
  match if trusted then truthy (request.headers.get? "x-forwarded-for") else none with
  | some forwarded => some (strip (beforeComma forwarded))
  | none => request.client

/-- `request.cookies`: what the parser finds on the `Cookie` lines. -/
def Request.cookies (cookieParser : String → List (String × String)) (request : Request) :
    Dict String String :=
  Dict.ofItems ((request.headers.values "cookie").flatMap cookieParser)

end VideoSite.Gateway
