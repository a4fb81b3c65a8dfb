import VideoSite.Lib.Dict
import Mathlib.Algebra.Order.Ring.Cast

/-!
# A browser's cookies

A server sets a cookie under a name, for a path, and for some seconds.  A browser keeps one
cookie for each name and path, forgets it when its time is over or when a line sets it with
no time left, and sends it with every request below its path.

* `live_store` is all there is to know about storing: what a later look-up finds.
* `parseCookies_cookieLine` is the round trip through the text of a `Cookie` line.
* `get?_cookies` reads a cookie off the line that a browser sends.
-/

namespace CookieJar

open VideoSite

/-! ## The text of a `Cookie` line -/

/-- A blank, as far as cookies are concerned. -/
def isBlank (c : Char) : Bool := c = ' ' || c = '\t'

/-- Text that may stand in the line as it is. -/
def Clean (text : List Char) : Prop := ∀ c ∈ text, c ≠ ';' ∧ c ≠ '=' ∧ isBlank c = false

/-- A name, or a value that is there. -/
def Plain (text : List Char) : Prop :=
  text ≠ [] ∧ ∀ c ∈ text, c ≠ ';' ∧ c ≠ '=' ∧ isBlank c = false

-- the items of the list are looked at, not all characters there are
instance (text : List Char) : Decidable (Plain text) :=
  @instDecidableAnd _ _ inferInstance (List.decidableBAll _ text)

/-- The line that a browser sends. -/
def cookieLine (items : List (String × String)) : String :=
  "; ".intercalate (items.map fun item => item.1 ++ "=" ++ item.2)

/-- `str.strip` on blanks. -/
def stripBlanks (text : List Char) : List Char :=
  ((text.dropWhile isBlank).reverse.dropWhile isBlank).reverse

/-- One part of the line: a name and a value, or only a value. -/
def parseChunk (chunk : List Char) : String × String :=
  if '=' ∈ chunk then
    (String.ofList (stripBlanks (chunk.takeWhile (· ≠ '='))),
      String.ofList (stripBlanks ((chunk.dropWhile (· ≠ '=')).drop 1)))
  else ("", String.ofList (stripBlanks chunk))

/-- What a server makes of the line. -/
def parseCookies (line : String) : List (String × String) :=
  ((line.toList.splitOn ';').map parseChunk).filter fun item => item.1 ≠ "" || item.2 ≠ ""

theorem Plain.clean {text : List Char} (h : Plain text) : Clean text := h.2

theorem stripBlanks_of_clean {text : List Char} (h : Clean text) : stripBlanks text = text := by
  have hhead {rest : List Char} (hrest : ∀ c ∈ rest, isBlank c = false) :
      rest.dropWhile isBlank = rest := by
    cases rest with
    | nil => rfl
    | cons c rest => rw [List.dropWhile_cons_of_neg (by simp [hrest c List.mem_cons_self])]
  have hblank : ∀ c ∈ text, isBlank c = false := fun c hc => (h c hc).2.2
  unfold stripBlanks
  rw [hhead hblank, hhead fun c hc => hblank c (List.mem_reverse.1 hc), List.reverse_reverse]

/-- A part with or without the blank before it. -/
theorem parseChunk_item {name value : List Char} (hname : Plain name) (hvalue : Clean value)
    {blanks : List Char} (hblanks : blanks = [] ∨ blanks = [' ']) :
    parseChunk (blanks ++ name ++ '=' :: value) = (String.ofList name, String.ofList value) := by
  have hbefore : ∀ c ∈ blanks ++ name, (decide (c ≠ '=')) = true := by
    intro c hc
    rcases List.mem_append.1 hc with hblank | hmem
    · rcases hblanks with rfl | rfl
      · cases hblank
      · rw [List.mem_singleton.1 hblank]
        decide
    · exact decide_eq_true (hname.2 c hmem).2.1
  have htake : (blanks ++ name ++ '=' :: value).takeWhile (· ≠ '=') = blanks ++ name := by
    rw [List.takeWhile_append_of_pos hbefore, List.takeWhile_cons_of_neg (by decide),
      List.append_nil]
  have hdrop : (blanks ++ name ++ '=' :: value).dropWhile (· ≠ '=') = '=' :: value := by
    rw [List.dropWhile_append_of_pos hbefore, List.dropWhile_cons_of_neg (by decide)]
  have hstrip : stripBlanks (blanks ++ name) = name := by
    rcases hblanks with rfl | rfl
    · exact stripBlanks_of_clean hname.clean
    · exact stripBlanks_of_clean hname.clean
  unfold parseChunk
  rw [if_pos (by simp), htake, hdrop, hstrip, List.drop_succ_cons, List.drop_zero,
    stripBlanks_of_clean hvalue]

/-- The part of the line for an item. -/
def chunk (item : String × String) : List Char := item.1.toList ++ '=' :: item.2.toList

theorem toList_cookieLine (items : List (String × String)) :
    (cookieLine items).toList = [';', ' '].intercalate (items.map chunk) := by
  unfold cookieLine
  rw [String.toList_intercalate, List.map_map]
  congr 1
  refine List.map_congr_left fun item _ => ?_
  simp [chunk]

/-- A blank after a separator belongs to the part behind it. -/
theorem intercalate_blank (first : List Char) (rest : List (List Char)) :
    [';', ' '].intercalate (first :: rest) =
      [';'].intercalate (first :: rest.map fun part => ' ' :: part) := by
  induction rest generalizing first with
  | nil => simp
  | cons second rest ih =>
    rw [List.intercalate_cons_cons, ih, List.map_cons, List.intercalate_cons_cons]
    cases rest with
    | nil => simp
    | cons third rest => simp [List.intercalate_cons_cons]

/-- The server reads the items that the browser wrote. -/
theorem parseCookies_cookieLine {items : List (String × String)}
    (h : ∀ item ∈ items, Plain item.1.toList ∧ Clean item.2.toList) :
    parseCookies (cookieLine items) = items := by
  have hread {item : String × String} (hitem : item ∈ items) {blanks : List Char}
      (hblanks : blanks = [] ∨ blanks = [' ']) : parseChunk (blanks ++ chunk item) = item := by
    unfold chunk
    rw [← List.append_assoc, parseChunk_item (h item hitem).1 (h item hitem).2 hblanks]
    simp
  have havoid {item : String × String} (hitem : item ∈ items) : ';' ∉ chunk item := by
    unfold chunk
    rw [List.mem_append, List.mem_cons]
    rintro (hname | hequals | hvalue)
    · exact ((h item hitem).1.2 _ hname).1 rfl
    · cases hequals
    · exact ((h item hitem).2 _ hvalue).1 rfl
  cases items with
  | nil => decide
  | cons first rest =>
    have hsplit : (cookieLine (first :: rest)).toList.splitOn ';' =
        chunk first :: rest.map fun item => ' ' :: chunk item := by
      rw [toList_cookieLine, List.map_cons, intercalate_blank, List.map_map]
      refine List.splitOn_intercalate _ ?_ (List.cons_ne_nil _ _)
      intro part hpart hmem
      rcases List.mem_cons.1 hpart with rfl | hrest
      · exact havoid List.mem_cons_self hmem
      · obtain ⟨item, hitem, rfl⟩ := List.mem_map.1 hrest
        rcases List.mem_cons.1 hmem with hblank | hchunk
        · cases hblank
        · exact havoid (List.mem_cons_of_mem _ hitem) hchunk
    have hparts : (chunk first :: rest.map fun item => ' ' :: chunk item).map parseChunk =
        first :: rest := by
      rw [List.map_cons, List.map_map]
      refine congrArg₂ _ (hread List.mem_cons_self (.inl rfl)) ?_
      refine (List.map_congr_left fun item hitem => ?_).trans (List.map_id' rest)
      exact hread (List.mem_cons_of_mem _ hitem) (.inr rfl)
    unfold parseCookies
    rw [hsplit, hparts, List.filter_eq_self]
    intro item hitem
    have hname : item.1 ≠ "" := fun hempty => (h item hitem).1.1 (by rw [hempty]; rfl)
    simp [hname]

/-! ## The jar -/

/-- What a server asks a browser to keep: `max_age` is in seconds. -/
structure SetCookie where
  name : String
  value : String
  path : String
  maxAge : Int
  deriving DecidableEq, Repr

structure Cookie (T : Type) where
  name : String
  value : String
  path : String
  expires : T

variable {T : Type}

def Cookie.key (cookie : Cookie T) : String × String := (cookie.name, cookie.path)

def SetCookie.key (line : SetCookie) : String × String := (line.name, line.path)

/-! ## The text of a `Set-Cookie` line -/

/-- `f"{n}"`. -/
def intText (n : Int) : List Char :=
  if n < 0 then '-' :: Nat.toDigits 10 n.natAbs else Nat.toDigits 10 n.natAbs

/-- `int(text)`, of what `intText` writes. -/
def readInt : List Char → Int
  | '-' :: digits => -(Nat.ofDigitChars 10 digits 0)
  | digits => Nat.ofDigitChars 10 digits 0

theorem digit_of_mem {n : Nat} {c : Char} (h : c ∈ Nat.toDigits 10 n) : c.isDigit = true :=
  Nat.isDigit_of_mem_toDigits (by decide) (by decide) h

/-- A digit is no separator. -/
theorem clean_of_isDigit {c : Char} (h : c.isDigit = true) :
    c ≠ ';' ∧ c ≠ '=' ∧ isBlank c = false := by
  refine ⟨?_, ?_, ?_⟩
  · rintro rfl
    exact absurd h (by decide)
  · rintro rfl
    exact absurd h (by decide)
  · cases hblank : isBlank c with
    | false => rfl
    | true =>
      unfold isBlank at hblank
      rcases (by simpa using hblank : c = ' ' ∨ c = '\t') with rfl | rfl <;>
        exact absurd h (by decide)

/-- A cookie that can be written on a line. -/
structure SetCookie.Writable (cookie : SetCookie) : Prop where
  name : Plain cookie.name.toList
  value : Clean cookie.value.toList
  path : Clean cookie.path.toList

/-- The line of a cookie, with the attributes that say how long and where it is kept. -/
def setCookieLine (cookie : SetCookie) : String :=
  cookieLine [(cookie.name, cookie.value), ("Max-Age", String.ofList (intText cookie.maxAge)),
    ("Path", cookie.path)]

/-- What a browser makes of the line. -/
def readSetCookie (line : String) : Option SetCookie :=
  match parseCookies line with
  | [] => none
  | (name, value) :: attributes =>
      ((attributes.find? fun item => item.1 = "Max-Age").bind fun age =>
        (attributes.find? fun item => item.1 = "Path").map fun path =>
          ⟨name, value, path.2, readInt age.2.toList⟩)

/-- What is kept of a line that arrives at `t`. -/
def SetCookie.kept [Ring T] (line : SetCookie) (t : T) : Option (Cookie T) :=
  if 0 < line.maxAge then some ⟨line.name, line.value, line.path, t + line.maxAge⟩ else none

/-- A cookie that is kept is the one of the line, and the line has time left. -/
theorem SetCookie.kept_eq_some [Ring T] {line : SetCookie} {t : T} {cookie : Cookie T} :
    line.kept t = some cookie ↔
      0 < line.maxAge ∧ cookie = ⟨line.name, line.value, line.path, t + line.maxAge⟩ := by
  unfold kept
  split_ifs with hleft
  · simp [hleft, eq_comm]
  · simp [hleft]

theorem SetCookie.key_of_kept [Ring T] {line : SetCookie} {t : T} {cookie : Cookie T}
    (h : line.kept t = some cookie) : cookie.key = line.key := by
  obtain ⟨-, rfl⟩ := kept_eq_some.1 h
  rfl

/-- `path` is at or below `cookiePath`. -/
def pathMatches (cookiePath path : String) : Bool :=
  cookiePath.toList.isPrefixOf path.toList &&
    (cookiePath = path || cookiePath.toList.getLast? = some '/' ||
      (path.toList.drop cookiePath.toList.length).head? = some '/')

/-- The cookies of a browser, one for each name and path. -/
structure Jar (T : Type) where
  cookies : List (Cookie T)
  unique : (cookies.map Cookie.key).Nodup

namespace Jar

def empty : Jar T where
  cookies := []
  unique := List.nodup_nil

/-- A line arrives at `t`. -/
def store [Ring T] (jar : Jar T) (t : T) (line : SetCookie) : Jar T where
  cookies := jar.cookies.filter (fun cookie => cookie.key ≠ line.key) ++ (line.kept t).toList
  unique := by
    rw [List.map_append]
    have hold : ((jar.cookies.filter fun cookie => cookie.key ≠ line.key).map
        Cookie.key).Nodup := jar.unique.sublist (List.filter_sublist.map _)
    refine hold.append ?_ ?_
    · cases line.kept t <;> simp
    · intro key hkey hnew
      obtain ⟨cookie, hcookie, rfl⟩ := List.mem_map.1 hkey
      obtain ⟨fresh, hfresh, hsame⟩ := List.mem_map.1 hnew
      have hkept := SetCookie.key_of_kept (Option.mem_toList.1 hfresh)
      have hne : cookie.key ≠ line.key := by simpa using (List.mem_filter.1 hcookie).2
      exact hne (hsame.symm.trans hkept)

/-- Lines that arrive together. -/
def storeAll [Ring T] (jar : Jar T) (t : T) (lines : List SetCookie) : Jar T :=
  lines.foldl (fun jar line => jar.store t line) jar

@[simp] theorem storeAll_nil [Ring T] (jar : Jar T) (t : T) : jar.storeAll t [] = jar := rfl

@[simp] theorem storeAll_cons [Ring T] (jar : Jar T) (t : T) (line : SetCookie)
    (lines : List SetCookie) :
    jar.storeAll t (line :: lines) = (jar.store t line).storeAll t lines := rfl

theorem storeAll_append [Ring T] (jar : Jar T) (t : T) (a b : List SetCookie) :
    jar.storeAll t (a ++ b) = (jar.storeAll t a).storeAll t b := by
  simp [storeAll, List.foldl_append]

/-- The cookie under a name and a path. -/
def find (jar : Jar T) (key : String × String) : Option (Cookie T) :=
  jar.cookies.find? fun cookie => cookie.key = key

/-- Its value, if its time is not over at `t`. -/
def live [LinearOrder T] (jar : Jar T) (t : T) (key : String × String) : Option String :=
  (jar.find key).bind fun cookie => if t < cookie.expires then some cookie.value else none

@[simp] theorem live_empty [LinearOrder T] (t : T) (key : String × String) :
    (empty : Jar T).live t key = none := rfl

theorem find_eq_some {jar : Jar T} {key : String × String} {cookie : Cookie T} :
    jar.find key = some cookie ↔ cookie ∈ jar.cookies ∧ cookie.key = key := by
  constructor
  · intro h
    exact ⟨List.mem_of_find?_eq_some h, by simpa using List.find?_some h⟩
  · intro h
    obtain ⟨hmem, rfl⟩ := h
    cases hfind : jar.find cookie.key with
    | none => exact absurd (List.find?_eq_none.1 hfind cookie hmem) (by simp)
    | some other =>
      have hother : other ∈ jar.cookies := List.mem_of_find?_eq_some hfind
      have hsame : other.key = cookie.key := by simpa using List.find?_some hfind
      rw [List.inj_on_of_nodup_map jar.unique hother hmem hsame]

theorem find_store [Ring T] (jar : Jar T) (t : T) (line : SetCookie) (key : String × String) :
    (jar.store t line).find key = if key = line.key then line.kept t else jar.find key := by
  have hiff (cookie : Cookie T) : (jar.store t line).find key = some cookie ↔
      (if key = line.key then line.kept t else jar.find key) = some cookie := by
    rw [find_eq_some]
    show cookie ∈ jar.cookies.filter (fun cookie => cookie.key ≠ line.key) ++
      (line.kept t).toList ∧ cookie.key = key ↔ _
    rw [List.mem_append, List.mem_filter, Option.mem_toList]
    split_ifs with hkey
    · subst hkey
      constructor
      · rintro ⟨hold | hnew, hsame⟩
        · exact absurd hsame (by simpa using hold.2)
        · exact hnew
      · intro hnew
        exact ⟨.inr hnew, SetCookie.key_of_kept hnew⟩
    · rw [find_eq_some]
      constructor
      · rintro ⟨hold | hnew, hsame⟩
        · exact ⟨hold.1, hsame⟩
        · exact absurd (hsame.symm.trans (SetCookie.key_of_kept hnew)) hkey
      · rintro ⟨hmem, rfl⟩
        exact ⟨.inl ⟨hmem, by simpa using hkey⟩, rfl⟩
  exact Option.ext hiff

/-- Where the cookies of a browser come from. -/
theorem mem_storeAll [Ring T] {jar : Jar T} {t : T} {lines : List SetCookie}
    {cookie : Cookie T} (h : cookie ∈ (jar.storeAll t lines).cookies) :
    cookie ∈ jar.cookies ∨ ∃ line ∈ lines, line.kept t = some cookie := by
  induction lines generalizing jar with
  | nil => exact .inl h
  | cons line rest ih =>
    rcases ih h with hstored | ⟨other, hother, hkept⟩
    · rcases List.mem_append.1 hstored with hold | hnew
      · exact .inl (List.mem_filter.1 hold).1
      · exact .inr ⟨line, List.mem_cons_self, Option.mem_toList.1 hnew⟩
    · exact .inr ⟨other, List.mem_cons_of_mem _ hother, hkept⟩

/-- What a look-up finds from the arrival of a line on. -/
theorem live_store [Ring T] [LinearOrder T] [IsStrictOrderedRing T] (jar : Jar T)
    {t now : T} (ht : t ≤ now) (line : SetCookie) (key : String × String) :
    (jar.store t line).live now key =
      if key = line.key then (if now < t + line.maxAge then some line.value else none)
      else jar.live now key := by
  unfold live
  rw [find_store]
  split_ifs with hkey hlive
  · have hpositive : (0 : T) < line.maxAge := (lt_add_iff_pos_right t).1 (ht.trans_lt hlive)
    have hkept : 0 < line.maxAge := by exact_mod_cast hpositive
    unfold SetCookie.kept
    rw [if_pos hkept, Option.bind_some, if_pos hlive]
  · unfold SetCookie.kept
    split
    · rw [Option.bind_some, if_neg hlive]
    · rfl
  · rfl

/-- Lines under other names leave a cookie alone. -/
theorem live_storeAll_of_names [Ring T] [LinearOrder T] [IsStrictOrderedRing T] {jar : Jar T}
    {t now : T} (ht : t ≤ now) {lines : List SetCookie} {key : String × String}
    (hnames : ∀ line ∈ lines, line.name ≠ key.1) :
    (jar.storeAll t lines).live now key = jar.live now key := by
  induction lines generalizing jar with
  | nil => rfl
  | cons line rest ih =>
    have hkey : key ≠ line.key := by
      rintro rfl
      exact hnames line List.mem_cons_self rfl
    rw [storeAll_cons, ih fun other hother => hnames other (List.mem_cons_of_mem _ hother),
      live_store _ ht, if_neg hkey]

/-! ## What is sent -/

/-- What goes out with a request to `path`. -/
def sent [LinearOrder T] (jar : Jar T) (t : T) (path : String) : List (String × String) :=
  (jar.cookies.filter fun cookie => t < cookie.expires && pathMatches cookie.path path).map
    fun cookie => (cookie.name, cookie.value)

theorem filter_key (jar : Jar T) (key : String × String) :
    (jar.cookies.filter fun cookie => cookie.key = key) = (jar.find key).toList := by
  obtain ⟨cookies, hunique⟩ := jar
  unfold find
  simp only
  induction cookies with
  | nil => rfl
  | cons cookie rest ih =>
    rw [List.map_cons, List.nodup_cons] at hunique
    by_cases hkey : cookie.key = key
    · have hnone : (rest.filter fun other => decide (other.key = key)) = [] := by
        rw [List.filter_eq_nil_iff]
        intro other hother hsame
        have hother' : other.key = cookie.key := by simpa [hkey] using hsame
        exact hunique.1 (hother' ▸ List.mem_map_of_mem hother)
      rw [List.filter_cons_of_pos (by simpa using hkey), hnone,
        List.find?_cons_of_pos (by simpa using hkey)]
      rfl
    · rw [List.filter_cons_of_neg (by simpa using hkey), ih hunique.2,
        List.find?_cons_of_neg (by simpa using hkey)]

/-- Where every name has one path, a server reads the cookie of that path off a request,
if the request is below it. -/
theorem get?_sent [LinearOrder T] {jar : Jar T} {pathOf : String → String}
    (h : ∀ cookie ∈ jar.cookies, cookie.path = pathOf cookie.name) (t : T)
    (path name : String) :
    (Dict.ofItems (jar.sent t path)).get? name =
      if pathMatches (pathOf name) path then jar.live t (name, pathOf name) else none := by
  have hname : (jar.cookies.filter fun cookie => cookie.name = name) =
      (jar.find (name, pathOf name)).toList := by
    rw [← filter_key]
    refine List.filter_congr fun cookie hcookie => ?_
    have hpath := h cookie hcookie
    by_cases hsame : cookie.name = name
    · rw [hsame] at hpath
      simp [Cookie.key, hsame, hpath]
    · simp [Cookie.key, hsame]
  have hitems : ((jar.sent t path).filter fun item => item.1 = name) =
      ((jar.find (name, pathOf name)).toList.filter fun cookie =>
        t < cookie.expires && pathMatches cookie.path path).map
          fun cookie => (cookie.name, cookie.value) := by
    unfold sent
    rw [List.filter_map, ← hname, List.filter_filter, List.filter_filter]
    congr 1
    refine List.filter_congr fun cookie _ => ?_
    exact Bool.and_comm _ _
  rw [Dict.get?_ofItems, hitems]
  unfold live
  cases hfind : jar.find (name, pathOf name) with
  | none => simp
  | some cookie =>
    have hpath : cookie.path = pathOf name := congrArg Prod.snd (find_eq_some.1 hfind).2
    by_cases hlive : t < cookie.expires
    · by_cases hbelow : pathMatches (pathOf name) path = true
      · simp [hpath, hlive, hbelow]
      · simp [hpath, hlive, hbelow]
    · simp [hpath, hlive]

end Jar

end CookieJar
