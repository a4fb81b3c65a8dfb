import Mathlib.Data.List.Nodup

/-!
# Dictionaries that keep the order of insertion

`Dict κ α` is a list of entries whose keys are distinct.  A new key goes to the end;
an assignment to a key that is there replaces the value where it stands.

Reading, besides `get?`, is by `select`: the entries under the keys that meet a
condition, in order.  An assignment to a key outside the condition does not change
them, and an assignment to a new key inside it adds one entry at the end.

* `select_set_of_not`, `select_set_new` and `select_update` are those rules.
* `get?_ofItems` says that of several items with one key the last one stays.
-/

namespace VideoSite

/-- An insertion-ordered dictionary. -/
structure Dict (κ α : Type) where
  entries : List (κ × α)
  nodup : (entries.map Prod.fst).Nodup

namespace Dict

variable {κ α : Type}

def keys (d : Dict κ α) : List κ := d.entries.map Prod.fst

/-- The entries under the keys that meet `p`, in order. -/
def select (d : Dict κ α) (p : κ → Bool) : List (κ × α) :=
  d.entries.filter fun entry => p entry.1

def empty : Dict κ α where
  entries := []
  nodup := List.nodup_nil

/-- Keep the keys that meet `p`. -/
def filter (d : Dict κ α) (p : κ → Bool) : Dict κ α where
  entries := d.select p
  nodup := d.nodup.sublist (List.filter_sublist.map Prod.fst)

@[simp] theorem keys_empty : (empty : Dict κ α).keys = [] := rfl

@[simp] theorem select_empty (p : κ → Bool) : (empty : Dict κ α).select p = [] := rfl

theorem mem_keys_filter {d : Dict κ α} {p : κ → Bool} {key : κ} :
    key ∈ (d.filter p).keys ↔ key ∈ d.keys ∧ p key = true := by
  unfold keys filter select
  simp only [List.mem_map, List.mem_filter]
  constructor
  · intro h
    obtain ⟨entry, ⟨hmem, hp⟩, rfl⟩ := h
    exact ⟨⟨entry, hmem, rfl⟩, hp⟩
  · intro h
    obtain ⟨⟨entry, hmem, rfl⟩, hp⟩ := h
    exact ⟨entry, ⟨hmem, hp⟩, rfl⟩

theorem mem_keys_of_select {d : Dict κ α} {p : κ → Bool} {entry : κ × α}
    (h : entry ∈ d.select p) : entry.1 ∈ d.keys ∧ p entry.1 = true :=
  ⟨List.mem_map_of_mem (List.mem_filter.1 h).1, (List.mem_filter.1 h).2⟩

theorem select_filter (d : Dict κ α) (p q : κ → Bool) :
    (d.filter p).select q = d.select fun key => p key && q key := by
  unfold filter select
  rw [List.filter_filter]
  congr 1
  funext entry
  exact Bool.and_comm _ _

/-- No key meets the condition. -/
theorem select_eq_nil {d : Dict κ α} {p : κ → Bool} (h : ∀ key ∈ d.keys, p key = false) :
    d.select p = [] := by
  rw [List.eq_nil_iff_forall_not_mem]
  intro entry hentry
  obtain ⟨hkey, hp⟩ := mem_keys_of_select hentry
  rw [h _ hkey] at hp
  cases hp

theorem select_congr {d : Dict κ α} {p q : κ → Bool} (h : ∀ key ∈ d.keys, p key = q key) :
    d.select p = d.select q :=
  List.filter_congr fun _ hentry => h _ (List.mem_map_of_mem hentry)

variable [DecidableEq κ]

/-- The value under `key`. -/
def get? (d : Dict κ α) (key : κ) : Option α :=
  (d.entries.find? fun entry => entry.1 = key).map Prod.snd

/-- The entries with `value` where the key is `key`. -/
def replaced (key : κ) (value : α) (entries : List (κ × α)) : List (κ × α) :=
  entries.map fun entry => if entry.1 = key then (key, value) else entry

theorem replaced_keys (key : κ) (value : α) (entries : List (κ × α)) :
    (replaced key value entries).map Prod.fst = entries.map Prod.fst := by
  unfold replaced
  rw [List.map_map]
  refine List.map_congr_left fun entry _ => ?_
  by_cases h : entry.1 = key
  · simp [h]
  · simp [h]

/-- `d[key] = value`. -/
def set (d : Dict κ α) (key : κ) (value : α) : Dict κ α where
  entries :=
    if key ∈ d.keys then replaced key value d.entries else d.entries ++ [(key, value)]
  nodup := by
    split_ifs with hkey
    · rw [replaced_keys]
      exact d.nodup
    · rw [List.map_append]
      exact d.nodup.append (List.nodup_singleton key) (List.disjoint_singleton.2 hkey)

theorem entries_set_old {d : Dict κ α} {key : κ} (value : α) (h : key ∈ d.keys) :
    (d.set key value).entries = replaced key value d.entries := if_pos h

theorem entries_set_new {d : Dict κ α} {key : κ} (value : α) (h : key ∉ d.keys) :
    (d.set key value).entries = d.entries ++ [(key, value)] := if_neg h

/-- `d.setdefault(key, value)`. -/
def setDefault (d : Dict κ α) (key : κ) (value : α) : Dict κ α :=
  if key ∈ d.keys then d else d.set key value

/-- `d.update(items)`. -/
def update (d : Dict κ α) (items : List (κ × α)) : Dict κ α :=
  items.foldl (fun d item => d.set item.1 item.2) d

/-- `{key: value for key, value in items}`. -/
def ofItems (items : List (κ × α)) : Dict κ α := empty.update items

@[simp] theorem update_nil (d : Dict κ α) : d.update [] = d := rfl

@[simp] theorem update_cons (d : Dict κ α) (item : κ × α) (items : List (κ × α)) :
    d.update (item :: items) = (d.set item.1 item.2).update items := rfl

theorem update_append (d : Dict κ α) (items items' : List (κ × α)) :
    d.update (items ++ items') = (d.update items).update items' :=
  List.foldl_append

/-! ## Keys -/

theorem keys_set (d : Dict κ α) (key : κ) (value : α) :
    (d.set key value).keys = if key ∈ d.keys then d.keys else d.keys ++ [key] := by
  split_ifs with hkey
  · unfold keys
    rw [entries_set_old value hkey, replaced_keys]
  · unfold keys
    rw [entries_set_new value hkey, List.map_append]
    rfl

@[simp] theorem mem_keys_set {d : Dict κ α} {key other : κ} {value : α} :
    other ∈ (d.set key value).keys ↔ other ∈ d.keys ∨ other = key := by
  rw [keys_set]
  split_ifs with hkey
  · constructor
    · exact .inl
    · intro h
      rcases h with h | rfl
      · exact h
      · exact hkey
  · simp

theorem mem_keys_update {d : Dict κ α} {items : List (κ × α)} {key : κ} :
    key ∈ (d.update items).keys ↔ key ∈ d.keys ∨ key ∈ items.map Prod.fst := by
  induction items generalizing d with
  | nil => simp
  | cons item rest ih =>
    rw [update_cons, ih, mem_keys_set]
    simp [or_assoc]

theorem mem_keys_ofItems {items : List (κ × α)} {key : κ} :
    key ∈ (ofItems items).keys ↔ key ∈ items.map Prod.fst := by
  simp [ofItems, mem_keys_update]

/-! ## Entries under a condition -/

/-- Outside the condition nothing is replaced. -/
theorem filter_replaced {p : κ → Bool} {key : κ} (value : α) (hp : p key = false)
    (entries : List (κ × α)) :
    ((replaced key value entries).filter fun entry => p entry.1) =
      entries.filter fun entry => p entry.1 := by
  unfold replaced
  induction entries with
  | nil => rfl
  | cons entry rest ih =>
    rw [List.map_cons]
    by_cases h : entry.1 = key
    · rw [if_pos h, List.filter_cons_of_neg (by simp [hp]), ih,
        List.filter_cons_of_neg (by simp [h, hp])]
    · rw [if_neg h, List.filter_cons, ih, List.filter_cons]

/-- An assignment outside the condition. -/
theorem select_set_of_not {d : Dict κ α} {p : κ → Bool} {key : κ} (value : α)
    (hp : p key = false) : (d.set key value).select p = d.select p := by
  unfold select
  by_cases hkey : key ∈ d.keys
  · rw [entries_set_old value hkey, filter_replaced value hp]
  · rw [entries_set_new value hkey, List.filter_append]
    simp [hp]

/-- An assignment to a new key. -/
theorem select_set_new {d : Dict κ α} {p : κ → Bool} {key : κ} (value : α)
    (hnew : key ∉ d.keys) (hp : p key = true) :
    (d.set key value).select p = d.select p ++ [(key, value)] := by
  unfold select
  rw [entries_set_new value hnew, List.filter_append]
  simp [hp]

theorem select_setDefault_of_not {d : Dict κ α} {p : κ → Bool} {key : κ} (value : α)
    (hp : p key = false) : (d.setDefault key value).select p = d.select p := by
  unfold setDefault
  split_ifs
  · rfl
  · exact select_set_of_not value hp

/-- Assignments to new keys, each once. -/
theorem select_update {d : Dict κ α} {p : κ → Bool} {items : List (κ × α)}
    (hnodup : (items.map Prod.fst).Nodup) (hnew : ∀ key ∈ items.map Prod.fst, key ∉ d.keys) :
    (d.update items).select p = d.select p ++ items.filter fun item => p item.1 := by
  induction items generalizing d with
  | nil => simp
  | cons item rest ih =>
    rw [List.map_cons, List.nodup_cons] at hnodup
    have hrest : ∀ key ∈ rest.map Prod.fst, key ∉ (d.set item.1 item.2).keys := by
      intro key hkey hmem
      rcases mem_keys_set.1 hmem with hold | rfl
      · exact hnew key (List.mem_cons_of_mem _ hkey) hold
      · exact hnodup.1 hkey
    rw [update_cons, ih hnodup.2 hrest]
    cases hp : p item.1 with
    | true =>
      rw [select_set_new item.2 (hnew _ List.mem_cons_self) hp, List.append_assoc]
      simp [hp]
    | false =>
      rw [select_set_of_not item.2 hp]
      simp [hp]

/-- Assignments to new keys, each once, are added at the end. -/
theorem entries_update_new {d : Dict κ α} {items : List (κ × α)}
    (hnodup : (items.map Prod.fst).Nodup) (hnew : ∀ key ∈ items.map Prod.fst, key ∉ d.keys) :
    (d.update items).entries = d.entries ++ items := by
  have hall := select_update (p := fun _ => true) hnodup hnew
  simpa only [select, List.filter_true] using hall

/-! ## Values -/

/-- At most one entry is under a key. -/
theorem select_key (d : Dict κ α) (key : κ) :
    d.select (fun other => other = key) = (d.get? key).toList.map fun value => (key, value) := by
  obtain ⟨entries, hnodup⟩ := d
  unfold select get?
  simp only
  induction entries with
  | nil => rfl
  | cons entry rest ih =>
    rw [List.map_cons, List.nodup_cons] at hnodup
    by_cases h : entry.1 = key
    · have hnone : (rest.filter fun other => decide (other.1 = key)) = [] := by
        rw [List.filter_eq_nil_iff]
        intro other hother hsame
        have hkey : other.1 = key := by simpa using hsame
        exact hnodup.1 (h.trans hkey.symm ▸ List.mem_map_of_mem hother)
      rw [List.filter_cons_of_pos (by simpa using h), hnone,
        List.find?_cons_of_pos (by simpa using h)]
      simp [← h]
    · rw [List.filter_cons_of_neg (by simpa using h), ih hnodup.2,
        List.find?_cons_of_neg (by simpa using h)]

theorem get?_eq_of_select {d d' : Dict κ α} {key : κ}
    (h : d.select (fun other => other = key) = d'.select fun other => other = key) :
    d.get? key = d'.get? key := by
  rw [select_key, select_key] at h
  have hinjective : Function.Injective fun value : α => (key, value) := by
    intro a b hab
    simpa using hab
  have hlist := List.map_injective_iff.2 hinjective h
  cases hd : d.get? key <;> cases hd' : d'.get? key <;> simp [hd, hd'] at hlist ⊢
  exact hlist

theorem get?_set_self (d : Dict κ α) (key : κ) (value : α) :
    (d.set key value).get? key = some value := by
  have hmem : (key, value) ∈ (d.set key value).entries := by
    by_cases hkey : key ∈ d.keys
    · rw [entries_set_old value hkey]
      obtain ⟨entry, hentry, hsame⟩ := List.mem_map.1 hkey
      exact List.mem_map.2 ⟨entry, hentry, if_pos hsame⟩
    · rw [entries_set_new value hkey]
      exact List.mem_append_right _ (List.mem_singleton_self _)
  have hselect : (key, value) ∈ (d.set key value).select fun other => other = key :=
    List.mem_filter.2 ⟨hmem, by simp⟩
  rw [select_key] at hselect
  obtain ⟨found, hfound, hsame⟩ := List.mem_map.1 hselect
  obtain rfl : found = value := congrArg Prod.snd hsame
  exact Option.mem_toList.1 hfound

theorem get?_set_of_ne (d : Dict κ α) {key other : κ} (value : α) (hne : other ≠ key) :
    (d.set key value).get? other = d.get? other :=
  get?_eq_of_select (select_set_of_not value (by simpa using hne.symm))

theorem get?_eq_none {d : Dict κ α} {key : κ} (h : key ∉ d.keys) : d.get? key = none := by
  unfold get?
  rw [Option.map_eq_none_iff, List.find?_eq_none]
  intro entry hentry hsame
  exact h (List.mem_map.2 ⟨entry, hentry, by simpa using hsame⟩)

/-- A key has a value. -/
theorem get?_isSome {d : Dict κ α} {key : κ} (h : key ∈ d.keys) : (d.get? key).isSome = true := by
  obtain ⟨entry, hentry, hkey⟩ := List.mem_map.1 h
  unfold get?
  rw [Option.isSome_map, List.find?_isSome]
  exact ⟨entry, hentry, by simpa using hkey⟩

theorem get?_filter (d : Dict κ α) {p : κ → Bool} {key : κ} (hp : p key = true) :
    (d.filter p).get? key = d.get? key := by
  unfold get? filter select
  rw [List.find?_filter]
  congr 2
  funext entry
  by_cases h : entry.1 = key
  · simp [h, hp]
  · simp [h]

/-- Of several assignments to a key the last one stays. -/
theorem get?_update (d : Dict κ α) (items : List (κ × α)) (key : κ) :
    (d.update items).get? key =
      ((items.filter fun item => item.1 = key).getLast?.map Prod.snd).or (d.get? key) := by
  induction items generalizing d with
  | nil => simp
  | cons item rest ih =>
    rw [update_cons, ih]
    by_cases h : item.1 = key
    · rw [List.filter_cons_of_pos (by simpa using h), ← h, get?_set_self]
      cases hrest : rest.filter fun other => decide (other.1 = item.1) with
      | nil => simp
      | cons other others =>
        rw [List.getLast?_cons_cons]
        simp [List.getLast?_cons]
    · rw [List.filter_cons_of_neg (by simpa using h), get?_set_of_ne _ _ (Ne.symm h)]

/-- Of several items with one key the last one stays. -/
theorem get?_ofItems (items : List (κ × α)) (key : κ) :
    (ofItems items).get? key =
      (items.filter fun item => item.1 = key).getLast?.map Prod.snd := by
  rw [ofItems, get?_update]
  simp [get?, empty]

end Dict

end VideoSite
