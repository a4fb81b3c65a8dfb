import Mathlib.Data.List.Basic

/-!
# Pairs between separators

A list of pairs of words, written as one word: the parts of a pair stand on the two sides
of one separator, and another stands between the pairs.  The words themselves may contain
the separators, and then the pairs cannot always be read off again.

* `joinPairs_injective` says that they can, if the first parts avoid the inner separator
  and the second parts the outer one: read from the left, every word ends at the next
  separator it has to avoid.
* `joinPairs_injective_right` is the mirror image.
-/

namespace Separators

variable {α : Type} {x y : α}

/-- The pairs as one word, with `x` inside a pair and `y` between pairs. -/
def joinPairs (x y : α) (pairs : List (List α × List α)) : List α :=
  [y].intercalate (pairs.map fun p => p.1 ++ x :: p.2)

@[simp] theorem joinPairs_nil : joinPairs x y [] = [] := rfl

@[simp] theorem joinPairs_singleton (p : List α × List α) :
    joinPairs x y [p] = p.1 ++ x :: p.2 :=
  List.intercalate_singleton

theorem joinPairs_cons_cons (p q : List α × List α) (rest : List (List α × List α)) :
    joinPairs x y (p :: q :: rest) = p.1 ++ x :: (p.2 ++ y :: joinPairs x y (q :: rest)) := by
  unfold joinPairs
  rw [List.map_cons, List.map_cons, List.intercalate_cons_cons]
  simp

/-- A word before the first `x` is determined. -/
theorem append_cons_inj {a b c d : List α} (ha : x ∉ a) (hb : x ∉ b)
    (h : a ++ x :: c = b ++ x :: d) : a = b ∧ c = d := by
  induction a generalizing b with
  | nil =>
    cases b with
    | nil => exact ⟨rfl, (List.cons.inj h).2⟩
    | cons e b => exact absurd (List.mem_cons.2 (Or.inl (List.cons.inj h).1)) hb
  | cons e a ih =>
    cases b with
    | nil => exact absurd (List.mem_cons.2 (Or.inl (List.cons.inj h).1.symm)) ha
    | cons f b =>
      obtain ⟨hef, hrest⟩ := List.cons.inj h
      obtain ⟨hab, hcd⟩ := ih (fun hm => ha (List.mem_cons_of_mem _ hm))
        (fun hm => hb (List.mem_cons_of_mem _ hm)) hrest
      exact ⟨by rw [hef, hab], hcd⟩

/-- The first parts avoid `x`, and the second parts `y`. -/
def AvoidLeft (x y : α) (pairs : List (List α × List α)) : Prop :=
  ∀ p ∈ pairs, x ∉ p.1 ∧ y ∉ p.2

/-- The first parts avoid `y`, and the second parts `x`. -/
def AvoidRight (x y : α) (pairs : List (List α × List α)) : Prop :=
  ∀ p ∈ pairs, y ∉ p.1 ∧ x ∉ p.2

theorem joinPairs_cons_ne_nil (p : List α × List α) (rest : List (List α × List α)) :
    joinPairs x y (p :: rest) ≠ [] := by
  cases rest with
  | nil => simp
  | cons q rest => simp [joinPairs_cons_cons]

/-- Read from the left, the pairs are determined. -/
theorem joinPairs_injective {pairs pairs' : List (List α × List α)} (h : AvoidLeft x y pairs)
    (h' : AvoidLeft x y pairs') (he : joinPairs x y pairs = joinPairs x y pairs') :
    pairs = pairs' := by
  induction pairs generalizing pairs' with
  | nil =>
    cases pairs' with
    | nil => rfl
    | cons p' rest' => exact absurd he.symm (joinPairs_cons_ne_nil p' rest')
  | cons p rest ih =>
    cases pairs' with
    | nil => exact absurd he (joinPairs_cons_ne_nil p rest)
    | cons p' rest' =>
      have hp := h p List.mem_cons_self
      have hp' := h' p' List.mem_cons_self
      cases rest with
      | nil =>
        cases rest' with
        | nil =>
          rw [joinPairs_singleton, joinPairs_singleton] at he
          obtain ⟨hfirst, hsecond⟩ := append_cons_inj hp.1 hp'.1 he
          rw [Prod.ext hfirst hsecond]
        | cons q' rest' =>
          rw [joinPairs_singleton, joinPairs_cons_cons] at he
          have hsecond := (append_cons_inj hp.1 hp'.1 he).2
          exact absurd (hsecond ▸ List.mem_append_right _ List.mem_cons_self) hp.2
      | cons q rest =>
        cases rest' with
        | nil =>
          rw [joinPairs_singleton, joinPairs_cons_cons] at he
          have hsecond := (append_cons_inj hp.1 hp'.1 he).2
          exact absurd (hsecond ▸ List.mem_append_right _ List.mem_cons_self) hp'.2
        | cons q' rest' =>
          rw [joinPairs_cons_cons, joinPairs_cons_cons] at he
          obtain ⟨hfirst, htail⟩ := append_cons_inj hp.1 hp'.1 he
          obtain ⟨hsecond, hlater⟩ := append_cons_inj hp.2 hp'.2 htail
          rw [Prod.ext hfirst hsecond, ih (fun p hm => h p (List.mem_cons_of_mem _ hm))
            (fun p hm => h' p (List.mem_cons_of_mem _ hm)) hlater]

/-! ## The mirror image -/

/-- A pair read backwards. -/
def mirror (p : List α × List α) : List α × List α := (p.2.reverse, p.1.reverse)

theorem mirror_injective : Function.Injective (mirror : List α × List α → List α × List α) := by
  intro p q h
  have hfirst := congrArg Prod.snd h
  have hsecond := congrArg Prod.fst h
  exact Prod.ext (List.reverse_injective hfirst) (List.reverse_injective hsecond)

theorem joinPairs_append_singleton (p q : List α × List α) (pairs : List (List α × List α)) :
    joinPairs x y (q :: pairs ++ [p]) = joinPairs x y (q :: pairs) ++ y :: (p.1 ++ x :: p.2) := by
  induction pairs generalizing q with
  | nil => simp [joinPairs_cons_cons]
  | cons r rest ih =>
    have hrest := ih r
    rw [List.cons_append] at hrest
    rw [List.cons_append, List.cons_append, joinPairs_cons_cons, hrest, joinPairs_cons_cons]
    simp

theorem reverse_joinPairs (pairs : List (List α × List α)) :
    (joinPairs x y pairs).reverse = joinPairs x y (pairs.reverse.map mirror) := by
  induction pairs with
  | nil => rfl
  | cons p rest ih =>
    cases hrest : rest.reverse.map mirror with
    | nil =>
      have hnil : rest = [] := by simpa using hrest
      subst hnil
      simp [mirror]
    | cons q later =>
      obtain ⟨r, rest', rfl⟩ : ∃ r rest', rest = r :: rest' := by
        cases rest with
        | nil => cases hrest
        | cons r rest' => exact ⟨r, rest', rfl⟩
      rw [joinPairs_cons_cons, List.reverse_cons, List.map_append, List.map_singleton, hrest,
        joinPairs_append_singleton, ← hrest, ← ih]
      simp [mirror]

theorem AvoidRight.mirror {pairs : List (List α × List α)} (h : AvoidRight x y pairs) :
    AvoidLeft x y (pairs.reverse.map mirror) := by
  intro p hp
  obtain ⟨q, hq, rfl⟩ := List.mem_map.1 hp
  have hq' := h q (List.mem_reverse.1 hq)
  exact ⟨fun hm => hq'.2 (List.mem_reverse.1 hm), fun hm => hq'.1 (List.mem_reverse.1 hm)⟩

/-- Read from the right, the pairs are determined. -/
theorem joinPairs_injective_right {pairs pairs' : List (List α × List α)}
    (h : AvoidRight x y pairs) (h' : AvoidRight x y pairs')
    (he : joinPairs x y pairs = joinPairs x y pairs') : pairs = pairs' := by
  have hreverse := congrArg List.reverse he
  rw [reverse_joinPairs, reverse_joinPairs] at hreverse
  have hmirror := joinPairs_injective h.mirror h'.mirror hreverse
  exact List.reverse_injective (List.map_injective_iff.2 mirror_injective hmirror)

end Separators
