import Mathlib.Data.List.Nodup

/-!
# Lists whose entries have keys of their own

Handles and workers are kept in lists and are told apart by a number. `atKey?` looks one up by its
number; what the operations on such lists do is said by what they do to `atKey?`.

## Main definitions

* `ExtensionGraph.atKey?` — the entry with a key.

## Main results

* `ExtensionGraph.atKey?_eq_some_iff` — with keys of their own, the entries are exactly what is
  found.
* `ExtensionGraph.atKey?_map`, `ExtensionGraph.atKey?_concat`, `ExtensionGraph.atKey?_set`,
  `ExtensionGraph.atKey?_eraseP` — changing, adding, replacing and removing entries.
-/

namespace ExtensionGraph

section Keyed

variable {α κ : Type} [DecidableEq κ] (key : α → κ)

/-- The first entry with a key. -/
def atKey? (l : List α) (k : κ) : Option α := l.find? fun a => key a = k

variable {key} {l : List α} {k : κ}

/-- Nothing is found in an empty list. -/
@[simp] lemma atKey?_nil : atKey? key [] k = none := rfl

/-- The first entry is found if it has the key; otherwise the search goes on in the rest. -/
lemma atKey?_cons (a : α) (l : List α) (k : κ) :
    atKey? key (a :: l) k = if key a = k then some a else atKey? key l k := by
  unfold atKey?
  by_cases h : key a = k
  · rw [if_pos h, List.find?_cons_of_pos (by simpa using h)]
  · rw [if_neg h, List.find?_cons_of_neg (by simpa using h)]

/-- Nothing is found exactly if no entry has the key. -/
lemma atKey?_eq_none_iff : atKey? key l k = none ↔ ∀ a ∈ l, key a ≠ k := by
  unfold atKey?
  rw [List.find?_eq_none]
  simp

/-- Something is found exactly if the key is one of the list. -/
lemma isSome_atKey?_iff : (atKey? key l k).isSome ↔ k ∈ l.map key := by
  constructor
  · intro h
    obtain ⟨a, ha⟩ := Option.isSome_iff_exists.1 h
    unfold atKey? at ha
    have hk : key a = k := by simpa using List.find?_some ha
    rw [← hk]
    exact List.mem_map_of_mem (List.mem_of_find?_eq_some ha)
  · intro h
    obtain ⟨a, ha, hk⟩ := List.mem_map.1 h
    cases he : atKey? key l k with
    | some b => rfl
    | none => exact absurd hk (atKey?_eq_none_iff.1 he a ha)

/-- What is found has the key. -/
lemma key_of_atKey? {a : α} (h : atKey? key l k = some a) : key a = k := by
  unfold atKey? at h
  simpa using List.find?_some h

/-- What is found is an entry of the list. -/
lemma mem_of_atKey? {a : α} (h : atKey? key l k = some a) : a ∈ l :=
  List.mem_of_find?_eq_some h

/-- With keys of their own, an entry is found under its key and nothing else is. -/
lemma atKey?_eq_some_iff (hnd : (l.map key).Nodup) {a : α} :
    atKey? key l k = some a ↔ a ∈ l ∧ key a = k := by
  constructor
  · intro h
    exact ⟨mem_of_atKey? h, key_of_atKey? h⟩
  · rintro ⟨ha, hk⟩
    cases h : atKey? key l k with
    | none => exact absurd hk (atKey?_eq_none_iff.1 h a ha)
    | some b =>
      have hkb : key b = key a := (key_of_atKey? h).trans hk.symm
      rw [List.inj_on_of_nodup_map hnd (mem_of_atKey? h) ha hkb]

/-- If the keys are different, an entry is found by its key. -/
lemma atKey?_of_mem (hnd : (l.map key).Nodup) {a : α} (ha : a ∈ l) :
    atKey? key l (key a) = some a :=
  (atKey?_eq_some_iff hnd).2 ⟨ha, rfl⟩

/-- With keys of their own, an entry is the only one with its key.

**Proof sketch.** By induction over the list. Once the entry has been met, none of the others has
its key. -/
lemma filter_key_eq_singleton (hnd : (l.map key).Nodup) {a : α} (ha : a ∈ l) (hk : key a = k) :
    (l.filter fun b => key b = k) = [a] := by
  induction l with
  | nil => cases ha
  | cons b l ih =>
    rw [List.map_cons, List.nodup_cons] at hnd
    rcases List.mem_cons.1 ha with rfl | ha
    · have hrest : (l.filter fun b => key b = k) = [] := by
        refine List.filter_eq_nil_iff.2 fun b hb hbk => hnd.1 ?_
        rw [hk, ← of_decide_eq_true hbk]
        exact List.mem_map_of_mem hb
      rw [List.filter_cons_of_pos (by simpa using hk), hrest]
    · have hne : key b ≠ k := by
        rintro rfl
        exact hnd.1 (hk ▸ List.mem_map_of_mem ha)
      rw [List.filter_cons_of_neg (by simpa using hne), ih hnd.2 ha]

/-- Changing all entries without their keys changes what is found. -/
lemma atKey?_map {f : α → α} (hf : ∀ a ∈ l, key (f a) = key a) :
    atKey? key (l.map f) k = (atKey? key l k).map f := by
  induction l with
  | nil => rfl
  | cons a l ih =>
    rw [List.map_cons, atKey?_cons, atKey?_cons, hf a List.mem_cons_self,
      ih fun b hb => hf b (List.mem_cons_of_mem _ hb)]
    by_cases h : key a = k
    · rw [if_pos h, if_pos h]
      rfl
    · rw [if_neg h, if_neg h]

/-- A key is searched in the first part, and then in the second. -/
lemma atKey?_append (l l' : List α) (k : κ) :
    atKey? key (l ++ l') k = (atKey? key l k).or (atKey? key l' k) := by
  unfold atKey?
  rw [List.find?_append]

/-- A new entry is found under its key, if no other one has this key. -/
lemma atKey?_concat (l : List α) (a : α) (h : ∀ b ∈ l, key b ≠ key a) :
    atKey? key (l ++ [a]) k = if k = key a then some a else atKey? key l k := by
  rw [atKey?_append, atKey?_cons, atKey?_nil]
  by_cases hk : k = key a
  · rw [if_pos hk, if_pos hk.symm, hk, atKey?_eq_none_iff.2 h]
    rfl
  · rw [if_neg hk, if_neg (Ne.symm hk), Option.or_none]

/-- Replacing an entry by one with the same key.

**Proof sketch.** Induction on the list. An entry before the replaced one has another key, so that
the search does not stop earlier than before. -/
lemma atKey?_set (hnd : (l.map key).Nodup) {i : Nat} {a a' : α} (hi : l[i]? = some a)
    (hk : key a' = key a) :
    atKey? key (l.set i a') k = if k = key a then some a' else atKey? key l k := by
  induction l generalizing i with
  | nil => simp at hi
  | cons b l ih =>
    rw [List.map_cons, List.nodup_cons] at hnd
    cases i with
    | zero =>
      obtain rfl : b = a := by simpa using hi
      rw [List.set_cons_zero, atKey?_cons, atKey?_cons, hk]
      by_cases h : key b = k
      · rw [if_pos h, if_pos h.symm]
      · rw [if_neg h, if_neg (Ne.symm h), if_neg h]
    | succ i =>
      have hi' : l[i]? = some a := by simpa using hi
      have hne : key b ≠ key a := by
        intro h
        rw [h] at hnd
        exact hnd.1 (List.mem_map_of_mem (List.mem_of_getElem? hi'))
      rw [List.set_cons_succ, atKey?_cons, atKey?_cons, ih hnd.2 hi']
      by_cases h : key b = k
      · have hka : k ≠ key a := fun hka => hne (h.trans hka)
        rw [if_pos h, if_neg hka, if_pos h]
      · rw [if_neg h, if_neg h]

omit [DecidableEq κ] in
/-- Replacing an entry by one with the same key keeps the keys. -/
lemma map_key_set {i : Nat} {a a' : α} (hi : l[i]? = some a) (hk : key a' = key a) :
    (l.set i a').map key = l.map key := by
  rw [List.map_set, hk]
  refine List.ext_getElem? fun j => ?_
  rw [List.getElem?_set]
  split
  · next h =>
    subst h
    split
    · rw [List.getElem?_map, hi]
      rfl
    · next h => exact (List.getElem?_eq_none (by simpa using h)).symm
  · rfl

/-- Among entries with keys of their own, taking off the first with a key takes off every one
with it.

**Proof sketch.** By induction over the list. Behind the first entry with the key there is none with
it, so that the filter drops nothing there. -/
lemma eraseP_eq_filter (hnd : (l.map key).Nodup) (k : κ) :
    l.eraseP (fun a => key a = k) = l.filter fun a => key a ≠ k := by
  induction l with
  | nil => rfl
  | cons a l ih =>
    rw [List.map_cons, List.nodup_cons] at hnd
    by_cases ha : key a = k
    · rw [List.eraseP_cons_of_pos (by simpa using ha), List.filter_cons_of_neg (by simpa using ha)]
      symm
      rw [List.filter_eq_self]
      intro b hb
      have hne : key b ≠ key a := fun he => hnd.1 (List.mem_map.2 ⟨b, hb, he⟩)
      simpa [← ha] using hne
    · rw [List.eraseP_cons_of_neg (by simpa using ha), List.filter_cons_of_pos (by simpa using ha),
        ih hnd.2]

/-- If the keys are different, erasing a key erases all entries that have it, and no others. -/
lemma mem_eraseP_iff (hnd : (l.map key).Nodup) {a : α} :
    a ∈ l.eraseP (fun a => key a = k) ↔ a ∈ l ∧ key a ≠ k := by
  rw [eraseP_eq_filter hnd, List.mem_filter]
  simp

/-- An erased key is not found any more, and all others are found as before.

**Proof sketch.** The entries that are left are those with other keys, and the keys are still
different. -/
lemma atKey?_eraseP (hnd : (l.map key).Nodup) (k k' : κ) :
    atKey? key (l.eraseP fun a => key a = k) k' = if k' = k then none else atKey? key l k' := by
  by_cases hk : k' = k
  · rw [if_pos hk, atKey?_eq_none_iff]
    intro a ha hka
    exact ((mem_eraseP_iff hnd).1 ha).2 (hka.trans hk)
  · rw [if_neg hk]
    have hnd' : ((l.eraseP fun a => key a = k).map key).Nodup :=
      hnd.sublist (List.Sublist.map _ List.eraseP_sublist)
    refine Option.ext fun a => ?_
    rw [atKey?_eq_some_iff hnd', atKey?_eq_some_iff hnd, mem_eraseP_iff hnd]
    constructor
    · rintro ⟨⟨ha, -⟩, hka⟩
      exact ⟨ha, hka⟩
    · rintro ⟨ha, hka⟩
      exact ⟨⟨ha, fun h => hk (hka.symm.trans h)⟩, hka⟩

end Keyed

end ExtensionGraph
