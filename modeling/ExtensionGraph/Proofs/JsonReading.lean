import Mathlib.Tactic.Common
import ExtensionGraph.Json.Decode

/-!
# Reading what has been written

A value is written as a tree without faults, and what is read from this tree is the value again, if
all its objects list their members in ascending order of their keys. Every value that is read from
any tree is of this kind. For lists and records it is enough to know the same of their parts: a
record is taken field by field, whether it is spelled as an object or as an array.

## Main definitions

* `ExtensionGraph.Json.Object.Ascending` — the keys of an object are in order.
* `ExtensionGraph.Json.Value.Ordered` — all objects within a value are.

## Main results

* `ExtensionGraph.Json.Value.Ordered.value_toTree` — ordered values are read back from their trees.
* `ExtensionGraph.Json.Tree.ordered_of_value` — whatever is read is ordered.
* `ExtensionGraph.Json.Tree.list_toTree` — a list is read back if its items are.
* `ExtensionGraph.Json.Record.finish_of_decodeWith` — what holds of the fields of a record at the
  beginning, and still holds whenever a field has been taken, holds of those it is made of.
-/

namespace ExtensionGraph.Json

/-- The first of two steps that succeed. -/
lemma bind_eq_ok {ε α β : Type} {x : Except ε α} {f : α → Except ε β} {b : β} :
    x >>= f = .ok b ↔ ∃ a, x = .ok a ∧ f a = .ok b := by
  cases x with
  | error e =>
    constructor
    · intro h
      cases h
    · rintro ⟨a, h, -⟩
      cases h
  | ok a =>
    constructor
    · exact fun h => ⟨a, rfl, h⟩
    · rintro ⟨a', h, h'⟩
      cases h
      exact h'

/-! ## Objects -/

namespace Object

variable {o : Object} {key : String} {value : Value}

/-- The keys of an object are in ascending order. -/
def Ascending (o : Object) : Prop := o.Pairwise fun a b => a.1 < b.1

/-- A member of an object after an insertion was there before, or is the one that was inserted. -/
lemma mem_insert {m : String × Value} (h : m ∈ o.insert key value) : m ∈ o ∨ m = (key, value) := by
  induction o with
  | nil => exact .inr (List.mem_singleton.1 h)
  | cons m' o ih =>
    obtain ⟨k, v⟩ := m'
    unfold insert at h
    split at h
    · exact (List.mem_cons.1 h).symm.imp_left (List.mem_cons_of_mem _)
    · split at h
      · exact (List.mem_cons.1 h).symm
      · rcases List.mem_cons.1 h with rfl | h
        · exact .inl List.mem_cons_self
        · exact (ih h).imp_left (List.mem_cons_of_mem _)

/-- Setting a member keeps the order.

**Proof sketch.** Induction on the members: the new one goes before the first that is larger, or in
the place of the one with the same key. -/
lemma Ascending.insert (h : o.Ascending) : (o.insert key value).Ascending := by
  induction o with
  | nil => exact List.pairwise_singleton _ _
  | cons m o ih =>
    obtain ⟨k, v⟩ := m
    obtain ⟨hfirst, hrest⟩ := List.pairwise_cons.1 h
    unfold Object.insert
    split
    · next heq => exact List.pairwise_cons.2 ⟨heq ▸ hfirst, hrest⟩
    · next hne =>
      split
      · next hlt =>
        refine List.pairwise_cons.2 ⟨fun m hm => ?_, h⟩
        rcases List.mem_cons.1 hm with rfl | hm
        · exact hlt
        · exact String.lt_trans hlt (hfirst m hm)
      · next hle =>
        refine List.pairwise_cons.2 ⟨fun m hm => ?_, ih hrest⟩
        rcases mem_insert hm with hm | rfl
        · exact hfirst m hm
        · exact Std.lt_of_le_of_ne (String.not_lt.1 hle) (Ne.symm hne)

/-- What is set behind all other members comes last. -/
lemma insert_eq_append (h : ∀ m ∈ o, m.1 < key) : o.insert key value = o ++ [(key, value)] := by
  induction o with
  | nil => rfl
  | cons m o ih =>
    obtain ⟨k, v⟩ := m
    have hk : k < key := h _ List.mem_cons_self
    have hne : key ≠ k := fun heq => String.lt_irrefl k (heq ▸ hk)
    have hnlt : ¬ key < k := fun hlt => String.lt_irrefl k (String.lt_trans hk hlt)
    rw [insert, if_neg hne, if_neg hnlt, ih fun m hm => h m (List.mem_cons_of_mem _ hm)]
    rfl

/-- Members that come in order are inserted at the end. -/
lemma foldl_insert_eq_append {members : List (String × Value)}
    (h : Ascending (o ++ members)) :
    members.foldl (fun o m => o.insert m.1 m.2) o = o ++ members := by
  induction members generalizing o with
  | nil => exact (List.append_nil o).symm
  | cons m members ih =>
    have hlast : ∀ m' ∈ o, m'.1 < m.1 := fun m' hm' =>
      (List.pairwise_append.1 h).2.2 m' hm' m List.mem_cons_self
    rw [List.foldl_cons, insert_eq_append hlast, ih]
    · exact (List.append_assoc o [m] members)
    · rwa [List.append_assoc]

/-- Members that are in order are an object as they stand. -/
lemma ofList_of_ascending (h : o.Ascending) : ofList o = o := foldl_insert_eq_append h

/-- Members in any order make an object with keys in ascending order, and add nothing. -/
lemma ascending_foldl_insert (h : o.Ascending) (members : List (String × Value)) :
    (members.foldl (fun o m => o.insert m.1 m.2) o).Ascending ∧
      ∀ m ∈ members.foldl (fun o m => o.insert m.1 m.2) o, m ∈ o ∨ m ∈ members := by
  induction members generalizing o with
  | nil => exact ⟨h, fun m hm => .inl hm⟩
  | cons m' members ih =>
    have hnext : (o.insert m'.1 m'.2).Ascending := h.insert
    obtain ⟨hasc, hmem⟩ := ih hnext
    refine ⟨hasc, fun m hm => ?_⟩
    rcases hmem m hm with hm | hm
    · rcases mem_insert hm with hm | rfl
      · exact .inl hm
      · exact .inr List.mem_cons_self
    · exact .inr (List.mem_cons_of_mem _ hm)

/-- An object is in order, whatever the order of the list that it is made of. -/
lemma ascending_ofList (members : List (String × Value)) : (ofList members).Ascending :=
  (ascending_foldl_insert List.Pairwise.nil members).1

/-- An object has no members but those of the list that it is made of. -/
lemma mem_of_mem_ofList {members : List (String × Value)} {m : String × Value}
    (h : m ∈ ofList members) : m ∈ members :=
  ((ascending_foldl_insert List.Pairwise.nil members).2 m h).resolve_left List.not_mem_nil

end Object

/-! ## Values -/

/-- All objects within a value list their members in ascending order of the keys. -/
inductive Value.Ordered : Value → Prop
  | null : Ordered .null
  | bool (b : Bool) : Ordered (.bool b)
  | number (n : Number) : Ordered (.number n)
  | string (s : String) : Ordered (.string s)
  | array {items : List Value} (h : ∀ v ∈ items, Ordered v) : Ordered (.array items)
  | object {members : List (String × Value)} (hkeys : Object.Ascending members)
      (h : ∀ m ∈ members, Ordered m.2) : Ordered (.object members)

namespace Tree

/-- Members are turned into trees one by one. -/
lemma membersToTree_eq_map (members : List (String × Value)) :
    membersToTree members = members.map fun m => (.ok m.1, m.2.toTree) := by
  induction members with
  | nil => rfl
  | cons m members ih => rw [membersToTree, ih, List.map_cons]

/-- Items that are read back one by one are read back together. -/
lemma values_of_forall {items : List Value} (h : ∀ v ∈ items, v.toTree.value = .ok v) :
    values (itemsToTree items) = .ok items := by
  induction items with
  | nil => rfl
  | cons v items ih =>
    rw [itemsToTree, values, h v List.mem_cons_self,
      ih fun v' hv' => h v' (List.mem_cons_of_mem _ hv')]
    rfl

/-- Members that are read back one by one are read back together. -/
lemma memberValues_of_forall {members : List (String × Value)}
    (h : ∀ m ∈ members, m.2.toTree.value = .ok m.2) :
    memberValues (membersToTree members) = .ok members := by
  induction members with
  | nil => rfl
  | cons m members ih =>
    rw [membersToTree, memberValues, h m List.mem_cons_self,
      ih fun m' hm' => h m' (List.mem_cons_of_mem _ hm')]
    rfl

end Tree

/-- **Ordered values are read back from their trees.** -/
theorem Value.Ordered.value_toTree {v : Value} (h : v.Ordered) : v.toTree.value = .ok v := by
  induction h with
  | null | bool | number | string => rfl
  | array _ ih =>
    rw [Value.toTree, Tree.value, Tree.values_of_forall ih]
    rfl
  | object hkeys _ ih =>
    rw [Value.toTree, Tree.value, Tree.memberValues_of_forall ih]
    show Except.ok (Value.object (Object.ofList _)) = _
    rw [Object.ofList_of_ascending hkeys]

namespace Tree

mutual

/-- **Whatever is read is ordered.**

**Proof sketch.** Recursion on the tree, along with its items and its members. An object is built by
insertion, which keeps its members in order whatever the order in the text was. -/
theorem ordered_of_value {v : Value} : ∀ t : Tree, t.value = .ok v → v.Ordered
  | .null, h => by
    cases h
    exact .null
  | .bool b, h => by
    cases h
    exact .bool b
  | .number n, h => by
    cases h
    exact .number n
  | .string s, h => by
    cases h
    exact .string s
  | .array items stop, h => by
    obtain ⟨vs, hvs, h⟩ := bind_eq_ok.1 h
    obtain ⟨-, -, h⟩ := bind_eq_ok.1 h
    cases h
    exact .array (ordered_of_values items hvs)
  | .object members stop, h => by
    obtain ⟨ms, hms, h⟩ := bind_eq_ok.1 h
    obtain ⟨-, -, h⟩ := bind_eq_ok.1 h
    cases h
    exact .object (Object.ascending_ofList ms) fun m hm =>
      ordered_of_memberValues members hms m (Object.mem_of_mem_ofList hm)
  | .keyless _, h => by cases h
  | .broken _ _ _, h => by cases h

/-- The items of an array that is read are ordered. -/
theorem ordered_of_values {vs : List Value} :
    ∀ ts : List Tree, values ts = .ok vs → ∀ v ∈ vs, v.Ordered
  | [], h => by
    cases h
    simp
  | t :: ts, h => by
    obtain ⟨v, hv, h⟩ := bind_eq_ok.1 h
    obtain ⟨rest, hrest, h⟩ := bind_eq_ok.1 h
    cases h
    exact List.forall_mem_cons.2 ⟨ordered_of_value t hv, ordered_of_values ts hrest⟩

/-- The members of an object that is read are ordered. -/
theorem ordered_of_memberValues {ms : List (String × Value)} :
    ∀ members : List (Except Fault String × Tree), memberValues members = .ok ms →
      ∀ m ∈ ms, m.2.Ordered
  | [], h => by
    cases h
    simp
  | (.error _, _) :: _, h => by cases h
  | (.ok k, t) :: members, h => by
    obtain ⟨v, hv, h⟩ := bind_eq_ok.1 h
    obtain ⟨rest, hrest, h⟩ := bind_eq_ok.1 h
    cases h
    exact List.forall_mem_cons.2 ⟨ordered_of_value t hv, ordered_of_memberValues members hrest⟩

end

/-- Only `null` is read as `null`. -/
lemma eq_null_of_value {t : Tree} (h : t.value = .ok .null) : t = .null := by
  cases t with
  | null => rfl
  | bool | number | string | keyless | broken => cases h
  | array items stop | object members stop =>
    obtain ⟨xs, -, h⟩ := bind_eq_ok.1 h
    obtain ⟨-, -, h⟩ := bind_eq_ok.1 h
    cases h

end Tree

/-! ## Optional parts and lists -/

/-- A value that says something; `null` is as good as none. -/
def Value.stated? : Value → Option Value
  | .null => none
  | v => some v

/-- A value that is not `null` is stated. -/
lemma Value.stated?_of_ne {v : Value} (h : v ≠ .null) : v.stated? = some v := by
  cases v with
  | null => exact absurd rfl h
  | bool | number | string | array | object => rfl

namespace Tree

/-- What is optional is read as usual where there is no `null`. -/
lemma optional_of_ne {α : Type} (read : Decoder α) {t : Tree} (h : t ≠ .null) :
    optional read t = (read t).map some := by
  cases t with
  | null => exact absurd rfl h
  | bool | number | string | array | object | keyless | broken => rfl

/-- A value that may be missing is read back, unless it says nothing. -/
lemma optional_toTree {v : Value} (h : v.Ordered) :
    optional value v.toTree = .ok v.stated? := by
  have hread := h.value_toTree
  cases v with
  | null => rfl
  | bool | number | string => rfl
  | array | object =>
    rw [optional_of_ne _ (by simp [Value.toTree]), hread]
    rfl

/-- What is read of a value that may be missing says something, and is ordered.

**Proof sketch.** A `null` is read as nothing. Anything else is read as a value, which is not `null`
itself. -/
lemma stated_of_optional {t : Tree} {p : Option Value} (h : optional value t = .ok p) :
    ∀ v ∈ p, v.Ordered ∧ v.stated? = some v := by
  by_cases ht : t = .null
  · subst ht
    cases h
    simp
  · rw [optional_of_ne _ ht] at h
    cases hv : t.value with
    | error f =>
      rw [hv] at h
      cases h
    | ok v =>
      rw [hv] at h
      cases h
      rintro v' ⟨⟩
      exact ⟨ordered_of_value t hv, Value.stated?_of_ne fun hnull =>
        ht (eq_null_of_value (hnull ▸ hv))⟩

/-- **A list is read back** if each of its items is. -/
lemma list_toTree {α β : Type} {read : Decoder β} {write : α → Value} {f : α → β} {xs : List α}
    (h : ∀ x ∈ xs, read (write x).toTree = .ok (f x)) :
    list read (Value.array (xs.map write)).toTree = .ok (xs.map f) := by
  have hitems : (itemsToTree (xs.map write)).mapM read = .ok (xs.map f) := by
    induction xs with
    | nil => rfl
    | cons x xs ih =>
      rw [List.map_cons, itemsToTree, List.mapM_cons, h x List.mem_cons_self,
        ih fun y hy => h y (List.mem_cons_of_mem _ hy)]
      rfl
  rw [Value.toTree, list, hitems]
  rfl

/-- If a decoder only reads what has a property, all items have it. -/
lemma forall_of_mapM {α : Type} {read : Decoder α} {P : α → Prop}
    (h : ∀ t x, read t = .ok x → P x) {items : List Tree} {xs : List α}
    (hx : items.mapM read = .ok xs) : ∀ x ∈ xs, P x := by
  induction items generalizing xs with
  | nil =>
    cases hx
    simp
  | cons t items ih =>
    rw [List.mapM_cons] at hx
    obtain ⟨y, hy, hx⟩ := bind_eq_ok.1 hx
    obtain ⟨ys, hys, hx⟩ := bind_eq_ok.1 hx
    cases hx
    exact List.forall_mem_cons.2 ⟨h t y hy, ih hys⟩

/-- What holds of everything that is read holds of all items of a list that is read. -/
lemma forall_of_list {α : Type} {read : Decoder α} {P : α → Prop}
    (h : ∀ t x, read t = .ok x → P x) {t : Tree} {xs : List α} (hx : list read t = .ok xs) :
    ∀ x ∈ xs, P x := by
  cases t with
  | array items stop =>
    obtain ⟨ys, hys, hx⟩ := bind_eq_ok.1 hx
    obtain ⟨-, -, hx⟩ := bind_eq_ok.1 hx
    cases hx
    exact forall_of_mapM h hys
  | null | bool | number | string | object | keyless | broken => cases hx

end Tree

/-! ## Records -/

/-- A record is read back from an object if its fields are. -/
lemma Record.decodeWith_toTree {σ α : Type} {r : Record σ α} (surplus : Failure) {o : Object}
    {s : σ} {a : α} (h : r.takeMembers (membersToTree o) r.empty = .ok s)
    (hfinish : r.finish s = .ok a) : r.decodeWith surplus (Value.object o).toTree = .ok a := by
  rw [Value.toTree, decodeWith, h]
  exact hfinish

/-- A field that has been taken has been read, and was not there before. -/
lemma once_eq_ok {α : Type} {old new : Option α} {read : Decoder α} {t : Tree}
    (h : once old read t = .ok new) : ∃ a, read t = .ok a ∧ new = some a := by
  cases old with
  | some => cases h
  | none =>
    cases hr : read t with
    | error f =>
      rw [once, hr] at h
      cases h
    | ok a =>
      rw [once, hr] at h
      cases h
      exact ⟨a, rfl, rfl⟩

namespace Record

variable {σ α : Type} {r : Record σ α} {P : σ → Prop}

/-- A property of the fields that each member keeps is kept by all members.

**Proof sketch.** By induction over the members. Names of no field are skipped, and the others are
taken in, which keeps the property. -/
lemma forall_of_takeMembers (htake : ∀ k t s s', P s → r.take k t s = .ok s' → P s')
    {members : List (Except Fault String × Tree)} {s s' : σ} (hs : P s)
    (h : r.takeMembers members s = .ok s') : P s' := by
  induction members generalizing s with
  | nil =>
    cases h
    exact hs
  | cons m members ih =>
    obtain ⟨key, t⟩ := m
    cases key with
    | error f => cases h
    | ok k =>
      rw [takeMembers] at h
      split at h
      · obtain ⟨s₁, hs₁, h⟩ := bind_eq_ok.1 h
        exact ih (htake k t s s₁ hs hs₁) h
      · obtain ⟨-, -, h⟩ := bind_eq_ok.1 h
        exact ih hs h

/-- A property of the fields that each item keeps is kept by all items.

**Proof sketch.** By induction over the items, with the names of the fields that they stand for. -/
lemma forall_of_takeItems (htake : ∀ k t s s', P s → r.take k t s = .ok s' → P s')
    {surplus : Failure} {names : List String} {items : List Tree} {s s' : σ} (hs : P s)
    (h : r.takeItems surplus names items s = .ok s') : P s' := by
  induction items generalizing names s with
  | nil =>
    cases names with
    | nil | cons =>
      cases h
      exact hs
  | cons t items ih =>
    cases names with
    | nil => cases h
    | cons n names =>
      obtain ⟨s₁, hs₁, h⟩ := bind_eq_ok.1 h
      exact ih (htake n t s s₁ hs hs₁) h

/-- **What holds of the fields of a record at the beginning, and still holds whenever a field has
been taken, holds of those it is made of**, in either spelling. -/
theorem finish_of_decodeWith (hempty : P r.empty)
    (htake : ∀ k t s s', P s → r.take k t s = .ok s' → P s') {surplus : Failure} {t : Tree} {a : α}
    (h : r.decodeWith surplus t = .ok a) : ∃ s, P s ∧ r.finish s = .ok a := by
  cases t with
  | object members stop =>
    obtain ⟨s, hs, h⟩ := bind_eq_ok.1 h
    obtain ⟨-, -, h⟩ := bind_eq_ok.1 h
    exact ⟨s, forall_of_takeMembers htake hempty hs, h⟩
  | array items stop =>
    obtain ⟨s, hs, h⟩ := bind_eq_ok.1 h
    obtain ⟨-, -, h⟩ := bind_eq_ok.1 h
    exact ⟨s, forall_of_takeItems htake hempty hs, h⟩
  | null | bool | number | string | keyless | broken => cases h

end Record

/-! ## Tags -/

namespace Tree

/-- The members in front of a tag are kept as they are.

**Proof sketch.** By induction over the members in front: none of them is the tag, so each is kept
and put back in front of the rest. -/
lemma splitMembers_append {α : Type} {tagName : String} {readTag : Decoder α}
    {before : List (String × Value)} (h : ∀ m ∈ before, m.1 ≠ tagName ∧ m.2.Ordered)
    (rest : List (Except Fault String × Tree)) (tag : Option α) :
    splitMembers tagName readTag (membersToTree before ++ rest) tag =
      (splitMembers tagName readTag rest tag).map fun r => (r.1, membersToTree before ++ r.2) := by
  induction before with
  | nil =>
    cases hr : splitMembers tagName readTag rest tag with
    | error | ok =>
      rw [membersToTree, List.nil_append, hr]
      rfl
  | cons m before ih =>
    obtain ⟨hne, hordered⟩ := h m List.mem_cons_self
    rw [membersToTree, List.cons_append, splitMembers, if_neg hne, hordered.value_toTree,
      ih fun m' hm' => h m' (List.mem_cons_of_mem _ hm')]
    cases splitMembers tagName readTag rest tag with
    | error | ok => rfl

/-- A tagged object whose tag comes last is split into the tag and what is in front of it.

**Proof sketch.** The members in front are passed by, and then the tag is the only one that is
left. -/
lemma splitTag_toTree {α : Type} {tagName : String} {readTag : Decoder α} {a : α} {tag : Value}
    (htag : readTag tag.toTree = .ok a) {before : List (String × Value)}
    (h : ∀ m ∈ before, m.1 ≠ tagName ∧ m.2.Ordered) :
    splitTag tagName readTag (Value.object (before ++ [(tagName, tag)])).toTree =
      .ok (a, (Value.object before).toTree) := by
  have hsplit : membersToTree (before ++ [(tagName, tag)]) =
      membersToTree before ++ [(.ok tagName, tag.toTree)] := by
    simp [membersToTree_eq_map]
  have hlast : splitMembers tagName readTag [(.ok tagName, tag.toTree)] none =
      .ok (some a, []) := by
    rw [splitMembers, if_pos rfl, once, htag]
    rfl
  rw [Value.toTree, splitTag, hsplit, splitMembers_append h, hlast]
  simp only [Except.map, List.append_nil]
  rfl

end Tree

end ExtensionGraph.Json
