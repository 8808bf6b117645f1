import Mathlib.Data.List.Nodup
import Mathlib.Tactic.Common
import ExtensionGraph.Toml.Document

/-!
# Tables of TOML documents

A document builds its tables step by step: lines add members, headers open tables, and a dotted key
leads down through tables that may have to be made on the way. None of this ever gives a table a key
for the second time. So in a document that is read, each key of each table has one value.

## Main definitions

* `ExtensionGraph.Toml.Value.Distinct` — every table within a value gives each key once.
* `ExtensionGraph.Toml.Members.Distinct` — the same of a table.

## Main results

* `ExtensionGraph.Toml.Members.Distinct.descend` — a change somewhere below a table keeps it so.
* `ExtensionGraph.Toml.distinct_of_ofText?` — it holds of every document that is read.
-/

namespace ExtensionGraph.Toml

/-- Every table within a value gives each key once. -/
inductive Value.Distinct : Value → Prop
  | string (s : String) : Distinct (.string s)
  | integer (i : Int) : Distinct (.integer i)
  | float : Distinct .float
  | boolean (b : Bool) : Distinct (.boolean b)
  | time : Distinct .time
  | array {items : List Value} (h : ∀ v ∈ items, Distinct v) : Distinct (.array items)
  | table {origin : Origin} {members : List (String × Value)}
      (hkeys : (members.map Prod.fst).Nodup) (h : ∀ m ∈ members, Distinct m.2) :
      Distinct (.table origin members)
  | tables {entries : List (List (String × Value))}
      (hkeys : ∀ ms ∈ entries, (List.map Prod.fst ms).Nodup)
      (h : ∀ ms ∈ entries, ∀ m ∈ ms, Distinct m.2) : Distinct (.tables entries)

/-! ## Tables -/

namespace Members

variable {ms ms' : Members} {key : String} {v : Value}

/-- A table gives each key once, and so do all tables within it. -/
structure Distinct (ms : Members) : Prop where
  keys : (ms.map Prod.fst).Nodup
  values : ∀ m ∈ ms, m.2.Distinct

/-- An empty table has no key twice. -/
lemma Distinct.nil : Distinct [] := ⟨List.nodup_nil, by simp⟩

/-- A table of members with different keys. -/
lemma Distinct.table (h : ms.Distinct) (origin : Origin) : (Value.table origin ms).Distinct :=
  .table h.keys h.values

/-- The members of a table without equal keys. -/
lemma distinct_of_table {origin : Origin} (h : (Value.table origin ms).Distinct) :
    ms.Distinct := by
  cases h with
  | table hkeys hvalues => exact ⟨hkeys, hvalues⟩

/-- An array of tables keeps its keys apart if each table does. -/
lemma distinct_tables_iff {entries : List Members} :
    (Value.tables entries).Distinct ↔ ∀ ms ∈ entries, ms.Distinct := by
  constructor
  · intro h ms hms
    cases h with
    | tables hkeys hvalues => exact ⟨hkeys ms hms, hvalues ms hms⟩
  · exact fun h => .tables (fun ms hms => (h ms hms).keys) fun ms hms => (h ms hms).values

/-- What is found is a member. -/
lemma mem_of_find? (h : ms.find? key = some v) : (key, v) ∈ ms := by
  obtain ⟨before, after, rfl, -⟩ := List.lookup_eq_some_iff.1 h
  exact List.mem_append_right _ List.mem_cons_self

/-- What is found keeps its keys apart. -/
lemma Distinct.of_find? (h : ms.Distinct) (hv : ms.find? key = some v) : v.Distinct :=
  h.values _ (mem_of_find? hv)

/-- What is not found is not a key. -/
lemma key_not_mem_of_find? (h : ms.find? key = none) : key ∉ ms.map Prod.fst := by
  intro hmem
  obtain ⟨m, hm, hkey⟩ := List.mem_map.1 hmem
  have hne := List.lookup_eq_none_iff.1 h m hm
  simp [hkey] at hne

/-- A new key may be added to different ones. -/
lemma nodup_keys_concat {keys : List String} (h : keys.Nodup) (hnew : key ∉ keys) :
    (keys ++ [key]).Nodup := by
  rw [← List.concat_eq_append]
  exact h.concat hnew

/-- A new key goes behind the others. -/
lemma Distinct.concat (h : ms.Distinct) (hnew : ms.find? key = none) (hv : v.Distinct) :
    (ms ++ [(key, v)]).Distinct := by
  refine ⟨?_, ?_⟩
  · rw [List.map_append]
    exact nodup_keys_concat h.keys (key_not_mem_of_find? hnew)
  · intro m hm
    rcases List.mem_append.1 hm with hm | hm
    · exact h.values m hm
    · rw [List.mem_singleton.1 hm]
      exact hv

/-- Setting a member adds its key at most. -/
lemma keys_put (key : String) (v : Value) (ms : Members) :
    (ms.put key v).map Prod.fst =
      if key ∈ ms.map Prod.fst then ms.map Prod.fst else ms.map Prod.fst ++ [key] := by
  induction ms with
  | nil => rfl
  | cons m ms ih =>
    obtain ⟨k, w⟩ := m
    rw [put]
    by_cases hk : k = key
    · simp [hk]
    · rw [if_neg hk, List.map_cons, ih]
      by_cases hmem : key ∈ ms.map Prod.fst
      · simp [hmem]
      · simp [hmem, Ne.symm hk]

/-- A member after setting one was there before, or is the one that was set. -/
lemma mem_put {m : String × Value} (h : m ∈ ms.put key v) : m ∈ ms ∨ m.2 = v := by
  induction ms with
  | nil => exact .inr (congrArg Prod.snd (List.mem_singleton.1 h))
  | cons m' ms ih =>
    obtain ⟨k, w⟩ := m'
    rw [put] at h
    split at h
    · rcases List.mem_cons.1 h with rfl | h
      · exact .inr rfl
      · exact .inl (List.mem_cons_of_mem _ h)
    · rcases List.mem_cons.1 h with rfl | h
      · exact .inl List.mem_cons_self
      · exact (ih h).imp_left (List.mem_cons_of_mem _)

/-- Setting a member keeps the keys apart. -/
lemma Distinct.put (h : ms.Distinct) (hv : v.Distinct) (key : String) :
    (ms.put key v).Distinct := by
  refine ⟨?_, ?_⟩
  · rw [keys_put]
    split
    · exact h.keys
    · next hnew => exact nodup_keys_concat h.keys hnew
  · intro m hm
    rcases mem_put hm with hm | rfl
    · exact h.values m hm
    · exact hv

/-! ## Changes below a table -/

/-- A change that keeps the keys of a table apart. -/
def KeepsDistinct (change : Origin → Members → Option Members) : Prop :=
  ∀ here ms ms', ms.Distinct → change here ms = some ms' → ms'.Distinct

/-- **A change somewhere below a table keeps its keys apart**, and so does all that has to be made
on the way.

**Proof sketch.** Induction on the path. At each key the descent goes on in a new table, in the one
that is there, or in the last one of an array, and puts the result back under the same key. -/
theorem Distinct.descend {origin : Origin} {change : Origin → Members → Option Members}
    (hchange : KeepsDistinct change) {path : List String} {here : Origin} (h : ms.Distinct)
    (hd : descend origin change path here ms = some ms') : ms'.Distinct := by
  induction path generalizing here ms ms' with
  | nil => exact hchange here ms ms' h hd
  | cons key path ih =>
    rw [Members.descend] at hd
    split at hd
    · obtain ⟨inner, hinner, hd⟩ := Option.bind_eq_some_iff.1 hd
      cases hd
      exact h.put ((ih .nil hinner).table _) key
    · cases hd
    · next there inner _ hfind =>
      split at hd
      · cases hd
      · obtain ⟨inner', hinner, hd⟩ := Option.bind_eq_some_iff.1 hd
        cases hd
        exact h.put ((ih (distinct_of_table (h.of_find? hfind)) hinner).table _) key
    · next entries hfind =>
      have hentries := distinct_tables_iff.1 (h.of_find? hfind)
      split at hd
      · cases hd
      · next inner hlast =>
        obtain ⟨inner', hinner, hd⟩ := Option.bind_eq_some_iff.1 hd
        cases hd
        refine h.put (distinct_tables_iff.2 fun ms hms => ?_) key
        rcases List.mem_append.1 hms with hms | hms
        · exact hentries ms (List.dropLast_subset _ hms)
        · rw [List.mem_singleton.1 hms]
          exact ih (hentries inner (List.mem_of_getLast? hlast)) hinner
    · cases hd

/-- Adding a member keeps the keys apart. -/
lemma keepsDistinct_add (dotted : Bool) (key : String) (hv : v.Distinct) :
    KeepsDistinct (add dotted key v) := by
  intro here ms ms' h hadd
  unfold add at hadd
  split at hadd
  · cases hadd
  · split at hadd
    · cases hadd
    · next hnew =>
      cases hadd
      exact h.concat hnew hv

/-- Opening a table keeps the keys apart. -/
lemma keepsDistinct_openHere (key : String) : KeepsDistinct (openHere key) := by
  intro here ms ms' h hopen
  unfold openHere at hopen
  split at hopen
  · next hnew =>
    cases hopen
    exact h.concat hnew (Distinct.nil.table _)
  · next inner hfind =>
    cases hopen
    exact h.put ((distinct_of_table (h.of_find? hfind)).table _) key
  · cases hopen

/-- Opening an entry of an array keeps the keys apart.

**Proof sketch.** A new array has one empty table. One that is there gets another empty table, and
the tables in it keep their keys apart as before. -/
lemma keepsDistinct_openEntryHere (key : String) : KeepsDistinct (openEntryHere key) := by
  intro here ms ms' h hopen
  have hempty : ∀ ms ∈ [[]], Distinct ms := by
    intro ms hms
    rw [List.mem_singleton.1 hms]
    exact .nil
  unfold openEntryHere at hopen
  split at hopen
  · next hnew =>
    cases hopen
    exact h.concat hnew (distinct_tables_iff.2 hempty)
  · next entries hfind =>
    cases hopen
    refine h.put (distinct_tables_iff.2 fun ms hms => ?_) key
    rcases List.mem_append.1 hms with hms | hms
    · exact distinct_tables_iff.1 (h.of_find? hfind) ms hms
    · exact hempty ms hms
  · cases hopen

/-- Assigning to a path keeps the keys apart. -/
lemma keepsDistinct_assign (path : List String) (key : String) (hv : v.Distinct) :
    KeepsDistinct fun _ ms => ms.assign path key v :=
  fun _ _ _ h hassign => h.descend (keepsDistinct_add _ key hv) hassign

end Members

/-! ## Values -/

variable {cs rest : List Char} {v : Value}

/-- Whatever is read by a reader gives each key of its tables once. -/
def ReadsDistinct (read : List Char → Option (Value × List Char)) : Prop :=
  ∀ cs v rest, read cs = some (v, rest) → v.Distinct

/-- A number in range has no keys. -/
lemma distinct_of_int64? {i : Int} (h : int64? i = some v) : v.Distinct := by
  unfold int64? at h
  split at h
  · cases h
    exact .integer i
  · cases h

/-- A number to another base has no keys. -/
lemma readsDistinct_based? (base : Nat) : ReadsDistinct (based? base) := by
  intro cs v rest h
  obtain ⟨⟨ds, cs'⟩, -, h⟩ := Option.bind_eq_some_iff.1 h
  obtain ⟨w, hw, h⟩ := Option.map_eq_some_iff.1 h
  cases h
  exact distinct_of_int64? hw

/-- An integer has no keys. -/
lemma readsDistinct_integer? : ReadsDistinct integer? := by
  intro cs v rest h
  unfold integer? at h
  split at h
  · exact readsDistinct_based? 16 _ v rest h
  · exact readsDistinct_based? 8 _ v rest h
  · exact readsDistinct_based? 2 _ v rest h
  · obtain ⟨⟨⟨negative, ds⟩, cs'⟩, -, h⟩ := Option.bind_eq_some_iff.1 h
    obtain ⟨w, hw, h⟩ := Option.map_eq_some_iff.1 h
    cases h
    exact distinct_of_int64? hw

/-- A number with a fraction or an exponent has no keys. -/
lemma readsDistinct_digitFloat? : ReadsDistinct digitFloat? := by
  intro cs v rest h
  obtain ⟨⟨⟨negative, whole⟩, cs₁⟩, -, h⟩ := Option.bind_eq_some_iff.1 h
  -- Wherever the fraction and the exponent are found, what is made of them is a float.
  have hend {x : Option (List Char × Int × List Char)}
      (h : (x.bind fun y =>
        if !negative && overflows (whole ++ y.1) (y.2.1 - y.1.length) then none
        else some (Value.float, y.2.2)) = some (v, rest)) : v.Distinct := by
    obtain ⟨y, -, h⟩ := Option.bind_eq_some_iff.1 h
    split at h
    · cases h
    · cases h
      exact .float
  dsimp only at h
  split at h
  · exact hend h
  · obtain ⟨⟨f, cs₂⟩, -, h⟩ := Option.bind_eq_some_iff.1 h
    dsimp only at h
    split at h
    · exact hend h
    · exact hend h
    · exact hend h

/-- A float has no keys. -/
lemma readsDistinct_float? : ReadsDistinct float? := by
  intro cs v rest h
  rcases Option.or_eq_some_iff.1 h with h | ⟨-, h⟩
  · exact readsDistinct_digitFloat? cs v rest h
  · unfold namedFloat? at h
    split at h
    · cases h
      exact .float
    · cases h
      exact .float
    · cases h

/-- What is neither an array nor a table has no keys.

**Proof sketch.** Case by case, what is read is a string, a truth value, a time or a number. -/
lemma readsDistinct_scalar? : ReadsDistinct scalar? := by
  intro cs v rest h
  unfold scalar? at h
  split at h
  · obtain ⟨⟨s, rest'⟩, -, h⟩ := Option.map_eq_some_iff.1 h
    cases h
    exact .string s
  · obtain ⟨⟨s, rest'⟩, -, h⟩ := Option.map_eq_some_iff.1 h
    cases h
    exact .string s
  · cases h
    exact .boolean true
  · cases h
    exact .boolean false
  · rcases Option.or_eq_some_iff.1 h with h | ⟨-, h⟩
    · rcases Option.or_eq_some_iff.1 h with h | ⟨-, h⟩
      · obtain ⟨rest', -, h⟩ := Option.map_eq_some_iff.1 h
        cases h
        exact .time
      · exact readsDistinct_float? _ v rest h
    · exact readsDistinct_integer? _ v rest h

/-- The items of an array keep their keys apart.

**Proof sketch.** By induction over the fuel, item by item. -/
lemma distinct_of_items? {read : List Char → Option (Value × List Char)}
    (hread : ReadsDistinct read) {fuel : Nat} {vs : List Value}
    (h : items? read fuel cs = some (vs, rest)) : ∀ v ∈ vs, v.Distinct := by
  induction fuel generalizing cs vs rest with
  | zero => cases h
  | succ fuel ih =>
    rw [items?] at h
    split at h
    · cases h
      simp
    · obtain ⟨⟨v, cs'⟩, hv, h⟩ := Option.bind_eq_some_iff.1 h
      have hdistinct := hread _ v cs' hv
      dsimp only at h
      split at h
      · obtain ⟨⟨vs', rest'⟩, hvs, h⟩ := Option.map_eq_some_iff.1 h
        cases h
        exact List.forall_mem_cons.2 ⟨hdistinct, ih hvs⟩
      · cases h
        simpa using hdistinct
      · cases h

/-- The members of an inline table keep their keys apart.

**Proof sketch.** By induction over the fuel. A member is put under a key that is not taken, and its
value keeps its keys apart. -/
lemma distinct_of_members? {read : List Char → Option (Value × List Char)}
    (hread : ReadsDistinct read) {fuel : Nat} {ms ms' : Members} (hms : ms.Distinct)
    (h : members? read fuel ms cs = some (ms', rest)) : ms'.Distinct := by
  induction fuel generalizing cs ms rest with
  | zero => cases h
  | succ fuel ih =>
    rw [members?] at h
    obtain ⟨⟨⟨path, key⟩, cs₁⟩, -, h⟩ := Option.bind_eq_some_iff.1 h
    obtain ⟨cs₂, -, h⟩ := Option.bind_eq_some_iff.1 h
    obtain ⟨⟨v, cs₃⟩, hv, h⟩ := Option.bind_eq_some_iff.1 h
    obtain ⟨ms₁, hassign, h⟩ := Option.bind_eq_some_iff.1 h
    have hms₁ := Members.keepsDistinct_assign path key (hread _ v cs₃ hv) .header ms ms₁ hms hassign
    split at h
    · exact ih hms₁ h
    · cases h
      exact hms₁
    · cases h

/-- Values that are read give each key of their tables once.

**Proof sketch.** By induction over the depth. The items of an array and the members of a table are
read one level deeper. -/
theorem readsDistinct_value? (depth : Nat) : ReadsDistinct (value? depth) := by
  induction depth with
  | zero => exact readsDistinct_scalar?
  | succ depth ih =>
    intro cs v rest h
    unfold value? at h
    split at h
    · obtain ⟨⟨vs, rest'⟩, hvs, h⟩ := Option.map_eq_some_iff.1 h
      cases h
      exact .array (distinct_of_items? ih hvs)
    · split at h
      · cases h
        exact Members.Distinct.nil.table _
      · obtain ⟨⟨ms, rest'⟩, hms, h⟩ := Option.map_eq_some_iff.1 h
        cases h
        exact (distinct_of_members? ih .nil hms).table _
    · exact readsDistinct_scalar? _ v rest h

/-! ## Documents -/

/-- A header keeps the keys of a document apart. -/
lemma distinct_of_header? {double : Bool} {d d' : Draft} (hd : d.members.Distinct)
    (h : header? double d cs = some (d', rest)) : d'.members.Distinct := by
  obtain ⟨⟨⟨path, key⟩, cs₁⟩, -, h⟩ := Option.bind_eq_some_iff.1 h
  obtain ⟨cs₂, -, h⟩ := Option.bind_eq_some_iff.1 h
  cases double with
  | true =>
    obtain ⟨cs₃, -, h⟩ := Option.bind_eq_some_iff.1 h
    obtain ⟨cs₄, -, h⟩ := Option.bind_eq_some_iff.1 h
    obtain ⟨ms, hopen, h⟩ := Option.bind_eq_some_iff.1 h
    cases h
    exact hd.descend (Members.keepsDistinct_openEntryHere key) hopen
  | false =>
    obtain ⟨cs₃, -, h⟩ := Option.bind_eq_some_iff.1 h
    obtain ⟨ms, hopen, h⟩ := Option.bind_eq_some_iff.1 h
    cases h
    exact hd.descend (Members.keepsDistinct_openHere key) hopen

/-- An assignment keeps the keys of a document apart. -/
lemma distinct_of_assignment? {d d' : Draft} (hd : d.members.Distinct)
    (h : assignment? d cs = some (d', rest)) : d'.members.Distinct := by
  obtain ⟨⟨⟨path, key⟩, cs₁⟩, -, h⟩ := Option.bind_eq_some_iff.1 h
  obtain ⟨cs₂, -, h⟩ := Option.bind_eq_some_iff.1 h
  obtain ⟨⟨v, cs₃⟩, hv, h⟩ := Option.bind_eq_some_iff.1 h
  obtain ⟨cs₄, -, h⟩ := Option.bind_eq_some_iff.1 h
  obtain ⟨ms, hassign, h⟩ := Option.bind_eq_some_iff.1 h
  cases h
  exact hd.descend
    (Members.keepsDistinct_assign path key (readsDistinct_value? maxNesting _ v cs₃ hv)) hassign

/-- No line gives a table a key for the second time.

**Proof sketch.** A line opens a table, assigns a value or is empty. The first two keep the keys
apart, and the last one changes nothing. -/
lemma distinct_of_line? {d d' : Draft} (hd : d.members.Distinct)
    (h : line? d cs = some (d', rest)) : d'.members.Distinct := by
  have hsame {cs : List Char} (h : (lineRest? cs).map (d, ·) = some (d', rest)) :
      d'.members.Distinct := by
    obtain ⟨rest', -, h⟩ := Option.map_eq_some_iff.1 h
    cases h
    exact hd
  unfold line? at h
  split at h
  · exact distinct_of_header? hd h
  · exact distinct_of_header? hd h
  · exact hsame h
  · exact hsame h
  · exact hsame h
  · exact distinct_of_assignment? hd h

/-- The lines of a document keep its keys apart. -/
lemma distinct_of_lines? {fuel : Nat} {d d' : Draft} (hd : d.members.Distinct)
    (h : lines? fuel d cs = some d') : d'.members.Distinct := by
  induction fuel generalizing d cs with
  | zero => cases h
  | succ fuel ih =>
    rw [lines?] at h
    split at h
    · cases h
      exact hd
    · obtain ⟨⟨d₁, cs₁⟩, hline, h⟩ := Option.bind_eq_some_iff.1 h
      exact ih (distinct_of_line? hd hline) h

/-- **In a document that is read, each key of each table has one value.** -/
theorem distinct_of_ofText? {text : String} {ms : Members} (h : ofText? text = some ms) :
    ms.Distinct := by
  obtain ⟨d, hd, rfl⟩ := Option.map_eq_some_iff.1 h
  exact distinct_of_lines? .nil hd

end ExtensionGraph.Toml
