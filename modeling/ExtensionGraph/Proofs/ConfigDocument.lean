import Mathlib.Data.List.Basic
import ExtensionGraph.Config
import ExtensionGraph.Proofs.TomlTables

/-!
# The settings of a document

A document is read member by member, in the order in which its members happen to stand, and every
member that names a setting changes the settings. No two settings get in each other's way, and no
key is given twice. So the order does not matter: a document is read if everything that it gives for
a setting is of the right kind, and each setting then has what is given for it, or else what it had
before. It makes no difference whether a section is given in full, in part, or not at all.

## Main definitions

* `ExtensionGraph.Toml.Value.given?` — what a section gives for its settings.
* `ExtensionGraph.Config.setGiven` — the settings changed in the order of the fields.
* `ExtensionGraph.Config.Puts` — a setting that is put into a place of its own.
* `ExtensionGraph.Config.Decodes` — everything that a document gives is of the right kind.
* `ExtensionGraph.Config.overlay` — the settings with what a document gives.

## Main results

* `ExtensionGraph.Config.setMembers_eq_setGiven`, `ExtensionGraph.Config.setItems_eq_setGiven` — a
  table and an array are read in the order of the fields.
* `ExtensionGraph.Config.puts_setSection` — a section of two settings is itself a setting.
* `ExtensionGraph.Config.setMembers_fields_eq_some_iff` — which documents are read, and what as.
-/

namespace ExtensionGraph

namespace Toml.Value

/-- The text of a string. -/
def asString? : Value → Option String
  | .string s => some s
  | _ => none

/-- The value of a boolean. -/
def asBool? : Value → Option Bool
  | .boolean b => some b
  | _ => none

/-- The value of an integer that is not negative. -/
def asNat? : Value → Option Nat
  | .integer i => if 0 ≤ i then some i.toNat else none
  | _ => none

/-- What a section gives for its settings: a table by their names, an array by their places. A point
in time is a section that gives nothing. -/
def given? (names : List String) : Value → Option (String → Option Value)
  | .table _ ms => some fun name => ms.lookup name
  | .array items => some fun name => items[names.idxOf name]?
  | .tables entries => some fun name => entries[names.idxOf name]?.map (.table .header)
  | .time => some fun _ => none
  | _ => none

/-- What a section, if there is one, gives for a setting. -/
def within (names : List String) (v : Option Value) (name : String) : Option Value :=
  (v.bind fun v => v.given? names).bind fun given => given name

end Toml.Value

namespace Config

open Toml (Value Members)

variable {c c' : Config} {fields : List (String × Setter)} {given given' : String → Option Value}

/-! ## In the order of the fields -/

/-- Changes a setting if something is given for it. -/
def setOne (v : Option Value) (set : Setter) (c : Config) : Option Config :=
  match v with
  | some v => set v c
  | none => some c

/-- Changes the settings by what is given for them, in the order of the fields. -/
def setGiven (given : String → Option Value) (fields : List (String × Setter)) (c : Config) :
    Option Config :=
  fields.foldlM (fun c f => setOne (given f.1) f.2 c) c

/-- The first field is set first, then the others. -/
lemma setGiven_cons (f : String × Setter) (fields : List (String × Setter)) (c : Config) :
    setGiven given (f :: fields) c = (setOne (given f.1) f.2 c).bind (setGiven given fields) := rfl

/-- Only what is given for the fields themselves matters. -/
lemma setGiven_congr (h : ∀ f ∈ fields, given f.1 = given' f.1) (c : Config) :
    setGiven given fields c = setGiven given' fields c := by
  induction fields generalizing c with
  | nil => rfl
  | cons f fields ih =>
    rw [setGiven_cons, setGiven_cons, h f List.mem_cons_self]
    exact congrArg _ (funext (ih fun f' hf' => h f' (List.mem_cons_of_mem _ hf')))

/-- If nothing is given for any field, the settings stay as they are. -/
lemma setGiven_eq_self (h : ∀ f ∈ fields, given f.1 = none) (c : Config) :
    setGiven given fields c = some c := by
  induction fields with
  | nil => rfl
  | cons f fields ih =>
    rw [setGiven_cons, h f List.mem_cons_self]
    exact ih fun f' hf' => h f' (List.mem_cons_of_mem _ hf')

/-! ## Settings that do not get in each other's way -/

/-- It does not matter which of two settings is changed first. -/
def Independent (set set' : Setter) : Prop :=
  ∀ v v' : Value, v.Distinct → v'.Distinct → ∀ c,
    (set v c).bind (set' v') = (set' v' c).bind (set v)

/-- The setting of a name, if there is one of this name, is changed. -/
def setNamed (fields : List (String × Setter)) (name : String) (v : Value) (c : Config) :
    Option Config :=
  match fields.lookup name with
  | some set => set v c
  | none => some c

/-- A setting that is independent of all fields may be changed before or after the one that is
named. -/
lemma setNamed_comm {set : Setter} (h : ∀ f ∈ fields, Independent set f.2) {g : Option Value}
    (hg : ∀ w ∈ g, w.Distinct) {v : Value} (hv : v.Distinct) (name : String) (c : Config) :
    (setOne g set c).bind (setNamed fields name v) =
      (setNamed fields name v c).bind (setOne g set) := by
  unfold setNamed
  cases hf : fields.lookup name with
  | none => exact Option.bind_fun_some _
  | some set' =>
    obtain ⟨before, after, rfl, -⟩ := List.lookup_eq_some_iff.1 hf
    cases g with
    | none => exact (Option.bind_fun_some _).symm
    | some w =>
      exact h (name, set') (List.mem_append_right _ List.mem_cons_self) w v (hg w rfl) hv c

/-- What is given for one more name can be set before everything else.

**Proof sketch.** By induction on the fields. At the field of this name nothing else is given, so
that it is set at once, and it does not occur again. Past any other field the new value can be moved
forward, since the two settings are independent. -/
lemma setGiven_insert (hnames : (fields.map Prod.fst).Nodup)
    (hind : fields.Pairwise fun f f' => Independent f.2 f'.2)
    (hgiven : ∀ name, ∀ w ∈ given name, w.Distinct) {name : String} (hnew : given name = none)
    {v : Value} (hv : v.Distinct) (c : Config) :
    setGiven (fun n => if n = name then some v else given n) fields c =
      (setNamed fields name v c).bind (setGiven given fields) := by
  induction fields generalizing c with
  | nil => rfl
  | cons f fields ih =>
    obtain ⟨n, set⟩ := f
    obtain ⟨hn, hnames⟩ := List.nodup_cons.1 hnames
    obtain ⟨hfirst, hind⟩ := List.pairwise_cons.1 hind
    rw [setGiven_cons]
    by_cases h : n = name
    · subst h
      -- The name does not come again, so that nothing more is given for the other fields.
      have hrest (c : Config) : setGiven (fun m => if m = n then some v else given m) fields c =
          setGiven given fields c := by
        refine setGiven_congr (fun f' hf' => if_neg fun heq => hn ?_) c
        have hmem : f'.1 ∈ fields.map Prod.fst := List.mem_map_of_mem hf'
        rwa [heq] at hmem
      have hset : setNamed ((n, set) :: fields) n v c = set v c := by
        rw [setNamed, List.lookup_cons_self]
      have hskip : setGiven given ((n, set) :: fields) = setGiven given fields := by
        funext c
        rw [setGiven_cons, hnew]
        rfl
      rw [hset, hskip, if_pos rfl]
      exact congrArg _ (funext hrest)
    · have hset (c : Config) :
          setNamed ((n, set) :: fields) name v c = setNamed fields name v c := by
        rw [setNamed, List.lookup_cons, beq_eq_false_iff_ne.2 (Ne.symm h)]
        rfl
      rw [hset, if_neg h]
      -- This field is another one, and the new value is moved past it.
      calc (setOne (given n) set c).bind
              (setGiven (fun m => if m = name then some v else given m) fields)
          = (setOne (given n) set c).bind
              (fun c => (setNamed fields name v c).bind (setGiven given fields)) :=
            congrArg _ (funext (ih hnames hind))
        _ = ((setOne (given n) set c).bind (setNamed fields name v)).bind
              (setGiven given fields) := (Option.bind_assoc _ _ _).symm
        _ = ((setNamed fields name v c).bind (setOne (given n) set)).bind
              (setGiven given fields) := by
            rw [setNamed_comm hfirst (hgiven n) hv]
        _ = (setNamed fields name v c).bind (setGiven given ((n, set) :: fields)) :=
            Option.bind_assoc _ _ _

/-- **A table is read in the order of the fields**, in whatever order its members stand.

**Proof sketch.** By induction on the members. The first one is given for a name for which the
others give nothing; so setting it first and then the rest is setting all that is given, in the
order of the fields. -/
theorem setMembers_eq_setGiven (hnames : (fields.map Prod.fst).Nodup)
    (hind : fields.Pairwise fun f f' => Independent f.2 f'.2) {ms : Members} (h : ms.Distinct)
    (c : Config) : setMembers fields ms c = setGiven (fun name => ms.lookup name) fields c := by
  induction ms generalizing c with
  | nil => exact (setGiven_eq_self (fun _ _ => rfl) c).symm
  | cons m ms ih =>
    obtain ⟨k, v⟩ := m
    obtain ⟨hk, hkeys⟩ := List.nodup_cons.1 h.keys
    obtain ⟨hv, hvalues⟩ := List.forall_mem_cons.1 h.values
    have hrest : Members.Distinct ms := ⟨hkeys, hvalues⟩
    have hnew : ms.lookup k = none := by
      refine List.lookup_eq_none_iff.2 fun m' hm' => bne_iff_ne.2 fun heq => hk ?_
      have hmem : m'.1 ∈ ms.map Prod.fst := List.mem_map_of_mem hm'
      rwa [← heq] at hmem
    have hgiven : ∀ name, ∀ w ∈ ms.lookup name, w.Distinct := fun name w hw => hrest.of_find? hw
    have hlookup : (fun name => List.lookup name ((k, v) :: ms)) =
        fun name => if name = k then some v else ms.lookup name := by
      funext name
      rw [List.lookup_cons]
      by_cases hname : name = k
      · simp [hname]
      · simp [hname, beq_eq_false_iff_ne.2 hname]
    rw [hlookup, setGiven_insert hnames hind hgiven hnew hv]
    exact congrArg _ (funext (ih hrest))

/-- **An array is read in the order of the fields.**

**Proof sketch.** By induction over the fields. The first item goes to the first field, and for the
other fields the places in the array move by one. -/
theorem setItems_eq_setGiven (hnames : (fields.map Prod.fst).Nodup) (items : List Value)
    (c : Config) :
    setItems fields items c =
      setGiven (fun name => items[(fields.map Prod.fst).idxOf name]?) fields c := by
  induction fields generalizing items c with
  | nil => rfl
  | cons f fields ih =>
    obtain ⟨hf, hnames⟩ := List.nodup_cons.1 hnames
    cases items with
    | nil => exact (setGiven_eq_self (fun _ _ => rfl) c).symm
    | cons v items =>
      rw [setGiven_cons, List.map_cons, List.idxOf_cons_self]
      refine congrArg ((f.2 v c).bind ·) (funext fun c => (ih hnames items c).trans ?_)
      refine setGiven_congr (fun f' hf' => ?_) c
      have hne : f.1 ≠ f'.1 := fun heq => hf (heq ▸ List.mem_map_of_mem (f := Prod.fst) hf')
      rw [List.idxOf_cons_ne _ hne, List.getElem?_cons_succ]

/-- A section is read in the order of its fields, however it is spelled.

**Proof sketch.** By the spelling of the section: values that are no section are refused by both, an
array is read by place, and for the members of a table the order does not matter because the fields
are independent. -/
lemma setSection_eq (hnames : (fields.map Prod.fst).Nodup)
    (hind : fields.Pairwise fun f f' => Independent f.2 f'.2) {v : Value} (h : v.Distinct)
    (c : Config) :
    setSection fields v c =
      (v.given? (fields.map Prod.fst)).bind fun given => setGiven given fields c := by
  cases v with
  | string | integer | float | boolean => rfl
  | time =>
    have hnone : setGiven (fun _ => none) fields c = some c := setGiven_eq_self (fun _ _ => rfl) c
    exact hnone.symm
  | array items => exact setItems_eq_setGiven hnames items c
  | table origin ms => exact setMembers_eq_setGiven hnames hind (Members.distinct_of_table h) c
  | tables entries =>
    refine (setItems_eq_setGiven hnames _ c).trans ?_
    simp only [List.getElem?_map]
    rfl

/-! ## One setting -/

section OneSetting

variable {α β : Type} {read : Value → Option α} {read' : Value → Option β}
  {put : Config → α → Config} {put' : Config → β → Config} {set set' : Setter} {v : Option Value}

/-- A value of the right kind is put into the settings, and any other one is refused. -/
def Puts (set : Setter) (read : Value → Option α) (put : Config → α → Config) : Prop :=
  ∀ v : Value, v.Distinct → ∀ c, set v c = (read v).map (put c)

/-- What is given, if anything is given, is of the right kind. -/
def Reads (read : Value → Option α) (v : Option Value) : Prop := ∀ w ∈ v, (read w).isSome

/-- Reads what is given, if anything is given. -/
def readGiven (read : Value → Option α) : Option Value → Option (Option α)
  | none => some none
  | some v => (read v).map some

/-- Puts something into the settings if there is something to put. -/
def putGiven (put : Config → α → Config) (c : Config) (a : Option α) : Config := a.elim c (put c)

/-- Reading succeeds if whatever is given is of the right kind, and gives what is read. -/
lemma readGiven_eq_some_iff {a : Option α} :
    readGiven read v = some a ↔ Reads read v ∧ a = v.bind read := by
  cases v with
  | none =>
    constructor
    · rintro ⟨⟩
      exact ⟨nofun, rfl⟩
    · rintro ⟨-, rfl⟩
      rfl
  | some w =>
    have hreads : Reads read (some w) ↔ (read w).isSome := by simp [Reads, Option.mem_def]
    rw [hreads]
    show (read w).map some = some a ↔ _ ∧ a = read w
    cases read w with
    | none => simp
    | some b => simp [eq_comm]

/-- A setting has what is given for it, or else what it had before. -/
lemma Puts.setOne (h : Puts set read put) (hv : ∀ w ∈ v, w.Distinct) :
    setOne v set c = (readGiven read v).map (putGiven put c) := by
  cases v with
  | none => rfl
  | some w =>
    show set w c = ((read w).map some).map (putGiven put c)
    rw [h w (hv w rfl), Option.map_map]
    rfl

/-- Settings that are put into different places do not get in each other's way. -/
lemma Puts.independent (h : Puts set read put) (h' : Puts set' read' put')
    (hcomm : ∀ c a b, put' (put c a) b = put (put' c b) a) : Independent set set' := by
  intro v v' hv hv' c
  rw [h v hv, h' v' hv']
  cases ha : read v with
  | none =>
    cases hb : read' v' with
    | none => rfl
    | some b => simp [h v hv, ha]
  | some a =>
    cases hb : read' v' with
    | none => simp [h' v' hv', hb]
    | some b => simp [h v hv, h' v' hv', ha, hb, hcomm]

end OneSetting

/-- The address of the app is a text. -/
lemma puts_setUri : Puts setUri Value.asString? fun c s => { c with uri := s } := by
  intro v _ c
  cases v with
  | string | integer | float | boolean | time | array | table | tables => rfl

/-- The directory of the app is a text. -/
lemma puts_setBaseDir : Puts setBaseDir Value.asString? fun c s => { c with baseDir := s } := by
  intro v _ c
  cases v with
  | string | integer | float | boolean | time | array | table | tables => rfl

/-- The level of the log is a text when it is read; what it means is found out later. -/
lemma puts_setLogLevel : Puts setLogLevel Value.asString? fun c s => { c with logLevel := s } := by
  intro v _ c
  cases v with
  | string | integer | float | boolean | time | array | table | tables => rfl

/-- Whether the log is written as JSON is a truth value. -/
lemma puts_setLogJson : Puts setLogJson Value.asBool? fun c b => { c with logJson := b } := by
  intro v _ c
  cases v with
  | string | integer | float | boolean | time | array | table | tables => rfl

/-- The bound on the time is a number that is not negative. -/
lemma puts_setCloseTimeout :
    Puts setCloseTimeout Value.asNat? fun c n => { c with closeTimeoutMs := some n } := by
  intro v _ c
  cases v with
  | integer i =>
    show (if 0 ≤ i then some _ else none) = Option.map _ (if 0 ≤ i then some i.toNat else none)
    by_cases hi : 0 ≤ i
    · rw [if_pos hi, if_pos hi]
      rfl
    · rw [if_neg hi, if_neg hi]
      rfl
  | string | float | boolean | time | array | table | tables => rfl

/-! ## Sections -/

section Sections

variable {α β : Type} {read₁ : Value → Option α} {read₂ : Value → Option β}
  {put₁ : Config → α → Config} {put₂ : Config → β → Config} {set₁ set₂ : Setter} {n₁ n₂ : String}

/-- Reads a section of two settings. -/
def readSection (n₁ n₂ : String) (read₁ : Value → Option α) (read₂ : Value → Option β) (v : Value) :
    Option (Option α × Option β) :=
  (v.given? [n₁, n₂]).bind fun given =>
    (readGiven read₁ (given n₁)).bind fun a => (readGiven read₂ (given n₂)).map fun b => (a, b)

/-- Puts what a section of two settings gives into the settings. -/
def putSection (put₁ : Config → α → Config) (put₂ : Config → β → Config) (c : Config)
    (ab : Option α × Option β) : Config :=
  putGiven put₂ (putGiven put₁ c ab.1) ab.2

/-- A section is read if it can be taken apart and both of its settings are of the right kind. -/
lemma readSection_eq_some_iff {v : Value} {ab : Option α × Option β} :
    readSection n₁ n₂ read₁ read₂ v = some ab ↔
      ∃ given, v.given? [n₁, n₂] = some given ∧ Reads read₁ (given n₁) ∧ Reads read₂ (given n₂) ∧
        ab = ((given n₁).bind read₁, (given n₂).bind read₂) := by
  simp only [readSection, Option.bind_eq_some_iff, Option.map_eq_some_iff, readGiven_eq_some_iff]
  refine exists_congr fun given => and_congr_right fun _ => ?_
  constructor
  · rintro ⟨_, ⟨h₁, rfl⟩, _, ⟨h₂, rfl⟩, rfl⟩
    exact ⟨h₁, h₂, rfl⟩
  · rintro ⟨h₁, h₂, rfl⟩
    exact ⟨_, ⟨h₁, rfl⟩, _, ⟨h₂, rfl⟩, rfl⟩

/-- What stands within a value that gives each key once does so too.

**Proof sketch.** By the spelling of the value. Whatever is given by it is one of its items or the
value of one of its members. -/
lemma distinct_of_given? {names : List String} {v : Value} (h : v.Distinct)
    (hv : v.given? names = some given) : ∀ name, ∀ w ∈ given name, w.Distinct := by
  intro name w hw
  cases v with
  | string | integer | float | boolean => cases hv
  | time =>
    cases hv
    cases hw
  | array items =>
    cases hv
    cases h with
    | array h => exact h w (List.mem_of_getElem? hw)
  | table origin ms =>
    cases hv
    exact (Members.distinct_of_table h).of_find? hw
  | tables entries =>
    cases hv
    obtain ⟨ms, hms, rfl⟩ := Option.map_eq_some_iff.1 hw
    exact (Members.distinct_tables_iff.1 h ms (List.mem_of_getElem? hms)).table _

/-- **A section of two settings is itself a setting.**

**Proof sketch.** A section of a shape that cannot be taken apart is refused by both. Otherwise its
settings are put in one after the other, in the order of the fields; they are independent, since
what they put in does not depend on the order. If the first is of the wrong kind the second does not
matter. -/
theorem puts_setSection (hn : n₁ ≠ n₂) (h₁ : Puts set₁ read₁ put₁) (h₂ : Puts set₂ read₂ put₂)
    (hcomm : ∀ c a b, put₂ (put₁ c a) b = put₁ (put₂ c b) a) :
    Puts (setSection [(n₁, set₁), (n₂, set₂)]) (readSection n₁ n₂ read₁ read₂)
      (putSection put₁ put₂) := by
  intro v hv c
  have hnames : ([(n₁, set₁), (n₂, set₂)].map Prod.fst).Nodup := by simpa using hn
  have hind : [(n₁, set₁), (n₂, set₂)].Pairwise fun f f' => Independent f.2 f'.2 := by
    simpa using h₁.independent h₂ hcomm
  rw [setSection_eq hnames hind hv]
  unfold readSection
  cases hgiven : v.given? ([(n₁, set₁), (n₂, set₂)].map Prod.fst) with
  | none =>
    rw [show v.given? [n₁, n₂] = none from hgiven]
    rfl
  | some given =>
    rw [show v.given? [n₁, n₂] = some given from hgiven]
    have hdistinct := distinct_of_given? hv hgiven
    simp only [Option.bind_some]
    rw [setGiven_cons, h₁.setOne (hdistinct n₁)]
    cases readGiven read₁ (given n₁) with
    | none => rfl
    | some a =>
      have hsecond : setGiven given [(n₂, set₂)] (putGiven put₁ c a) =
          (readGiven read₂ (given n₂)).map (putGiven put₂ (putGiven put₁ c a)) := by
        rw [setGiven_cons, h₂.setOne (hdistinct n₂)]
        exact Option.bind_fun_some _
      refine Eq.trans hsecond ?_
      cases readGiven read₂ (given n₂) with
      | none => rfl
      | some b => rfl

/-- What a section of two settings gives, if there is one, is put into the settings one by one. -/
lemma putGiven_putSection {v : Option Value} (h : Reads (readSection n₁ n₂ read₁ read₂) v) :
    putGiven (putSection put₁ put₂) c (v.bind (readSection n₁ n₂ read₁ read₂)) =
      putGiven put₂ (putGiven put₁ c ((Value.within [n₁, n₂] v n₁).bind read₁))
        ((Value.within [n₁, n₂] v n₂).bind read₂) := by
  cases v with
  | none => rfl
  | some v =>
    obtain ⟨ab, hab⟩ := Option.isSome_iff_exists.1 (h v rfl)
    obtain ⟨given, hgiven, -, -, rfl⟩ := readSection_eq_some_iff.1 hab
    simp only [Value.within, Option.bind_some, hab, hgiven]
    rfl

end Sections

/-! ## Documents -/

/-- The names of the settings of an app. -/
abbrev appNames : List String := ["uri", "base_dir"]

/-- The names of the settings of the log. -/
abbrev logNames : List String := ["level", "json"]

/-- **Everything that a document gives for a setting is of the right kind.** -/
structure Decodes (ms : Members) : Prop where
  app : ∀ v ∈ ms.lookup "app", ∃ given, v.given? appNames = some given ∧
    Reads Value.asString? (given "uri") ∧ Reads Value.asString? (given "base_dir")
  log : ∀ v ∈ ms.lookup "log", ∃ given, v.given? logNames = some given ∧
    Reads Value.asString? (given "level") ∧ Reads Value.asBool? (given "json")
  closeTimeoutMs : Reads Value.asNat? (ms.lookup "close_timeout_ms")

/-- The app that a document gives. -/
def uriOf (ms : Members) : Option String :=
  (Value.within appNames (ms.lookup "app") "uri").bind Value.asString?

/-- The directory that a document gives. -/
def baseDirOf (ms : Members) : Option String :=
  (Value.within appNames (ms.lookup "app") "base_dir").bind Value.asString?

/-- The level of the log that a document gives. -/
def logLevelOf (ms : Members) : Option String :=
  (Value.within logNames (ms.lookup "log") "level").bind Value.asString?

/-- Whether the log is written in JSON, as far as a document says. -/
def logJsonOf (ms : Members) : Option Bool :=
  (Value.within logNames (ms.lookup "log") "json").bind Value.asBool?

/-- How long to wait for a graph to close, as far as a document says. -/
def closeTimeoutOf (ms : Members) : Option Nat :=
  (ms.lookup "close_timeout_ms").bind Value.asNat?

/-- The settings with what a document gives. -/
def overlay (ms : Members) (c : Config) : Config where
  uri := (uriOf ms).getD c.uri
  baseDir := (baseDirOf ms).getD c.baseDir
  logLevel := (logLevelOf ms).getD c.logLevel
  logJson := (logJsonOf ms).getD c.logJson
  closeTimeoutMs := (closeTimeoutOf ms).or c.closeTimeoutMs

/-- Puts an app into the settings. -/
abbrev putUri (c : Config) (s : String) : Config := { c with uri := s }

/-- Puts a directory into the settings. -/
abbrev putBaseDir (c : Config) (s : String) : Config := { c with baseDir := s }

/-- Puts a level into the settings. -/
abbrev putLogLevel (c : Config) (s : String) : Config := { c with logLevel := s }

/-- Puts the form of the log into the settings. -/
abbrev putLogJson (c : Config) (b : Bool) : Config := { c with logJson := b }

/-- Puts a time to wait into the settings. -/
abbrev putCloseTimeout (c : Config) (n : Nat) : Config := { c with closeTimeoutMs := some n }

/-- Reads the section of an app. -/
abbrev readApp : Value → Option (Option String × Option String) :=
  readSection "uri" "base_dir" Value.asString? Value.asString?

/-- Reads the section of the log. -/
abbrev readLog : Value → Option (Option String × Option Bool) :=
  readSection "level" "json" Value.asString? Value.asBool?

/-- The section about the app puts in its address and its directory. -/
lemma puts_app : Puts (setSection appFields) readApp (putSection putUri putBaseDir) :=
  puts_setSection (by decide) puts_setUri puts_setBaseDir fun _ _ _ => rfl

/-- The section about the log puts in its level and its form. -/
lemma puts_log : Puts (setSection logFields) readLog (putSection putLogLevel putLogJson) :=
  puts_setSection (by decide) puts_setLogLevel puts_setLogJson fun _ _ _ => rfl

/-- What is put into the two sections and into the settings beside them goes into different
places.

**Proof sketch.** Each of the three puts something into places of its own, so that two of them can
be exchanged whatever they put there. -/
lemma independent_fields : Config.fields.Pairwise fun f f' => Independent f.2 f'.2 := by
  have happ : Independent (setSection appFields) (setSection logFields) :=
    puts_app.independent puts_log fun c ⟨a₁, a₂⟩ ⟨b₁, b₂⟩ => by
      cases a₁ with
      | none | some => cases a₂ with
        | none | some => cases b₁ with
          | none | some => cases b₂ with
            | none | some => rfl
  have happ' : Independent (setSection appFields) setCloseTimeout :=
    puts_app.independent puts_setCloseTimeout fun c ⟨a₁, a₂⟩ _ => by
      cases a₁ with
      | none | some => cases a₂ with
        | none | some => rfl
  have hlog : Independent (setSection logFields) setCloseTimeout :=
    puts_log.independent puts_setCloseTimeout fun c ⟨a₁, a₂⟩ _ => by
      cases a₁ with
      | none | some => cases a₂ with
        | none | some => rfl
  simpa [Config.fields] using And.intro (And.intro happ happ') hlog

/-- A document is of the right kinds exactly if its two sections and the bound on the time are. -/
lemma decodes_iff {ms : Members} :
    Decodes ms ↔ Reads readApp (ms.lookup "app") ∧ Reads readLog (ms.lookup "log") ∧
      Reads Value.asNat? (ms.lookup "close_timeout_ms") := by
  have happ (v : Value) : (readApp v).isSome ↔ ∃ given, v.given? appNames = some given ∧
      Reads Value.asString? (given "uri") ∧ Reads Value.asString? (given "base_dir") := by
    simp [Option.isSome_iff_exists, readApp, readSection_eq_some_iff]
  have hlog (v : Value) : (readLog v).isSome ↔ ∃ given, v.given? logNames = some given ∧
      Reads Value.asString? (given "level") ∧ Reads Value.asBool? (given "json") := by
    simp [Option.isSome_iff_exists, readLog, readSection_eq_some_iff]
  constructor
  · rintro ⟨h₁, h₂, h₃⟩
    exact ⟨fun v hv => (happ v).2 (h₁ v hv), fun v hv => (hlog v).2 (h₂ v hv), h₃⟩
  · rintro ⟨h₁, h₂, h₃⟩
    exact ⟨fun v hv => (happ v).1 (h₁ v hv), fun v hv => (hlog v).1 (h₂ v hv), h₃⟩

/-- Putting everything that a document gives into the settings.

**Proof sketch.** Both sides put five values into the settings that may be given or not. With each
of them settled, the sides are the same. -/
lemma overlay_eq {ms : Members} (h : Decodes ms) (c : Config) :
    overlay ms c =
      putGiven putCloseTimeout
        (putGiven (putSection putLogLevel putLogJson)
          (putGiven (putSection putUri putBaseDir) c ((ms.lookup "app").bind readApp))
          ((ms.lookup "log").bind readLog))
        ((ms.lookup "close_timeout_ms").bind Value.asNat?) := by
  obtain ⟨happ, hlog, -⟩ := decodes_iff.1 h
  rw [putGiven_putSection happ, putGiven_putSection hlog]
  show overlay ms c = putGiven putCloseTimeout (putGiven putLogJson (putGiven putLogLevel
    (putGiven putBaseDir (putGiven putUri c (uriOf ms)) (baseDirOf ms)) (logLevelOf ms))
    (logJsonOf ms)) (closeTimeoutOf ms)
  unfold overlay
  cases uriOf ms with
  | none | some => cases baseDirOf ms with
    | none | some => cases logLevelOf ms with
      | none | some => cases logJsonOf ms with
        | none | some => cases closeTimeoutOf ms with
          | none | some => rfl

/-- **Which documents are read, and what as.**

**Proof sketch.** The fields are independent of each other, so the document is read in their order:
first the section about the app, then the one about the log, then the bound on the time. Each of
them puts in what it reads, and together that is what lies over the settings. -/
theorem setMembers_fields_eq_some_iff {ms : Members} (h : ms.Distinct) :
    setMembers Config.fields ms c = some c' ↔ Decodes ms ∧ c' = overlay ms c := by
  have hgiven (name : String) : ∀ w ∈ ms.lookup name, w.Distinct := fun w hw => h.of_find? hw
  have hset : setGiven (fun name => ms.lookup name) Config.fields c =
      ((readGiven readApp (ms.lookup "app")).map (putGiven (putSection putUri putBaseDir) c)).bind
        fun c => ((readGiven readLog (ms.lookup "log")).map
          (putGiven (putSection putLogLevel putLogJson) c)).bind
        fun c => (readGiven Value.asNat? (ms.lookup "close_timeout_ms")).map
          (putGiven putCloseTimeout c) := by
    rw [← puts_app.setOne (hgiven "app")]
    refine congrArg _ (funext fun c => ?_)
    rw [← puts_log.setOne (hgiven "log")]
    refine congrArg _ (funext fun c => ?_)
    rw [← puts_setCloseTimeout.setOne (hgiven "close_timeout_ms")]
    exact Option.bind_fun_some _
  rw [setMembers_eq_setGiven (by decide) independent_fields h, hset, decodes_iff]
  simp only [Option.bind_eq_some_iff, Option.map_eq_some_iff, readGiven_eq_some_iff]
  constructor
  · rintro ⟨_, ⟨_, ⟨happ, rfl⟩, rfl⟩, _, ⟨_, ⟨hlog, rfl⟩, rfl⟩, _, ⟨htime, rfl⟩, rfl⟩
    have hdecodes := And.intro happ (And.intro hlog htime)
    exact ⟨hdecodes, (overlay_eq (decodes_iff.2 hdecodes) c).symm⟩
  · rintro ⟨hdecodes, rfl⟩
    rw [overlay_eq (decodes_iff.2 hdecodes)]
    obtain ⟨happ, hlog, htime⟩ := hdecodes
    exact ⟨_, ⟨_, ⟨happ, rfl⟩, rfl⟩, _, ⟨_, ⟨hlog, rfl⟩, rfl⟩, _, ⟨htime, rfl⟩, rfl⟩

end Config

end ExtensionGraph
