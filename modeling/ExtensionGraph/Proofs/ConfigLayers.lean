import Mathlib.Algebra.Group.Nat.Defs
import ExtensionGraph.CommandLine.Session
import ExtensionGraph.Proofs.ConfigDocument
import ExtensionGraph.Proofs.JsonReading
import ExtensionGraph.Proofs.Overrides

/-!
# Where settings come from

Every setting comes from the topmost layer that has it: from the arguments of the command line, from
the environment, from the document, or from the defaults. A layer that has one setting says nothing
about another one. A document that gives a section only in part leaves the rest of the section to
the defaults, and a variable that is no text counts as one that is not set.

## Main definitions

* `ExtensionGraph.Environment` — the variables of the environment.
* `ExtensionGraph.IsWord` — the texts that denote unsigned numbers of 64 bits.
* `ExtensionGraph.Config.Accepted` — what a document and an environment have to be like.
* `ExtensionGraph.Config.Layered` — settings of which each comes from its own layer.

## Main results

* `ExtensionGraph.Config.load_eq_ok_iff` — which settings are loaded.
* `ExtensionGraph.CommandLine.settings_layers` — where the settings of a session come from.
-/

namespace ExtensionGraph

/-! ## Words -/

/-- **A text denotes an unsigned number of 64 bits**: digits, perhaps behind a plus sign. -/
def IsWord (s : String) (n : Nat) : Prop :=
  ∃ sign digits, s.toList = sign ++ digits ∧ (sign = [] ∨ sign = ['+']) ∧ digits ≠ [] ∧
    digits.all Char.isDigit ∧ digitsValue digits = n ∧ n < 2 ^ 64

/-- What is read as a number of 64 bits without a sign: digits, at least one, whose value is not too
large. -/
lemma wordOfDigits?_eq_some_iff {cs : List Char} {n : Nat} :
    wordOfDigits? cs = some n ↔
      cs ≠ [] ∧ cs.all Char.isDigit ∧ digitsValue cs = n ∧ n < 2 ^ 64 := by
  unfold wordOfDigits?
  split
  · next h =>
    rw [List.isEmpty_iff] at h
    constructor
    · nofun
    · rintro ⟨hne, hdigits, -⟩
      exact absurd hdigits (h.resolve_left hne)
  · next h =>
    rw [List.isEmpty_iff, not_or, not_not] at h
    rw [Option.ite_none_right_eq_some]
    constructor
    · rintro ⟨hlt, hn⟩
      cases hn
      exact ⟨h.1, h.2, rfl, hlt⟩
    · rintro ⟨-, -, rfl, hlt⟩
      exact ⟨hlt, rfl⟩

/-- What is read as a number of 64 bits.

**Proof sketch.** With a sign in front, the digits are what follows; the sign itself is no digit, so
that the text cannot be read in the other way. Without one the whole text is digits. -/
lemma wordOfText?_eq_some_iff {s : String} {n : Nat} : wordOfText? s = some n ↔ IsWord s n := by
  unfold wordOfText? IsWord
  split
  · next cs hs =>
    rw [wordOfDigits?_eq_some_iff]
    constructor
    · rintro ⟨hne, hdigits, hn⟩
      exact ⟨['+'], cs, hs, .inr rfl, hne, hdigits, hn⟩
    · rintro ⟨sign, digits, heq, rfl | rfl, hne, hdigits, hn⟩
      · rw [hs] at heq
        rw [← show _ = digits from heq] at hdigits
        simp at hdigits
      · rw [hs] at heq
        obtain rfl := (List.cons.inj heq).2
        exact ⟨hne, hdigits, hn⟩
  · next hs =>
    rw [wordOfDigits?_eq_some_iff]
    constructor
    · rintro ⟨hne, hdigits, hn⟩
      exact ⟨[], s.toList, rfl, .inl rfl, hne, hdigits, hn⟩
    · rintro ⟨sign, digits, heq, rfl | rfl, hne, hdigits, hn⟩
      · rw [heq]
        exact ⟨hne, hdigits, hn⟩
      · exact absurd heq (hs digits)

/-! ## The environment -/

/-- The variables of the environment. The value of a variable can be any bytes. -/
abbrev Environment := String → Option ByteArray

/-- The text of a variable. A variable whose value is no text has none. -/
def Environment.text (env : Environment) (name : String) : Option String :=
  (env name).bind String.fromUTF8?

/-- The texts of the variables that a session looks at. -/
def Environment.values (env : Environment) : List (String × String) :=
  CommandLine.variableNames.filterMap fun name => (env.text name).map (name, ·)

/-- What an environment gives, asked for each of some names, can be looked up under these names and
no others. -/
lemma lookup_filterMap (f : String → Option String) (names : List String) (name : String) :
    (names.filterMap fun n => (f n).map (n, ·)).lookup name =
      if name ∈ names then f name else none := by
  induction names with
  | nil => rfl
  | cons n names ih =>
    by_cases hn : name = n
    · subst hn
      cases hf : f name with
      | none => simp [hf, ih]
      | some s => simp [hf]
    · cases hf : f n with
      | none => simp [hf, hn, ih]
      | some s => simp [hf, hn, ih, List.lookup_cons, beq_eq_false_iff_ne.2 hn]

/-! ## Loading settings -/

namespace Config

open Json (bind_eq_ok)
open Toml (Members)

variable {file : Option File} {lookup lookup' : String → Option String} {c c' : Config}

/-- The document of a file; without a file it is empty. -/
def document : Option File → Option Members
  | none => some []
  | some file => file.text.toOption.bind Toml.ofText?

/-- **What a document and an environment have to be like** for settings to be loaded. -/
structure Accepted (ms : Members) (env : Environment) : Prop where
  decodes : Decodes ms
  logJson : ∀ s ∈ env.text "TEN_LOG_JSON", s = "true" ∨ s = "false"
  closeTimeoutMs : ∀ s ∈ env.text "TEN_CLOSE_TIMEOUT_MS", ∃ n, IsWord s n

/-- **Settings of which each comes from its own layer**: from the environment, else from the
document, else from the defaults. -/
structure Layered (ms : Members) (env : Environment) (c : Config) : Prop where
  uri : c.uri = ((env.text "TEN_APP_URI").or (uriOf ms)).getD "localhost"
  baseDir : c.baseDir = ((env.text "TEN_APP_BASE_DIR").or (baseDirOf ms)).getD "."
  logLevel : c.logLevel = ((env.text "TEN_LOG_LEVEL").or (logLevelOf ms)).getD "info"
  logJson : c.logJson =
    (((env.text "TEN_LOG_JSON").map (· == "true")).or (logJsonOf ms)).getD false
  closeTimeoutMs : c.closeTimeoutMs =
    ((env.text "TEN_CLOSE_TIMEOUT_MS").bind wordOfText?).or (closeTimeoutOf ms)

/-- The settings of a document are those that it gives, over the defaults. -/
lemma ofToml_eq_ok_iff {text : String} :
    ofToml text = .ok c ↔
      ∃ ms, Toml.ofText? text = some ms ∧ Decodes ms ∧ c = overlay ms default := by
  have hread : ofToml text = .ok c ↔
      (Toml.ofText? text).bind (fun ms => setMembers fields ms default) = some c := by
    unfold ofToml
    cases (Toml.ofText? text).bind fun ms => setMembers fields ms default with
    | none => simp
    | some c' => simp
  rw [hread, Option.bind_eq_some_iff]
  refine exists_congr fun ms => and_congr_right fun hms => ?_
  exact setMembers_fields_eq_some_iff (Toml.distinct_of_ofText? hms)

/-- An empty document gives nothing. -/
lemma decodes_nil : Decodes [] := ⟨nofun, nofun, nofun⟩

/-- The settings before they are overridden. -/
def base : Option File → Except Error Config
  | some f => f.text >>= ofToml
  | none => .ok default

/-- The settings without the environment are those of the document over the defaults, if there is a
document that can be read, and the defaults themselves if none is asked for.

**Proof sketch.** Without a file the document is taken to be empty. With a file that can be read,
this is what is known of reading a document. -/
lemma base_eq_ok_iff :
    base file = .ok c ↔ ∃ ms, document file = some ms ∧ Decodes ms ∧ c = overlay ms default := by
  cases file with
  | none =>
    constructor
    · rintro ⟨⟩
      exact ⟨[], rfl, decodes_nil, rfl⟩
    · rintro ⟨ms, hms, -, rfl⟩
      cases hms
      rfl
  | some f =>
    show f.text >>= ofToml = .ok c ↔ ∃ ms, f.text.toOption.bind Toml.ofText? = some ms ∧ _
    cases f.text with
    | error e =>
      constructor
      · intro h
        cases h
      · rintro ⟨_, h, -⟩
        cases h
    | ok text => exact ofToml_eq_ok_iff

/-- Loading is overriding what stood in the document. -/
lemma load_eq_ok_iff_override :
    load file lookup = .ok c ↔ ∃ c₀, base file = .ok c₀ ∧ c₀.override lookup = (c, .ok ()) := by
  have hload : load file lookup =
      base file >>= fun c₀ => (c₀.override lookup).2 >>= fun _ => .ok (c₀.override lookup).1 := by
    cases file with
    | none => rfl
    | some f =>
      show (f.text >>= fun text => ofToml text >>= _) = f.text >>= ofToml >>= _
      exact (bind_assoc f.text ofToml _).symm
  rw [hload, bind_eq_ok]
  refine exists_congr fun c₀ => and_congr_right fun _ => ?_
  obtain ⟨c₁, ⟨⟩ | ⟨⟨⟩⟩⟩ := c₀.override lookup
  · simp [bind, Except.bind]
  · simp [bind, Except.bind]

/-- **Which settings are loaded**, from which documents and environments.

**Proof sketch.** The layers are known one by one: the document over the defaults, and the
environment over both. It remains to compare the five settings, each of which comes from the last
layer that gives it. -/
theorem load_eq_ok_iff {env : Environment} :
    load file env.text = .ok c ↔
      ∃ ms, document file = some ms ∧ Accepted ms env ∧ Layered ms env c := by
  rw [load_eq_ok_iff_override]
  simp only [base_eq_ok_iff, override_eq_ok_iff]
  have hword (s : String) : (wordOfText? s).isSome ↔ ∃ n, IsWord s n := by
    simp only [Option.isSome_iff_exists, wordOfText?_eq_some_iff]
  have htimeout (ms : Members) : (overlay ms default).closeTimeoutMs = closeTimeoutOf ms :=
    Option.or_none
  constructor
  · rintro ⟨_, ⟨ms, hms, hd, rfl⟩, hjson, htime, rfl⟩
    exact ⟨ms, hms, ⟨hd, hjson, fun s hs => (hword s).1 (htime s hs)⟩,
      Option.getD_or.symm, Option.getD_or.symm, Option.getD_or.symm, Option.getD_or.symm,
      congrArg (Option.or _) (htimeout ms)⟩
  · rintro ⟨ms, hms, ⟨hd, hjson, htime⟩, hc⟩
    refine ⟨_, ⟨ms, hms, hd, rfl⟩, hjson, fun s hs => (hword s).2 (htime s hs), ?_⟩
    exact Config.ext (hc.uri.trans Option.getD_or)
      (hc.baseDir.trans Option.getD_or) (hc.logLevel.trans Option.getD_or)
      (hc.logJson.trans Option.getD_or)
      (hc.closeTimeoutMs.trans (congrArg (Option.or _) (htimeout ms).symm))

/-- Only five variables are looked at. -/
lemma load_congr (h : ∀ name ∈ ["TEN_APP_URI", "TEN_APP_BASE_DIR", "TEN_LOG_LEVEL", "TEN_LOG_JSON",
    "TEN_CLOSE_TIMEOUT_MS"], lookup name = lookup' name) :
    load file lookup = load file lookup' := by
  simp only [List.forall_mem_cons] at h
  obtain ⟨huri, hdir, hlevel, hjson, htime, -⟩ := h
  unfold load override
  rw [huri, hdir, hlevel, hjson, htime]

end Config

/-! ## The settings of a session -/

namespace CommandLine

/-- The app that the arguments name. -/
def Command.appUri : Command → Option String
  | .run _ uri _ => uri
  | .validate _ => none

/-- The inputs of a session in an environment. -/
def Inputs.within (env : Environment) (config : Option File) (graph : File) (graphId : String) :
    Inputs :=
  ⟨config, graph, env.values, graphId⟩

/-- A session sees the variables that it may ask for as they stand in its environment. -/
lemma lookup_within {env : Environment} {config : Option File} {graph : File}
    {graphId name : String} (h : name ∈ variableNames) :
    (Inputs.within env config graph graphId).lookup name = env.text name :=
  (lookup_filterMap env.text variableNames name).trans (if_pos h)

/-- What the arguments change.

**Proof sketch.** By cases on what is loaded and on each argument. The switch for more messages
changes the level, and a command that runs a graph may name the app; the other one cannot. -/
lemma settings_eq_ok_iff {inv : Invocation} {i : Inputs} {c' : Config} :
    settings inv i = .ok c' ↔
      ∃ c, Config.load i.config i.lookup = .ok c ∧
        c' = { c with
          logLevel := if inv.verbose then "debug" else c.logLevel
          uri := inv.command.appUri.getD c.uri } := by
  obtain ⟨command, config, verbose⟩ := inv
  unfold settings
  cases Config.load i.config i.lookup with
  | error e =>
    constructor
    · intro h
      cases h
    · rintro ⟨c, h, -⟩
      cases h
  | ok c =>
    simp only [Except.mapError, bind, Except.bind, Except.ok.injEq, exists_eq_left']
    cases verbose with
    | false | true => cases command with
      | validate => exact eq_comm
      | run graph uri name => cases uri with
        | none | some => exact eq_comm

/-- **Where the settings of a session come from.** Settings are loaded exactly if the document gives
nothing of the wrong kind and neither of the two variables that can be refused is refused, and then
each of them comes from the environment, else from the document, else from the defaults. The
arguments change the level of the log and the app, and nothing else.

**Proof sketch.** What is loaded is the document with the overrides of the environment, whose
conditions and results are known. The session looks up the same variables as the environment has,
and the arguments come last. -/
theorem settings_layers (env : Environment) (config : Option File) (graph : File)
    (graphId : String) (inv : Invocation) :
    ((∃ c, Config.load config env.text = .ok c) ↔
      ∃ ms, Config.document config = some ms ∧ Config.Accepted ms env) ∧
    (∀ c, Config.load config env.text = .ok c ↔
      ∃ ms, Config.document config = some ms ∧ Config.Accepted ms env ∧ Config.Layered ms env c) ∧
    (∀ c', settings inv (.within env config graph graphId) = .ok c' ↔
      ∃ c, Config.load config env.text = .ok c ∧
        c' = { c with
          logLevel := if inv.verbose then "debug" else c.logLevel
          uri := inv.command.appUri.getD c.uri }) := by
  refine ⟨⟨?_, ?_⟩, fun c => Config.load_eq_ok_iff, fun c' => ?_⟩
  · rintro ⟨c, hc⟩
    obtain ⟨ms, hms, haccepted, -⟩ := Config.load_eq_ok_iff.1 hc
    exact ⟨ms, hms, haccepted⟩
  · rintro ⟨ms, hms, haccepted⟩
    exact ⟨⟨_, _, _, _, _⟩,
      Config.load_eq_ok_iff.2 ⟨ms, hms, haccepted, rfl, rfl, rfl, rfl, rfl⟩⟩
  · rw [settings_eq_ok_iff]
    have hload : Config.load config (Inputs.within env config graph graphId).lookup =
        Config.load config env.text :=
      Config.load_congr fun name hname => lookup_within (List.mem_append_left ["RUST_LOG"] hname)
    rw [← hload]
    rfl

end CommandLine

end ExtensionGraph
