import Mathlib.Tactic.Common
import ExtensionGraph.Config

/-!
# Overriding settings

Settings are overridden one after the other, in a fixed order. An app, a directory and a level may
be any text, but the text for one of the other two settings can be refused. Then nothing further is
overridden. The refused setting stays as it was, and so do those behind it, but what was overridden
before it is not taken back.

## Main definitions

* `ExtensionGraph.Config.withTexts` — settings with what overrides them in any case.
* `ExtensionGraph.Config.IsTruth` — the texts that are accepted for a setting that is on or off.
* `ExtensionGraph.Config.LeftBy` — what a refused override leaves behind.

## Main results

* `ExtensionGraph.Config.override_eq_ok_iff` — overriding without a refusal.
* `ExtensionGraph.Config.refused_override_iff` — overriding up to a refusal.
-/

namespace ExtensionGraph

attribute [ext] Config

namespace Config

variable {c c' : Config} {err : Error} {s : String}

/-! ## One override -/

section OneOverride

variable {value : Option String} {set : Config → String → Except Error Config}

/-- An override that is not refused sets what there is to set. -/
lemma overrideOne_eq_ok_iff :
    overrideOne value set c = (c', .ok ()) ↔
      (value = none ∧ c' = c) ∨ ∃ s, value = some s ∧ set c s = .ok c' := by
  cases value with
  | none => simp [overrideOne, eq_comm]
  | some s =>
    unfold overrideOne
    cases hs : set c s with
    | ok c₁ => simp [hs]
    | error e => simp [hs]

/-- An override that is refused changes nothing. -/
lemma overrideOne_eq_error_iff :
    overrideOne value set c = (c', .error err) ↔
      c' = c ∧ ∃ s, value = some s ∧ set c s = .error err := by
  cases value with
  | none => simp [overrideOne]
  | some s =>
    unfold overrideOne
    cases hs : set c s with
    | ok c₁ => simp [hs]
    | error e => simp [hs, eq_comm]

variable {r : Config × Except Error Unit} {next : Config → Config × Except Error Unit}

/-- Two steps succeed if each of them does. -/
lemma andThen_eq_ok_iff :
    andThen r next = (c', .ok ()) ↔ ∃ c₁, r = (c₁, .ok ()) ∧ next c₁ = (c', .ok ()) := by
  obtain ⟨c₁, ⟨⟩ | ⟨⟨⟩⟩⟩ := r
  · simp [andThen]
  · simp [andThen]

/-- Whatever comes behind a refusal is not looked at. -/
lemma andThen_eq_error_iff :
    andThen r next = (c', .error err) ↔
      r = (c', .error err) ∨ ∃ c₁, r = (c₁, .ok ()) ∧ next c₁ = (c', .error err) := by
  obtain ⟨c₁, ⟨⟩ | ⟨⟨⟩⟩⟩ := r
  · simp [andThen]
  · simp [andThen]

end OneOverride

/-! ## The two settings whose overrides can be refused -/

/-- The texts that say whether something is on or off. -/
def IsTruth (s : String) : Prop := s = "true" ∨ s = "false"

/-- The complaint about a text that does not. -/
def jsonRefusal (s : String) : Error :=
  .config ("TEN_LOG_JSON must be true or false, got '" ++ s ++ "'")

/-- The complaint about a text that is no number of milliseconds. -/
def timeoutRefusal (s : String) : Error :=
  .config ("TEN_CLOSE_TIMEOUT_MS must be milliseconds, got '" ++ s ++ "'")

/-- A text that is `true` or `false` is taken. -/
lemma overrideJson_of_truth (h : IsTruth s) :
    overrideJson c s = .ok { c with logJson := s == "true" } := by
  rcases h with rfl | rfl
  · rfl
  · rfl

/-- Any other text is refused. -/
lemma overrideJson_of_not_truth (h : ¬ IsTruth s) : overrideJson c s = .error (jsonRefusal s) := by
  unfold overrideJson
  split
  · exact absurd (.inl rfl) h
  · exact absurd (.inr rfl) h
  · rfl

/-- The text is taken exactly if it is `true` or `false`. -/
lemma overrideJson_eq_ok_iff :
    overrideJson c s = .ok c' ↔ IsTruth s ∧ c' = { c with logJson := s == "true" } := by
  by_cases h : IsTruth s
  · rw [overrideJson_of_truth h]
    simp [h, eq_comm]
  · rw [overrideJson_of_not_truth h]
    simp [h]

/-- The text is refused exactly if it is neither `true` nor `false`. -/
lemma overrideJson_eq_error_iff :
    overrideJson c s = .error err ↔ ¬ IsTruth s ∧ err = jsonRefusal s := by
  by_cases h : IsTruth s
  · rw [overrideJson_of_truth h]
    simp [h]
  · rw [overrideJson_of_not_truth h]
    simp [h, eq_comm]

/-- A timeout is taken exactly if it is a number in range. -/
lemma overrideTimeout_eq_ok_iff :
    overrideTimeout c s = .ok c' ↔
      ∃ n, wordOfText? s = some n ∧ c' = { c with closeTimeoutMs := some n } := by
  unfold overrideTimeout
  cases wordOfText? s with
  | none => simp
  | some n => simp [eq_comm]

/-- A timeout is refused exactly if it is no number in range. -/
lemma overrideTimeout_eq_error_iff :
    overrideTimeout c s = .error err ↔ wordOfText? s = none ∧ err = timeoutRefusal s := by
  unfold overrideTimeout timeoutRefusal
  cases wordOfText? s with
  | none => simp [eq_comm]
  | some n => simp

/-! ## All overrides -/

variable {lookup : String → Option String}

/-- The settings with the overrides that are never refused. -/
def withTexts (lookup : String → Option String) (c : Config) : Config :=
  { c with
    uri := (lookup "TEN_APP_URI").getD c.uri
    baseDir := (lookup "TEN_APP_BASE_DIR").getD c.baseDir
    logLevel := (lookup "TEN_LOG_LEVEL").getD c.logLevel }

/-- First come the overrides that are never refused, and then the other two. -/
lemma override_eq (lookup : String → Option String) (c : Config) :
    c.override lookup =
      andThen (overrideOne (lookup "TEN_LOG_JSON") overrideJson (c.withTexts lookup))
        (overrideOne (lookup "TEN_CLOSE_TIMEOUT_MS") overrideTimeout) := by
  unfold override withTexts
  cases lookup "TEN_APP_URI" with
  | none | some =>
    cases lookup "TEN_APP_BASE_DIR" with
    | none | some =>
      cases lookup "TEN_LOG_LEVEL" with
      | none | some => rfl

/-- Whether the log is written in JSON, after an override that is not refused. -/
def withJson (lookup : String → Option String) (c : Config) : Config :=
  { c with logJson := ((lookup "TEN_LOG_JSON").map (· == "true")).getD c.logJson }

/-- The variable is taken exactly if it is not set or its text is. -/
lemma overrideOne_json_eq_ok_iff :
    overrideOne (lookup "TEN_LOG_JSON") overrideJson c = (c', .ok ()) ↔
      (∀ s ∈ lookup "TEN_LOG_JSON", IsTruth s) ∧ c' = c.withJson lookup := by
  unfold withJson
  cases hs : lookup "TEN_LOG_JSON" with
  | none => simp [overrideOne_eq_ok_iff]
  | some s => simp [overrideOne_eq_ok_iff, overrideJson_eq_ok_iff]

/-- **Overriding without a refusal.**

**Proof sketch.** The texts cannot be refused. Then the format of the log is taken or refused, and
after it the timeout. -/
theorem override_eq_ok_iff :
    c.override lookup = (c', .ok ()) ↔
      (∀ s ∈ lookup "TEN_LOG_JSON", IsTruth s) ∧
      (∀ s ∈ lookup "TEN_CLOSE_TIMEOUT_MS", (wordOfText? s).isSome) ∧
      c' = { (c.withTexts lookup).withJson lookup with
        closeTimeoutMs := ((lookup "TEN_CLOSE_TIMEOUT_MS").bind wordOfText?).or
          c.closeTimeoutMs } := by
  rw [override_eq, andThen_eq_ok_iff]
  simp only [overrideOne_json_eq_ok_iff]
  constructor
  · rintro ⟨c₁, ⟨hjson, rfl⟩, hnext⟩
    refine ⟨hjson, ?_⟩
    rcases overrideOne_eq_ok_iff.1 hnext with ⟨hnone, rfl⟩ | ⟨s, hs, hset⟩
    · rw [hnone]
      exact ⟨by simp, rfl⟩
    · obtain ⟨n, hn, rfl⟩ := overrideTimeout_eq_ok_iff.1 hset
      rw [hs]
      simp [hn]
  · rintro ⟨hjson, htimeout, rfl⟩
    refine ⟨_, ⟨hjson, rfl⟩, overrideOne_eq_ok_iff.2 ?_⟩
    cases hs : lookup "TEN_CLOSE_TIMEOUT_MS" with
    | none => exact .inl ⟨rfl, rfl⟩
    | some s =>
      obtain ⟨n, hn⟩ := Option.isSome_iff_exists.1 (htimeout s hs)
      exact .inr ⟨s, rfl, overrideTimeout_eq_ok_iff.2 ⟨n, hn, by simp [hn]⟩⟩

/-- What a refused override leaves behind: the settings `c'` where there were the settings `c`. -/
structure LeftBy (lookup : String → Option String) (c c' : Config) (err : Error) : Prop where
  uri : c'.uri = (lookup "TEN_APP_URI").getD c.uri
  baseDir : c'.baseDir = (lookup "TEN_APP_BASE_DIR").getD c.baseDir
  logLevel : c'.logLevel = (lookup "TEN_LOG_LEVEL").getD c.logLevel
  closeTimeoutMs : c'.closeTimeoutMs = c.closeTimeoutMs
  /-- If the fourth override is refused, the fourth setting stays; else it is the fifth one. -/
  refused :
    (c'.logJson = c.logJson ∧
      ∃ s, lookup "TEN_LOG_JSON" = some s ∧ ¬ IsTruth s ∧ err = jsonRefusal s) ∨
    (c'.logJson = ((lookup "TEN_LOG_JSON").map (· == "true")).getD c.logJson ∧
      (∀ s ∈ lookup "TEN_LOG_JSON", IsTruth s) ∧
      ∃ s, lookup "TEN_CLOSE_TIMEOUT_MS" = some s ∧ wordOfText? s = none ∧ err = timeoutRefusal s)

/-- **A refused override is not undone, and neither is what came before it.** Overriding ends with
an error exactly if one of the two texts that can be refused is refused. Then the settings are what
they were but for those that were overridden before, which have their new values. -/
theorem refused_override_iff (lookup : String → Option String) (c c' : Config) (err : Error) :
    c.override lookup = (c', .error err) ↔ LeftBy lookup c c' err := by
  rw [override_eq, andThen_eq_error_iff]
  simp only [overrideOne_json_eq_ok_iff, overrideOne_eq_error_iff, overrideJson_eq_error_iff,
    overrideTimeout_eq_error_iff]
  constructor
  · rintro (⟨rfl, s, hs, hbad, rfl⟩ | ⟨_, ⟨hjson, rfl⟩, rfl, s, hs, hbad, rfl⟩)
    · exact ⟨rfl, rfl, rfl, rfl, .inl ⟨rfl, s, hs, hbad, rfl⟩⟩
    · exact ⟨rfl, rfl, rfl, rfl, .inr ⟨rfl, hjson, s, hs, hbad, rfl⟩⟩
  · rintro ⟨huri, hdir, hlevel, htime, ⟨hstays, s, hs, hbad, rfl⟩ | ⟨hset, hjson, s, hs, hbad, rfl⟩⟩
    · exact .inl ⟨Config.ext huri hdir hlevel hstays htime, s, hs, hbad, rfl⟩
    · exact .inr ⟨_, ⟨hjson, rfl⟩, Config.ext huri hdir hlevel hset htime, s, hs, hbad, rfl⟩

/-- An address, and a text that does not say whether something is on or off. -/
def addressAndYes : String → Option String
  | "TEN_APP_URI" => some "msgpack://10.0.0.1:8001/"
  | "TEN_LOG_JSON" => some "yes"
  | _ => none

/-- The address stays although the other text is refused. -/
theorem refused_override_changes :
    (default.override addressAndYes).2 = .error (jsonRefusal "yes") ∧
      (default.override addressAndYes).1 = { default with uri := "msgpack://10.0.0.1:8001/" } ∧
      (default.override addressAndYes).1 ≠ default :=
  ⟨rfl, rfl, by decide⟩

end Config

end ExtensionGraph
