import Mathlib.Tactic.Common
import ExtensionGraph.Registry

/-!
# The first registration of a name wins

A graph asks for its groups by the names of addons, and its threads ask for the extensions much
later. In between anybody may register other addons. Nobody can change what a name stands for: it
stands for the addon that was the first to be registered under it, for ever. Extension addons and
group addons have names of their own, so neither gets in the way of the other.

A registry is compared here with the history of what it was asked and what it answered. It is as if
it had no tables, and looked through its history for the first registration that was not refused.

## Main definitions

* `ExtensionGraph.Registry.Request`, `ExtensionGraph.Registry.Answer`,
  `ExtensionGraph.Registry.serveAll` — what a registry is asked, and how it answers.
* `ExtensionGraph.Registry.Origin` — the registries to begin with.
* `ExtensionGraph.Registry.firstExtension?`, `ExtensionGraph.Registry.firstGroup?` — the first
  registration of a name in a history.
* `ExtensionGraph.Registry.Awaits` — what comes out when a group is awaited.
* `ExtensionGraph.Registry.FirstWins` — what a history says about the answers to come.

## Main results

* `ExtensionGraph.Registry.look_serveAll` — a table and the history say the same.
* `ExtensionGraph.Registry.awaits_check` — a group keeps the name that it was asked for with.
* `ExtensionGraph.Registry.first_registration_wins` — the first registration wins, after any
  history.
-/

namespace ExtensionGraph.Registry

/-! ## Histories -/

/-- What a registry can be asked to do. -/
inductive Request where
  | registerExtension (name : String) (addon : ExtensionAddon)
  | registerGroup (name : String) (addon : GroupAddon)
  | createExtension (occasion : Occasion) (addon name : String)
  | createGroup (addon name : String)

/-- How it answers. -/
inductive Answer where
  | registration (result : Except Error Unit)
  | extension (result : Making)
  | group (result : Except Error Creation)

/-- After a registration the tables are the new ones, or the old ones if it failed. -/
def register (r : Registry) : Except Error Registry → Registry × Answer
  | .ok r' => (r', .registration (.ok ()))
  | .error e => (r, .registration (.error e))

/-- A registry does what it is asked. -/
def serve (r : Registry) : Request → Registry × Answer
  | .registerExtension name addon => r.register (r.registerExtension name addon)
  | .registerGroup name addon => r.register (r.registerGroup name addon)
  | .createExtension occasion addon name =>
    (r, .extension (r.createExtension occasion addon name))
  | .createGroup addon name => (r, .group (r.createGroup addon name))

/-- A registry is asked one thing after the other: the registry that is left, and the history. -/
def serveAll (r : Registry) : List Request → Registry × List (Request × Answer)
  | [] => (r, [])
  | q :: rest =>
    let (r', answer) := r.serve q
    let (r'', history) := r'.serveAll rest
    (r'', (q, answer) :: history)

/-! ## What a history says -/

/-- How a registry is made. -/
inductive Origin where
  | empty
  | withDefaults

namespace Origin

/-- The registry to begin with. -/
def registry : Origin → Registry
  | .empty => Registry.empty
  | .withDefaults => Registry.withDefaults

/-- The group addons that are there from the beginning. -/
def group? : Origin → String → Option GroupAddon
  | .empty, _ => none
  | .withDefaults, name => if name = defaultGroupAddon then some defaultGroup else none

end Origin

/-- The extension addon that somebody has registered under a name without being refused. -/
def grantedExtension? (name : String) : Request × Answer → Option ExtensionAddon
  | (.registerExtension n addon, .registration (.ok ())) => if n = name then some addon else none
  | _ => none

/-- The group addon that somebody has registered under a name without being refused. -/
def grantedGroup? (name : String) : Request × Answer → Option GroupAddon
  | (.registerGroup n addon, .registration (.ok ())) => if n = name then some addon else none
  | _ => none

/-- The first extension addon that was registered under a name. -/
def firstExtension? (history : List (Request × Answer)) (name : String) : Option ExtensionAddon :=
  history.findSome? (grantedExtension? name)

/-- The first group addon that was registered under a name, unless the name was taken from the
beginning. -/
def firstGroup? (o : Origin) (history : List (Request × Answer)) (name : String) :
    Option GroupAddon :=
  (o.group? name).or (history.findSome? (grantedGroup? name))

/-- What comes out when a group is awaited that an addon was asked for: what the addon has built,
unless that has another name. -/
structure Awaits (addon name : String) (built awaited : Creation) : Prop where
  delay : awaited.delay = built.delay
  ok_iff : ∀ g, awaited.result = .ok g ↔ built.result = .ok g ∧ g.name = name
  error_iff : ∀ e, awaited.result = .error e ↔
    built.result = .error e ∨
      ∃ g, built.result = .ok g ∧ g.name ≠ name ∧
        e = .groupCreationFailed ("addon '" ++ addon ++ "' was asked for '" ++ name ++
          "' but built '" ++ g.name ++ "'")

/-- What the history of a registry says about its answers. -/
structure FirstWins (o : Origin) (history : List (Request × Answer)) (r : Registry) : Prop where
  /-- An extension addon is refused exactly if its name is taken by an extension addon. -/
  extensionRefused : ∀ name addon, (r.serve (.registerExtension name addon)).2 =
    .registration (.error (.addonAlreadyRegistered name)) ↔ (firstExtension? history name).isSome
  extensionGranted : ∀ name addon, (r.serve (.registerExtension name addon)).2 =
    .registration (.ok ()) ↔ firstExtension? history name = none
  /-- A group addon is refused exactly if its name is taken by a group addon. -/
  groupRefused : ∀ name addon, (r.serve (.registerGroup name addon)).2 =
    .registration (.error (.addonAlreadyRegistered name)) ↔ (firstGroup? o history name).isSome
  groupGranted : ∀ name addon, (r.serve (.registerGroup name addon)).2 =
    .registration (.ok ()) ↔ firstGroup? o history name = none
  /-- Only a registration that is not refused changes anything. -/
  unchanged : ∀ q, (r.serve q).2 ≠ .registration (.ok ()) → (r.serve q).1 = r
  /-- An extension is created by the addon that was the first under its name. -/
  extensionCreated : ∀ occasion addon name, (r.serve (.createExtension occasion addon name)).2 =
    .extension (match firstExtension? history addon with
      | some build => build occasion name
      | none => .refused (.addonNotFound addon))
  /-- So is a group, as far as it keeps its name. -/
  groupCreated : ∀ addon name build, firstGroup? o history addon = some build →
    ∃ awaited, (r.serve (.createGroup addon name)).2 = .group (.ok awaited) ∧
      Awaits addon name (build name) awaited
  groupUnknown : ∀ addon name, firstGroup? o history addon = none →
    (r.serve (.createGroup addon name)).2 = .group (.error (.addonNotFound addon))
  /-- Whatever happens later, what can be created now is created in the same way. -/
  lasting : ∀ later addon name,
    ((firstExtension? history addon).isSome → ∀ occasion,
      ((r.serveAll later).1.serve (.createExtension occasion addon name)).2 =
        (r.serve (.createExtension occasion addon name)).2) ∧
    ((firstGroup? o history addon).isSome →
      ((r.serveAll later).1.serve (.createGroup addon name)).2 =
        (r.serve (.createGroup addon name)).2)

/-! ## Tables and histories -/

variable {r : Registry}

/-- A new entry at the end is found unless there was one with its name. -/
lemma lookup_concat {β : Type} (table : List (String × β)) (n name : String) (b : β) :
    (table ++ [(n, b)]).lookup name =
      (table.lookup name).or (if n = name then some b else none) := by
  rw [List.lookup_append, List.lookup_cons, List.lookup_nil]
  by_cases h : n = name
  · simp [h]
  · have hne : (name == n) = false := beq_false_of_ne (Ne.symm h)
    simp [h, hne]

/-- An extension addon is refused if its name is taken, and added to the others if it is free. -/
lemma serve_registerExtension (r : Registry) (name : String) (addon : ExtensionAddon) :
    r.serve (.registerExtension name addon) =
      if (r.extension? name).isSome then (r, .registration (.error (.addonAlreadyRegistered name)))
      else ({ r with extensions := r.extensions ++ [(name, addon)] }, .registration (.ok ())) :=
  apply_ite r.register _ _ _

/-- A group addon is refused if its name is taken, and added to the others if it is free. -/
lemma serve_registerGroup (r : Registry) (name : String) (addon : GroupAddon) :
    r.serve (.registerGroup name addon) =
      if (r.group? name).isSome then (r, .registration (.error (.addonAlreadyRegistered name)))
      else ({ r with groups := r.groups ++ [(name, addon)] }, .registration (.ok ())) :=
  apply_ite r.register _ _ _

/-- Asking for one thing adds to the extension addons what the history says.

**Proof sketch.** Only registering an extension changes the table, and only under a new name. A
lookup then finds what was there, or else the new entry. -/
lemma extension?_serve (name : String) (r : Registry) (q : Request) :
    (r.serve q).1.extension? name =
      (r.extension? name).or (grantedExtension? name (q, (r.serve q).2)) := by
  cases q with
  | registerExtension n addon =>
    rw [serve_registerExtension]
    split
    · exact (Option.or_none).symm
    · exact lookup_concat r.extensions n name addon
  | registerGroup n addon =>
    rw [serve_registerGroup]
    split
    · exact (Option.or_none).symm
    · exact (Option.or_none).symm
  | createExtension | createGroup => exact (Option.or_none).symm

/-- Asking for one thing adds to the group addons what the history says. -/
lemma group?_serve (name : String) (r : Registry) (q : Request) :
    (r.serve q).1.group? name =
      (r.group? name).or (grantedGroup? name (q, (r.serve q).2)) := by
  cases q with
  | registerExtension n addon =>
    rw [serve_registerExtension]
    split
    · exact (Option.or_none).symm
    · exact (Option.or_none).symm
  | registerGroup n addon =>
    rw [serve_registerGroup]
    split
    · exact (Option.or_none).symm
    · exact lookup_concat r.groups n name addon
  | createExtension | createGroup => exact (Option.or_none).symm

/-- **A table and the history say the same**: what adds to a table one by one what is granted finds
in the end what was there, or else the first that was granted.

**Proof sketch.** By induction over the requests: what is found after the first one is what was
there or what this request was granted, and the rest only adds to that. -/
theorem look_serveAll {β : Type} (look : Registry → Option β)
    (granted : Request × Answer → Option β)
    (hstep : ∀ r q, look (r.serve q).1 = (look r).or (granted (q, (r.serve q).2)))
    (r : Registry) (requests : List Request) :
    look (r.serveAll requests).1 =
      (look r).or ((r.serveAll requests).2.findSome? granted) := by
  induction requests generalizing r with
  | nil => exact (Option.or_none).symm
  | cons q rest ih =>
    show look ((r.serve q).1.serveAll rest).1 =
      (look r).or (((q, (r.serve q).2) :: ((r.serve q).1.serveAll rest).2).findSome? granted)
    rw [ih, hstep, Option.or_assoc, List.findSome?_cons]
    cases granted (q, (r.serve q).2) with
    | none => rfl
    | some b => rfl

/-- After any requests an extension addon is looked up among the former ones first, and then among
the registrations that were granted. -/
lemma extension?_serveAll (r : Registry) (requests : List Request) (name : String) :
    (r.serveAll requests).1.extension? name =
      (r.extension? name).or (firstExtension? (r.serveAll requests).2 name) :=
  look_serveAll (extension? · name) (grantedExtension? name) (extension?_serve name) r requests

/-- After any requests a group addon is looked up among the former ones first, and then among the
registrations that were granted. -/
lemma group?_serveAll (r : Registry) (requests : List Request) (name : String) :
    (r.serveAll requests).1.group? name =
      (r.group? name).or ((r.serveAll requests).2.findSome? (grantedGroup? name)) :=
  look_serveAll (group? · name) (grantedGroup? name) (group?_serve name) r requests

/-- To begin with there are no extension addons. -/
lemma extension?_registry (o : Origin) (name : String) : o.registry.extension? name = none := by
  cases o with
  | empty => rfl
  | withDefaults => rfl

/-- To begin with there are the group addons that the origin of a registry provides. -/
lemma group?_registry (o : Origin) (name : String) : o.registry.group? name = o.group? name := by
  cases o with
  | empty => rfl
  | withDefaults =>
    show [(defaultGroupAddon, defaultGroup)].lookup name = _
    rw [← List.nil_append [(defaultGroupAddon, defaultGroup)], lookup_concat]
    unfold Origin.group?
    rw [List.lookup_nil, Option.none_or]
    exact if_congr eq_comm rfl rfl

/-! ## Answers -/

/-- **A group keeps the name that it was asked for with**, or it is not handed out.

**Proof sketch.** By cases on what the addon makes: an error passes through, a group of the right
name is handed out, and one of another name becomes the error that says so. -/
theorem awaits_check (addon name : String) (built : Creation) :
    Awaits addon name built { built with result := built.result.bind (checkName addon name) } := by
  obtain ⟨delay, result⟩ := built
  cases result with
  | error e => exact ⟨rfl, by simp [Except.bind], by simp [Except.bind]⟩
  | ok g =>
    by_cases hg : g.name = name
    · have hcheck : checkName addon name g = .ok g := if_pos hg
      refine ⟨rfl, fun g' => ?_, fun e => ?_⟩
      · simp only [Except.bind, hcheck, Except.ok.injEq]
        exact ⟨fun h => ⟨h, h ▸ hg⟩, fun h => h.1⟩
      · simp only [Except.bind, hcheck, reduceCtorEq, Except.ok.injEq, false_or, false_iff]
        rintro ⟨_, rfl, hne, -⟩
        exact hne hg
    · have hcheck : checkName addon name g = .error (.groupCreationFailed ("addon '" ++ addon ++
          "' was asked for '" ++ name ++ "' but built '" ++ g.name ++ "'")) := if_neg hg
      refine ⟨rfl, fun g' => ?_, fun e => ?_⟩
      · simp only [Except.bind, hcheck, reduceCtorEq, Except.ok.injEq, false_iff]
        rintro ⟨rfl, hname⟩
        exact hg hname
      · simp only [Except.bind, hcheck, reduceCtorEq, Except.ok.injEq, Except.error.injEq, false_or]
        constructor
        · rintro rfl
          exact ⟨g, rfl, hg, rfl⟩
        · rintro ⟨_, rfl, -, rfl⟩
          rfl

/-- A registration is refused exactly if the name is taken, and granted exactly if it is free. -/
lemma registration_iff {β : Type} (found : Option β) (r r' : Registry) (name : String) :
    ((if found.isSome then (r, Answer.registration (.error (.addonAlreadyRegistered name)))
        else (r', .registration (.ok ()))).2 =
      .registration (.error (.addonAlreadyRegistered name)) ↔ found.isSome) ∧
    ((if found.isSome then (r, Answer.registration (.error (.addonAlreadyRegistered name)))
        else (r', .registration (.ok ()))).2 = .registration (.ok ()) ↔ found = none) := by
  cases found with
  | none => simp
  | some b => simp

/-- Only a registration that is not refused changes anything. -/
lemma serve_unchanged (q : Request) (h : (r.serve q).2 ≠ .registration (.ok ())) :
    (r.serve q).1 = r := by
  have hregister (result : Except Error Registry)
      (h : (r.register result).2 ≠ .registration (.ok ())) : (r.register result).1 = r := by
    cases result with
    | ok r' => exact absurd rfl h
    | error e => rfl
  cases q with
  | registerExtension name addon => exact hregister _ h
  | registerGroup name addon => exact hregister _ h
  | createExtension | createGroup => rfl

/-- A group is built by the addon of the table, and keeps its name or is not handed out. -/
lemma serve_createGroup {addon : String} {build : GroupAddon} (h : r.group? addon = some build)
    (name : String) : ∃ awaited, (r.serve (.createGroup addon name)).2 = .group (.ok awaited) ∧
      Awaits addon name (build name) awaited := by
  refine ⟨_, ?_, awaits_check addon name (build name)⟩
  show Answer.group (r.createGroup addon name) = _
  rw [createGroup, h]

/-- An extension addon of the table stays what it is. -/
lemma serve_createExtension_serveAll {addon : String} (h : (r.extension? addon).isSome)
    (later : List Request) (occasion : Occasion) (name : String) :
    ((r.serveAll later).1.serve (.createExtension occasion addon name)).2 =
      (r.serve (.createExtension occasion addon name)).2 := by
  obtain ⟨build, hbuild⟩ := Option.isSome_iff_exists.1 h
  have hlater : (r.serveAll later).1.extension? addon = some build := by
    rw [extension?_serveAll, hbuild, Option.some_or]
  show Answer.extension ((r.serveAll later).1.createExtension occasion addon name) =
    .extension (r.createExtension occasion addon name)
  rw [createExtension, createExtension, hlater, hbuild]

/-- So does a group addon. -/
lemma serve_createGroup_serveAll {addon : String} (h : (r.group? addon).isSome)
    (later : List Request) (name : String) :
    ((r.serveAll later).1.serve (.createGroup addon name)).2 =
      (r.serve (.createGroup addon name)).2 := by
  obtain ⟨build, hbuild⟩ := Option.isSome_iff_exists.1 h
  have hlater : (r.serveAll later).1.group? addon = some build := by
    rw [group?_serveAll, hbuild, Option.some_or]
  show Answer.group ((r.serveAll later).1.createGroup addon name) =
    .group (r.createGroup addon name)
  rw [createGroup, createGroup, hlater, hbuild]

/-- **The first registration of a name wins**, whatever a registry was asked before and will be
asked later.

**Proof sketch.** What a name means is what was granted first under it, for extensions and groups
alike, by induction on the requests. Each field then follows from the answer to a single request,
and the last one from the fact that later requests do not change what is taken. -/
theorem first_registration_wins (o : Origin) (requests : List Request) :
    FirstWins o (o.registry.serveAll requests).2 (o.registry.serveAll requests).1 := by
  have hextension (name : String) : (o.registry.serveAll requests).1.extension? name =
      firstExtension? (o.registry.serveAll requests).2 name := by
    rw [extension?_serveAll, extension?_registry, Option.none_or]
  have hgroup (name : String) : (o.registry.serveAll requests).1.group? name =
      firstGroup? o (o.registry.serveAll requests).2 name := by
    rw [group?_serveAll, group?_registry, firstGroup?]
  -- From here on, all that counts is that the table says what the history says.
  generalize (o.registry.serveAll requests).1 = r, (o.registry.serveAll requests).2 = history
    at hextension hgroup ⊢
  constructor
  case extensionRefused =>
    intro name addon
    rw [serve_registerExtension, hextension]
    exact (registration_iff _ _ _ name).1
  case extensionGranted =>
    intro name addon
    rw [serve_registerExtension, hextension]
    exact (registration_iff _ _ _ name).2
  case groupRefused =>
    intro name addon
    rw [serve_registerGroup, hgroup]
    exact (registration_iff _ _ _ name).1
  case groupGranted =>
    intro name addon
    rw [serve_registerGroup, hgroup]
    exact (registration_iff _ _ _ name).2
  case unchanged => exact fun q => serve_unchanged q
  case extensionCreated =>
    intro occasion addon name
    rw [← hextension]
    show Answer.extension (r.createExtension occasion addon name) = _
    rw [createExtension]
    cases r.extension? addon with
    | none => rfl
    | some build => rfl
  case groupCreated =>
    intro addon name build hbuild
    rw [← hgroup] at hbuild
    exact serve_createGroup hbuild name
  case groupUnknown =>
    intro addon name hnone
    rw [← hgroup] at hnone
    show Answer.group (r.createGroup addon name) = _
    rw [createGroup, hnone]
  case lasting =>
    intro later addon name
    rw [← hextension, ← hgroup]
    exact ⟨fun htaken occasion => serve_createExtension_serveAll htaken later occasion name,
      fun htaken => serve_createGroup_serveAll htaken later name⟩

end ExtensionGraph.Registry
