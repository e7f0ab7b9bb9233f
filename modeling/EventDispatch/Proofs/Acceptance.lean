import EventDispatch.Processor
import EventDispatch.Proofs.SourceHistory

/-!
# Which configurations are accepted

A configuration makes a processor or is refused as a whole, and many things can be wrong with it at once: names
that are blank, kinds that nobody registered, attributes that do not fit, workers that cannot be made. Here all
these checks stand in one list, in the order in which they are made. The making succeeds if no check objects to
anything, and otherwise the first objection is the error.

The order is this. The names of the runtime and of the triggers, and the numbers of workers, are checked before
anything is looked up. Then the kind of runtime is looked up. Only then are the sources made, one after the other,
each with all its checks: kind, attributes, what the kind demands of them, and workers by their indices.

## Main definitions

* `SourceKind`: the kinds of sources, each with its settings, what it demands of them, and its workers.
* `ProcessorSettings.objections`: the objections of all checks, in order.
* `ProcessorSettings.Acceptable`: nothing is wrong.
* `Processor.Prescribed`: the processor that an acceptable configuration asks for.

## Main results

* `SourceKind.factory_of_checked`: the factories of all kinds do the same, each with what its kind prescribes.
* `Processor.refusal?_new`: the error is the first objection.
* `Processor.verdict_new`: the law, for every configuration and every table of runtimes.
-/

namespace EventDispatch

/-! ### Objections -/

/-- The error of a result that has none is nothing. -/
def refusal? {ε α : Type} : Except ε α → Option ε
  | .error e => some e
  | .ok _ => none

/-- What a check objects to, if it does. -/
def objectIf {ε : Type} (p : Prop) [Decidable p] (e : ε) : Option ε := if p then some e else none

section Objections

variable {ε α β : Type} {result : Except ε α} {e : ε}

@[simp] theorem refusal?_ok (x : α) : refusal? (.ok x : Except ε α) = none := rfl

@[simp] theorem refusal?_error (e : ε) : refusal? (.error e : Except ε α) = some e := rfl

@[simp] theorem refusal?_map (f : α → β) (result : Except ε α) : refusal? (result.map f) = refusal? result := by
  cases result <;> rfl

theorem refusal?_eq_some_iff : refusal? result = some e ↔ result = .error e := by
  cases result <;> simp

theorem refusal?_eq_none_iff : refusal? result = none ↔ ∃ x, result = .ok x := by
  cases result <;> simp

/-- The first objection, if there is one. -/
def firstObjection (objections : List (Option ε)) : Option ε := objections.findSome? id

theorem firstObjection_append (first second : List (Option ε)) :
    firstObjection (first ++ second) = (firstObjection first).or (firstObjection second) := List.findSome?_append

theorem firstObjection_eq_none_iff {objections : List (Option ε)} :
    firstObjection objections = none ↔ ∀ o ∈ objections, o = none := List.findSome?_eq_none_iff

/-- The first objection is one before which there is none. -/
theorem firstObjection_eq_some_iff {objections : List (Option ε)} : firstObjection objections = some e ↔
    ∃ before after, objections = before ++ some e :: after ∧ ∀ o ∈ before, o = none := by
  rw [firstObjection, List.findSome?_eq_some_iff]
  constructor
  · rintro ⟨before, o, after, heq, rfl, hbefore⟩
    exact ⟨before, after, heq, hbefore⟩
  · rintro ⟨before, after, heq, hbefore⟩
    exact ⟨before, some e, after, heq, rfl, hbefore⟩

theorem firstObjection_map {ε' : Type} (f : ε → ε') (objections : List (Option ε)) :
    firstObjection (objections.map (Option.map f)) = (firstObjection objections).map f := by
  rw [firstObjection, firstObjection, List.findSome?_map, List.map_findSome?]
  rfl

theorem objectIf_eq_none_iff {p : Prop} [Decidable p] : objectIf p e = none ↔ ¬ p := by
  rw [objectIf, ite_eq_right_iff]
  exact forall_congr' fun _ => iff_of_false (Option.some_ne_none e) not_false

end Objections

/-- A trigger and what is wrong with its attributes. -/
def Error.ofTrigger (id reason : String) : Error := .configuration ("Trigger '" ++ id ++ "': " ++ reason)

/-! ### Kinds -/

/-- The kinds of sources. -/
inductive SourceKind where
  | http
  | generator
  | nats
  | rabbitMq
  | kinesis
  | itemPoller
deriving DecidableEq, Repr

namespace SourceKind

/-- The name under which a kind is registered. -/
def name : SourceKind → String
  | http => "http"
  | generator => "generator"
  | nats => "nats"
  | rabbitMq => "rabbit-mq"
  | kinesis => "kinesis"
  | itemPoller => "v3io-item-poller"

/-- What makes the sources of a kind. -/
def factory (processors : Nat) : SourceKind → SourceFactory
  | http => .http
  | generator => .generator
  | nats => .nats processors
  | rabbitMq => .rabbitMq
  | kinesis => .kinesis
  | itemPoller => .itemPoller

/-- The settings of a kind. -/
abbrev Settings : SourceKind → Type
  | http => HttpSettings
  | generator => GeneratorSettings
  | nats | rabbitMq => QueueSettings
  | kinesis => StreamSettings
  | itemPoller => ItemPollSettings

/-- How the settings of a kind are read from attributes. -/
def decode : (k : SourceKind) → Decoder k.Settings
  | http => HttpSettings.decode
  | generator => GeneratorSettings.decode
  | nats | rabbitMq => QueueSettings.decode
  | kinesis => StreamSettings.decode
  | itemPoller => ItemPollSettings.decode

/-- What the factory of a kind checks. -/
def check : (k : SourceKind) → String → k.Settings → Except Error Unit
  | http => HttpSettings.check
  | generator => GeneratorSettings.check
  | nats | rabbitMq => fun _ _ => .ok ()
  | kinesis => StreamSettings.check
  | itemPoller => ItemPollSettings.check

/-- What a kind demands of its settings. -/
def Accepts : (k : SourceKind) → k.Settings → Prop
  | http, s => 0 < s.maxInFlight
  | generator, s => s.minDelay ≤ s.maxDelay
  | nats, _ | rabbitMq, _ => True
  | kinesis, s => s.shards ≠ [] ∧ s.shards.Nodup
  | itemPoller, s => s.paths ≠ [] ∧ s.shardId < s.totalShards ∧ 0 < s.pageSize

/-- What is wrong with the settings of a kind, demand by demand. -/
def objections (id : String) : (k : SourceKind) → k.Settings → List (Option Error)
  | http, s => [objectIf (s.maxInFlight = 0) (.ofTrigger id "max_in_flight must be greater than zero")]
  | generator, s =>
    [objectIf (s.maxDelay < s.minDelay) (.ofTrigger id ("min_delay_ms (" ++ toString s.minDelay ++
      ") exceeds max_delay_ms (" ++ toString s.maxDelay ++ ")"))]
  | nats, _ | rabbitMq, _ => []
  | kinesis, s =>
    [objectIf (s.shards = []) (.ofTrigger id "at least one shard is required"),
      objectIf (¬ s.shards.Nodup) (.ofTrigger id ("shard IDs must be unique, got " ++ Text.listed s.shards))]
  | itemPoller, s =>
    [objectIf (s.paths = []) (.ofTrigger id "at least one path is required"),
      objectIf (s.totalShards ≤ s.shardId) (.ofTrigger id ("shard_id " ++ toString s.shardId ++
        " out of range for " ++ toString s.totalShards ++ " total shards")),
      objectIf (s.pageSize = 0) (.ofTrigger id "page_size must be greater than zero")]

/-- How the workers of a kind are used. -/
def sharing : SourceKind → Sharing
  | http | generator | nats | itemPoller => .shared
  | rabbitMq => .single
  | kinesis => .exclusive

/-- The number of workers that a kind prescribes for a trigger. -/
def workers (processors : Nat) (t : TriggerSettings) : (k : SourceKind) → k.Settings → Nat
  | http, _ | generator, _ | itemPoller, _ => t.numWorkers.getD 1
  | nats, _ => t.numWorkers.getD processors
  | rabbitMq, _ => 1
  | kinesis, s => s.shards.length

/-- The source of a kind with its settings and its crew. -/
def source (id : String) (t : TriggerSettings) : (k : SourceKind) → k.Settings → Crew → Source
  | http, s, crew => .http (.new ⟨id, "http", .sync⟩ s t.workerTimeout crew)
  | generator, s, crew => .generator (.new ⟨id, "generator", .async⟩ s t.workerTimeout crew)
  | nats, s, crew => .queue (.new ⟨id, "nats", .async⟩ s .never t.workerTimeout crew)
  | rabbitMq, s, crew => .queue (.new ⟨id, "rabbit-mq", .async⟩ s .onSubmitSuccess t.workerTimeout crew)
  | kinesis, s, crew => .stream (.new ⟨id, "kinesis", .async⟩ s crew)
  | itemPoller, s, crew =>
    .poll (.new ⟨id, "v3io-item-poller", .async⟩ (.items (.new id s)) s.poll t.workerTimeout crew)

/-- All kinds. -/
def all : List SourceKind := [http, generator, nats, rabbitMq, kinesis, itemPoller]

/-- The kind of a name. -/
def ofName? (name : String) : Option SourceKind := all.find? fun k => k.name = name

theorem mem_all (k : SourceKind) : k ∈ all := by
  cases k <;> decide

theorem name_injective {k k' : SourceKind} (h : k.name = k'.name) : k = k' := by
  revert h
  cases k <;> cases k' <;> decide

theorem ofName?_eq_some_iff {k : SourceKind} {text : String} : ofName? text = some k ↔ k.name = text := by
  rw [ofName?]
  constructor
  · intro h
    simpa using List.find?_some h
  · rintro rfl
    obtain ⟨found, hfound⟩ := Option.isSome_iff_exists.mp
      (List.find?_isSome (p := fun found => found.name = k.name) |>.mpr ⟨k, mem_all k, decide_eq_true rfl⟩)
    have hname : found.name = k.name := by simpa using List.find?_some hfound
    rw [hfound, name_injective hname]

/-- The demands of a kind are met if there is no objection. -/
theorem objections_eq_none_iff (id : String) (k : SourceKind) (s : k.Settings) :
    (∀ o ∈ k.objections id s, o = none) ↔ k.Accepts s := by
  cases k <;> simp [objections, Accepts, objectIf_eq_none_iff, Nat.pos_iff_ne_zero]

/-- A check fails with the first objection. -/
theorem refusal?_check (id : String) (k : SourceKind) (s : k.Settings) :
    refusal? (k.check id s) = firstObjection (k.objections id s) := by
  cases k with
  | http =>
    simp only [check, HttpSettings.check, objections, firstObjection, objectIf]
    split_ifs <;> rfl
  | generator =>
    simp only [check, GeneratorSettings.check, objections, firstObjection, objectIf]
    split_ifs <;> rfl
  | nats | rabbitMq => rfl
  | kinesis =>
    simp only [check, StreamSettings.check, objections, firstObjection, objectIf, List.isEmpty_iff]
    split_ifs <;> rfl
  | itemPoller =>
    simp only [check, ItemPollSettings.check, objections, firstObjection, objectIf, List.isEmpty_iff]
    split_ifs <;> rfl

/-- The crew that a kind prescribes has the workers that it prescribes. -/
theorem index_members (processors : Nat) (t : TriggerSettings) (k : SourceKind) (s : k.Settings) :
    (Crew.ofCount k.sharing (k.workers processors t s)).members.map Worker.index =
      List.range (k.workers processors t s) := by
  have hofIndices (sharing : Sharing) (indices : List Nat) :
      (Crew.ofIndices sharing indices).members.map Worker.index = indices := by
    simp only [Crew.ofIndices, List.map_map]
    exact List.zipIdx_map_fst 0 indices
  cases k with
  | rabbitMq => rfl
  | http | generator | nats | kinesis | itemPoller => exact hofIndices _ _

/-- A source tells its id and its kind, and has the crew that it is made with. -/
theorem desk_source (id : String) (t : TriggerSettings) (k : SourceKind) (s : k.Settings) (crew : Crew) :
    (k.source id t s crew).info.id = id ∧ (k.source id t s crew).info.kind = k.name ∧
      (k.source id t s crew).desk.crew = crew := by
  cases k <;> exact ⟨rfl, rfl, rfl⟩

end SourceKind

/-! ### Workers -/

/-- Workers are made in the order of their indices, up to the first that is refused. -/
theorem refusal?_createWorkers (refuse : Nat → Option Error) (index count : Nat) :
    refusal? (createWorkers refuse index count) = firstObjection ((List.range' index count).map refuse) := by
  induction count generalizing index with
  | zero => rfl
  | succ count ih =>
    rw [createWorkers, List.range'_succ, List.map_cons, firstObjection, List.findSome?_cons]
    cases hrefuse : refuse index with
    | some e => rfl
    | none =>
      rw [← firstObjection, ← ih (index + 1)]
      exact refusal?_map _ _

theorem range'_of_createWorkers {refuse : Nat → Option Error} {index count : Nat} {indices : List Nat}
    (h : createWorkers refuse index count = .ok indices) : indices = List.range' index count := by
  induction count generalizing index indices with
  | zero =>
    cases h
    rfl
  | succ count ih =>
    rw [createWorkers] at h
    split at h
    · cases h
    · obtain ⟨rest, hrest, rfl⟩ := exists_of_map_eq_ok h
      rw [ih hrest, List.range'_succ]

namespace Workshop

variable {sharing : Sharing} {count : Nat} {w : Workshop} {crew : Crew}

/-- A crew is refused if one of its workers is. -/
theorem refusal?_crew (sharing : Sharing) (count : Nat) (w : Workshop) : refusal? (w.crew sharing count) =
    firstObjection ((List.range (if sharing = .single then 1 else count)).map (w.runtime.refuses w.settings)) := by
  rw [List.range_eq_range']
  cases sharing <;> exact (refusal?_map _ _).trans (refusal?_createWorkers _ 0 _)

/-- A crew that is made has the workers it was asked for. -/
theorem crew_eq_ofCount (h : w.crew sharing count = .ok crew) : crew = .ofCount sharing count := by
  obtain ⟨indices, hindices, rfl⟩ := exists_of_map_eq_ok h
  rw [range'_of_createWorkers hindices, ← List.range_eq_range']
  cases sharing <;> rfl

end Workshop

/-! ### Triggers -/

namespace TriggerSettings

variable {t : TriggerSettings} {processors : Nat}

/-- What is wrong with a trigger on its own. -/
def validationObjections (id : String) (t : TriggerSettings) : List (Option ConfigError) :=
  [objectIf (Text.isBlank t.kind = true) (.missingField "kind" ("trigger '" ++ id ++ "'")),
    objectIf (t.numWorkers = some 0)
      (.invalidValue "num_workers" ("trigger '" ++ id ++ "' needs at least one worker"))]

/-- What stands in the way of making the source of a trigger: the kind is unknown, or the attributes are none of
the kind, or the kind demands something else of them, or a worker is refused. -/
def objections (processors : Nat) (refuses : Nat → Option Error) (id : String) (t : TriggerSettings) :
    List (Option Error) :=
  match SourceKind.ofName? t.kind with
  | none => [some (.unknownKind t.kind)]
  | some k =>
    match k.decode (.obj t.attributes) with
    | .error e => [some (.ofConfig (.invalidAttributes id e.message))]
    | .ok settings =>
      k.objections id settings ++ (List.range (k.workers processors t settings)).map refuses

/-- A source can be made of a trigger. -/
def Makeable (processors : Nat) (refuses : Nat → Option Error) (t : TriggerSettings) : Prop :=
  ∃ (k : SourceKind) (settings : k.Settings), k.name = t.kind ∧ k.decode (.obj t.attributes) = .ok settings ∧
    k.Accepts settings ∧ ∀ index < k.workers processors t settings, refuses index = none

theorem refusal?_workerCount (id : String) (t : TriggerSettings) : refusal? (t.workerCount id 1) =
    objectIf (t.numWorkers = some 0)
      (.invalidValue "num_workers" ("trigger '" ++ id ++ "' needs at least one worker")) := by
  rw [workerCount, objectIf]
  cases t.numWorkers with
  | none => rfl
  | some count => cases count <;> rfl

section Attributes

variable {α : Type} {decoder : Decoder α} {check : String → α → Except Error Unit}

/-- Attributes that are none of the kind are refused as such. -/
theorem checked_of_misfit {e : DecodeError} (h : decoder (.obj t.attributes) = .error e) (id : String) :
    t.checked id decoder check = .error (.ofConfig (.invalidAttributes id e.message)) := by
  rw [checked, typed, h]

/-- Attributes that are read are checked. -/
theorem checked_of_decoded {settings : α} (h : decoder (.obj t.attributes) = .ok settings) (id : String) :
    t.checked id decoder check = (check id settings).map fun _ => settings := by
  rw [checked, typed, h]

end Attributes

/-- A trigger that does not ask for zero workers gets the number that it asks for. -/
theorem sharedCrew_eq {default : Nat} (hcount : t.numWorkers ≠ some 0) (hdefault : 0 < default) (id : String)
    (w : Workshop) : t.sharedCrew id default w = w.crew .shared (t.numWorkers.getD default) := by
  have hne : t.numWorkers.getD default ≠ 0 := by
    intro h
    cases hn : t.numWorkers with
    | none => exact hdefault.ne' (by simpa [hn] using h)
    | some count => exact hcount (by simpa [hn] using h)
  rw [sharedCrew, workerCount]
  simp only [if_neg hne]

/-- A source can be made if there is no objection. -/
theorem objections_eq_none_iff (refuses : Nat → Option Error) (id : String) (t : TriggerSettings) :
    (∀ o ∈ t.objections processors refuses id, o = none) ↔ t.Makeable processors refuses := by
  rw [objections, Makeable]
  cases hkind : SourceKind.ofName? t.kind with
  | none =>
    refine iff_of_false (by simp) ?_
    rintro ⟨k, -, hname, -⟩
    rw [SourceKind.ofName?_eq_some_iff.mpr hname] at hkind
    cases hkind
  | some k =>
    have hname := SourceKind.ofName?_eq_some_iff.mp hkind
    have hunique {k' : SourceKind} (h : k'.name = t.kind) : k' = k :=
      SourceKind.name_injective (h.trans hname.symm)
    cases hdecode : k.decode (.obj t.attributes) with
    | error e =>
      simp only [hdecode]
      refine iff_of_false (by simp) ?_
      rintro ⟨k', settings, hname', hdecode', -⟩
      obtain rfl := hunique hname'
      rw [hdecode] at hdecode'
      cases hdecode'
    | ok settings =>
      simp only [hdecode, List.forall_mem_append, SourceKind.objections_eq_none_iff, List.forall_mem_map,
        List.mem_range]
      constructor
      · rintro ⟨haccepts, hworkers⟩
        exact ⟨k, settings, hname, hdecode, haccepts, hworkers⟩
      · rintro ⟨k', settings', hname', hdecode', haccepts, hworkers⟩
        obtain rfl := hunique hname'
        obtain rfl := Except.ok.inj (hdecode.symm.trans hdecode')
        exact ⟨haccepts, hworkers⟩

end TriggerSettings

namespace SourceKind

variable {processors : Nat} {t : TriggerSettings}

/-- The attributes are read as the settings of the kind, and checked, before anything else. -/
theorem factory_of_error {k : SourceKind} {id : String} {e : Error} (h : t.checked id k.decode k.check = .error e)
    (w : Workshop) : k.factory processors id t w = .error e := by
  cases k <;> simp only [factory, SourceFactory.http, SourceFactory.generator, SourceFactory.nats,
    SourceFactory.rabbitMq, SourceFactory.kinesis, SourceFactory.itemPoller] <;> split
  -- each factory has a match of its own, on the same result as `h`
  all_goals next heq => cases heq.symm.trans h <;> rfl

/-- **What the factories make**: with settings that pass the checks, the source of the kind with the crew that the
kind prescribes. -/
theorem factory_of_checked (hprocessors : 0 < processors) (hcount : t.numWorkers ≠ some 0) {k : SourceKind}
    {id : String} {settings : k.Settings} (h : t.checked id k.decode k.check = .ok settings) (w : Workshop) :
    k.factory processors id t w =
      (w.crew k.sharing (k.workers processors t settings)).map (k.source id t settings) := by
  have hshared {default : Nat} (hdefault : 0 < default) := TriggerSettings.sharedCrew_eq hcount hdefault id w
  cases k <;> simp only [factory, SourceFactory.http, SourceFactory.generator, SourceFactory.nats,
    SourceFactory.rabbitMq, SourceFactory.kinesis, SourceFactory.itemPoller, hshared Nat.one_pos,
    hshared hprocessors] <;> split
  all_goals next heq => cases heq.symm.trans h <;> rfl

/-- The crew of a kind is as large as the kind prescribes. -/
theorem size_eq_workers (k : SourceKind) (s : k.Settings) :
    (if k.sharing = .single then 1 else k.workers processors t s) = k.workers processors t s := by
  cases k <;> rfl

/-- A source is refused for the first objection to its trigger. -/
theorem refusal?_factory (hprocessors : 0 < processors) (hcount : t.numWorkers ≠ some 0) {k : SourceKind}
    (hname : k.name = t.kind) (id : String) (w : Workshop) : refusal? (k.factory processors id t w) =
      firstObjection (t.objections processors (w.runtime.refuses w.settings) id) := by
  rw [TriggerSettings.objections, ofName?_eq_some_iff.mpr hname]
  cases hdecode : k.decode (.obj t.attributes) with
  | error e =>
    rw [factory_of_error (TriggerSettings.checked_of_misfit hdecode id)]
    simp [hdecode, firstObjection]
  | ok settings =>
    have hchecked : t.checked id k.decode k.check = (k.check id settings).map fun _ => settings :=
      TriggerSettings.checked_of_decoded hdecode id
    simp only [hdecode, firstObjection_append, ← refusal?_check]
    cases hcheck : k.check id settings with
    | error e =>
      rw [hcheck] at hchecked
      rw [factory_of_error hchecked]
      rfl
    | ok checked =>
      rw [hcheck] at hchecked
      rw [factory_of_checked hprocessors hcount hchecked, refusal?_map, Workshop.refusal?_crew, size_eq_workers]
      rfl

/-- What a factory makes. -/
theorem source_of_factory (hprocessors : 0 < processors) (hcount : t.numWorkers ≠ some 0) {k : SourceKind}
    {id : String} {w : Workshop} {made : Source} (h : k.factory processors id t w = .ok made) :
    ∃ settings, k.decode (.obj t.attributes) = .ok settings ∧
      made = k.source id t settings (.ofCount k.sharing (k.workers processors t settings)) := by
  cases hchecked : t.checked id k.decode k.check with
  | error e =>
    rw [factory_of_error hchecked] at h
    cases h
  | ok settings =>
    rw [factory_of_checked hprocessors hcount hchecked] at h
    obtain ⟨crew, hcrew, rfl⟩ := exists_of_map_eq_ok h
    rw [Workshop.crew_eq_ofCount hcrew]
    cases hdecode : k.decode (.obj t.attributes) with
    | error e =>
      rw [TriggerSettings.checked_of_misfit hdecode] at hchecked
      cases hchecked
    | ok decoded =>
      rw [TriggerSettings.checked_of_decoded hdecode] at hchecked
      obtain ⟨-, -, rfl⟩ := exists_of_map_eq_ok hchecked
      exact ⟨decoded, rfl, rfl⟩

end SourceKind

/-! ### Tables -/

/-- The tables with all kinds of sources, those of the clients that are kept in memory included, and with any
kinds of runtimes. -/
def Registries.complete (processors : Nat) (runtimes : Registry RuntimeFactory) :
    Registries SourceFactory RuntimeFactory :=
  { (Registries.builtin.registerSources (brokerSources processors ++ streamSources ++ itemSources)).2 with runtimes }

namespace Registries

variable {processors : Nat} {runtimes : Registry RuntimeFactory} {kind : String}

theorem entries_complete (processors : Nat) (runtimes : Registry RuntimeFactory) :
    (complete processors runtimes).sources.entries = [("generator", .generator), ("http", .http),
      ("kinesis", .kinesis), ("nats", .nats processors), ("rabbit-mq", .rabbitMq),
      ("v3io-item-poller", .itemPoller)] := rfl

/-- The tables have the factory of every kind under its name. -/
theorem get_complete_name (k : SourceKind) :
    (complete processors runtimes).sources.get k.name = .ok (k.factory processors) := by
  rw [Registry.get, entries_complete]
  cases k <;> rfl

/-- The tables have nothing under other names. -/
theorem get_complete_of_none (h : SourceKind.ofName? kind = none) :
    (complete processors runtimes).sources.get kind = .error (.unknownKind kind) := by
  have hne (k : SourceKind) : kind ≠ k.name := by
    rintro rfl
    rw [SourceKind.ofName?_eq_some_iff.mpr rfl] at h
    cases h
  have hnone : (complete processors runtimes).sources.entries.get? kind = none := by
    rw [entries_complete]
    simp [Keyed.get?, show kind ≠ "generator" from hne .generator, show kind ≠ "http" from hne .http,
      show kind ≠ "kinesis" from hne .kinesis, show kind ≠ "nats" from hne .nats,
      show kind ≠ "rabbit-mq" from hne .rabbitMq, show kind ≠ "v3io-item-poller" from hne .itemPoller]
  rw [Registry.get, hnone]

end Registries

/-! ### Configurations -/

namespace ProcessorSettings

variable {settings : ProcessorSettings}

/-- What is wrong with a configuration on its own, the triggers in order. -/
def validationObjections (settings : ProcessorSettings) : List (Option ConfigError) :=
  objectIf (Text.isBlank settings.runtime.kind = true) (.missingField "kind" "runtime") ::
    settings.triggers.flatMap fun entry => entry.2.validationObjections entry.1

/-- What stands in the way of making the sources, the triggers in order. -/
def makingObjections (processors : Nat) (runtime : RuntimeFactory) (settings : ProcessorSettings) :
    List (Option Error) :=
  settings.triggers.flatMap fun entry =>
    entry.2.objections processors (runtime.refuses settings.runtime) entry.1

/-- **All objections in the order of the checks**: those to the configuration on its own, then the one to the kind
of runtime, then those to making the sources. -/
def objections (processors : Nat) (runtimes : Registry RuntimeFactory) (settings : ProcessorSettings) :
    List (Option Error) :=
  settings.validationObjections.map (Option.map .ofConfig) ++
    match runtimes.entries.get? settings.runtime.kind with
    | none => [some (.unknownKind settings.runtime.kind)]
    | some runtime => settings.makingObjections processors runtime

/-- **What an acceptable configuration is.** -/
structure Acceptable (processors : Nat) (runtimes : Registry RuntimeFactory) (settings : ProcessorSettings) :
    Prop where
  runtimeNamed : Text.isBlank settings.runtime.kind = false
  /-- Every trigger names a kind, and none asks for zero workers. -/
  triggers : ∀ entry ∈ settings.triggers, Text.isBlank entry.2.kind = false ∧ entry.2.numWorkers ≠ some 0
  /-- The kind of runtime is registered, and with it a source can be made of every trigger. -/
  makeable : ∃ runtime, runtimes.entries.get? settings.runtime.kind = some runtime ∧
    ∀ entry ∈ settings.triggers, entry.2.Makeable processors (runtime.refuses settings.runtime)

theorem refusal?_validateTriggers (triggers : Keyed TriggerSettings) :
    refusal? (validateTriggers triggers) =
      firstObjection (triggers.flatMap fun entry => entry.2.validationObjections entry.1) := by
  induction triggers with
  | nil => rfl
  | cons entry rest ih =>
    obtain ⟨id, t⟩ := entry
    rw [List.flatMap_cons, firstObjection_append, ← ih, validateTriggers, TriggerSettings.validationObjections,
      ← TriggerSettings.refusal?_workerCount]
    by_cases hblank : Text.isBlank t.kind = true
    · simp [hblank, firstObjection, objectIf]
    · cases hcount : t.workerCount id 1 <;> simp [hblank, firstObjection, objectIf]

/-- A configuration is invalid for the first objection. -/
theorem refusal?_validate (settings : ProcessorSettings) :
    refusal? settings.validate = firstObjection settings.validationObjections := by
  rw [validate, validationObjections, firstObjection, List.findSome?_cons, ← firstObjection,
    ← refusal?_validateTriggers, objectIf]
  split_ifs <;> rfl

/-- A configuration is valid on its own if every kind has a name and no trigger asks for zero workers. -/
theorem validationObjections_eq_none_iff : (∀ o ∈ settings.validationObjections, o = none) ↔
    Text.isBlank settings.runtime.kind = false ∧
      ∀ entry ∈ settings.triggers, Text.isBlank entry.2.kind = false ∧ entry.2.numWorkers ≠ some 0 := by
  rw [validationObjections, List.forall_mem_cons, objectIf_eq_none_iff, Bool.not_eq_true, List.forall_mem_flatMap]
  refine and_congr_right fun _ => forall₂_congr fun entry _ => ?_
  simp [TriggerSettings.validationObjections, objectIf_eq_none_iff]

/-- A configuration is acceptable if there is no objection. -/
theorem objections_eq_none_iff {processors : Nat} {runtimes : Registry RuntimeFactory} :
    (∀ o ∈ settings.objections processors runtimes, o = none) ↔ settings.Acceptable processors runtimes := by
  rw [objections, List.forall_mem_append, List.forall_mem_map]
  simp only [Option.map_eq_none_iff, validationObjections_eq_none_iff]
  cases hruntime : runtimes.entries.get? settings.runtime.kind with
  | none =>
    refine iff_of_false (fun h => by simpa using h.2) fun h => ?_
    obtain ⟨runtime, hget, -⟩ := h.makeable
    rw [hruntime] at hget
    cases hget
  | some runtime =>
    have hmaking : (∀ o ∈ settings.makingObjections processors runtime, o = none) ↔
        ∀ entry ∈ settings.triggers, entry.2.Makeable processors (runtime.refuses settings.runtime) := by
      rw [makingObjections, List.forall_mem_flatMap]
      exact forall₂_congr fun entry _ => TriggerSettings.objections_eq_none_iff _ entry.1 entry.2
    simp only [hmaking]
    constructor
    · rintro ⟨⟨hnamed, htriggers⟩, hmakeable⟩
      exact ⟨hnamed, htriggers, runtime, hruntime, hmakeable⟩
    · rintro ⟨hnamed, htriggers, runtime', hget, hmakeable⟩
      obtain rfl := Option.some.inj (hruntime.symm.trans hget)
      exact ⟨⟨hnamed, htriggers⟩, hmakeable⟩

end ProcessorSettings

namespace Processor

variable {processors : Nat} {runtimes : Registry RuntimeFactory} {triggers : Keyed TriggerSettings}

/-- The making of sources stops at the first objection. -/
theorem refusal?_makeSources (hprocessors : 0 < processors) (w : Workshop)
    (hcounts : ∀ entry ∈ triggers, entry.2.numWorkers ≠ some 0) :
    refusal? (makeSources (Registries.complete processors runtimes).sources w triggers) =
      firstObjection (triggers.flatMap fun entry =>
        entry.2.objections processors (w.runtime.refuses w.settings) entry.1) := by
  induction triggers with
  | nil => rfl
  | cons entry rest ih =>
    obtain ⟨id, t⟩ := entry
    obtain ⟨hcount, hrest⟩ := List.forall_mem_cons.mp hcounts
    rw [List.flatMap_cons, firstObjection_append, ← ih hrest, makeSources]
    cases hkind : SourceKind.ofName? t.kind with
    | none =>
      rw [Registries.get_complete_of_none hkind, TriggerSettings.objections, hkind]
      rfl
    | some k =>
      have hname := SourceKind.ofName?_eq_some_iff.mp hkind
      rw [← hname, Registries.get_complete_name, ← SourceKind.refusal?_factory hprocessors hcount hname]
      cases hmade : k.factory processors id t w with
      | error e => simp [hmade]
      | ok made => simp [hmade]

/-- **The error is the first objection.** -/
theorem refusal?_new (hprocessors : 0 < processors) (runtimes : Registry RuntimeFactory)
    (settings : ProcessorSettings) : refusal? (new settings (.complete processors runtimes)) =
      firstObjection (settings.objections processors runtimes) := by
  rw [new, ProcessorSettings.objections, firstObjection_append, firstObjection_map,
    ← ProcessorSettings.refusal?_validate]
  cases hvalid : settings.validate with
  | error e => rfl
  | ok checked =>
    -- the factories may rely on the numbers of workers, which have been checked when it is their turn
    have hnone : firstObjection settings.validationObjections = none := by
      rw [← ProcessorSettings.refusal?_validate, hvalid]
      rfl
    have hvalid := ProcessorSettings.validationObjections_eq_none_iff.mp (firstObjection_eq_none_iff.mp hnone)
    have hcounts : ∀ entry ∈ settings.triggers, entry.2.numWorkers ≠ some 0 :=
      fun entry hm => (hvalid.2 entry hm).2
    rw [Registry.get]
    cases hruntime : runtimes.entries.get? settings.runtime.kind with
    | none => simp [Registries.complete, hruntime, firstObjection]
    | some runtime =>
      simp only [Registries.complete, hruntime, refusal?_ok, Option.map_none, Option.none_or, refusal?_map]
      exact refusal?_makeSources hprocessors ⟨runtime, settings.runtime⟩ hcounts

end Processor

/-! ### What is made -/

/-- The source that a trigger asks for: of the kind that it names, with the settings that its attributes say, and
with as many workers as the kind prescribes. -/
def Source.Prescribed (processors : Nat) (id : String) (t : TriggerSettings) (made : Source) : Prop :=
  ∃ (k : SourceKind) (settings : k.Settings), k.name = t.kind ∧ k.decode (.obj t.attributes) = .ok settings ∧
    made = k.source id t settings (.ofCount k.sharing (k.workers processors t settings)) ∧
    made.info.id = id ∧ made.info.kind = t.kind ∧
    made.desk.crew.members.map Worker.index = List.range (k.workers processors t settings)

namespace Processor

variable {processors : Nat} {runtimes : Registry RuntimeFactory} {triggers : Keyed TriggerSettings}

/-- The processor that a configuration asks for: it has not been started, and has one source for each trigger. -/
structure Prescribed (processors : Nat) (settings : ProcessorSettings) (p : Processor) : Prop where
  resting : p.running = false
  keys : p.sources.keys = settings.triggers.keys
  source : ∀ id t, settings.triggers.get? id = some t →
    ∃ made, p.sources.get? id = some made ∧ made.Prescribed processors id t

/-- What the making of a source that succeeds makes. -/
theorem prescribed_of_factory (hprocessors : 0 < processors) {t : TriggerSettings} (hcount : t.numWorkers ≠ some 0)
    {factory : SourceFactory} (hget : (Registries.complete processors runtimes).sources.get t.kind = .ok factory)
    {id : String} {w : Workshop} {made : Source} (h : factory id t w = .ok made) :
    made.Prescribed processors id t := by
  cases hkind : SourceKind.ofName? t.kind with
  | none =>
    rw [Registries.get_complete_of_none hkind] at hget
    cases hget
  | some k =>
    have hname := SourceKind.ofName?_eq_some_iff.mp hkind
    rw [← hname, Registries.get_complete_name] at hget
    obtain rfl := Except.ok.inj hget
    obtain ⟨settings, hdecode, rfl⟩ := SourceKind.source_of_factory hprocessors hcount h
    obtain ⟨hid, hkind, hcrew⟩ := k.desk_source id t settings (.ofCount k.sharing (k.workers processors t settings))
    refine ⟨k, settings, hname, hdecode, rfl, hid, hkind.trans hname, ?_⟩
    rw [hcrew]
    exact k.index_members processors t settings

/-- The making of sources that succeeds makes one for each trigger. -/
theorem prescribed_of_makeSources (hprocessors : 0 < processors) {w : Workshop} {sources : Keyed Source}
    (hcounts : ∀ entry ∈ triggers, entry.2.numWorkers ≠ some 0)
    (h : makeSources (Registries.complete processors runtimes).sources w triggers = .ok sources) :
    sources.keys = triggers.keys ∧ ∀ id t, triggers.get? id = some t →
      ∃ made, sources.get? id = some made ∧ made.Prescribed processors id t := by
  induction triggers generalizing sources with
  | nil =>
    cases h
    exact ⟨rfl, fun id t hget => by cases hget⟩
  | cons entry rest ih =>
    obtain ⟨id, t⟩ := entry
    obtain ⟨hcount, hrest⟩ := List.forall_mem_cons.mp hcounts
    rw [makeSources] at h
    split at h
    · cases h
    · rename_i factory hget
      split at h
      · cases h
      · rename_i made hmade
        obtain ⟨others, hothers, rfl⟩ := exists_of_map_eq_ok h
        obtain ⟨hkeys, hsources⟩ := ih hrest hothers
        refine ⟨congrArg (id :: ·) hkeys, fun id' t' hget' => ?_⟩
        rw [Keyed.get?] at hget' ⊢
        split_ifs at hget' ⊢ with heq
        · obtain rfl := Option.some.inj hget'
          subst heq
          exact ⟨made, rfl, prescribed_of_factory hprocessors hcount hget hmade⟩
        · exact hsources id' t' hget'

/-- **What is made of a configuration.** -/
theorem prescribed_of_new (hprocessors : 0 < processors) {settings : ProcessorSettings} {p : Processor}
    (h : new settings (.complete processors runtimes) = .ok p) : p.Prescribed processors settings := by
  have hacceptable : settings.Acceptable processors runtimes := by
    rw [← ProcessorSettings.objections_eq_none_iff, ← firstObjection_eq_none_iff, ← refusal?_new hprocessors, h]
    rfl
  rw [new] at h
  split at h
  · cases h
  · split at h
    · cases h
    · obtain ⟨sources, hsources, rfl⟩ := exists_of_map_eq_ok h
      obtain ⟨hkeys, hmade⟩ := prescribed_of_makeSources hprocessors
        (fun entry hm => (hacceptable.triggers entry hm).2) hsources
      exact ⟨rfl, hkeys, hmade⟩

/-- **What becomes of a configuration.** -/
structure Verdict (processors : Nat) (runtimes : Registry RuntimeFactory) (settings : ProcessorSettings)
    (result : Except Error Processor) : Prop where
  /-- A processor is made exactly if the configuration is acceptable. -/
  accepted : (∃ p, result = .ok p) ↔ settings.Acceptable processors runtimes
  /-- It is the one that the configuration asks for. -/
  prescribed : ∀ p, result = .ok p → p.Prescribed processors settings
  /-- Otherwise the error is the first objection. -/
  refused : ∀ e, result = .error e ↔ ∃ before after,
    settings.objections processors runtimes = before ++ some e :: after ∧ ∀ o ∈ before, o = none

/-- **The law of making processors.** On a machine with some processors, with all kinds of sources registered and
any runtimes, whatever the configuration says: a processor is made exactly if the configuration is acceptable, and
it is the one that the configuration asks for. Otherwise the error is the first objection. -/
theorem verdict_new (hprocessors : 0 < processors) (runtimes : Registry RuntimeFactory)
    (settings : ProcessorSettings) :
    Verdict processors runtimes settings (new settings (.complete processors runtimes)) where
  accepted := by
    rw [← refusal?_eq_none_iff, refusal?_new hprocessors, firstObjection_eq_none_iff,
      ProcessorSettings.objections_eq_none_iff]
  prescribed _ h := prescribed_of_new hprocessors h
  refused e := by
    rw [← refusal?_eq_some_iff, refusal?_new hprocessors, firstObjection_eq_some_iff]

/-- Of two triggers the first has a shard twice, and the second asks for zero workers, which is found first. With
other shards and another number of workers they make a processor. -/
theorem verdict_of_two_faults :
    let runtimes : Registry RuntimeFactory := ⟨"runtimes", [("echo", .echo)]⟩
    let settings (second : String) (workers : Nat) : ProcessorSettings := { triggers := [
      ("a", { kind := "kinesis"
              attributes := [("shards", .arr [.str "s", .str second]), ("stream_name", .str "st")] }),
      ("b", { kind := "http", numWorkers := some workers })] }
    0 < 2 ∧
      new (settings "s" 0) (.complete 2 runtimes) =
        .error (.ofConfig (.invalidValue "num_workers" "trigger 'b' needs at least one worker")) ∧
      ∃ p, new (settings "t" 3) (.complete 2 runtimes) = .ok p ∧ p.Prescribed 2 (settings "t" 3) := by
  intro runtimes settings
  have hfirst : firstObjection ((settings "s" 0).objections 2 runtimes) =
      some (.ofConfig (.invalidValue "num_workers" "trigger 'b' needs at least one worker")) := by decide +kernel
  have hnone : firstObjection ((settings "t" 3).objections 2 runtimes) = none := by decide +kernel
  have hacceptable : (settings "t" 3).Acceptable 2 runtimes :=
    ProcessorSettings.objections_eq_none_iff.mp (firstObjection_eq_none_iff.mp hnone)
  have hverdict := verdict_new Nat.two_pos runtimes (settings "t" 3)
  obtain ⟨p, hp⟩ := hverdict.accepted.mpr hacceptable
  exact ⟨Nat.two_pos, ((verdict_new Nat.two_pos runtimes (settings "s" 0)).refused _).mpr
    (firstObjection_eq_some_iff.mp hfirst), p, hp, hverdict.prescribed p hp⟩

end Processor

end EventDispatch
