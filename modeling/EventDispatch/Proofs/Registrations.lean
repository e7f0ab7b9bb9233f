import EventDispatch.Factory
import EventDispatch.Proofs.Tables
import Mathlib.Data.List.Induction
import Mathlib.Data.List.Nodup

/-!
# What registries hold

A kind is registered once, and what is registered for it first is what it stands for from then on. So a table
says nothing else than the list of the registrations that were accepted, in the order in which they came.

A registration that is refused changes nothing. The kinds that need a broker are registered by one call, the one
after the other, and here a refusal may come too late: when the first kind is free and the second is not, the
call fails and the first stays registered.

## What is deliberately absent

What a factory makes does not matter, and factories are of any type: no two of them need to be distinct, and a
table hands back the very one that was registered.

## Main definitions

* `Catalogue`: the tables of a processor, with the registrations that were accepted.
* `Catalogue.Call`: one call, and what it does to the tables.
* `Registry.Tells`: a table says what the registrations say.
* `Catalogue.Call.Halfway`: a call fails when it has registered something already.

## Main results

* `Registry.Tells.registered`: what several registrations make of a table.
* `Catalogue.truthful_of_calls`: the law, for every history of calls.
-/

namespace EventDispatch

/-! ### Tables and their kinds -/

namespace Keyed

variable {α : Type}

/-- The entry of a key is the first one under it. -/
theorem get?_eq_lookup (table : Keyed α) (key : String) : table.get? key = List.lookup key table := by
  induction table with
  | nil => rfl
  | cons entry rest ih =>
    obtain ⟨k, v⟩ := entry
    by_cases hk : key = k
    · subst hk
      simp [get?]
    · rw [get?, if_neg hk, List.lookup_cons, beq_false_of_ne hk, ih]

end Keyed

theorem lookup_eq_none_iff_notMem {α : Type} {log : List (String × α)} {kind : String} :
    log.lookup kind = none ↔ kind ∉ log.map Prod.fst := by
  rw [List.lookup_eq_none_iff, List.mem_map, not_exists]
  constructor
  · rintro h entry ⟨hentry, rfl⟩
    exact bne_iff_ne.mp (h entry hentry) rfl
  · intro h entry hentry
    exact bne_iff_ne.mpr fun heq => h entry ⟨hentry, heq.symm⟩

namespace Registry

variable {α : Type} {r r' : Registry α} {log : List (String × α)} {kind : String} {x : α} {e : Error}

/-- A table says what these registrations say. -/
structure Tells (log : List (String × α)) (r : Registry α) : Prop where
  sorted : r.entries.Sorted
  first : ∀ kind, r.entries.get? kind = log.lookup kind

theorem tells_entries (h : r.entries.Sorted) : r.Tells r.entries := ⟨h, r.entries.get?_eq_lookup⟩

theorem Tells.mem_kinds (h : r.Tells log) : kind ∈ r.kinds ↔ kind ∈ log.map Prod.fst := by
  rw [← not_iff_not, ← lookup_eq_none_iff_notMem, ← h.first, Keyed.get?_eq_lookup, lookup_eq_none_iff_notMem]
  rfl

theorem Tells.contains_iff (h : r.Tells log) : r.entries.contains kind = true ↔ kind ∈ r.kinds := by
  rw [h.mem_kinds, Keyed.contains, h.first, Option.isSome_iff_ne_none, ne_eq, lookup_eq_none_iff_notMem, not_not]

/-- A kind that is free is registered. -/
theorem Tells.register_of_free (h : r.Tells log) (hfree : kind ∉ r.kinds) :
    r.register kind x = .ok { r with entries := r.entries.insert kind x } := by
  rw [register, if_neg (h.contains_iff.not.mpr hfree)]

/-- A kind that is taken is refused. -/
theorem Tells.register_of_taken (h : r.Tells log) (htaken : kind ∈ r.kinds) :
    r.register kind x = .error (.duplicateKind kind) := by
  rw [register, if_pos (h.contains_iff.mpr htaken)]

/-- What a table gives for a kind. -/
theorem Tells.get_eq (h : r.Tells log) (kind : String) :
    r.get kind = (log.lookup kind).elim (.error (.unknownKind kind)) .ok := by
  rw [get, h.first]
  cases log.lookup kind <;> rfl

/-- A registration that is accepted comes after all others. -/
theorem Tells.register (h : r.Tells log) (hr : r.register kind x = .ok r') : r'.Tells (log ++ [(kind, x)]) := by
  by_cases hkind : kind ∈ r.kinds
  · rw [h.register_of_taken hkind] at hr
    cases hr
  · rw [h.register_of_free hkind] at hr
    cases hr
    refine ⟨h.sorted.insert kind x, fun k => ?_⟩
    have hnone : log.lookup kind = none := lookup_eq_none_iff_notMem.mpr (h.mem_kinds.not.mp hkind)
    rw [Keyed.get?_insert, List.lookup_append, List.lookup_cons, List.lookup_nil]
    by_cases hk : k = kind
    · subst hk
      simp [hnone]
    · rw [if_neg hk, beq_false_of_ne hk, Option.or_none, h.first]

/-! ### Several registrations -/

/-- The registrations that are accepted, of several that are tried in order until one is refused. -/
def accepted : List (String × α) → Registry α → List (String × α)
  | [], _ => []
  | (kind, x) :: rest, r =>
    match r.register kind x with
    | .error _ => []
    | .ok r => (kind, x) :: accepted rest r

/-- The table after these. -/
def registered : List (String × α) → Registry α → Registry α
  | [], r => r
  | (kind, x) :: rest, r =>
    match r.register kind x with
    | .error _ => r
    | .ok r => registered rest r

/-- **Several registrations**: those that are accepted come after all others. -/
theorem Tells.registered (h : r.Tells log) (entries : List (String × α)) :
    (r.registered entries).Tells (log ++ r.accepted entries) := by
  induction entries generalizing r log with
  | nil =>
    rw [accepted, List.append_nil]
    exact h
  | cons entry rest ih =>
    obtain ⟨kind, x⟩ := entry
    rw [Registry.registered, accepted]
    cases hr : r.register kind x with
    | error e =>
      rw [List.append_nil]
      exact h
    | ok next =>
      have hnext := ih (h.register hr)
      rw [List.append_assoc] at hnext
      exact hnext

end Registry

namespace Registries

variable {α β : Type} {log : List (String × α)}

theorem registerSources_snd (entries : List (String × α)) (r : Registries α β) :
    (registerSources entries r).2 = { r with sources := r.sources.registered entries } := by
  induction entries generalizing r with
  | nil => rfl
  | cons entry rest ih =>
    obtain ⟨kind, x⟩ := entry
    rw [registerSources, Registry.registered]
    cases r.sources.register kind x with
    | error e => rfl
    | ok sources => exact ih { r with sources }

end Registries

/-! ### Calls -/

/-- The tables of a processor, with the registrations that were accepted, in order. -/
structure Catalogue (α β : Type) where
  tables : Registries α β
  sources : List (String × α)
  runtimes : List (String × β)

namespace Catalogue

/-- One call, with the factories that it brings. -/
inductive Call (α β : Type) where
  | source (kind : String) (x : α)
  | runtime (kind : String) (x : β)
  /-- The kinds that need a broker. -/
  | broker (nats rabbitMq : α)
  /-- The kind that needs a stream. -/
  | stream (kinesis : α)
  /-- The kind that needs an item store. -/
  | itemStore (itemPoller : α)
  | getSource (kind : String)
  | getRuntime (kind : String)
  | containsSource (kind : String)
  | containsRuntime (kind : String)

/-- What a call answers that does not fail. -/
inductive Reply (α β : Type) where
  | registered
  | source (x : α)
  | runtime (x : β)
  | contains (isThere : Bool)

namespace Call

variable {α β : Type}

/-- The kinds of triggers that a call registers, in order. -/
def sources : Call α β → List (String × α)
  | .source kind x => [(kind, x)]
  | .broker nats rabbitMq => [("nats", nats), ("rabbit-mq", rabbitMq)]
  | .stream kinesis => [("kinesis", kinesis)]
  | .itemStore itemPoller => [("v3io-item-poller", itemPoller)]
  | _ => []

/-- The kinds of runtimes that a call registers. -/
def runtimes : Call α β → List (String × β)
  | .runtime kind x => [(kind, x)]
  | _ => []

/-- The kinds that a call registers are all different. -/
theorem nodup_sources (call : Call α β) : (call.sources.map Prod.fst).Nodup := by
  cases call with
  | broker nats rabbitMq => exact List.nodup_cons.mpr ⟨by simp, List.nodup_singleton _⟩
  | source | stream | itemStore => exact List.nodup_singleton _
  | runtime | getSource | getRuntime | containsSource | containsRuntime => exact List.nodup_nil

/-- Kinds of triggers are registered together. -/
def together (entries : List (String × α)) (r : Registries α β) : Except Error (Reply α β) × Registries α β :=
  match r.registerSources entries with
  | (some e, r) => (.error e, r)
  | (none, r) => (.ok .registered, r)

/-- What a call answers, and what becomes of the tables. -/
def perform (r : Registries α β) (call : Call α β) : Except Error (Reply α β) × Registries α β :=
  match call with
  | .source kind x =>
    match r.sources.register kind x with
    | .error e => (.error e, r)
    | .ok sources => (.ok .registered, { r with sources })
  | .runtime kind x =>
    match r.runtimes.register kind x with
    | .error e => (.error e, r)
    | .ok runtimes => (.ok .registered, { r with runtimes })
  | .broker .. | .stream .. | .itemStore .. => together call.sources r
  | .getSource kind => ((r.sources.get kind).map .source, r)
  | .getRuntime kind => ((r.runtimes.get kind).map .runtime, r)
  | .containsSource kind => (.ok (.contains (r.sources.entries.contains kind)), r)
  | .containsRuntime kind => (.ok (.contains (r.runtimes.entries.contains kind)), r)

/-- A call clashes with the tables: it registers a kind that is taken, or asks for one that is not there. -/
def Clashes (r : Registries α β) (call : Call α β) : Prop :=
  match call with
  | .source .. | .runtime .. | .broker .. | .stream .. | .itemStore .. =>
    (∃ kind ∈ call.sources.map Prod.fst, kind ∈ r.sources.kinds) ∨
      ∃ kind ∈ call.runtimes.map Prod.fst, kind ∈ r.runtimes.kinds
  | .getSource kind => kind ∉ r.sources.kinds
  | .getRuntime kind => kind ∉ r.runtimes.kinds
  | .containsSource _ | .containsRuntime _ => False

/-- A call registers a kind before it comes to one that is taken. -/
def Halfway (r : Registries α β) : Call α β → Prop
  | .broker _ _ => "nats" ∉ r.sources.kinds ∧ "rabbit-mq" ∈ r.sources.kinds
  | _ => False

theorem together_snd (entries : List (String × α)) (r : Registries α β) :
    (together entries r).2 = { r with sources := r.sources.registered entries } := by
  rw [← Registries.registerSources_snd, together]
  split
  next heq => rw [heq]
  next heq => rw [heq]

theorem perform_source (kind : String) (x : α) (r : Registries α β) :
    perform r (.source kind x) = together [(kind, x)] r := by
  rw [perform, together, Registries.registerSources]
  cases r.sources.register kind x <;> rfl

/-- What becomes of the tables. -/
theorem perform_snd (call : Call α β) (r : Registries α β) : (call.perform r).2 =
    ⟨r.sources.registered call.sources, r.runtimes.registered call.runtimes⟩ := by
  cases call with
  | source kind x =>
    rw [perform, sources, Registry.registered]
    cases r.sources.register kind x <;> rfl
  | runtime kind x =>
    rw [perform, runtimes, Registry.registered]
    cases r.runtimes.register kind x <;> rfl
  | broker nats rabbitMq => exact together_snd _ r
  | stream kinesis => exact together_snd _ r
  | itemStore itemPoller => exact together_snd _ r
  | getSource | getRuntime | containsSource | containsRuntime => rfl

end Call

variable {α β : Type} {c : Catalogue α β}

/-- What is registered at the beginning counts as the first registrations. -/
def opened (r : Registries α β) : Catalogue α β := ⟨r, r.sources.entries, r.runtimes.entries⟩

/-- After one call. -/
def after (c : Catalogue α β) (call : Call α β) : Catalogue α β :=
  { tables := (call.perform c.tables).2
    sources := c.sources ++ c.tables.sources.accepted call.sources
    runtimes := c.runtimes ++ c.tables.runtimes.accepted call.runtimes }

/-- Both tables say what the registrations say. -/
structure Sound (c : Catalogue α β) : Prop where
  sources : c.tables.sources.Tells c.sources
  runtimes : c.tables.runtimes.Tells c.runtimes

theorem Sound.after (h : c.Sound) (call : Call α β) : (c.after call).Sound := by
  refine ⟨?_, ?_⟩
  · rw [Catalogue.after, Call.perform_snd]
    exact h.sources.registered call.sources
  · rw [Catalogue.after, Call.perform_snd]
    exact h.runtimes.registered call.runtimes

theorem sound_of_calls {r : Registries α β} (hsources : r.sources.entries.Sorted)
    (hruntimes : r.runtimes.entries.Sorted) (calls : List (Call α β)) :
    (calls.foldl Catalogue.after (opened r)).Sound := by
  induction calls using List.reverseRecOn with
  | nil => exact ⟨Registry.tells_entries hsources, Registry.tells_entries hruntimes⟩
  | append_singleton calls call ih =>
    rw [List.foldl_append]
    exact ih.after call

/-! ### Refusals -/

namespace Call

variable {r : Registries α β} {log : List (String × α)} {entries : List (String × α)} {kind : String} {x : α}

/-- The first kind is taken, and no further is tried. -/
theorem together_of_taken (h : r.sources.Tells log) (htaken : kind ∈ r.sources.kinds)
    (rest : List (String × α)) : together ((kind, x) :: rest) r = (.error (.duplicateKind kind), r) := by
  rw [together, Registries.registerSources, h.register_of_taken htaken]

/-- The first kind is free, and the others are tried. -/
theorem together_of_free (h : r.sources.Tells log) (hfree : kind ∉ r.sources.kinds)
    (rest : List (String × α)) : together ((kind, x) :: rest) r = together rest
      { r with sources := { r.sources with entries := r.sources.entries.insert kind x } } := by
  rw [together, Registries.registerSources, h.register_of_free hfree]
  rfl

/-- Kinds that are all different are refused if one of them is taken. -/
theorem together_refused_iff (h : r.sources.Tells log) (hnodup : (entries.map Prod.fst).Nodup) :
    (∃ e, (together entries r).1 = .error e) ↔ ∃ kind ∈ entries.map Prod.fst, kind ∈ r.sources.kinds := by
  induction entries generalizing r log with
  | nil => simp [together, Registries.registerSources]
  | cons entry rest ih =>
    obtain ⟨kind, x⟩ := entry
    rw [List.map_cons, List.nodup_cons] at hnodup
    rw [List.map_cons, List.exists_mem_cons_iff]
    by_cases htaken : kind ∈ r.sources.kinds
    · rw [together_of_taken h htaken]
      exact iff_of_true ⟨_, rfl⟩ (.inl htaken)
    · have hnext := h.register (h.register_of_free (x := x) htaken)
      rw [together_of_free h htaken, ih hnext hnodup.2, or_iff_right htaken]
      -- The kind that has just been registered is none of the others.
      refine exists_congr fun k => and_congr_right fun hk => ?_
      have hne : k ≠ kind := fun heq => hnodup.1 (heq ▸ hk)
      rw [hnext.mem_kinds, h.mem_kinds, List.map_append, List.mem_append, List.map_singleton,
        List.mem_singleton, or_iff_left hne]

/-- A single kind that is refused changes nothing. -/
theorem together_single (h : r.sources.Tells log) {e : Error} (he : (together [(kind, x)] r).1 = .error e) :
    (together [(kind, x)] r).2 = r := by
  by_cases htaken : kind ∈ r.sources.kinds
  · rw [together_of_taken h htaken]
  · rw [together_of_free h htaken] at he
    cases he

/-- The first of two kinds is free and the second is not. -/
theorem together_halfway {second : String} {y : α} (h : r.sources.Tells log) (hfree : kind ∉ r.sources.kinds)
    (htaken : second ∈ r.sources.kinds) : together [(kind, x), (second, y)] r =
      (.error (.duplicateKind second),
        { r with sources := { r.sources with entries := r.sources.entries.insert kind x } }) := by
  have hnext := h.register (h.register_of_free (x := x) hfree)
  rw [together_of_free h hfree, together_of_taken hnext]
  rw [hnext.mem_kinds, List.map_append, List.mem_append, ← h.mem_kinds]
  exact .inl htaken

/-- A call fails exactly if it clashes with the tables. -/
theorem refused_iff (h : c.Sound) (call : Call α β) :
    (∃ e, (call.perform c.tables).1 = .error e) ↔ call.Clashes c.tables := by
  have hnone : ¬∃ kind ∈ ([] : List String), kind ∈ c.tables.runtimes.kinds := by simp
  cases call with
  | source kind x =>
    rw [perform_source]
    exact (together_refused_iff h.sources (nodup_sources (.source kind x))).trans (or_iff_left hnone).symm
  | broker | stream | itemStore =>
    exact (together_refused_iff h.sources (nodup_sources _)).trans (or_iff_left hnone).symm
  | runtime kind x =>
    simp only [Clashes, sources, runtimes, List.map_nil, List.map_singleton, List.not_mem_nil, false_and,
      exists_false, false_or, List.mem_singleton, exists_eq_left]
    by_cases htaken : kind ∈ c.tables.runtimes.kinds
    · rw [perform, h.runtimes.register_of_taken htaken]
      exact iff_of_true ⟨_, rfl⟩ htaken
    · rw [perform, h.runtimes.register_of_free htaken]
      exact iff_of_false (fun ⟨e, he⟩ => by cases he) htaken
  | getSource kind =>
    rw [perform, h.sources.get_eq, Clashes, h.sources.mem_kinds, ← lookup_eq_none_iff_notMem]
    cases c.sources.lookup kind <;> simp [Except.map]
  | getRuntime kind =>
    rw [perform, h.runtimes.get_eq, Clashes, h.runtimes.mem_kinds, ← lookup_eq_none_iff_notMem]
    cases c.runtimes.lookup kind <;> simp [Except.map]
  | containsSource kind => simp [perform, Clashes]
  | containsRuntime kind => simp [perform, Clashes]

/-- **A call that fails leaves the tables as they were**, unless it failed halfway. -/
theorem unchanged_iff (h : c.Sound) {call : Call α β} {e : Error} (he : (call.perform c.tables).1 = .error e) :
    (call.perform c.tables).2 = c.tables ↔ ¬call.Halfway c.tables := by
  cases call with
  | source kind x =>
    rw [perform_source] at he ⊢
    exact iff_of_true (together_single h.sources he) not_false
  | stream kinesis => exact iff_of_true (together_single h.sources he) not_false
  | itemStore itemPoller => exact iff_of_true (together_single h.sources he) not_false
  | runtime kind x =>
    refine iff_of_true ?_ not_false
    rw [perform] at he ⊢
    cases hr : c.tables.runtimes.register kind x with
    | error e => rfl
    | ok runtimes =>
      rw [hr] at he
      cases he
  | broker nats rabbitMq =>
    rw [Halfway]
    by_cases hnats : "nats" ∈ c.tables.sources.kinds
    · refine iff_of_true ?_ fun hhalf => hhalf.1 hnats
      rw [perform, sources, together_of_taken h.sources hnats]
    · -- The second kind is what the call fails for.
      obtain ⟨kind, hkind, htaken⟩ : ∃ kind ∈ ["nats", "rabbit-mq"], kind ∈ c.tables.sources.kinds :=
        (together_refused_iff h.sources (nodup_sources (.broker nats rabbitMq))).mp ⟨e, he⟩
      have hrabbit : "rabbit-mq" ∈ c.tables.sources.kinds := by
        rcases List.mem_cons.mp hkind with rfl | hlast
        · exact absurd htaken hnats
        · exact List.mem_singleton.mp hlast ▸ htaken
      refine iff_of_false (fun hsame => hnats ?_) (not_not_intro ⟨hnats, hrabbit⟩)
      rw [perform, sources, together_halfway h.sources hnats hrabbit] at hsame
      rw [← hsame, (h.sources.register (h.sources.register_of_free (x := nats) hnats)).mem_kinds]
      simp
  | getSource | getRuntime | containsSource | containsRuntime => exact iff_of_true rfl not_false

end Call

/-! ### Histories -/

/-- **What the tables say**, and what calls do to them. -/
structure Truthful (c : Catalogue α β) : Prop where
  /-- For a kind there is the factory that was registered for it first. -/
  source : ∀ kind, c.tables.sources.get kind = (c.sources.lookup kind).elim (.error (.unknownKind kind)) .ok
  runtime : ∀ kind, c.tables.runtimes.get kind = (c.runtimes.lookup kind).elim (.error (.unknownKind kind)) .ok
  /-- The kinds are those that were registered, in order. -/
  sourceKinds : c.tables.sources.kinds.Pairwise (· < ·) ∧
    ∀ kind, kind ∈ c.tables.sources.kinds ↔ kind ∈ c.sources.map Prod.fst
  runtimeKinds : c.tables.runtimes.kinds.Pairwise (· < ·) ∧
    ∀ kind, kind ∈ c.tables.runtimes.kinds ↔ kind ∈ c.runtimes.map Prod.fst
  containsSource : ∀ kind, c.tables.sources.entries.contains kind = true ↔ kind ∈ c.tables.sources.kinds
  containsRuntime : ∀ kind, c.tables.runtimes.entries.contains kind = true ↔ kind ∈ c.tables.runtimes.kinds
  refused : ∀ call : Call α β, (∃ e, (call.perform c.tables).1 = .error e) ↔ call.Clashes c.tables
  /-- A call that fails leaves both tables as they were, unless it fails halfway. -/
  unchanged : ∀ (call : Call α β) (e : Error), (call.perform c.tables).1 = .error e →
    ((call.perform c.tables).2 = c.tables ↔ ¬call.Halfway c.tables)
  /-- Then the first of its kinds is registered, and nothing else has changed. -/
  halfway : ∀ nats rabbitMq : α, (Call.broker nats rabbitMq : Call α β).Halfway c.tables →
    Call.perform c.tables (.broker nats rabbitMq) = (.error (.duplicateKind "rabbit-mq"),
      { c.tables with sources :=
        { c.tables.sources with entries := c.tables.sources.entries.insert "nats" nats } })

/-- **The law of registries.** Whatever is registered at the beginning, and whatever calls are made then: a table
gives for a kind the very factory that was registered for it first, and its kinds are those that were registered.
A call fails if it clashes with what is registered, and then leaves both tables as they were, unless it has
registered the first of two kinds before it came to the second. -/
theorem truthful_of_calls {r : Registries α β} (hsources : r.sources.entries.Sorted)
    (hruntimes : r.runtimes.entries.Sorted) (calls : List (Call α β)) :
    (calls.foldl after (opened r)).Truthful := by
  have h := sound_of_calls hsources hruntimes calls
  exact ⟨h.sources.get_eq, h.runtimes.get_eq, ⟨List.pairwise_map.mpr h.sources.sorted, fun _ => h.sources.mem_kinds⟩,
    ⟨List.pairwise_map.mpr h.runtimes.sorted, fun _ => h.runtimes.mem_kinds⟩,
    fun _ => h.sources.contains_iff, fun _ => h.runtimes.contains_iff, Call.refused_iff h,
    fun _ _ => Call.unchanged_iff h, fun _ _ hhalf => Call.together_halfway h.sources hhalf.1 hhalf.2⟩

/-- A kind of the broker is registered beforehand, and so the broker is registered halfway. -/
theorem truthful_halfway_broker :
    let r : Registries SourceFactory RuntimeFactory := .builtin
    let calls : List (Call SourceFactory RuntimeFactory) :=
      [.source "rabbit-mq" .http, .source "rabbit-mq" .generator, .broker (.nats 4) .rabbitMq]
    r.sources.entries.Sorted ∧ r.runtimes.entries.Sorted ∧
      (calls.foldl after (opened r)).sources.map Prod.fst = ["generator", "http", "rabbit-mq", "nats"] ∧
      (calls.foldl after (opened r)).tables.sources.get "rabbit-mq" = .ok .http ∧
      (calls.foldl after (opened r)).Truthful := by
  intro r calls
  have hsources : r.sources.entries.Sorted := by
    rw [Keyed.Sorted]
    decide
  have hruntimes : r.runtimes.entries.Sorted := List.pairwise_singleton _ _
  exact ⟨hsources, hruntimes, by decide, rfl, truthful_of_calls hsources hruntimes calls⟩

/-- A broker is refused for its second kind, but its first kind has been registered. -/
theorem not_untouched_of_refused :
    ¬ ∀ (calls : List (Call SourceFactory RuntimeFactory)) (call : Call SourceFactory RuntimeFactory) (e : Error),
      (call.perform (calls.foldl after (opened .builtin)).tables).1 = .error e →
        (call.perform (calls.foldl after (opened .builtin)).tables).2 =
          (calls.foldl after (opened .builtin)).tables := by
  intro hlaw
  have hsame := hlaw [.source "rabbit-mq" .rabbitMq] (.broker (.nats 4) .rabbitMq) (.duplicateKind "rabbit-mq") rfl
  have hkinds := congrArg (fun r => r.sources.kinds) hsame
  revert hkinds
  decide

end Catalogue

end EventDispatch
