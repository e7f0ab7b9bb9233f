import EventDispatch.Proofs.Tasks
import EventDispatch.Stream.Reader

/-!
# What a move of a reader is

A task that reads a shard takes a worker, finds its position, and goes round: it pauses, fetches, and hands one record
after the other to its worker. Each way in which it can move is one case of a relation, with what holds when it moves
so. That a source that reads a stream keeps this or that is then shown case by case.

## Main definitions

* `World.Reads`: what a call to the stream's service changes around a reader.
* `Reader.Rests`: a reader that has its worker and runs nothing on it.
* `StreamSource.Moves`: what a move of a reader is.

## Main results

* `StreamSource.moves_of_step`: there are no other moves.
-/

namespace EventDispatch

/-- Around a reader that calls the stream's service nothing changes but how these calls travel and what the service
knows of them; the records stay. -/
def World.Reads (w w' : World) : Prop :=
  (∃ routes calls stream, w' = { w with clients := { w.clients with routes, initialCalls := calls, stream } } ∧
    stream.shards = w.clients.stream.shards ∧ stream.issued = w.clients.stream.issued) ∧
  ∀ call, call ≠ .initialPosition → call ≠ .getRecords → w'.clients.route call = w.clients.route call

namespace World.Reads

variable {w w' : World}

theorem refl (w : World) : w.Reads w := ⟨⟨_, _, _, rfl, rfl, rfl⟩, fun _ _ _ => rfl⟩

theorem ambient_eq (h : w.Reads w') : w'.ambient = w.ambient := by
  obtain ⟨⟨routes, calls, stream, rfl, -⟩, -⟩ := h
  rfl

theorem shard_eq (h : w.Reads w') (shard : String) :
    w'.clients.stream.shard shard = w.clients.stream.shard shard := by
  obtain ⟨⟨routes, calls, stream, rfl, hshards, -⟩, -⟩ := h
  rw [RecordStream.shard, RecordStream.shard, hshards]

/-- Positions stay where they are. -/
theorem initialPosition_eq (h : w.Reads w') (shard : String) (after : Option String) :
    w'.clients.stream.initialPosition shard after = w.clients.stream.initialPosition shard after := by
  cases after with
  | none => rfl
  | some sequence => rw [RecordStream.initialPosition, RecordStream.initialPosition, h.shard_eq]

theorem of_trip {trip : Trip} {m : Move Trip (Option Error)} (h : w.stepTrip .getRecords trip = some (m, w')) :
    w.Reads w' := by
  obtain ⟨⟨routes, rfl⟩, hothers⟩ := World.stepTrip_routes h
  exact ⟨⟨routes, w.clients.initialCalls, w.clients.stream, rfl, rfl, rfl⟩, fun call _ hne => hothers call hne⟩

/-- The call that asks for the position where to start is put on record as it leaves. -/
theorem of_call {trip : Trip} {m : Move Trip (Option Error)} (calls : List (String × String × Option String))
    (h : World.stepTrip .initialPosition trip { w with clients := { w.clients with initialCalls := calls } } =
      some (m, w')) : w.Reads w' := by
  obtain ⟨⟨routes, rfl⟩, hothers⟩ := World.stepTrip_routes h
  exact ⟨⟨routes, calls, w.clients.stream, rfl, rfl, rfl⟩, fun call hne _ => hothers call hne⟩

/-- The service is asked for records. -/
theorem of_fetch {trip : Trip} {m : Move Trip (Option Error)} (h : w.stepTrip .getRecords trip = some (m, w'))
    (shard position : String) (limit : Nat) : w.Reads { w' with
      clients := { w'.clients with stream := (w'.clients.stream.getRecords shard position limit).2 } } := by
  obtain ⟨⟨routes, rfl⟩, hothers⟩ := World.stepTrip_routes h
  refine ⟨⟨routes, w.clients.initialCalls, _, rfl, ?_⟩, fun call _ hne => hothers call hne⟩
  rw [RecordStream.getRecords]
  dsimp only
  split
  · exact ⟨rfl, rfl⟩
  · split
    · exact ⟨rfl, rfl⟩
    · split <;> exact ⟨rfl, rfl⟩

end World.Reads

/-- A reader that has its worker and runs nothing on it. -/
def Reader.Rests (worker : Worker) : Reader → Prop
  | hiring _ _ | handling _ _ _ _ _ _ => False
  | locating _ held _ _ | relocating _ held _ _ | idle _ held _ | pausing _ held _ _
  | fetching _ held _ _ | between _ held _ _ => held = worker

namespace StreamSource

variable {signal : Signal} {w w' : World} {s s' : StreamSource} {r : Reader} {m : Move Reader Unit}

/-- What a move of a task that listens to a signal is. -/
inductive Moves (signal : Signal) (w : World) (s : StreamSource) :
    Reader → Move Reader Unit → World → StreamSource → Prop where
  /-- The signal comes before a worker. -/
  | withdraws {shard : String} {allocation : Allocation} (hreleased : s.lifecycle.isReleased signal = true) :
      Moves signal w s (.hiring shard allocation) (.ends ()) w { s with desk := s.desk.dropAcquire allocation }
  /-- The task waits for a worker. -/
  | queues {shard : String} {allocation allocation' : Allocation} {desk : Desk}
      (hsignal : s.lifecycle.isReleased signal = false)
      (hacquire : s.desk.stepAcquire w.ambient allocation = some (.goes allocation', desk)) :
      Moves signal w s (.hiring shard allocation) (.goes (.hiring shard allocation')) w { s with desk }
  /-- The task is refused a worker. -/
  | misses {shard : String} {allocation : Allocation} {e : Error} {desk : Desk}
      (hsignal : s.lifecycle.isReleased signal = false)
      (hacquire : s.desk.stepAcquire w.ambient allocation = some (.ends (.error e), desk)) :
      Moves signal w s (.hiring shard allocation) (.ends ()) w { s with desk }
  /-- The task takes a worker, and recalls the last record that was handled. -/
  | hires {shard : String} {allocation : Allocation} {worker : Worker} {desk : Desk}
      (hsignal : s.lifecycle.isReleased signal = false)
      (hacquire : s.desk.stepAcquire w.ambient allocation = some (.ends (.ok worker), desk)) :
      Moves signal w s (.hiring shard allocation)
        (.goes (.locating shard worker (s.positions.get? shard) .leaving)) w { s with desk }
  /-- The call for the position is on its way. -/
  | asks {shard : String} {worker : Worker} {resume : Option String} {trip trip' : Trip} {w' : World}
      (hworld : w.Reads w') :
      Moves signal w s (.locating shard worker resume trip) (.goes (.locating shard worker resume trip')) w' s
  /-- The call for the position failed. -/
  | retries {shard : String} {worker : Worker} {resume : Option String} {trip : Trip} {pause : Pause}
      {w' : World} (hworld : w.Reads w') :
      Moves signal w s (.locating shard worker resume trip)
        (.goes (.relocating shard worker resume pause)) w' s
  /-- The position is found. -/
  | finds {shard : String} {worker : Worker} {resume : Option String} {trip : Trip} {position : String}
      {w' : World} (hworld : w.Reads w')
      (hposition : w.clients.stream.initialPosition shard resume = .ok position) :
      Moves signal w s (.locating shard worker resume trip) (.goes (.idle shard worker position)) w' s
  /-- The call for the position is made again. -/
  | resumes {shard : String} {worker : Worker} {resume : Option String} {pause : Pause} :
      Moves signal w s (.relocating shard worker resume pause)
        (.goes (.locating shard worker resume .leaving)) w s
  /-- A pause begins. -/
  | pauses {shard : String} {worker : Worker} {position : String} {pause : Pause} :
      Moves signal w s (.idle shard worker position) (.goes (.pausing shard worker position pause)) w s
  /-- Records are asked for. -/
  | requests {shard : String} {worker : Worker} {position : String} {pause : Pause} :
      Moves signal w s (.pausing shard worker position pause)
        (.goes (.fetching shard worker position .leaving)) w s
  /-- The call for records is on its way. -/
  | fetches {shard : String} {worker : Worker} {position : String} {trip trip' : Trip} {w' : World}
      (hworld : w.Reads w') :
      Moves signal w s (.fetching shard worker position trip) (.goes (.fetching shard worker position trip')) w' s
  /-- The call for records is lost or refused. -/
  | fails {shard : String} {worker : Worker} {position : String} {trip : Trip} {w' : World}
      (hworld : w.Reads w') :
      Moves signal w s (.fetching shard worker position trip) (.goes (.idle shard worker position)) w' s
  /-- Records arrive. -/
  | brings {shard : String} {worker : Worker} {position : String} {trip : Trip} {b : RecordBatch} {w' : World}
      (hworld : w.Reads w')
      (hfetched : (w.clients.stream.getRecords shard position s.settings.batchSize).1 = .batch b) :
      Moves signal w s (.fetching shard worker position trip)
        (.goes (.between shard worker b.records b.nextPosition)) w' s
  /-- The range asked for is none, and the task breaks off. -/
  | breaks {shard : String} {worker : Worker} {position : String} {trip : Trip} {w' : World}
      (hsignal : s.lifecycle.isReleased signal = false) (hworld : w.Reads w')
      (hfetched : (w.clients.stream.getRecords shard position s.settings.batchSize).1 = .overflow) :
      Moves signal w s (.fetching shard worker position trip) (.ends ()) w'
        { s with desk := s.desk.release worker }
  /-- All records that arrived are handled. -/
  | exhausts {shard : String} {worker : Worker} {next : String} :
      Moves signal w s (.between shard worker [] next) (.goes (.idle shard worker next)) w s
  /-- The next record is given to the worker. -/
  | begins {shard : String} {worker : Worker} {record : Record} {rest : List Record} {next : String}
      (hsignal : s.lifecycle.isTriggered signal = false) :
      Moves signal w s (.between shard worker (record :: rest) next)
        (.goes (.handling shard worker record rest next (.ready worker (event shard record)))) w s
  /-- The record is being handled. -/
  | handles {shard : String} {worker : Worker} {record : Record} {rest : List Record} {next : String}
      {assignment assignment' : Assignment} {ambient : Ambient} {desk : Desk}
      (hassign : assignment.step w.ambient s.desk = some (.goes assignment', ambient, desk)) :
      Moves signal w s (.handling shard worker record rest next assignment)
        (.goes (.handling shard worker record rest next assignment')) { w with ambient } { s with desk }
  /-- The record is handled. -/
  | completes {shard : String} {worker : Worker} {record : Record} {rest : List Record} {next : String}
      {assignment : Assignment} {answer : Outcome × Event} {ambient : Ambient} {desk : Desk}
      (hassign : assignment.step w.ambient s.desk = some (.ends answer, ambient, desk)) :
      Moves signal w s (.handling shard worker record rest next assignment)
        (.goes (.between shard worker rest next)) { w with ambient }
        { s with desk, positions := s.positions.insert shard record.sequence }
  /-- The signal has come, and the worker goes back. -/
  | quits {r : Reader} {worker : Worker} {w' : World} (hrests : r.Rests worker)
      (hreleased : s.lifecycle.isReleased signal = true) (hworld : w.Reads w') :
      Moves signal w s r (.ends ()) w' { s with desk := s.desk.release worker }

/-- A signal that was sent is released. -/
theorem isReleased_of_triggered {τ : Type} {l : Lifecycle τ} (h : l.isTriggered signal = true) :
    l.isReleased signal = true := by
  rw [Lifecycle.isReleased, h, Bool.true_or]

/-- A pause that does not begin was cut short by the signal. -/
theorem isReleased_of_begin? {now ms : Nat}
    (h : Pause.begin? now ms signal s.lifecycle = none) : s.lifecycle.isReleased signal = true := by
  rw [Pause.begin?] at h
  split at h
  next hsent => exact isReleased_of_triggered hsent
  · cases h

/-- So was one that ends too early. -/
theorem isReleased_of_ends? {now : Nat} {pause : Pause}
    (h : pause.ends? now signal s.lifecycle = some false) : s.lifecycle.isReleased signal = true := by
  rw [Pause.ends?] at h
  split at h
  · cases h
  · split at h
    next hreleased => exact hreleased
    · cases h

theorem moves_of_quit {worker : Worker} {w₁ : World} (hrests : r.Rests worker)
    (hreleased : s.lifecycle.isReleased signal = true) (hworld : w.Reads w₁)
    (hs : quit worker w₁ s = some (m, w', s')) : Moves signal w s r m w' s' := by
  cases hs
  exact .quits hrests hreleased hworld

/-- Asking for the position again after a pause, or giving up. -/
theorem moves_of_retry {shard : String} {worker : Worker} {resume : Option String} {trip : Trip} {w₁ : World}
    (hworld : w.Reads w₁)
    (hs : (match Pause.begin? w₁.now s.settings.pollInterval signal s.lifecycle with
      | none => quit worker w₁ s
      | some pause => some (Move.goes (.relocating shard worker resume pause), w₁, s)) = some (m, w', s')) :
    Moves signal w s (.locating shard worker resume trip) m w' s' := by
  split at hs
  next hnone => exact moves_of_quit rfl (isReleased_of_begin? hnone) hworld hs
  · cases hs
    exact .retries hworld

/-- The call for the position, from the world in which it is on record. -/
theorem moves_of_call {shard : String} {worker : Worker} {resume : Option String} {trip : Trip}
    (calls : List (String × String × Option String))
    (hs : (match World.stepTrip .initialPosition trip
          { w with clients := { w.clients with initialCalls := calls } } with
        | none => none
        | some (.goes trip, w) => some (Move.goes (.locating shard worker resume trip), w, s)
        | some (.ends (some _), w) =>
          match Pause.begin? w.now s.settings.pollInterval signal s.lifecycle with
          | none => quit worker w s
          | some pause => some (.goes (.relocating shard worker resume pause), w, s)
        | some (.ends none, w) =>
          match w.clients.stream.initialPosition shard resume with
          | .error _ =>
            match Pause.begin? w.now s.settings.pollInterval signal s.lifecycle with
            | none => quit worker w s
            | some pause => some (.goes (.relocating shard worker resume pause), w, s)
          | .ok position => some (.goes (.idle shard worker position), w, s)) = some (m, w', s')) :
    Moves signal w s (.locating shard worker resume trip) m w' s' := by
  split at hs
  · cases hs
  next htrip =>
    cases hs
    exact .asks (.of_call calls htrip)
  next htrip => exact moves_of_retry (.of_call calls htrip) hs
  next w₁ htrip =>
    have hworld := World.Reads.of_call calls htrip
    split at hs
    · exact moves_of_retry hworld hs
    next position hposition =>
      cases hs
      obtain ⟨⟨routes, rfl⟩, -⟩ := World.stepTrip_routes htrip
      exact .finds hworld hposition

/-- The call for records. -/
theorem moves_of_fetching {shard : String} {worker : Worker} {position : String} {trip : Trip}
    (hs : s.step signal (.fetching shard worker position trip) w = some (m, w', s')) :
    Moves signal w s (.fetching shard worker position trip) m w' s' := by
  simp only [step] at hs
  split at hs
  next hreleased => exact moves_of_quit rfl hreleased (.refl w) hs
  next hsignal =>
    rw [Bool.not_eq_true] at hsignal
    split at hs
    · cases hs
    next htrip =>
      cases hs
      exact .fetches (.of_trip htrip)
    next htrip =>
      cases hs
      exact .fails (.of_trip htrip)
    next w₁ htrip =>
      have hstream : w₁.clients.stream = w.clients.stream := by
        obtain ⟨⟨routes, rfl⟩, -⟩ := World.stepTrip_routes htrip
        rfl
      have hworld := World.Reads.of_fetch htrip shard position s.settings.batchSize
      split at hs
      · cases hs
        exact .fails hworld
      next hfetched =>
        cases hs
        rw [hstream] at hfetched
        exact .breaks hsignal hworld hfetched
      next b hfetched =>
        cases hs
        rw [hstream] at hfetched
        exact .brings hworld hfetched

/-- **A reader moves in no other way.** -/
theorem moves_of_step (hs : s.step signal r w = some (m, w', s')) : Moves signal w s r m w' s' := by
  cases r with
  | hiring shard allocation =>
    simp only [step] at hs
    split at hs
    next hreleased =>
      cases hs
      exact .withdraws hreleased
    next hsignal =>
      rw [Bool.not_eq_true] at hsignal
      split at hs
      · cases hs
      next hacquire =>
        cases hs
        exact .queues hsignal hacquire
      next hacquire =>
        cases hs
        exact .misses hsignal hacquire
      next hacquire =>
        cases hs
        exact .hires hsignal hacquire
  | locating shard worker resume trip =>
    cases trip with
    | leaving => exact moves_of_call (w.clients.initialCalls ++ [(s.settings.streamName, shard, resume)]) hs
    | underway until_ => exact moves_of_call w.clients.initialCalls hs
  | relocating shard worker resume pause =>
    simp only [step] at hs
    split at hs
    · cases hs
    · cases hs
      exact .resumes
    next hends => exact moves_of_quit rfl (isReleased_of_ends? hends) (.refl w) hs
  | idle shard worker position =>
    simp only [step] at hs
    split at hs
    next hnone => exact moves_of_quit rfl (isReleased_of_begin? hnone) (.refl w) hs
    · cases hs
      exact .pauses
  | pausing shard worker position pause =>
    simp only [step] at hs
    split at hs
    · cases hs
    · cases hs
      exact .requests
    next hends => exact moves_of_quit rfl (isReleased_of_ends? hends) (.refl w) hs
  | fetching shard worker position trip => exact moves_of_fetching hs
  | between shard worker rest next =>
    simp only [step] at hs
    cases rest with
    | nil =>
      cases hs
      exact .exhausts
    | cons record rest =>
      dsimp only at hs
      split at hs
      next hsent => exact moves_of_quit rfl (isReleased_of_triggered hsent) (.refl w) hs
      next hsignal =>
        cases hs
        exact .begins (Bool.not_eq_true _ ▸ hsignal)
  | handling shard worker record rest next assignment =>
    simp only [step] at hs
    split at hs
    · cases hs
    next hassign =>
      cases hs
      exact .handles hassign
    next hassign =>
      cases hs
      exact .completes hassign

end StreamSource

end EventDispatch
