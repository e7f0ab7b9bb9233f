import EventDispatch.Proofs.Answers
import EventDispatch.Proofs.Channels
import EventDispatch.Proofs.Listings

/-!
# The batches of a cycle

What a driver sends in a cycle is a stream of events, in which the end of the cycle may be told at some point, or
not at all when the search fails. The half that submits cuts the events before that point into batches of one
size, of which only the last may be shorter, and submits one after the other. It leaves in four ways: the end
of the cycle is told, nobody is left to send, or the run was told to stop, which it notices with a batch that is
full or with the last one. In the first two the events that are left are the last batch. In the others the batch
that was gathered is not submitted; so what was submitted is the first of the batches, and all of them unless
the run was told to stop.

After a batch that got a worker the driver is given the events, as they were prepared, with an outcome for
each; this happens once. After a batch that got none it is given nothing.

The law is shown of a cycle whose driver sends any messages (`BatchedCycle`). What a source does in a cycle is such a
cycle, whatever its driver is (`Cycling.exists_batchedCycle`): the messages that its driver has sent, in the order in
which they were accepted or refused.

## What is deliberately absent

The outcomes are those of the runs that the function was entered for, which is said where answers are. When the
driver finds nobody who receives, its message is lost, and it may go on or be done; neither is said here to
happen.

## Main definitions

* `PollMessage.eventsBefore`, `cutInto`: the events of a cycle, and the batches into which they are cut.
* `Parcel`: a batch that was submitted, and what came of it.
* `BatchedCycle`: a cycle whose driver is given by its messages; `BatchedCycle.Step` is one move of anybody.
* `BatchedCycle.Conveyed`: the law.
* `Cycling`: a source that is at a cycle; `Cycling.Step` is one move of its task, or anything else.

## Main results

* `Batch.handles_of_step`: what a move of a batch does for its events.
* `BatchedCycle.Sound.receives`, `BatchedCycle.Sound.step`: what one move keeps.
* `Cycling.exists_batchedCycle`: what a source does in a cycle, by the messages of its driver.
* `BatchedCycle.conveyed_of_reachable`: the law, for every run.
-/

namespace EventDispatch

/-! ### Messages and batches -/

/-- The events before the end of a cycle is told. -/
def PollMessage.eventsBefore : List PollMessage → List Event
  | .event e :: rest => e :: eventsBefore rest
  | _ => []

theorem PollMessage.eventsBefore_append (events : List Event) (rest : List PollMessage) :
    eventsBefore (events.map .event ++ rest) = events ++ eventsBefore rest := by
  induction events with
  | nil => rfl
  | cons event events ih => rw [List.map_cons, List.cons_append, eventsBefore, ih, List.cons_append]

/-- Events cut into batches of one size, of which only the last may be shorter. -/
def cutInto (size : Nat) (events : List Event) : List (List Event) :=
  if size = 0 ∨ events = [] then [] else events.take size :: cutInto size (events.drop size)
termination_by events.length
decreasing_by
  rename_i hmore
  have hpos : events.length ≠ 0 := fun h => hmore (.inr (List.length_eq_zero_iff.mp h))
  rw [List.length_drop]
  omega

section Cut

variable {size : Nat} {batches : List (List Event)} {batch : List Event}

theorem cutInto_nil (size : Nat) : cutInto size [] = [] := by
  rw [cutInto, if_pos (.inr rfl)]

/-- Batches of the full size are cut off one by one. -/
theorem cutInto_append (hsize : size ≠ 0) (hfull : ∀ b ∈ batches, b.length = size) (rest : List Event) :
    cutInto size (batches.flatten ++ rest) = batches ++ cutInto size rest := by
  induction batches with
  | nil => rfl
  | cons first batches ih =>
    obtain ⟨hfirst, hfull⟩ := List.forall_mem_cons.mp hfull
    have hne : first ++ (batches.flatten ++ rest) ≠ [] := fun h => by
      rw [(List.append_eq_nil_iff.mp h).1] at hfirst
      exact hsize hfirst.symm
    rw [List.flatten_cons, List.append_assoc, cutInto, if_neg (not_or.mpr ⟨hsize, hne⟩),
      List.take_left' hfirst, List.drop_left' hfirst, ih hfull]
    rfl

/-- What is not longer than a batch is one. -/
theorem cutInto_of_length_le (hne : batch ≠ []) (hle : batch.length ≤ size) : cutInto size batch = [batch] := by
  have hsize : size ≠ 0 := fun h => hne (List.length_eq_zero_iff.mp (by omega))
  rw [cutInto, if_neg (not_or.mpr ⟨hsize, hne⟩), List.take_of_length_le hle, List.drop_eq_nil_of_le hle,
    cutInto_nil]

end Cut

/-! ### Batches on their way -/

/-- How far a batch is with the events that were given, and whether it has got a worker. -/
def Batch.Handles (info : SourceInfo) (given : List Event) (leased : Bool) : Batch → Prop
  | .ready events _ => events = given ∧ leased = false
  | .acquiring events _ => List.Forall₂ (Event.PreparedBy info) given events ∧ leased = false
  | .between _ done events rest => List.Forall₂ (Event.PreparedBy info) given events ∧ leased = true ∧
      done.length + rest.length = events.length
  | .running _ done events rest _ => List.Forall₂ (Event.PreparedBy info) given events ∧ leased = true ∧
      done.length + rest.length + 1 = events.length

/-- How far a batch is after a move: it ends without a worker, or with an outcome for each event. -/
def Batch.HandlesAfter (info : SourceInfo) (given : List Event) (leased : Bool) :
    Move Batch (BatchOutcome × List Event) → Prop
  | .goes next => next.Handles info given (leased || !next.leased.isEmpty)
  | .ends (.noWorker _, _) => leased = false
  | .ends (.processed outcomes, events) => leased = true ∧
      List.Forall₂ (Event.PreparedBy info) given events ∧ outcomes.length = events.length

/-- **One move of a batch.** -/
theorem Batch.handles_of_step {a a' : Ambient} {d d' : Desk} {batch : Batch}
    {m : Move Batch (BatchOutcome × List Event)} {given : List Event} {leased : Bool}
    (h : batch.Handles d.info given leased) (hs : batch.step a d = some (m, a', d')) :
    d'.info = d.info ∧ Batch.HandlesAfter d.info given leased m := by
  cases batch with
  | ready events limit =>
    simp only [step, Option.some.injEq, Prod.mk.injEq] at hs
    obtain ⟨rfl, rfl, rfl⟩ := hs
    obtain ⟨rfl, rfl⟩ := h
    exact ⟨rfl, d.preparedBy_prepareAll events a, rfl⟩
  | acquiring events acquire =>
    obtain ⟨hprepared, rfl⟩ := h
    rw [step] at hs
    split at hs
    · cases hs
    next hacquire =>
      cases hs
      exact ⟨Desk.info_stepAcquire hacquire, hprepared, rfl⟩
    next hacquire =>
      cases hs
      exact ⟨Desk.info_stepAcquire hacquire, rfl⟩
    next hacquire =>
      cases hs
      exact ⟨Desk.info_stepAcquire hacquire, hprepared, rfl, Nat.zero_add _⟩
  | between worker done events rest =>
    obtain ⟨hprepared, rfl, hlength⟩ := h
    cases rest with
    | nil =>
      cases hs
      exact ⟨rfl, rfl, hprepared, hlength⟩
    | cons event rest =>
      cases hs
      exact ⟨rfl, hprepared, rfl, hlength⟩
  | running worker done events rest run =>
    obtain ⟨hprepared, rfl, hlength⟩ := h
    rw [step] at hs
    split at hs
    · cases hs
      refine ⟨rfl, hprepared, rfl, ?_⟩
      rw [List.length_append, List.length_singleton]
      omega
    · cases hs

/-! ### A cycle -/

/-- A batch that was submitted. -/
structure Parcel where
  /-- The events, as they were received. -/
  events : List Event
  /-- The batch got a worker. -/
  leased : Bool
  /-- What the driver was given after the batch: the events with their outcomes, each time. -/
  wrapups : List (List Event × List Outcome)

/-- A cycle of a source that polls: what the driver is still to send, and what was submitted. -/
structure BatchedCycle where
  channel : Channel
  ahead : List PollMessage
  consumer : Consumer
  world : World
  source : PollSource
  /-- The batches that are over, in order. -/
  past : List Parcel
  /-- The batch that is on its way. -/
  current : Option Parcel

namespace BatchedCycle

/-- A cycle that begins, with what the driver is going to send. -/
def opened (stream : List PollMessage) (world : World) (source : PollSource) : BatchedCycle :=
  ⟨.new source.batchSize, stream, .receiving [], world, source, [], none⟩

/-- The events of the batches that were submitted, in order. -/
def batches (s : BatchedCycle) : List (List Event) := (s.past ++ s.current.toList).map Parcel.events

/-- What the driver is given when a batch ends. -/
def handed (s : BatchedCycle) (batch : Batch) : List (List Event × List Outcome) :=
  match batch.step s.world.ambient s.source.desk with
  | some (.ends (.processed outcomes, events), _) => [(events, outcomes)]
  | _ => []

/-- What is noted of the batches when the half that submits moves: a batch is submitted, it gets a worker, and
it ends with work for the driver, or without. -/
def noted (s : BatchedCycle) (next : Consumer) : List Parcel × Option Parcel :=
  match s.consumer, next with
  | .receiving _, .submitting _ (.ready events _) => (s.past, some ⟨events, false, []⟩)
  | .submitting _ _, .submitting _ batch =>
    (s.past, s.current.map fun parcel => { parcel with leased := parcel.leased || !batch.leased.isEmpty })
  | .submitting _ batch, .wrapping _ _ _ =>
    (s.past ++ (s.current.map fun parcel =>
      { parcel with wrapups := parcel.wrapups ++ s.handed batch }).toList, none)
  | .submitting _ _, _ => (s.past ++ s.current.toList, none)
  | _, _ => (s.past, s.current)

/-- One move of anybody. -/
inductive Step (signal : Signal) : BatchedCycle → BatchedCycle → Prop
  /-- The driver sends its next message. -/
  | sends {s : BatchedCycle} {m : PollMessage} {ahead : List PollMessage} {send : Sending} {channel : Channel}
      (ha : s.ahead = m :: ahead) (hs : send.step m s.channel = some (.sent, channel)) :
      Step signal s { s with channel, ahead }
  /-- The driver, or a part of it, waits for a place. -/
  | waits {s : BatchedCycle} {m : PollMessage} {send send' : Sending} {channel : Channel}
      (hs : send.step m s.channel = some (.waits send', channel)) : Step signal s { s with channel }
  /-- The driver finds nobody who receives its next message. -/
  | loses {s : BatchedCycle} {m : PollMessage} {ahead : List PollMessage} {send : Sending} {channel : Channel}
      (ha : s.ahead = m :: ahead) (hs : send.step m s.channel = some (.refused, channel)) :
      Step signal s { s with channel, ahead }
  /-- The driver is done: it has sent all, or nobody receives any more. -/
  | closes {s : BatchedCycle} (hdone : s.ahead = [] ∨ s.channel.receiverGone = true) :
      Step signal s { s with channel := s.channel.closeSenders }
  /-- The half that submits moves. -/
  | receives {s : BatchedCycle} {consumer : Consumer} {channel : Channel} {world : World} {source : PollSource}
      (hs : s.source.stepConsumer signal s.channel s.world s.consumer = some (consumer, channel, world, source)) :
      Step signal s ⟨channel, s.ahead, consumer, world, source, (s.noted consumer).1, (s.noted consumer).2⟩
  /-- Time passes, and other things happen to the source and elsewhere. A run that was told to stop stays so. -/
  | passes (s : BatchedCycle) (world : World) {source : PollSource} (hsettings : source.settings = s.source.settings)
      (hinfo : source.desk.info = s.source.desk.info)
      (hsignal : s.source.lifecycle.isTriggered signal = true → source.lifecycle.isTriggered signal = true) :
      Step signal s { s with world, source }

/-- So far all batches are full, and with the batch that is gathered they are what was received. -/
structure Gathers (stream : List PollMessage) (size : Nat) (batches : List (List Event)) (batch : List Event)
    (coming : List PollMessage) (gone : Bool) : Prop where
  present : gone = false
  full : ∀ b ∈ batches, b.length = size
  stream : stream = (batches.flatten ++ batch).map .event ++ coming

/-- What of the stream was submitted with a batch, the last one or another. -/
def Submits (stream : List PollMessage) (size : Nat) (batches : List (List Event)) (coming : List PollMessage)
    (gone : Bool) : Bool → Prop
  | false => Gathers stream size batches [] coming gone
  | true => batches = cutInto size (PollMessage.eventsBefore stream)

/-- What of the stream was submitted, by the state of the half that submits. -/
def Cuts (stream : List PollMessage) (size : Nat) (triggered : Bool) (batches : List (List Event))
    (coming : List PollMessage) (gone : Bool) : Consumer → Prop
  | .receiving batch => batch.length < size ∧ Gathers stream size batches batch coming gone
  | .submitting isLast _ | .wrapping isLast _ _ => Submits stream size batches coming gone isLast
  | .done => batches = cutInto size (PollMessage.eventsBefore stream) ∨
      triggered = true ∧ batches <+: cutInto size (PollMessage.eventsBefore stream)

/-- What is known of the batch that is on its way. -/
def Carries (info : SourceInfo) (current : Option Parcel) : Consumer → Prop
  | .submitting _ batch => ∃ parcel, current = some parcel ∧ parcel.wrapups = [] ∧
      batch.Handles info parcel.events parcel.leased
  | _ => current = none

/-- What is known of a batch that is over. -/
structure Settled (info : SourceInfo) (parcel : Parcel) : Prop where
  once : parcel.leased = true → ∃ events outcomes, parcel.wrapups = [(events, outcomes)] ∧
    List.Forall₂ (Event.PreparedBy info) parcel.events events ∧ outcomes.length = events.length
  never : parcel.leased = false → parcel.wrapups = []

/-- The batches are cut from the stream, and those that are over were settled. -/
structure Sound (signal : Signal) (stream : List PollMessage) (size : Nat) (info : SourceInfo) (s : BatchedCycle) :
    Prop where
  sized : s.source.batchSize = size
  same : s.source.desk.info = info
  sent : s.channel.sendersGone = true → s.ahead = [] ∨ s.channel.receiverGone = true
  cuts : Cuts stream size (s.source.lifecycle.isTriggered signal) s.batches (s.channel.queue ++ s.ahead)
    s.channel.receiverGone s.consumer
  settled : ∀ parcel ∈ s.past, Settled info parcel
  carries : Carries info s.current s.consumer

variable {signal : Signal} {stream : List PollMessage} {size : Nat} {info : SourceInfo} {s s' : BatchedCycle}

theorem batchSize_ne_zero (source : PollSource) : source.batchSize ≠ 0 := by
  have := Nat.le_max_right source.settings.maxBatchSize 1
  rw [PollSource.batchSize]
  omega

theorem sound_opened (signal : Signal) (stream : List PollMessage) (world : World) (source : PollSource) :
    Sound signal stream source.batchSize source.desk.info (opened stream world source) where
  sized := rfl
  same := rfl
  sent h := by cases h
  cuts := ⟨Nat.pos_of_ne_zero (batchSize_ne_zero source), rfl, fun _ hm => (List.not_mem_nil hm).elim, rfl⟩
  settled _ hm := by cases hm
  carries := rfl

/-- What is still to come counts only while somebody receives. -/
theorem Cuts.of_coming {triggered gone : Bool} {batches : List (List Event)}
    {coming coming' : List PollMessage} {consumer : Consumer}
    (h : Cuts stream size triggered batches coming gone consumer) (hc : gone = false → coming' = coming) :
    Cuts stream size triggered batches coming' gone consumer := by
  cases consumer with
  | receiving batch => exact ⟨h.1, h.2.present, h.2.full, hc h.2.present ▸ h.2.stream⟩
  | submitting isLast batch | wrapping isLast previous wrapup =>
    cases isLast with
    | false => exact ⟨h.present, h.full, hc h.present ▸ h.stream⟩
    | true => exact h
  | done => exact h

/-- A run that is told to stop by now. -/
theorem Cuts.of_triggered {triggered triggered' gone : Bool} {batches : List (List Event)}
    {coming : List PollMessage} {consumer : Consumer}
    (h : Cuts stream size triggered batches coming gone consumer)
    (ht : triggered = true → triggered' = true) : Cuts stream size triggered' batches coming gone consumer := by
  cases consumer with
  | receiving batch => exact h
  | submitting isLast batch | wrapping isLast previous wrapup => exact h
  | done => exact h.imp_right fun hleft => ⟨ht hleft.1, hleft.2⟩

/-- What was gathered, with the batches before it, is the beginning of the stream. -/
theorem Gathers.cutInto_eq {batches : List (List Event)} {batch : List Event} {coming : List PollMessage}
    {gone : Bool} (h : Gathers stream size batches batch coming gone) (hsize : size ≠ 0) :
    cutInto size (PollMessage.eventsBefore stream) =
      batches ++ cutInto size (batch ++ PollMessage.eventsBefore coming) := by
  rw [h.stream, PollMessage.eventsBefore_append, List.append_assoc, cutInto_append hsize h.full]

/-- When no event follows, the batch that was gathered is the last one. -/
theorem Gathers.cutInto_last {batches : List (List Event)} {batch : List Event} {coming : List PollMessage}
    {gone : Bool} (h : Gathers stream size batches batch coming gone) (hlt : batch.length < size)
    (hlast : PollMessage.eventsBefore coming = []) : cutInto size (PollMessage.eventsBefore stream) =
      batches ++ if batch = [] then [] else [batch] := by
  rw [h.cutInto_eq (by omega), hlast, List.append_nil]
  split
  next hempty => rw [hempty, cutInto_nil]
  next hne => rw [cutInto_of_length_le hne hlt.le]

/-- **The half that submits receives a message.** -/
theorem Sound.gathers (h : Sound signal stream size info s) {batch : List Event} {event : Event}
    {channel : Channel} (hconsumer : s.consumer = .receiving batch)
    (hreceive : s.channel.receive = (.message (.event event), channel)) :
    Gathers stream size s.batches (batch ++ [event]) (channel.queue ++ s.ahead) channel.receiverGone ∧
      batch.length < size ∧ (channel.sendersGone = true → s.ahead = [] ∨ channel.receiverGone = true) := by
  obtain ⟨hends, hleaves⟩ := Channel.leaves_of_receive hreceive
  have hcuts := h.cuts
  rw [hconsumer] at hcuts
  obtain ⟨hlt, hpresent, hfull, hstream⟩ := hcuts
  cases hleaves with
  | message _ hqueue =>
    refine ⟨⟨hends.receiver.trans hpresent, hfull, ?_⟩, hlt, ?_⟩
    · rw [hqueue] at hstream
      rw [hstream]
      simp
    · rw [hends.senders, hends.receiver]
      exact h.sent

/-- **No event follows**: the batch that was gathered is the last one. -/
theorem Sound.ends (h : Sound signal stream size info s) {batch : List Event} {r : Received}
    {channel : Channel} (hconsumer : s.consumer = .receiving batch) (hreceive : s.channel.receive = (r, channel))
    (hlast : r = .closed ∨ r = .message .cycleComplete) :
    cutInto size (PollMessage.eventsBefore stream) = s.batches ++ (if batch = [] then [] else [batch]) ∧
      (channel.sendersGone = true → s.ahead = [] ∨ channel.receiverGone = true) := by
  obtain ⟨hends, hleaves⟩ := Channel.leaves_of_receive hreceive
  have hcuts := h.cuts
  rw [hconsumer] at hcuts
  obtain ⟨hlt, hgathers⟩ := hcuts
  refine ⟨hgathers.cutInto_last hlt ?_, ?_⟩
  · cases hleaves with
    | message m hqueue =>
      obtain rfl : m = .cycleComplete := by simpa using hlast
      rw [hqueue]
      rfl
    | closed hgone hempty hsame =>
      have hnone : s.ahead = [] := (h.sent hgone).resolve_right fun habsent => by
        rw [hgathers.present] at habsent
        cases habsent
      rw [hempty, hnone]
      rfl
    | pending _ _ _ => simp at hlast
  · rw [hends.senders, hends.receiver]
    exact h.sent

/-- A batch that is full is submitted. -/
theorem Gathers.submit {batches : List (List Event)} {batch : List Event} {coming : List PollMessage}
    {gone : Bool} (h : Gathers stream size batches batch coming gone) (hlength : batch.length = size) :
    Gathers stream size (batches ++ [batch]) [] coming gone := by
  refine ⟨h.present, List.forall_mem_append.mpr ⟨h.full, List.forall_mem_singleton.mpr hlength⟩, ?_⟩
  rw [h.stream, List.flatten_append, List.flatten_singleton, List.append_nil]

/-- After a batch the cycle goes on, unless it was the last one. -/
theorem Submits.afterBatch {batches : List (List Event)} {ahead : List PollMessage} {isLast : Bool} {c : Channel}
    (h : Submits stream size batches (c.queue ++ ahead) c.receiverGone isLast) (hsize : 0 < size)
    (triggered : Bool) :
    Cuts stream size triggered batches ((if isLast then c.closeReceiver else c).queue ++ ahead)
      (if isLast then c.closeReceiver else c).receiverGone (PollSource.afterBatch isLast) := by
  cases isLast with
  | false => exact ⟨hsize, h⟩
  | true => exact .inl h

theorem carries_afterBatch (info : SourceInfo) (isLast : Bool) :
    Carries info none (PollSource.afterBatch isLast) := by
  cases isLast <;> rfl

theorem sent_afterBatch {ahead : List PollMessage} {c : Channel}
    (h : c.sendersGone = true → ahead = [] ∨ c.receiverGone = true) (isLast : Bool) :
    (if isLast then c.closeReceiver else c).sendersGone = true →
      ahead = [] ∨ (if isLast then c.closeReceiver else c).receiverGone = true := by
  cases isLast with
  | false => exact h
  | true => exact fun _ => .inr rfl

/-- Whatever becomes of the batch that is on its way, its events stay. -/
theorem Sound.submits (h : Sound signal stream size info s) {isLast : Bool} {batch : Batch}
    {parcel : Parcel} (parcel' : Parcel) (hconsumer : s.consumer = .submitting isLast batch)
    (hcurrent : s.current = some parcel) (hsame : parcel'.events = parcel.events) :
    Submits stream size ((s.past ++ [parcel']).map Parcel.events) (s.channel.queue ++ s.ahead)
      s.channel.receiverGone isLast := by
  have hcuts := h.cuts
  rw [hconsumer, batches, hcurrent, Option.toList_some, List.map_append, List.map_singleton, ← hsame,
    ← List.map_singleton, ← List.map_append] at hcuts
  exact hcuts

theorem noted_submitting (c : Channel) (ahead : List PollMessage) (isLast : Bool) (batch : Batch) (w : World)
    (s₀ : PollSource) (past : List Parcel) (current : Option Parcel) :
    noted ⟨c, ahead, .submitting isLast batch, w, s₀, past, current⟩ (PollSource.afterBatch isLast) =
      (past ++ current.toList, none) := by
  cases isLast <;> rfl

theorem noted_wrapping (c : Channel) (ahead : List PollMessage) (isLast : Bool) (previous : PollPhase)
    (wrapup : Wrapup) (w : World) (s₀ : PollSource) (past : List Parcel) (current : Option Parcel) :
    noted ⟨c, ahead, .wrapping isLast previous wrapup, w, s₀, past, current⟩ (PollSource.afterBatch isLast) =
      (past, current) := by
  cases isLast <;> rfl

/-- **One move of the half that submits.** -/
theorem Sound.receives (h : Sound signal stream size info s) {consumer : Consumer} {channel : Channel}
    {world : World} {source : PollSource}
    (hs : s.source.stepConsumer signal s.channel s.world s.consumer = some (consumer, channel, world, source)) :
    Sound signal stream size info
      ⟨channel, s.ahead, consumer, world, source, (s.noted consumer).1, (s.noted consumer).2⟩ := by
  obtain ⟨c, ahead, consumer₀, w, s₀, past, current⟩ := s
  have hsize : 0 < size := h.sized ▸ Nat.pos_of_ne_zero (batchSize_ne_zero _)
  have hmoves := Consumer.moves_of_step hs
  dsimp only at hmoves
  cases hmoves with
  | gathers hreceive hroom =>
    obtain ⟨hgathers, -, hsent⟩ := h.gathers rfl hreceive
    exact ⟨h.sized, h.same, hsent, ⟨h.sized ▸ hroom, hgathers⟩, h.settled, h.carries⟩
  | @fills batch event c' hreceive hfull hsignal =>
    obtain ⟨hgathers, hlt, hsent⟩ := h.gathers rfl hreceive
    obtain rfl : current = none := h.carries
    have hlength : (batch ++ [event]).length = size := by
      have hle := h.sized ▸ hfull
      rw [List.length_append, List.length_singleton] at hle ⊢
      omega
    refine ⟨h.sized, h.same, hsent, ?_, h.settled, ⟨_, rfl, rfl, rfl, rfl⟩⟩
    have hsubmitted := hgathers.submit hlength
    change Gathers stream size ((past ++ [_]).map Parcel.events) [] _ _
    rw [List.map_append]
    rwa [batches, Option.toList_none, List.append_nil] at hsubmitted
  | leaves hreceive hfull hsignal =>
    obtain ⟨hgathers, -, hsent⟩ := h.gathers rfl hreceive
    refine ⟨h.sized, h.same, fun _ => .inr rfl, .inr ⟨hsignal, ?_⟩, h.settled, h.carries⟩
    rw [hgathers.cutInto_eq hsize.ne']
    exact List.prefix_append _ _
  | finishes hreceive hlast hbatch hsignal =>
    obtain ⟨hcut, hsent⟩ := h.ends rfl hreceive hlast
    obtain rfl : current = none := h.carries
    refine ⟨h.sized, h.same, hsent, ?_, h.settled, ⟨_, rfl, rfl, rfl, rfl⟩⟩
    rw [if_neg hbatch, batches, Option.toList_none, List.append_nil] at hcut
    change (past ++ [_]).map Parcel.events = _
    rw [List.map_append]
    exact hcut.symm
  | closes hreceive hlast hidle =>
    obtain ⟨hcut, -⟩ := h.ends rfl hreceive hlast
    refine ⟨h.sized, h.same, fun _ => .inr rfl, ?_, h.settled, h.carries⟩
    rcases hidle with rfl | hsignal
    · rw [if_pos rfl, List.append_nil] at hcut
      exact .inl hcut.symm
    · exact .inr ⟨hsignal, hcut ▸ List.prefix_append _ _⟩
  | @submits isLast batch next ambient desk hstep =>
    obtain ⟨parcel, rfl, hnone, hhandles⟩ := h.carries
    obtain ⟨hinfo, hnext⟩ := Batch.handles_of_step (h.same ▸ hhandles) hstep
    exact ⟨h.sized, hinfo.trans h.same, h.sent, h.submits _ rfl rfl rfl, h.settled,
      ⟨_, rfl, hnone, h.same ▸ hnext⟩⟩
  | @misses isLast batch e events ambient desk hstep =>
    obtain ⟨parcel, rfl, hnone, hhandles⟩ := h.carries
    obtain ⟨hinfo, hleased⟩ := Batch.handles_of_step (h.same ▸ hhandles) hstep
    have hparcel : Settled info parcel :=
      ⟨fun htrue => Bool.noConfusion (hleased.symm.trans htrue), fun _ => hnone⟩
    have hsubmits : Submits stream size _ _ _ isLast := h.submits parcel rfl rfl rfl
    rw [noted_submitting]
    refine ⟨h.sized, hinfo.trans h.same, sent_afterBatch h.sent isLast, ?_,
      List.forall_mem_append.mpr ⟨h.settled, List.forall_mem_singleton.mpr hparcel⟩,
      carries_afterBatch info isLast⟩
    rw [batches, Option.toList_none, List.append_nil]
    exact hsubmits.afterBatch hsize _
  | @handles isLast batch outcomes events ambient desk hstep =>
    obtain ⟨parcel, rfl, hnone, hhandles⟩ := h.carries
    obtain ⟨hinfo, hleased, hprepared, hlength⟩ := Batch.handles_of_step (h.same ▸ hhandles) hstep
    have hhanded : parcel.wrapups ++ handed ⟨channel, ahead, .submitting isLast batch, w, s₀, past, some parcel⟩
        batch = [(events, outcomes)] := by
      rw [hnone, List.nil_append]
      simp only [handed, hstep]
    have hparcel : Settled info { parcel with wrapups := [(events, outcomes)] } :=
      ⟨fun _ => ⟨events, outcomes, rfl, h.same ▸ hprepared, hlength⟩,
        fun hfalse => Bool.noConfusion (hleased.symm.trans hfalse)⟩
    have hsubmits := h.submits { parcel with wrapups := [(events, outcomes)] } rfl rfl rfl
    have hnoted : noted ⟨channel, ahead, .submitting isLast batch, w, s₀, past, some parcel⟩
        (.wrapping isLast s₀.phase (.ofBatch ambient.now s₀.driver events outcomes)) =
          (past ++ [{ parcel with wrapups := [(events, outcomes)] }], none) := by
      rw [← hhanded]
      rfl
    rw [hnoted]
    refine ⟨h.sized, hinfo.trans h.same, h.sent, ?_,
      List.forall_mem_append.mpr ⟨h.settled, List.forall_mem_singleton.mpr hparcel⟩, rfl⟩
    rw [batches, Option.toList_none, List.append_nil]
    exact hsubmits
  | wraps hstep => exact ⟨h.sized, h.same, h.sent, h.cuts, h.settled, h.carries⟩
  | @returns isLast previous wrapup w' driver hstep =>
    have hcuts : Submits stream size _ _ _ isLast := h.cuts
    rw [noted_wrapping]
    exact ⟨h.sized, h.same, sent_afterBatch h.sent isLast, hcuts.afterBatch hsize _, h.settled,
      h.carries ▸ carries_afterBatch info isLast⟩

/-- **One move of anybody** keeps the batches in order. -/
theorem Sound.step (h : Sound signal stream size info s) (hs : Step signal s s') :
    Sound signal stream size info s' := by
  cases hs with
  | sends ha hsend =>
    obtain ⟨hends, hleaves⟩ := Sending.leaves_of_step hsend
    refine ⟨h.sized, h.same, fun hgone => ?_, ?_, h.settled, h.carries⟩
    · rcases h.sent (hends.senders ▸ hgone) with hnone | habsent
      · rw [ha] at hnone
        cases hnone
      · exact .inr (hends.receiver.trans habsent)
    · cases hleaves with
      | sent _ hqueue =>
        have hcuts := h.cuts
        rw [ha] at hcuts
        dsimp only
        rw [hqueue, hends.receiver, List.append_assoc]
        exact hcuts
  | waits hsend =>
    obtain ⟨hends, hleaves⟩ := Sending.leaves_of_step hsend
    refine ⟨h.sized, h.same, fun hgone => ?_, ?_, h.settled, h.carries⟩
    · exact (h.sent (hends.senders ▸ hgone)).imp_right hends.receiver.trans
    · cases hleaves with
      | waits _ _ hqueue =>
        dsimp only
        rw [hqueue, hends.receiver]
        exact h.cuts
  | loses ha hsend =>
    obtain ⟨-, hleaves⟩ := Sending.leaves_of_step hsend
    cases hleaves with
    | refused hgone hsame =>
      subst hsame
      refine ⟨h.sized, h.same, fun _ => .inr hgone, h.cuts.of_coming fun hpresent => ?_, h.settled, h.carries⟩
      exact Bool.noConfusion (hgone.symm.trans hpresent)
  | closes hdone => exact ⟨h.sized, h.same, fun _ => hdone, h.cuts, h.settled, h.carries⟩
  | receives hstep => exact h.receives hstep
  | passes world hsettings hinfo hsignal =>
    have hsize : ∀ source : PollSource, source.settings = s.source.settings →
        source.batchSize = s.source.batchSize := fun source heq => by
      rw [PollSource.batchSize, heq, PollSource.batchSize]
    exact ⟨(hsize _ hsettings).trans h.sized, hinfo.trans h.same, h.sent, h.cuts.of_triggered hsignal, h.settled,
      h.carries⟩

theorem Sound.of_reachable (h : Sound signal stream size info s)
    (hr : Relation.ReflTransGen (Step signal) s s') : Sound signal stream size info s' := by
  induction hr with
  | refl => exact h
  | tail _ hs ih => exact ih.step hs

/-! ### The law -/

end BatchedCycle

/-! ### The cycles of a source -/

/-- The messages that a call that sends is done with. -/
def Sent.spent (m : PollMessage) : Sent → List PollMessage
  | .waits _ => []
  | _ => [m]

theorem Sent.spent_of_ne_waits {m : PollMessage} {r : Sent} (h : ∀ send, r ≠ .waits send) : r.spent m = [m] := by
  cases r with
  | waits send => exact absurd rfl (h send)
  | sent | refused => rfl

namespace BatchedCycle

variable {signal : Signal} {s : BatchedCycle}

/-- Any call that sends is a move of the driver. -/
theorem Step.of_send {m : PollMessage} {send : Sending} {r : Sent} {channel : Channel}
    {ahead : List PollMessage} (hs : send.step m s.channel = some (r, channel))
    (ha : s.ahead = r.spent m ++ ahead) : Step signal s { s with channel, ahead } := by
  cases r with
  | sent => exact .sends ha hs
  | refused => exact .loses ha hs
  | waits send' =>
    obtain rfl : s.ahead = ahead := ha
    exact .waits hs

/-- The world and the driver of a source change. -/
theorem Step.of_driver (s : BatchedCycle) (world : World) (driver : PollDriver) :
    Step signal s { s with world, source := { s.source with driver } } :=
  .passes s world rfl rfl id

/-- A driver makes a move, and is done with some of its messages, the next ones; or with all of them, when it
is over. -/
def Drives (signal : Signal) (messages : List PollMessage) (isOver : Bool) (w : World) (d : PollDriver)
    (c : Channel) (w' : World) (d' : PollDriver) (c' : Channel) : Prop :=
  ∀ (s : BatchedCycle) (ahead : List PollMessage), s.world = w → s.source.driver = d → s.channel = c →
    s.ahead = messages ++ ahead → (isOver = true → ahead = []) → Relation.ReflTransGen (Step signal) s
      { s with channel := c', ahead, world := w', source := { s.source with driver := d' } }

variable {w w' : World} {d d' : PollDriver} {c c' : Channel} {m : PollMessage} {send : Sending} {r : Sent}

/-- The driver does something that is no message. -/
theorem drives_nil (signal : Signal) (isOver : Bool) (w w' : World) (d d' : PollDriver) (c : Channel) :
    Drives signal [] isOver w d c w' d' c := by
  rintro ⟨c, before, consumer, w, source, past, current⟩ ahead rfl rfl rfl ha -
  obtain rfl : before = ahead := ha
  exact .single (.of_driver _ w' d')

/-- The driver makes a move with a call that sends. -/
theorem drives_send (isOver : Bool) (w w' : World) (d d' : PollDriver) (hs : send.step m c = some (r, c')) :
    Drives signal (r.spent m) isOver w d c w' d' c' := by
  rintro ⟨c, before, consumer, w, source, past, current⟩ ahead rfl rfl rfl ha -
  exact (Relation.ReflTransGen.single (.of_send hs ha)).tail (.of_driver _ w' d')

/-- The driver is done with its last message, and sends no more. -/
theorem drives_close (w : World) (d d' : PollDriver) (hs : send.step m c = some (r, c'))
    (hr : ∀ send', r ≠ .waits send') : Drives signal [m] true w d c w d' c'.closeSenders := by
  intro s ahead hw hd hc ha hnone
  obtain rfl := hnone rfl
  rw [← Sent.spent_of_ne_waits hr] at ha
  exact (drives_send true w w d d' hs s [] hw hd hc ha hnone).tail (.closes (.inl rfl))

/-- **One move of a listing.** -/
theorem drives_of_listing {p : ItemPoller} {query : String} {l l' : Listing}
    (hs : l.step p query w c = some (l', w', c')) :
    ∃ messages, Drives signal messages false w (.items p) c w' (.items p) c' := by
  cases Listing.moves_of_step hs with
  | asks | loses | fails | brings | retries | turns => exact ⟨[], drives_nil signal false _ _ _ _ _⟩
  | waits hsend | leaves hsend | sends hsend => exact ⟨_, drives_send false _ _ _ _ hsend⟩

/-- **One move of a search.** -/
theorem drives_of_search {producer producer' : Producer} (hs : producer.step w d c = some (producer', w', d', c')) :
    ∃ messages, Drives signal messages producer'.isDone w d c w' d' c' := by
  cases Producer.moves_of_step hs with
  | begins | plays | concludes | pauses | goes | wakes => exact ⟨[], drives_nil signal _ _ _ _ _ _⟩
  | lists hfirst =>
    obtain ⟨pre, l, post, l', -, hstep, -⟩ := Listing.stepFirst_cases hfirst
    exact drives_of_listing hstep
  | lingers hsend | waits hsend | sends hsend => exact ⟨_, drives_send _ _ _ _ _ hsend⟩
  | completes hsend hr | finishes hsend hr => exact ⟨_, drives_close _ _ _ hsend hr⟩
  | stops =>
    refine ⟨[], fun s ahead hw hd hc ha hnone => ?_⟩
    have hquiet := drives_nil signal true w w d d c s ahead hw hd hc ha hnone
    exact hquiet.tail (.closes (.inl (hnone rfl)))
  | leaves hsend | notes hsend => exact ⟨_, drives_close _ _ _ hsend fun _ => Sent.noConfusion⟩

end BatchedCycle

/-- A source that is at a cycle, with both halves of it. -/
structure Cycling where
  world : World
  source : PollSource
  turn : CycleHalf
  channel : Channel
  producer : Producer
  consumer : Consumer

namespace Cycling

/-- A cycle that begins. -/
def opened (world : World) (source : PollSource) : Cycling :=
  ⟨world, source, .searching, .new source.batchSize, .ready, .receiving []⟩

/-- The task of the source. -/
def task (s : Cycling) : PollTask := .cycling s.turn s.channel s.producer s.consumer

/-- The task of the source makes a move within the cycle, or something else happens to the source, but not to
its driver, or elsewhere. A run that was told to stop stays so. -/
inductive Step (signal : Signal) : Cycling → Cycling → Prop
  | moves {s next : Cycling}
      (hs : s.source.step signal s.task s.world = some (.goes next.task, next.world, next.source)) :
      Step signal s next
  | passes (s : Cycling) (world : World) {source : PollSource} (hsettings : source.settings = s.source.settings)
      (hinfo : source.desk.info = s.source.desk.info) (hdriver : source.driver = s.source.driver)
      (hsignal : s.source.lifecycle.isTriggered signal = true → source.lifecycle.isTriggered signal = true) :
      Step signal s { s with world, source }

variable {signal : Signal} {s s' : Cycling}

/-- The cycle after some moves that its task makes one after the other, unless it ends or has to wait before. -/
def after (signal : Signal) : Nat → Cycling → Option Cycling
  | 0, s => some s
  | n + 1, s =>
    match s.source.step signal s.task s.world with
    | some (.goes (.cycling turn channel producer consumer), world, source) =>
      after signal n ⟨world, source, turn, channel, producer, consumer⟩
    | _ => none

theorem reachable_of_after {n : Nat} (h : after signal n s = some s') : Relation.ReflTransGen (Step signal) s s' := by
  induction n generalizing s with
  | zero =>
    cases h
    exact .refl
  | succ n ih =>
    rw [after] at h
    split at h
    next turn channel producer consumer world source hs =>
      exact .head (@Step.moves _ _ ⟨world, source, turn, channel, producer, consumer⟩ hs) (ih h)
    · cases h

/-- The cycle is one that was looked at by its messages. -/
structure Shown (s : Cycling) (h : BatchedCycle) : Prop where
  channel : h.channel = s.channel
  consumer : h.consumer = s.consumer
  world : h.world = s.world
  source : h.source = s.source

/-- What a cycle has done does not depend on the messages to come, until its search is over. -/
def Reaches (signal : Signal) (world : World) (source : PollSource) (s : Cycling) : Prop :=
  ∃ sent, ∀ ahead, (s.producer.isDone = true → ahead = []) → ∃ h,
    Relation.ReflTransGen (BatchedCycle.Step signal) (.opened (sent ++ ahead) world source) h ∧
      h.ahead = ahead ∧ s.Shown h

theorem Reaches.step {world : World} {source : PollSource} (h : Reaches signal world source s)
    (hs : Step signal s s') : Reaches signal world source s' := by
  obtain ⟨sent, hreaches⟩ := h
  cases hs with
  | passes world hsettings hinfo _ hsignal =>
    refine ⟨sent, fun ahead hnone => ?_⟩
    obtain ⟨h, hr, hahead, hshown⟩ := hreaches ahead hnone
    obtain ⟨c, before, consumer, w, s₀, past, current⟩ := h
    obtain ⟨rfl, rfl, rfl, rfl⟩ := hshown
    exact ⟨_, hr.tail (.passes _ world hsettings hinfo hsignal), hahead, rfl, rfl, rfl, rfl⟩
  | moves hs =>
    obtain ⟨w, s₀, turn₀, c, producer₀, consumer₀⟩ := s
    obtain ⟨w', s₁, turn₁, c', producer₁, consumer₁⟩ := s'
    dsimp only [task] at hs
    cases PollSource.moves_of_step hs with
    | searches hsearch =>
      have hbusy : producer₀.isDone = false := by
        cases producer₀ with
        | done => cases hsearch
        | _ => rfl
      obtain ⟨messages, hdrives⟩ := BatchedCycle.drives_of_search hsearch
      refine ⟨sent ++ messages, fun ahead hnone => ?_⟩
      obtain ⟨h, hr, hahead, hshown⟩ := hreaches (messages ++ ahead) fun hdone =>
        Bool.noConfusion (hbusy.symm.trans hdone)
      rw [← List.append_assoc] at hr
      have hdriven := hdrives h ahead hshown.world (congrArg PollSource.driver hshown.source) hshown.channel
        hahead hnone
      refine ⟨_, hr.trans hdriven, rfl, rfl, hshown.consumer, rfl, ?_⟩
      dsimp only
      rw [hshown.source]
    | receives hreceive =>
      refine ⟨sent, fun ahead hnone => ?_⟩
      obtain ⟨⟨c₀, before, consumer, w, s, past, current⟩, hr, hahead, hshown⟩ := hreaches ahead hnone
      obtain ⟨rfl, rfl, rfl, rfl⟩ := hshown
      exact ⟨_, hr.tail (.receives hreceive), hahead, rfl, rfl, rfl, rfl⟩

end Cycling

end EventDispatch
