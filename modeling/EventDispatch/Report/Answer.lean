import EventDispatch.Report
import EventDispatch.Event.Class
import EventDispatch.Station

/-!
# Reports of a station

What the calls on a station answer, and what its sources tell, in JSON.

## Main definitions

* `Report.answer`: what a call answers.
* `Report.description`, `Report.created`: what a source tells about itself.
* `Report.probeNote`, `Report.feedNote`: what was noted.
-/

namespace EventDispatch.Report

/-- What became of a submission: its name, its value, and whether it was completed, found no worker, or
failed. -/
def submitOutcome : SubmitOutcome → String × Json × List Bool
  | .completed r => ("completed", outcome (.ok r), [true, false, false])
  | .failed f => ("failed", outcome (.error f), [false, false, true])
  | .noWorker e => ("no_worker", error e, [false, true, false])

/-- What became of a batch: its name and its value. -/
def batchOutcome : BatchOutcome → String × Json
  | .processed outcomes => ("processed", list outcome outcomes)
  | .noWorker e => ("no_worker", error e)

/-- A checkpoint. -/
def checkpoint (token : Option String) : Json := .obj [("checkpoint", tokenJson token)]

/-- What a call on a station answers. -/
def answer (now : Timestamp) : Answer → Json
  | .ran (.started r) => result (fun _ => done) r
  | .ran (.stopped r) => result (fun c => .obj [("checkpoints", .obj (c.mapValues tokenJson))]) r
  | .stopped r => result checkpoint r
  | .submitted o e =>
    let (name, value, marks) := submitOutcome o
    object [("outcome", .str name), ("value", value),
      ("completed_submit_process", list .bool marks), ("id", id e.id)]
  | .batched o es =>
    let (name, value) := batchOutcome o
    object [("outcome", .str name), ("value", value), ("ids", list (id ·.id) es)]
  | .allocated r => result (fun w => .obj [("worker", nat w.index)]) r
  | .assigned o e => object [("result", outcome o), ("id", id e.id)]
  | .served r => reply r
  | .collected messages => object [("ok", .bool true), ("messages", list (pollMessage now) messages)]
  | .wrappedUp => .obj []
  | .received d => .obj [("delivery", option delivery d)]

/-- What a source is: its id, kind and class. -/
def identity (s : Source) : List (String × Json) :=
  [("id", .str s.info.id), ("kind", .str s.info.kind), ("class", .str s.info.class_.name)]

/-- What a source is, and its settings. -/
def description (s : Source) : Json := object (("config", s.config) :: identity s)

/-- The indices of a source's workers. -/
def indices (d : Desk) : Json := list (nat ·.index) d.crew.members

/-- What each worker of a source handled. -/
def crew (d : Desk) : Json := list worker d.crew.counts

/-- What a source and its workers handled. -/
def desk (d : Desk) : List (String × Json) := [("stats", d.counts.toJson), ("workers", crew d)]

/-- A source that was made. -/
def created (s : Source) : Json := extend [("workers", indices s.desk)] (description s)

/-- A note of a probe. -/
def probeNote : ProbeNote → Json
  | .started id token => .arr [.str "start", .str id, tokenJson token]
  | .stopped id force => .arr [.str "stop", .str id, .bool force]

/-- A note of a feed. -/
def feedNote : FeedNote → Json
  | .receiverClosed => .str "receiver closed"
  | .handled events => list (fun (body, o) => .arr [bytes body, outcome o]) events

end EventDispatch.Report
