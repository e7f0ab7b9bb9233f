import EventDispatch.Decimal.Literal
import EventDispatch.Error
import EventDispatch.Event
import EventDispatch.Width

/-!
# A record stream in memory

Records in shards, each with a sequence number of its own. A position in a shard is the number of
records before it, in digits.

## Main definitions

* `Record`, `RecordStream`: the state.
* `RecordStream.put`, `RecordStream.initialPosition`, `RecordStream.getRecords`: the calls.
-/

namespace EventDispatch

/-- A record of a stream. -/
structure Record where
  sequence : String
  key : String
  data : ByteArray
  arrivedAt : Timestamp
deriving Inhabited

/-- Consecutive records of a shard and the position after them. -/
structure RecordBatch where
  records : List Record
  nextPosition : String
deriving Inhabited

/-- What a request for records leads to. -/
inductive Fetched where
  | batch (b : RecordBatch)
  | refused (e : Error)
  /-- The end of the range asked for is no 64-bit number, and the caller breaks off. -/
  | overflow
deriving Inhabited

/-- The shards of a stream. -/
structure RecordStream where
  shards : Keyed (List Record)
  /-- Sequence numbers given out so far. -/
  issued : Nat
  /-- Requests for records that are still to fail. -/
  failing : Nat
  /-- The shard and position of every request for records, in order. -/
  fetches : List (String × String)
deriving Inhabited

namespace RecordStream

/-- A stream without records. -/
def new : RecordStream := ⟨[], 0, 0, []⟩

/-- The records of a shard, oldest first. -/
def shard (id : String) (s : RecordStream) : List Record := (s.shards.get? id).getD []

/-- A sequence number: at least twenty digits. -/
def sequenceText (n : Nat) : String :=
  let digits := toString n
  String.ofList (List.replicate (20 - digits.length) '0') ++ digits

/-- Appends a record to a shard. -/
def put (shard key : String) (data : ByteArray) (now : Timestamp) (s : RecordStream) :
    String × RecordStream :=
  let sequence := sequenceText (s.issued + 1)
  (sequence, { s with issued := s.issued + 1,
                      shards := s.shards.insert shard (s.shard shard ++ [⟨sequence, key, data, now⟩]) })

/-- The position of the oldest record, or the one right after a record. -/
def initialPosition (shard : String) (after : Option String) (s : RecordStream) :
    Except Error String :=
  match after with
  | none => .ok "0"
  | some sequence =>
    match (s.shard shard).findIdx? (·.sequence == sequence) with
    | some index => .ok (toString (index + 1))
    | none => .error (.transport ("Sequence number " ++ sequence ++ " not found in shard " ++ shard))

/-- At most `limit` records from a position on. -/
def getRecords (shard position : String) (limit : Nat) (s : RecordStream) : Fetched × RecordStream :=
  let s := { s with fetches := s.fetches ++ [(shard, position)] }
  match s.failing with
  | failing + 1 => (.refused (.transport "Injected fetch failure"), { s with failing })
  | 0 =>
    match Decimal.natural? Width.natural64 position.toList with
    | none => (.refused (.transport ("Invalid position: " ++ position)), s)
    | some number =>
      let records := s.shard shard
      let first := min number records.length
      if Width.natural64 ≤ first + limit then (.overflow, s)
      else
        let last := min (first + limit) records.length
        (.batch ⟨(records.drop first).take (last - first), toString last⟩, s)

end RecordStream

end EventDispatch
