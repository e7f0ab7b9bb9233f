import EventDispatch.Generator
import EventDispatch.Queue.Listener

/-!
# What a move of a generator or of a listener is

A task of a generator pauses, makes an event and submits it. A task that listens to a broker reaches for a delivery,
receives it, submits it as an event, and acknowledges it where the policy asks for that. Each way in which such a task
can move is one case of a relation, with what holds when it moves so. That a source keeps this or that is then shown
case by case.

## Main definitions

* `Generator.Moves`, `QueueSource.Moves`: what a move of a task is.

## Main results

* `Generator.moves_of_step`, `QueueSource.moves_of_step`: there are no other moves.
-/

namespace EventDispatch

/-! ### Generators -/

namespace Generator

variable {signal : Signal} {w w' : World} {g g' : Generator} {task : Generation} {m : Move Generation Unit}

/-- What a move of a task that listens to a signal is. -/
inductive Moves (signal : Signal) (w : World) (g : Generator) :
    Generation → Move Generation Unit → World → Generator → Prop where
  /-- The signal has come before a pause. -/
  | stops {index made : Nat} (hnone : Pause.begin? w.now g.settings.minDelay signal g.lifecycle = none) :
      Moves signal w g (.idle index made) (.ends ()) w g
  /-- A pause begins. -/
  | pauses {index made : Nat} {pause : Pause}
      (hbegin : Pause.begin? w.now g.settings.minDelay signal g.lifecycle = some pause) :
      Moves signal w g (.idle index made) (.goes (.pausing index made pause)) w g
  /-- The signal comes during a pause. -/
  | wakes {index made : Nat} {pause : Pause} (hends : pause.ends? w.now signal g.lifecycle = some false) :
      Moves signal w g (.pausing index made pause) (.ends ()) w g
  /-- An event is made. -/
  | makes {index made : Nat} {pause : Pause} (hends : pause.ends? w.now signal g.lifecycle = some true) :
      Moves signal w g (.pausing index made pause)
        (.goes (.submitting index (made + 1) (.ready (g.event index made w.readClock.1) (some g.limit))))
        w.readClock.2 g
  /-- The submission goes on. -/
  | submits {index made : Nat} {submission submission' : Submission} {ambient : Ambient} {desk : Desk}
      (hsubmit : submission.step w.ambient g.desk = some (.goes submission', ambient, desk)) :
      Moves signal w g (.submitting index made submission) (.goes (.submitting index made submission'))
        { w with ambient } { g with desk }
  /-- The submission is answered. -/
  | returns {index made : Nat} {submission : Submission} {answer : SubmitOutcome × Event} {ambient : Ambient}
      {desk : Desk} (hsubmit : submission.step w.ambient g.desk = some (.ends answer, ambient, desk)) :
      Moves signal w g (.submitting index made submission) (.goes (.idle index made)) { w with ambient } { g with desk }

/-- **A generator moves in no other way.** -/
theorem moves_of_step (hs : g.step signal task w = some (m, w', g')) : Moves signal w g task m w' g' := by
  cases task with
  | idle index made =>
    simp only [step] at hs
    split at hs
    next hnone =>
      cases hs
      exact .stops hnone
    next hbegin =>
      cases hs
      exact .pauses hbegin
  | pausing index made pause =>
    simp only [step] at hs
    split at hs
    · cases hs
    next hends =>
      cases hs
      exact .wakes hends
    next hends =>
      cases hs
      exact .makes hends
  | submitting index made submission =>
    simp only [step] at hs
    split at hs
    · cases hs
    next hsubmit =>
      cases hs
      exact .submits hsubmit
    next hsubmit =>
      cases hs
      exact .returns hsubmit

end Generator

/-! ### Sources that listen to a broker -/

namespace QueueSource

variable {signal : Signal} {w w' : World} {q q' : QueueSource} {l : Listener} {m : Move Listener Unit}

/-- What a move of a task that listens to a signal is. -/
inductive Moves (signal : Signal) (w : World) (q : QueueSource) :
    Listener → Move Listener Unit → World → QueueSource → Prop where
  /-- The signal has come before a delivery is asked for. -/
  | stops (hsent : q.lifecycle.isTriggered signal = true) : Moves signal w q .checking (.ends ()) w q
  /-- A delivery is asked for. -/
  | asks (hsignal : q.lifecycle.isTriggered signal = false) :
      Moves signal w q .checking (.goes (.reaching .leaving))
        { w with clients := { w.clients with
            groups := w.clients.groups ++ [(q.settings.topic, q.settings.queueName, receiveWait)] } } q
  /-- The signal comes while the broker is called. -/
  | turns {trip : Trip} (hreleased : q.lifecycle.isReleased signal = true) :
      Moves signal w q (.reaching trip) (.ends ()) w q
  /-- The call to the broker is on its way. -/
  | travels {trip trip' : Trip} {w' : World} (htrip : w.stepTrip .receive trip = some (.goes trip', w')) :
      Moves signal w q (.reaching trip) (.goes (.reaching trip')) w' q
  /-- The call reaches the broker. -/
  | arrives {trip : Trip} {w' : World} (htrip : w.stepTrip .receive trip = some (.ends none, w')) :
      Moves signal w q (.reaching trip) (.goes (.receiving (.asking q.settings.topic receiveWait))) w' q
  /-- The call is lost, and the signal has come. -/
  | despairs {trip : Trip} {e : Error} {w' : World} (htrip : w.stepTrip .receive trip = some (.ends (some e), w'))
      (hnone : Pause.begin? w'.now receiveWait signal q.lifecycle = none) :
      Moves signal w q (.reaching trip) (.ends ()) w' q
  /-- The call is lost, and the task rests. -/
  | rests {trip : Trip} {e : Error} {pause : Pause} {w' : World}
      (htrip : w.stepTrip .receive trip = some (.ends (some e), w'))
      (hbegin : Pause.begin? w'.now receiveWait signal q.lifecycle = some pause) :
      Moves signal w q (.reaching trip) (.goes (.resting pause)) w' q
  /-- The signal comes before a delivery. -/
  | withdraws {call : Receive} (hreleased : q.lifecycle.isReleased signal = true) :
      Moves signal w q (.receiving call) (.ends ())
        { w with clients := { w.clients with broker := call.drop w.clients.broker } } q
  /-- The task waits for a delivery. -/
  | waits {call call' : Receive} {broker : Broker}
      (hcall : call.step w.now w.clients.broker = some (.goes call', broker)) :
      Moves signal w q (.receiving call) (.goes (.receiving call')) { w with clients := { w.clients with broker } } q
  /-- There is no delivery. -/
  | misses {call : Receive} {broker : Broker} (hcall : call.step w.now w.clients.broker = some (.ends none, broker)) :
      Moves signal w q (.receiving call) (.goes .checking) { w with clients := { w.clients with broker } } q
  /-- A delivery is received. -/
  | receives {call : Receive} {d : Delivery} {broker : Broker}
      (hcall : call.step w.now w.clients.broker = some (.ends (some d), broker)) :
      Moves signal w q (.receiving call) (.goes (.handling d (.ready (event d) (some q.limit))))
        { w with clients := { w.clients with broker } } q
  /-- The submission goes on. -/
  | submits {d : Delivery} {submission submission' : Submission} {ambient : Ambient} {desk : Desk}
      (hsubmit : submission.step w.ambient q.desk = some (.goes submission', ambient, desk)) :
      Moves signal w q (.handling d submission) (.goes (.handling d submission')) { w with ambient } { q with desk }
  /-- The submission is answered, and the delivery is to be acknowledged. -/
  | completes {d : Delivery} {submission : Submission} {outcome : SubmitOutcome} {e : Event} {ambient : Ambient}
      {desk : Desk} (hsubmit : submission.step w.ambient q.desk = some (.ends (outcome, e), ambient, desk))
      (hask : (wasHandled outcome && q.policy == .onSubmitSuccess) = true) :
      Moves signal w q (.handling d submission) (.goes (.acking d .leaving)) { w with ambient } { q with desk }
  /-- The submission is answered, and nothing else is to be done. -/
  | forgets {d : Delivery} {submission : Submission} {outcome : SubmitOutcome} {e : Event} {ambient : Ambient}
      {desk : Desk} (hsubmit : submission.step w.ambient q.desk = some (.ends (outcome, e), ambient, desk))
      (hask : (wasHandled outcome && q.policy == .onSubmitSuccess) = false) :
      Moves signal w q (.handling d submission) (.goes .checking) { w with ambient } { q with desk }
  /-- The acknowledgement is on its way. -/
  | returns {d : Delivery} {trip trip' : Trip} {w' : World} (htrip : w.stepTrip .ack trip = some (.goes trip', w')) :
      Moves signal w q (.acking d trip) (.goes (.acking d trip')) w' q
  /-- The acknowledgement is lost. -/
  | loses {d : Delivery} {trip : Trip} {e : Error} {w' : World}
      (htrip : w.stepTrip .ack trip = some (.ends (some e), w')) :
      Moves signal w q (.acking d trip) (.goes .checking) w' q
  /-- The broker refuses the acknowledgement. -/
  | insists {d : Delivery} {trip : Trip} {e : Error} {w' : World} (htrip : w.stepTrip .ack trip = some (.ends none, w'))
      (hack : w'.clients.broker.ack d.topic d.id = .error e) :
      Moves signal w q (.acking d trip) (.goes .checking) w' q
  /-- The delivery is acknowledged. -/
  | acknowledges {d : Delivery} {trip : Trip} {broker : Broker} {w' : World}
      (htrip : w.stepTrip .ack trip = some (.ends none, w')) (hack : w'.clients.broker.ack d.topic d.id = .ok broker) :
      Moves signal w q (.acking d trip) (.goes .checking) { w' with clients := { w'.clients with broker } } q
  /-- The rest is over. -/
  | resumes {pause : Pause} (hends : pause.ends? w.now signal q.lifecycle = some true) :
      Moves signal w q (.resting pause) (.goes .checking) w q
  /-- The signal comes during a rest. -/
  | leaves {pause : Pause} (hends : pause.ends? w.now signal q.lifecycle = some false) :
      Moves signal w q (.resting pause) (.ends ()) w q

/-- The call to the broker. -/
theorem moves_of_reaching {trip : Trip} (hs : q.step signal (.reaching trip) w = some (m, w', q')) :
    Moves signal w q (.reaching trip) m w' q' := by
  simp only [step] at hs
  split at hs
  next hreleased =>
    cases hs
    exact .turns hreleased
  · split at hs
    · cases hs
    next htrip =>
      cases hs
      exact .travels htrip
    next htrip =>
      cases hs
      exact .arrives htrip
    next htrip =>
      split at hs
      next hnone =>
        cases hs
        exact .despairs htrip hnone
      next hbegin =>
        cases hs
        exact .rests htrip hbegin

/-- Waiting for a delivery. -/
theorem moves_of_receiving {call : Receive} (hs : q.step signal (.receiving call) w = some (m, w', q')) :
    Moves signal w q (.receiving call) m w' q' := by
  simp only [step] at hs
  split at hs
  next hreleased =>
    cases hs
    exact .withdraws hreleased
  · split at hs
    · cases hs
    next hcall =>
      cases hs
      exact .waits hcall
    next hcall =>
      split at hs
      · cases hs
        exact .misses hcall
      · cases hs
        exact .receives hcall

/-- Submitting the event of a delivery. -/
theorem moves_of_handling {d : Delivery} {submission : Submission}
    (hs : q.step signal (.handling d submission) w = some (m, w', q')) :
    Moves signal w q (.handling d submission) m w' q' := by
  simp only [step] at hs
  split at hs
  · cases hs
  next hsubmit =>
    cases hs
    exact .submits hsubmit
  next outcome e ambient desk hsubmit =>
    cases hask : wasHandled outcome && q.policy == .onSubmitSuccess with
    | true =>
      rw [hask] at hs
      cases hs
      exact .completes hsubmit hask
    | false =>
      rw [hask] at hs
      cases hs
      exact .forgets hsubmit hask

/-- Acknowledging a delivery. -/
theorem moves_of_acking {d : Delivery} {trip : Trip} (hs : q.step signal (.acking d trip) w = some (m, w', q')) :
    Moves signal w q (.acking d trip) m w' q' := by
  simp only [step] at hs
  split at hs
  · cases hs
  next htrip =>
    cases hs
    exact .returns htrip
  next htrip =>
    cases hs
    exact .loses htrip
  next htrip =>
    split at hs
    next hack =>
      cases hs
      exact .insists htrip hack
    next hack =>
      cases hs
      exact .acknowledges htrip hack

/-- **A listener moves in no other way.** -/
theorem moves_of_step (hs : q.step signal l w = some (m, w', q')) : Moves signal w q l m w' q' := by
  cases l with
  | checking =>
    simp only [step] at hs
    split at hs
    next hsent =>
      cases hs
      exact .stops hsent
    next hsignal =>
      cases hs
      exact .asks (Bool.not_eq_true _ ▸ hsignal)
  | reaching trip => exact moves_of_reaching hs
  | receiving call => exact moves_of_receiving hs
  | handling d submission => exact moves_of_handling hs
  | acking d trip => exact moves_of_acking hs
  | resting pause =>
    simp only [step] at hs
    split at hs
    · cases hs
    next hends =>
      cases hs
      exact .resumes hends
    next hends =>
      cases hs
      exact .leaves hends

end QueueSource

end EventDispatch
