import Conveyor.Http.Api
import Conveyor.Notice
import Conveyor.Text.Hex

/-!
Notices as event objects of the cluster. A notice like an earlier one about the same object makes no
new event but goes on with the earlier one as a series; a series of which the cluster does not take
the next member stays as it was.
-/

namespace Conveyor.Http

/-- An event object, with the length of its series from the second member on. -/
structure EventObject where
  name : String
  namespaceName : String
  type : String
  reason : String
  action : String
  note : Option String
  regarding : ObjectReference
  time : Timestamp
  count : Option Nat
  deriving DecidableEq

namespace EventObject

/-- Who reports the events. -/
def reporter : String := "conveyor-stage-controller"

/-- The namespace of events about objects without one. -/
def defaultNamespace : String := "default"

/-- The digits of a number in base sixteen. -/
def hexText (n : Int) : String := String.ofList (Text.hexDigits n.toNat)

/-- The first event of a notice. -/
def ofNotice (now : Timestamp) (n : Notice) : EventObject where
  name := n.subject.name.getD reporter ++ "." ++ hexText now.nanosecondsSinceEpoch
  namespaceName := n.subject.namespaceName.getD defaultNamespace
  type := n.event.type
  reason := n.event.reason
  action := n.event.action
  note := n.event.note
  regarding := n.subject
  time := now
  count := none

/-- Whether a notice continues the event: all but its note is the same. -/
def continuedBy (e : EventObject) (n : Notice) : Bool :=
  e.type == n.event.type && e.reason == n.event.reason && e.action == n.event.action &&
    e.regarding == n.subject

/-- The next member of the event's series. -/
def next (e : EventObject) : EventObject :=
  { e with count := some (match e.count with | some n => n + 1 | none => 2) }

def toJson (now : Timestamp) (e : EventObject) : Json :=
  .ofPresent (Kind.event.members ++
    [("metadata", some
        { Metadata.named e.name with namespaceName := some e.namespaceName : Metadata }.toJson),
      ("type", some (.string e.type)), ("reason", some (.string e.reason)),
      ("action", some (.string e.action)), ("note", e.note.map .string),
      ("regarding", some e.regarding.toJson),
      ("eventTime", some (.string e.time.toTextMicroseconds)),
      ("reportingController", some (.string reporter)),
      ("reportingInstance", some (.string reporter)),
      ("series", e.count.map fun n =>
        .ofMembers [("count", .nat n), ("lastObservedTime", .string now.toTextMicroseconds)])])

/-- Where an event was seen first. -/
def source : Decoder Unit :=
  ((Record.make ()).guard [("component", .shape? .text), ("host", .shape? .text)]).decodeObject
    "EventSource"

/-- How often an event was seen again, and when for the last time. -/
def series : Decoder Unit :=
  (((Record.make fun _ => ()).field (.required "lastObservedTime" .instant)).guard
    [("count", .shape? .int32)]).decodeObject "EventSeries"

def record : Record Metadata :=
  (Kind.event.header (Record.make id)).guard
    [("action", .shape? .text), ("deprecatedCount", .shape? .int32),
      ("deprecatedFirstTimestamp", .shape? .instant), ("deprecatedLastTimestamp", .shape? .instant),
      ("deprecatedSource", .shape? source), ("eventTime", .shape? .instant),
      ("note", .shape? .text),
      ("reason", .shape? .text), ("regarding", .shape? ObjectReference.decode),
      ("related", .shape? ObjectReference.decode), ("reportingController", .shape? .text),
      ("reportingInstance", .shape? .text), ("series", .shape? series), ("type", .shape? .text)]

/-- The metadata of an event. -/
def decode : Decoder Metadata := record.decodeObject "Event"

/-- The message that makes an event or changes the series of one. -/
def message (now : Timestamp) (e : EventObject) : Except Fault Message :=
  let base := collection .event (some e.namespaceName)
  match e.count with
  | none => create base (e.toJson now)
  | some _ =>
    messageAbout .patch base e.name "?" (some ("application/merge-patch+json", e.toJson now))

end EventObject

/-- The latest event of every series. -/
structure Recorder where
  events : List EventObject := []

namespace Recorder

/-- The event to send for a notice. -/
def eventFor (now : Timestamp) (n : Notice) (r : Recorder) : EventObject :=
  match r.events.find? (·.continuedBy n) with
  | some e => e.next
  | none => .ofNotice now n

/-- Takes an event in place of an earlier one of its series. -/
def keep (e : EventObject) (n : Notice) (r : Recorder) : Recorder :=
  ⟨e :: r.events.filter (!·.continuedBy n)⟩

end Recorder

end Conveyor.Http
