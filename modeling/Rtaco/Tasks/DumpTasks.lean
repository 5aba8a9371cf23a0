import Rtaco.Events.Decoders
import Rtaco.Tasks.RequestTask

/-!
# The dump tasks

`process_message` of the four dump tasks and its handlers. The tasks differ in
the type of their messages and in the dispatch of a decoded event to the list
`learned_`.
-/

namespace Rtaco

open Netlink

universe u

namespace DumpTask

variable {Event : Type u}

/-- `handle_done`; it is not given the message. -/
def handleDone (learned : List Event) : Expected (List Event) := .value learned

def handleError (learned : List Event) (header : Bytes) : Expected (List Event) :=
  let error := errorCode header
  if error.value = 0 then .value learned else .unexpected error

/-- `process_message` of a dump that collects messages of one type. -/
def processMessage (handleDone : List Event → Expected (List Event))
    (handleError : List Event → Bytes → Expected (List Event)) (newType : Nat)
    (dispatch : List Event → Bytes → List Event) (sequence : Nat) (learned : List Event)
    (header : Bytes) : List Event × Option (Expected (List Event)) :=
  if nlmsgSeq header ≠ sequence then (learned, none)
  else if nlmsgType header = nlmsgDone then (learned, some (handleDone learned))
  else if nlmsgType header = nlmsgError then (learned, some (handleError learned header))
  else if nlmsgType header = newType then (dispatch learned header, none)
  else (learned, none)

end DumpTask

/-- `std::numeric_limits<uint16_t>::max()`. -/
abbrev uint16Max : Nat := 65535

def RouteDumpTask.handleDone : List RouteEvent → Expected (List RouteEvent) := DumpTask.handleDone

def RouteDumpTask.handleError : List RouteEvent → Bytes → Expected (List RouteEvent) :=
  DumpTask.handleError

def RouteDumpTask.dispatchRoute (learned : List RouteEvent) (header : Bytes) :
    List RouteEvent :=
  let event := RouteEvent.fromNlmsghdr header
  if event.type ≠ .newRoute then learned
  else if event.table ≠ rtTableMain then learned
  else if event.oifIndex ≤ 0 then learned
  else if event.oifIndex > uint16Max then learned
  else learned ++ [event]

def RouteDumpTask.processMessage :=
  DumpTask.processMessage RouteDumpTask.handleDone RouteDumpTask.handleError rtmNewroute
    RouteDumpTask.dispatchRoute

def AddressDumpTask.handleDone : List AddressEvent → Expected (List AddressEvent) :=
  DumpTask.handleDone

def AddressDumpTask.handleError : List AddressEvent → Bytes → Expected (List AddressEvent) :=
  DumpTask.handleError

def AddressDumpTask.dispatchAddress (learned : List AddressEvent) (header : Bytes) :
    List AddressEvent :=
  let event := AddressEvent.fromNlmsghdr header
  if event.type ≠ .newAddress then learned
  else if event.index ≤ 0 then learned
  else if event.index > uint16Max then learned
  else learned ++ [event]

def AddressDumpTask.processMessage :=
  DumpTask.processMessage AddressDumpTask.handleDone AddressDumpTask.handleError rtmNewaddr
    AddressDumpTask.dispatchAddress

def LinkDumpTask.handleDone : List LinkEvent → Expected (List LinkEvent) := DumpTask.handleDone

def LinkDumpTask.handleError : List LinkEvent → Bytes → Expected (List LinkEvent) :=
  DumpTask.handleError

def LinkDumpTask.dispatchLink (learned : List LinkEvent) (header : Bytes) : List LinkEvent :=
  let event := LinkEvent.fromNlmsghdr header
  if event.type ≠ .newLink then learned
  else if event.index ≤ 0 then learned
  else if event.index > uint16Max then learned
  else learned ++ [event]

def LinkDumpTask.processMessage :=
  DumpTask.processMessage LinkDumpTask.handleDone LinkDumpTask.handleError rtmNewlink
    LinkDumpTask.dispatchLink

def NeighborDumpTask.handleDone : List NeighborEvent → Expected (List NeighborEvent) :=
  DumpTask.handleDone

def NeighborDumpTask.handleError : List NeighborEvent → Bytes → Expected (List NeighborEvent) :=
  DumpTask.handleError

def NeighborDumpTask.dispatchNeighbor (learned : List NeighborEvent) (header : Bytes) :
    List NeighborEvent :=
  let event := NeighborEvent.fromNlmsghdr header
  if event.type ≠ .newNeighbor then learned
  else if event.index ≤ 0 then learned
  else if event.index > uint16Max then learned
  else learned ++ [event]

def NeighborDumpTask.processMessage :=
  DumpTask.processMessage NeighborDumpTask.handleDone NeighborDumpTask.handleError rtmNewneigh
    NeighborDumpTask.dispatchNeighbor

namespace EventKind

def dispatch : (kind : EventKind) → List kind.Event → Bytes → List kind.Event
  | link => LinkDumpTask.dispatchLink
  | address => AddressDumpTask.dispatchAddress
  | route => RouteDumpTask.dispatchRoute
  | neighbor => NeighborDumpTask.dispatchNeighbor

/-- `process_message` of the dump that collects events of a kind. -/
def dumpProcessMessage : (kind : EventKind) → Nat → List kind.Event → Bytes →
    List kind.Event × Option (Expected (List kind.Event))
  | link => LinkDumpTask.processMessage
  | address => AddressDumpTask.processMessage
  | route => RouteDumpTask.processMessage
  | neighbor => NeighborDumpTask.processMessage

theorem dumpProcessMessage_eq (kind : EventKind) :
    kind.dumpProcessMessage = DumpTask.processMessage DumpTask.handleDone DumpTask.handleError
      kind.newType kind.dispatch := by
  cases kind <;> rfl

end EventKind

end Rtaco
