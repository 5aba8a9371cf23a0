import Rtaco.Events.CompleteMessages
import Rtaco.Tasks.DumpTasks

/-!
# The neighbor tasks

`process_message` of the get, probe and flush tasks. None of them keeps a state
between messages.
-/

namespace Rtaco

open Netlink Scan

abbrev enoent : ErrorCode := ⟨2⟩

namespace NeighborGetTask

def handleDone : Expected NeighborEvent := .unexpected enoent

def handleError (header : Bytes) : Expected NeighborEvent :=
  let error := errorCode header
  if error.value = 0 then .unexpected enoent else .unexpected error

def handleNeighbor (header : Bytes) : Option (Expected NeighborEvent) :=
  let event := NeighborEvent.fromNlmsghdr header
  if event.type = .unknown then none
  else if event.lladdr ≠ [] then some (.value event)
  else none

def answer (sequence : Nat) (header : Bytes) : Option (Expected NeighborEvent) :=
  if nlmsgSeq header ≠ sequence then none
  else if nlmsgType header = nlmsgDone then some handleDone
  else if nlmsgType header = nlmsgError then some (handleError header)
  else if nlmsgType header = rtmNewneigh then handleNeighbor header
  else none

def processMessage (sequence : Nat) (state : Unit) (header : Bytes) :
    Unit × Option (Expected NeighborEvent) :=
  (state, answer sequence header)

end NeighborGetTask

/-- What an acknowledgement says of its request. -/
def handleAcknowledgement (header : Bytes) : Expected Unit :=
  let error := errorCode header
  if error.value = 0 then .value () else .unexpected error

/-- `process_message` of a task that waits for the acknowledgement of its request. -/
def acknowledge (handleError : Bytes → Expected Unit) (sequence : Nat) (state : Unit)
    (header : Bytes) : Unit × Option (Expected Unit) :=
  if nlmsgSeq header ≠ sequence then (state, none)
  else if nlmsgType header = nlmsgError then (state, some (handleError header))
  else (state, none)

namespace NeighborProbeTask

def handleError : Bytes → Expected Unit := handleAcknowledgement

def processMessage := acknowledge handleError

end NeighborProbeTask

namespace NeighborFlushTask

def handleError : Bytes → Expected Unit := handleAcknowledgement

def processMessage := acknowledge handleError

end NeighborFlushTask

end Rtaco
