import Mathlib.Data.Rat.Defs
import Mathlib.Data.List.Basic

/-! The data that travels through a pipeline and the settings of an engine. -/

namespace AiPipe

/-- `DataPacket`.  A zero `id` means unassigned; a zero `timestamp` is `Timestamp{}`. -/
structure PortData (π : Type) where
  id : Nat := 0
  streamId : Nat := 0
  timestamp : Int := 0
  payload : π
  deriving DecidableEq, Repr

abbrev PortDataPtr (π : Type) := Option (PortData π)

def kInvalidFrameId : Nat := 0

def kMaxEosPorts : Nat := 64

namespace PortData

variable {π : Type}

def hasFrameId (packet : PortData π) : Bool := packet.id != kInvalidFrameId

end PortData

abbrev PortDataMap (π : Type) := List (String × PortDataPtr π)

namespace PortDataMap

variable {π : Type}

def insert (key : String) (value : PortDataPtr π) : PortDataMap π → PortDataMap π
  | [] => [(key, value)]
  | entry :: rest =>
    if key < entry.1 then (key, value) :: entry :: rest
    else if key = entry.1 then (key, value) :: rest
    else entry :: insert key value rest

def find (key : String) (entries : PortDataMap π) : Option (PortDataPtr π) :=
  (List.find? (fun entry => entry.1 == key) entries).map Prod.snd

end PortDataMap

inductive NodeExecutionState where
  | waiting
  | ready
  | executing
  | completed
  | failed
  deriving DecidableEq, Repr

inductive EngineState where
  | idle
  | running
  | stopped
  | error
  deriving DecidableEq, Repr

inductive AlignmentPolicy where
  | frameId
  | streamFrameId
  | timestamp
  deriving DecidableEq, Repr

inductive JoinTimeoutPolicy where
  | partialInputs
  | skipFrame
  deriving DecidableEq, Repr

inductive LockFreeDropPolicy where
  | dropTail
  | dropHead
  | keepLatest
  deriving DecidableEq, Repr

/-- One input queue: the ring's capacity, at least two cells, and its drop policy. -/
structure QueueConfig where
  capacity : Nat
  dropPolicy : LockFreeDropPolicy
  keepLatestN : Nat
  twoLe : 2 ≤ capacity

/-- The fields of `EngineConfig` that the execution paths read. -/
structure EngineConfig where
  alignmentPolicy : AlignmentPolicy := .frameId
  alignmentTolerance : Int := 33000
  joinWaitTimeout : Nat := 0
  joinTimeoutPolicy : JoinTimeoutPolicy := .partialInputs
  enableStatistics : Bool := true

inductive ErrorCode where
  | ok
  | invalidArgument
  | invalidState
  | alreadyInitialized
  | alreadyRunning
  | notInitialized
  | nodeNotFound
  | portNotFound
  | notStreaming
  | streamingNotSupported
  | queueRejected
  | noDownstreamConnection
  | endOfStreamSignaled
  | inputUnavailable
  | nodeException
  | executionFailed
  | executionStopped
  | executionTimeout
  | graphEmpty
  | graphCycleDetected
  | invalidConfiguration
  | internalError
  | executionAborted
  | queueFull
  | nodeUnknownException
  | pluginLoadFailed
  | pluginSymbolMissing
  | pluginVersionMismatch
  | pluginInUse
  deriving DecidableEq, Repr

structure Error where
  code : ErrorCode
  message : String
  node : String := ""
  deriving DecidableEq, Repr

def errorCodeToString : ErrorCode → String
  | .ok => "Ok"
  | .internalError => "InternalError"
  | .invalidArgument => "InvalidArgument"
  | .invalidState => "InvalidState"
  | .notInitialized => "NotInitialized"
  | .alreadyInitialized => "AlreadyInitialized"
  | .graphCycleDetected => "GraphCycleDetected"
  | .graphEmpty => "GraphEmpty"
  | .invalidConfiguration => "InvalidConfiguration"
  | .alreadyRunning => "AlreadyRunning"
  | .executionFailed => "ExecutionFailed"
  | .executionTimeout => "ExecutionTimeout"
  | .executionStopped => "ExecutionStopped"
  | .executionAborted => "ExecutionAborted"
  | .streamingNotSupported => "StreamingNotSupported"
  | .notStreaming => "NotStreaming"
  | .queueRejected => "QueueRejected"
  | .queueFull => "QueueFull"
  | .nodeNotFound => "NodeNotFound"
  | .portNotFound => "PortNotFound"
  | .noDownstreamConnection => "NoDownstreamConnection"
  | .endOfStreamSignaled => "EndOfStreamSignaled"
  | .nodeException => "NodeException"
  | .nodeUnknownException => "NodeUnknownException"
  | .inputUnavailable => "InputUnavailable"
  | .pluginLoadFailed => "PluginLoadFailed"
  | .pluginSymbolMissing => "PluginSymbolMissing"
  | .pluginVersionMismatch => "PluginVersionMismatch"
  | .pluginInUse => "PluginInUse"

def Error.toString (error : Error) : String :=
  errorCodeToString error.code ++
    (if error.message = "" then "" else ": " ++ error.message) ++
    (if error.node = "" then "" else " [node: " ++ error.node ++ "]")

inductive PushOutcome where
  | enqueued
  | dropped
  deriving DecidableEq, Repr

structure PushStatus where
  outcome : PushOutcome
  detail : String
  queueSize : Nat
  deriving DecidableEq, Repr

namespace PushStatus

def enqueued (size : Nat) : PushStatus := ⟨.enqueued, "success", size⟩

def dropped (reason : String) (size : Nat) : PushStatus := ⟨.dropped, reason, size⟩

end PushStatus

end AiPipe
