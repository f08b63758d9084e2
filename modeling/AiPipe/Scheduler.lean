import AiPipe.Types

/-! The two scheduler strategies as functions of the context that the engine gathers. -/

namespace AiPipe

inductive ScheduleDecision where
  | scheduleNow
  | waitForInputs
  | skipExecution
  | deferToNextCycle
  deriving DecidableEq, Repr

structure ScheduleResult where
  decision : ScheduleDecision
  retryDelay : Option Int
  reason : String
  deriving DecidableEq, Repr

namespace ScheduleResult

def scheduleNow (reason : String) : ScheduleResult := ⟨.scheduleNow, none, reason⟩

def waitForInputs (reason : String) : ScheduleResult := ⟨.waitForInputs, none, reason⟩

def defer (delay : Int) (reason : String) : ScheduleResult :=
  ⟨.deferToNextCycle, some delay, reason⟩

end ScheduleResult

/-- What `tryScheduleNode` tells a strategy.  Times are ticks of the steady clock, in
nanoseconds. -/
structure SchedulingContext where
  expectedInputCount : Nat := 0
  readyInputCount : Nat := 0
  readyPortMask : List Nat := []
  isSourceNode : Bool := false
  isSinkNode : Bool := false
  hasInitialInput : Bool := false
  lastExecutionTime : Int := 0
  executionCount : Nat := 0
  deriving DecidableEq, Repr

namespace SchedulingContext

def allInputsReady (context : SchedulingContext) : Bool :=
  context.expectedInputCount ≤ context.readyInputCount

def hasReadyInput (context : SchedulingContext) : Bool := 0 < context.readyInputCount

def inputReadinessRatio (context : SchedulingContext) : Rat :=
  if context.expectedInputCount = 0 then 1
  else (context.readyInputCount : Rat) / (context.expectedInputCount : Rat)

end SchedulingContext

structure CompletionStatus where
  isComplete : Bool
  reason : String
  deriving DecidableEq, Repr

/-- `ISchedulerStrategy`; the first argument of `shouldSchedule` is the clock it reads. -/
structure SchedulerStrategy where
  shouldSchedule : Int → SchedulingContext → ScheduleResult
  onNodeComplete : Nat → Bool → Bool
  checkCompletion : Int → Nat → List (String × Nat) → CompletionStatus
  supportsStreaming : Bool

def checkSinks : List (String × Nat) → CompletionStatus
  | [] => ⟨true, "all sinks executed"⟩
  | sink :: rest =>
    if sink.2 = 0 then ⟨false, "sink '" ++ sink.1 ++ "' has not executed"⟩
    else checkSinks rest

def batchSchedulerStrategy : SchedulerStrategy where
  shouldSchedule _ context :=
    if context.isSourceNode && context.hasInitialInput then
      .scheduleNow "source node with initial input"
    else if context.isSourceNode && context.expectedInputCount == 0 then
      .scheduleNow "source node with no expected inputs"
    else if context.allInputsReady then
      .scheduleNow "all inputs ready"
    else
      .waitForInputs ("waiting for " ++
        toString (context.expectedInputCount - context.readyInputCount) ++ " more inputs")
  onNodeComplete _ _ := false
  checkCompletion active _ sinks :=
    if 0 < active then ⟨false, "active tasks remaining"⟩ else checkSinks sinks
  supportsStreaming := false

structure StreamSchedulerConfig where
  allowPartialInputs : Bool := false
  minInputRatio : Rat := 0
  autoReschedule : Bool := true
  minInterval : Int := 0

namespace StreamSchedulerConfig

def hasReadyWork (config : StreamSchedulerConfig) (context : SchedulingContext) : Bool :=
  if context.isSourceNode && context.hasInitialInput then true
  else if config.allowPartialInputs then
    context.hasReadyInput && decide (config.minInputRatio ≤ context.inputReadinessRatio)
  else context.allInputsReady

def readyDecision (config : StreamSchedulerConfig) (context : SchedulingContext) : ScheduleResult :=
  if context.isSourceNode && context.hasInitialInput then
    .scheduleNow "source node with input ready"
  else if config.allowPartialInputs then
    if decide (config.minInputRatio ≤ context.inputReadinessRatio) && context.hasReadyInput then
      .scheduleNow "partial inputs ready"
    else .waitForInputs "waiting for inputs in stream mode"
  else if context.allInputsReady then .scheduleNow "all inputs ready"
  else .waitForInputs "waiting for inputs in stream mode"

end StreamSchedulerConfig

def nanosPerMilli : Int := 1000000

def streamSchedulerStrategy (config : StreamSchedulerConfig) : SchedulerStrategy where
  shouldSchedule now context :=
    let elapsed := now - context.lastExecutionTime
    if 0 < config.minInterval ∧ 0 < context.executionCount ∧ config.hasReadyWork context ∧
        elapsed < config.minInterval * nanosPerMilli then
      .defer (max (config.minInterval - elapsed.tdiv nanosPerMilli) 1) "rate limited"
    else config.readyDecision context
  onNodeComplete _ success := success && config.autoReschedule
  checkCompletion _ _ _ := ⟨false, "streaming mode - continuous execution"⟩
  supportsStreaming := true

end AiPipe
