import CppProj.TransitionSystem
import CppProj.ConditionVariable
import CppProj.AssociationList
import CppProj.ListUpdate
import CppProj.RequestReplyCalculator
import CppProj.RequestReplyMatchedStatus
import CppProj.RequestReplyServerApp
import CppProj.RequestReplyServerTransitions
import CppProj.RequestReplyServerReplies
import CppProj.RequestReplyServerConservation
import CppProj.RequestReplyServerStartup
import CppProj.RequestReplyClientApp
import CppProj.RequestReplyClientTransitions
import CppProj.RequestReplyShutdown
import CppProj.PendingTimers
import CppProj.DualModeTimer
import CppProj.DualModeTimerRefinement
import CppProj.DualModeTimerShutdown
import CppProj.DualModeTimerBlocking
import CppProj.DualModeTimerTruth
import CppProj.RequestReplyExchange
import CppProj.RequestReplyServing
import CppProj.RequestReplyAsking
import CppProj.RequestReplyCompletion
import CppProj.GracefulTimer
import CppProj.GracefulTimerThreads
import CppProj.GracefulTimerTransitions
import CppProj.GracefulTimerProgress
import CppProj.GracefulTimerPending
import CppProj.GracefulTimerFiring
import CppProj.GracefulTimerCancellation
import CppProj.MutualExclusion
import CppProj.OneSlotHandOff
import CppProj.ThreadSafeQueueOrder
import CppProj.LabelledHistory
import CppProj.TaskQueueCompletion
import CppProj.SoftwareTimer
import CppProj.PstateMonitorJoin
import CppProj.PstateMonitorTimeout
import CppProj.GearMonitorDeadlock
import CppProj.SmartPtrExactness
import CppProj.TimerEntries
import CppProj.TimerPromises
import CppProj.ProducerConsumerFlags
import CppProj.JTListIterator
import CppProj.InstructionHandler
import CppProj.Recharge
import CppProj.TimeWheel
import CppProj.PriorityTimerManagerTiming
import CppProj.CyclicSchedulers
import CppProj.FieldService
import CppProj.BrassAccounts
import CppProj.ObjectStructure
import CppProj.CanSignalJumpDetector
import CppProj.DelimitedText
import CppProj.DemandsFile
import CppProj.OwnedBuffers
import CppProj.Useless
import CppProj.StringClass
import CppProj.OwnedTrees
import CppProj.Composite
import CppProj.DatabaseConnection
import CppProj.TwoModesTimer
import CppProj.TwoModesTimerCancellation
import CppProj.RequestReplyServerPass
import CppProj.BitFields
import CppProj.MachineIntegers
import CppProj.CanSignalFrames
import CppProj.CanSignalShortFrames
import CppProj.PerformanceTypes
import CppProj.BroadcastReplies
import CppProj.ThroughputTest
import CppProj.ThroughputTestRounds
import CppProj.ThroughputTestLockStep
import CppProj.ThroughputTestResults
import CppProj.ThroughputTestSmooth
import CppProj.ThroughputTestProgress
import CppProj.LatencyTest
import CppProj.LatencyTestRounds
import CppProj.LatencyTestTimes
import CppProj.LatencyTestPrompt
import CppProj.NumberText
import CppProj.DeliveryMechanismsOptions
import CppProj.DeliveryMechanisms
import CppProj.DeliveryMechanismsSamples
import CppProj.DeliveryMechanismsReceived
import CppProj.DeliveryMechanismsWaits
import CppProj.PowerStateCheck
import CppProj.CountDown
import CppProj.TimerTrigger
import CppProj.HighPrecisionScheduler
import CppProj.ThroughputSubscriber
import CppProj.PriorityQueues
import CppProj.TimerManagerTasks
import CppProj.TimerManagerLocking
import CppProj.TimeWheelTick
import CppProj.LeadingDigits
import CppProj.TimeClasses
import CppProj.TimeClassesAgreement
import CppProj.Hanoi
import CppProj.BrassPlusCredit
import CppProj.ThroughputPublisher
import CppProj.StackTemplate
import CppProj.StackBaskets
import CppProj.QueueTP
import CppProj.Hangman
import CppProj.OrderedMaps
import CppProj.FixedWidthRecords
import CppProj.PlanetRecords
import CppProj.FlyweightBoard
import CppProj.BoundedCopies
import CppProj.MementoStates
import CppProj.FrameBuffer
import CppProj.CoinTable
import CppProj.InstructionBuffers
import CppProj.WeightedLists
import CppProj.FieldServiceClient
import CppProj.FieldServiceClientRest
import CppProj.ConditionUsage
import CppProj.RacingThreads
