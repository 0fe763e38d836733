import AuthExecutorMgr.Coauth.ExecutorMessage
import AuthExecutorMgr.Coauth.HonestMessage
import AuthExecutorMgr.Coauth.MessageContent
import AuthExecutorMgr.Coauth.MessageDecoding
import AuthExecutorMgr.Coauth.Pool
import AuthExecutorMgr.Coauth.PoolInvariant
import AuthExecutorMgr.Coauth.Registration
import AuthExecutorMgr.Coauth.Schedule
import AuthExecutorMgr.Coauth.ScheduleFinish
import AuthExecutorMgr.Coauth.TokenBacking
import AuthExecutorMgr.Common.Buffer
import AuthExecutorMgr.Common.LinkedList
import AuthExecutorMgr.Common.LinkedNodes
import AuthExecutorMgr.Common.ListRuns
import AuthExecutorMgr.Common.TlvLoop
import AuthExecutorMgr.Common.TlvWrapper
import AuthExecutorMgr.Database.AddedCredential
import AuthExecutorMgr.Database.Atomicity
import AuthExecutorMgr.Database.CacheCoherence
import AuthExecutorMgr.Database.ChangeEffects
import AuthExecutorMgr.Database.CollectedCredentials
import AuthExecutorMgr.Database.CredentialFits
import AuthExecutorMgr.Database.CredentialUpdates
import AuthExecutorMgr.Database.DatabaseRuns
import AuthExecutorMgr.Database.DroppedRecords
import AuthExecutorMgr.Database.Durability
import AuthExecutorMgr.Database.FileAcceptance
import AuthExecutorMgr.Database.FileGrammar
import AuthExecutorMgr.Database.FileLoading
import AuthExecutorMgr.Database.FileManager
import AuthExecutorMgr.Database.RestartQueries
import AuthExecutorMgr.Database.SaveAndLoad
import AuthExecutorMgr.Database.TableInvariant
import AuthExecutorMgr.Database.TableOutcomes
import AuthExecutorMgr.Database.UserDeletion
import AuthExecutorMgr.Database.UserInfo
import AuthExecutorMgr.Database.UserStore
import AuthExecutorMgr.Database.UserTable
import AuthExecutorMgr.Foundations.BoundedSink
import AuthExecutorMgr.Foundations.FreshDraw
import AuthExecutorMgr.Foundations.Interleaving
import AuthExecutorMgr.Foundations.KeyedList
import AuthExecutorMgr.Foundations.LittleEndian
import AuthExecutorMgr.Foundations.LoopRuns
import AuthExecutorMgr.Foundations.Mutex
import AuthExecutorMgr.Foundations.NamedTasks
import AuthExecutorMgr.Foundations.NodeTable
import AuthExecutorMgr.Foundations.OrderedMap
import AuthExecutorMgr.Foundations.Parcels
import AuthExecutorMgr.Foundations.PastTime
import AuthExecutorMgr.Foundations.RankedTable
import AuthExecutorMgr.Foundations.RecordFormat
import AuthExecutorMgr.Foundations.RemoteCalls
import AuthExecutorMgr.Foundations.Runs
import AuthExecutorMgr.Foundations.TracedEntries
import AuthExecutorMgr.Foundations.TypeLengthValue
import AuthExecutorMgr.Frameworks.ClientCallbackCalls
import AuthExecutorMgr.Frameworks.CoAuthCalls
import AuthExecutorMgr.Frameworks.CoAuthInterface
import AuthExecutorMgr.Frameworks.ExecutorCallbackCalls
import AuthExecutorMgr.Frameworks.ExecutorMessengerCalls
import AuthExecutorMgr.Frameworks.MessageParcel
import AuthExecutorMgr.Hal.AuthenticationCompletes
import AuthExecutorMgr.Hal.DeleteUserSections
import AuthExecutorMgr.Hal.EnrollmentCompletes
import AuthExecutorMgr.Hal.EntryPoints
import AuthExecutorMgr.Hal.HalRuns
import AuthExecutorMgr.Hal.LockDiscipline
import AuthExecutorMgr.Hal.PoolSchedules
import AuthExecutorMgr.Hal.RefusedRequests
import AuthExecutorMgr.Hal.ScheduleSteps
import AuthExecutorMgr.Hal.ScheduleUse
import AuthExecutorMgr.Hal.SignedToken
import AuthExecutorMgr.Hal.TokenAge
import AuthExecutorMgr.Hal.TokenAgreement
import AuthExecutorMgr.Hal.UndisturbedRuns
import AuthExecutorMgr.Hal.UserTokens
import AuthExecutorMgr.Idm.CallOutcomes
import AuthExecutorMgr.Idm.EnrollPermission
import AuthExecutorMgr.Idm.IdmFuncs
import AuthExecutorMgr.Idm.IdmRuns
import AuthExecutorMgr.Idm.OnePerType
import AuthExecutorMgr.Idm.PermissionReuse
import AuthExecutorMgr.Idm.Redemption
import AuthExecutorMgr.Idm.Session
import AuthExecutorMgr.Idm.SessionGating
import AuthExecutorMgr.Idm.SessionSteps
import AuthExecutorMgr.Idm.SessionTimeout
import AuthExecutorMgr.Idm.TokenSubject
import AuthExecutorMgr.Idm.UpdateFailure
import AuthExecutorMgr.Interfaces.AttributeHops
import AuthExecutorMgr.Interfaces.AttributeInvariant
import AuthExecutorMgr.Interfaces.AttributePack
import AuthExecutorMgr.Interfaces.AttributeUnpack
import AuthExecutorMgr.Interfaces.AuthAttributes
import AuthExecutorMgr.Interfaces.UnpackSafety
import AuthExecutorMgr.Interfaces.WireRoundTrip
import AuthExecutorMgr.Interfaces.WireTlv
import AuthExecutorMgr.Services.AuthResPool
import AuthExecutorMgr.Services.BeginExecute
import AuthExecutorMgr.Services.ExecutorCommands
import AuthExecutorMgr.Services.ExecutorMessenger
import AuthExecutorMgr.Services.ExecutorProperties
import AuthExecutorMgr.Services.ExecutorRegisters
import AuthExecutorMgr.Services.ExecutorRegistrations
import AuthExecutorMgr.Services.ExecutorReports
import AuthExecutorMgr.Services.FinishOrder
import AuthExecutorMgr.Services.LastFinisher
import AuthExecutorMgr.Services.MonitoredSchedules
import AuthExecutorMgr.Services.ScheduleEnds
import AuthExecutorMgr.Services.ScheduleMap
import AuthExecutorMgr.Services.ScheduleTimers
import AuthExecutorMgr.Services.SchedulesApart
import AuthExecutorMgr.Services.SingleReport
import AuthExecutorMgr.Services.SuccessReports
import AuthExecutorMgr.Services.TrustedFinish
import AuthExecutorMgr.Tokens.SignAndVerify
import AuthExecutorMgr.Tokens.SignCentre
import AuthExecutorMgr.Tokens.TokenKey
import AuthExecutorMgr.Tokens.TokenKinds
import AuthExecutorMgr.UserAuth.AuthLevel
import AuthExecutorMgr.UserAuth.ContextManager
import AuthExecutorMgr.UserAuth.SkippedExecutors
import AuthExecutorMgr.UserAuth.TrustLevel
import AuthExecutorMgr.UserAuth.UserAuthFuncs
