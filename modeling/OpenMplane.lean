import OpenMplane.ListCut
import OpenMplane.GuardedRuns
import OpenMplane.ReplayedUpdates
import OpenMplane.StatePrograms
import OpenMplane.StdString
import OpenMplane.XpathUtils
import OpenMplane.YangParam
import OpenMplane.YangPersist
import OpenMplane.HandlerCallback
import OpenMplane.RunningDatastore
import OpenMplane.YangPersistRestart
import OpenMplane.UplaneConf
import OpenMplane.OranYangCarrierMgr
import OpenMplane.OranUplaneConfHandler
import OpenMplane.UplaneRoutes
import OpenMplane.UplaneValidate
import OpenMplane.UplaneRejected
import OpenMplane.UplaneDone
import OpenMplane.UplaneReplay
import OpenMplane.UplaneTwice
import OpenMplane.UplaneCompressionRouting
import OpenMplane.UplaneCompressionParity
import OpenMplane.UplaneCarrierTree
import OpenMplane.UplaneCarrierRuns
import OpenMplane.UplaneLinkTable
import OpenMplane.UplaneLinkMirror
import OpenMplane.ChangeReports
import OpenMplane.UplaneNotifications
import OpenMplane.EntryChanges
import OpenMplane.PseudoReadOnly
import OpenMplane.YangParamNumbers
import OpenMplane.IetfInterfacesHandler
import OpenMplane.OranProcessingElementHandler
import OpenMplane.RadioDatastore
import OpenMplane.SysrepoReaders
import OpenMplane.SysrepoValues
import OpenMplane.RadioDatastoreEdits
import OpenMplane.YangItems
import OpenMplane.YangModuleMgr
import OpenMplane.Forest
import OpenMplane.ForestWalks
import OpenMplane.LeafContents
import OpenMplane.ParentRecords
import OpenMplane.SysrepoGetitemsCallback
import OpenMplane.XmlElements
import OpenMplane.YangConfig
import OpenMplane.YangConfigParser
import OpenMplane.ConfigPaths
import OpenMplane.ConfigDocuments
import OpenMplane.ConfigExtraction
import OpenMplane.ConfigSafety
import OpenMplane.ConfigReached
import OpenMplane.ConfigLoad
import OpenMplane.ConfigLoadReports
import OpenMplane.ConfigLookups
import OpenMplane.ConfigAnswers
import OpenMplane.Conditional
import OpenMplane.ConditionalSignals
import OpenMplane.ConditionalOwner
import OpenMplane.ConditionalFlag
import OpenMplane.ConditionalDelivery
import OpenMplane.SftpSession
import OpenMplane.SftpSessionRuns
import OpenMplane.SftpSessionServed
import OpenMplane.SftpSessionAwaited
import OpenMplane.ConfigDownloadManagement
import OpenMplane.ConfigDownloadRefusals
import OpenMplane.ConfigDownloadTask
import OpenMplane.ConfigDownloadRuns
import OpenMplane.ConfigDownloadInvariant
import OpenMplane.ConfigDownloadServed
import OpenMplane.SystemTask
import OpenMplane.SystemTaskHandover
import OpenMplane.SystemTaskHistory
import OpenMplane.SystemTaskServed
import OpenMplane.SystemTaskKept
import OpenMplane.Service
import OpenMplane.ServiceControls
import OpenMplane.ServiceServed
import OpenMplane.ServiceSteps
import OpenMplane.LastWriteWins
import OpenMplane.LongestPrefix
import OpenMplane.YangCallbacks
import OpenMplane.UplaneEndpointMerge
import OpenMplane.UplaneCompressionTags
import OpenMplane.HandlerValidation
import OpenMplane.InterfaceMarkings
import OpenMplane.PathLists
import OpenMplane.Crypt
import OpenMplane.Hexadecimal
import OpenMplane.Key
import OpenMplane.KeyEncoding
import OpenMplane.KeyCache
import OpenMplane.WordBits
import OpenMplane.ByteTransfer
import OpenMplane.CaptureWave
import OpenMplane.CaptureWaveStream
import OpenMplane.CaptureWaveCuts
import OpenMplane.CaptureWavePackets
import OpenMplane.CryptData
import OpenMplane.Sha1
import OpenMplane.PlaybackWave
import OpenMplane.WaveHeaders
import OpenMplane.WaveHeaderReports
import OpenMplane.PlaybackWaveBlocks
import OpenMplane.PlaybackWaveRoundTrip
import OpenMplane.PlaybackWaveReadBack
import OpenMplane.OranUserMgmtHandler
import OpenMplane.HandlerDatastore
import OpenMplane.HandlersInitialised
import OpenMplane.ConfigCounts
import OpenMplane.BootEnvRoundTrip
import OpenMplane.ByteCursor
import OpenMplane.ByteSequences
import OpenMplane.CryptAppend
import OpenMplane.GenericFeature
import OpenMplane.Sha1PseudoCode
import OpenMplane.Sha1Buffer
import OpenMplane.BitDivision
import OpenMplane.CrcRemainders
import OpenMplane.RadixText
import OpenMplane.Base64
import OpenMplane.SeparatorRuns
import OpenMplane.PathAbsolute
import OpenMplane.FileTree
import OpenMplane.PathWalks
import OpenMplane.PlainWalks
import OpenMplane.PathCalls
import OpenMplane.MkPath
import OpenMplane.MkPathNames
import OpenMplane.MkPathOutcome
import OpenMplane.MkPathAgreement
import OpenMplane.MkPathSecond
import OpenMplane.ExpandStr
import OpenMplane.ReplaceStrs
import OpenMplane.MacText
import OpenMplane.NumeralText
import OpenMplane.Limits
import OpenMplane.DvTypeBase
import OpenMplane.DvTypeInteger
import OpenMplane.LimitsText
import OpenMplane.DvTypeIntegerRuns
import OpenMplane.DvType
import OpenMplane.DataVariantBase
import OpenMplane.DataVariant
import OpenMplane.DvTypeCopy
import OpenMplane.VectorElements
import OpenMplane.DataVariantVector
import OpenMplane.DvTypeAlike
import OpenMplane.DvTypeBounds
import OpenMplane.DvTypeSettled
import OpenMplane.VectorCalls
import OpenMplane.VectorGrowth
import OpenMplane.VectorRuns
import OpenMplane.ExpandString
import OpenMplane.FileConfigBase
import OpenMplane.FileConfigRoundTrip
import OpenMplane.FileConfigClean
import OpenMplane.SftpPathParts
import OpenMplane.DirectoryEntries
import OpenMplane.FileMgr
import OpenMplane.FileMgrDelete
import OpenMplane.FileStatus
import OpenMplane.FileStatusRuns
import OpenMplane.FileMgrWriter
import OpenMplane.TimeoutTimer
import OpenMplane.NetopeerMonService
import OpenMplane.TaskList
import OpenMplane.LogList
import OpenMplane.LogListNames
import OpenMplane.DoWhile
import OpenMplane.ConfigEnds
import OpenMplane.ConfigPlaces
import OpenMplane.LeafRecords
import OpenMplane.ModuleCapabilities
import OpenMplane.ModuleCapabilitiesBuilt
import OpenMplane.ModuleCapabilitiesMirror
import OpenMplane.IpPortMgr
import OpenMplane.KeyPredicates
import OpenMplane.CallHomeClients
import OpenMplane.BankChoice
import OpenMplane.BootEnv
import OpenMplane.BootEnvStart
import OpenMplane.BootEnvUpdates
import OpenMplane.SingleBootEnv
import OpenMplane.AppOptions
import OpenMplane.OptionArguments
import OpenMplane.SftpTransfers
import OpenMplane.SftpCopies
import OpenMplane.DirectoryRemoval
