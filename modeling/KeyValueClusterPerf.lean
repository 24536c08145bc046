import KeyValueClusterPerf.Configuration.HostLimit
import KeyValueClusterPerf.ConfigurationManager.Reading
import KeyValueClusterPerf.DBConnector.Database
import KeyValueClusterPerf.DBConnector.Limit
import KeyValueClusterPerf.DBConnector.SharedDatabase
import KeyValueClusterPerf.DBConnector.Messaging
import KeyValueClusterPerf.DBConnector.ReportedSize
import KeyValueClusterPerf.DBConnector.Measurement
import KeyValueClusterPerf.SimulationController.Addresses
import KeyValueClusterPerf.SimulationController.Barrier
import KeyValueClusterPerf.SimulationWorker.Lifetime
import KeyValueClusterPerf.SimulationWorker.Restart
import KeyValueClusterPerf.Cluster.Channels
import KeyValueClusterPerf.Cluster.Phases
import KeyValueClusterPerf.AccessPattern.ReadWriteRatio
import KeyValueClusterPerf.AccessPattern.ElapsedTime
import KeyValueClusterPerf.AccessPattern.KeySet
import KeyValueClusterPerf.Configuration.CommandLine
import KeyValueClusterPerf.ConfigurationManager.Rewriting
import KeyValueClusterPerf.SimulationController.ResultsFile
import KeyValueClusterPerf.Foundations.GuardedRelease
import KeyValueClusterPerf.MQ.Handles
import KeyValueClusterPerf.AccessPattern.Payload
import KeyValueClusterPerf.DBConnector.KeyValueClient
import KeyValueClusterPerf.Foundations.Extent
import KeyValueClusterPerf.SimulationController.DataFrame
import KeyValueClusterPerf.Foundations.Tracked
import KeyValueClusterPerf.Foundations.Parts
import KeyValueClusterPerf.Foundations.Blocks
import KeyValueClusterPerf.MessageSender.Sha1Digest
import KeyValueClusterPerf.MessageSender.Vmac
import KeyValueClusterPerf.MessageSender.Padding
import KeyValueClusterPerf.Foundations.PseudoMersenne
import KeyValueClusterPerf.MessageSender.UniversalHash
import KeyValueClusterPerf.MessageSender.VmacBuild
import KeyValueClusterPerf.MessageSender.VmacArithmetic
import KeyValueClusterPerf.MessageSender.VmacNarrow
import KeyValueClusterPerf.MessageSender.VmacHistory
import KeyValueClusterPerf.Foundations.KeyedRounds
import KeyValueClusterPerf.MessageSender.BlockCipher
import KeyValueClusterPerf.MessageSender.RijndaelTables
import KeyValueClusterPerf.MessageSender.Rijndael
import KeyValueClusterPerf.MessageSender.RijndaelKeys
import KeyValueClusterPerf.MessageSender.RijndaelInverse
import KeyValueClusterPerf.MessageSender.Tags
import KeyValueClusterPerf.DBConnector.FinalDatabase
import KeyValueClusterPerf.Cluster.Benchmark
import KeyValueClusterPerf.Foundations.KeyedRanges
import KeyValueClusterPerf.Cluster.Deployable
import KeyValueClusterPerf.Configuration.Main
import KeyValueClusterPerf.Cluster.Installation
