import WeftBlock.Backup.ChainWalk
import WeftBlock.Backup.Listed
import WeftBlock.Backup.Pipes
import WeftBlock.BackupCrypto.Authentic
import WeftBlock.Control.Attachment
import WeftBlock.Control.Deletion
import WeftBlock.Control.FullStart
import WeftBlock.Control.Overshoot
import WeftBlock.Control.Provision
import WeftBlock.Control.Sizes
import WeftBlock.Controller.ExpandSizes
import WeftBlock.Controller.PrepareRebuild
import WeftBlock.Controller.Revert
import WeftBlock.Controller.Salvage
import WeftBlock.Controller.SectorWrites
import WeftBlock.Controller.SnapshotSets
import WeftBlock.Controller.StartOutcome
import WeftBlock.Controller.Truthful
import WeftBlock.Controller.VerifyModes
import WeftBlock.DataConn.SharedTimeouts
import WeftBlock.Engine.DeleteSnapshot
import WeftBlock.Replica.AnyName
import WeftBlock.Replica.ChainLimit
import WeftBlock.Replica.CounterSet
import WeftBlock.Replica.DataLayout
import WeftBlock.Replica.FailedReplace
import WeftBlock.Replica.FailedRevert
import WeftBlock.Replica.FailedWrite
import WeftBlock.Replica.Faithful
import WeftBlock.Replica.HeadNames
import WeftBlock.Replica.LayeredRead
import WeftBlock.Replica.ReadCount
import WeftBlock.Replica.RemovalPlan
import WeftBlock.Replica.Snapshots
import WeftBlock.Replica.Trim
import WeftBlock.Replica.UnmapRun
import WeftBlock.Replica.Usable
import WeftBlock.Replica.Usage
import WeftBlock.Rpc.ExactStream
import WeftBlock.Sync.Clone
import WeftBlock.Sync.Exclusion
import WeftBlock.Sync.FileSync
import WeftBlock.Sync.LocalSync
import WeftBlock.Sync.Progress
import WeftBlock.Sync.Retained
