import XenMiner.Lib.PyNum
import XenMiner.Lib.PyStr
import XenMiner.Lib.FitCount
import XenMiner.Mining.VramBatch
import XenMiner.Mining.Equiv.VramBatch
import XenMiner.Core.Models
import XenMiner.Efficiency.ThermalPolicy
import XenMiner.Efficiency.VramGuard
import XenMiner.Efficiency.VramPolicy
import XenMiner.Efficiency.Equiv.VramGuard
import XenMiner.Config.Settings
import XenMiner.Lib.Run
import XenMiner.Mining.CudaNative
import XenMiner.Mining.Equiv.LaneCap
import XenMiner.Mining.Equiv.CudaNative
import XenMiner.Mining.BlockTypes
import XenMiner.Mining.CudaEngine
import XenMiner.Mining.MineBatch
import XenMiner.Lib.Table
import XenMiner.Mining.Equiv.MineBatch
import XenMiner.Networking.SubmitResult
import XenMiner.Mining.Argon2Common
import XenMiner.Mining.Equiv.Argon2Common
import XenMiner.BlockQueue.Policy
import XenMiner.BlockQueue.Store
import XenMiner.BlockQueue.Flush
import XenMiner.BlockQueue.Equiv.Settled
import XenMiner.BlockQueue.Equiv.Restore
import XenMiner.Core.Supervisor
import XenMiner.BlockQueue.Equiv.Flush
import XenMiner.Core.Equiv.Supervisor
import XenMiner.Core.Equiv.Transition
import XenMiner.BlockQueue.Equiv.Rejects
import XenMiner.Core.Equiv.Rejects
import XenMiner.BlockQueue.Equiv.Retained
import XenMiner.Core.Equiv.Retained
import XenMiner.BlockQueue.Crash
import XenMiner.BlockQueue.Equiv.Ledger
import XenMiner.Lib.Equiv.Json
import XenMiner.BlockQueue.QueueLog
import XenMiner.BlockQueue.Equiv.QueueLog
import XenMiner.Core.Equiv.Distinct
import XenMiner.Mining.Equiv.Derate
import XenMiner.Monitoring.DashboardStats
import XenMiner.Monitoring.Equiv.DashboardStats
import XenMiner.Core.InstanceLock
import XenMiner.Core.Equiv.InstanceLock
import XenMiner.Lib.Overlap
import XenMiner.Monitoring.ServerUptime
import XenMiner.Monitoring.Equiv.ServerUptime
import XenMiner.Core.LaneSession
import XenMiner.Core.Equiv.LaneSession
import XenMiner.Lib.Transit
import XenMiner.Mining.Cpu
import XenMiner.Mining.Equiv.Cpu
import XenMiner.Lib.ConfigParser
import XenMiner.Lib.Equiv.ConfigParser
import XenMiner.Config.LoadSettings
import XenMiner.Config.Equiv.WalletSetup
import XenMiner.Config.Equiv.LoadSettings
import XenMiner.Mining.Equiv.LaneSplit
import XenMiner.Efficiency.Equiv.ThermalPolicy
import XenMiner.Lib.DeadBand
import XenMiner.Mining.Equiv.Restart
import XenMiner.Mining.Equiv.BatchCeiling
import XenMiner.Mining.Equiv.LaneMonotone
import XenMiner.Efficiency.Equiv.DieBoardTemps
import XenMiner.Monitoring.Equiv.Nvidia
import XenMiner.Mining.Equiv.LaneSlots
import XenMiner.BlockQueue.ParallelFlush
import XenMiner.Lib.Interleave
import XenMiner.BlockQueue.Equiv.ParallelFlush
import XenMiner.BlockQueue.Equiv.RaisingFlush
import XenMiner.BlockQueue.Equiv.RejectCount
import XenMiner.BlockQueue.Equiv.PendingByType
import XenMiner.Config.IniEdit
import XenMiner.Core.Equiv.PrepareHit
import XenMiner.Config.Equiv.IniEdit
import XenMiner.Efficiency.GpuPower
import XenMiner.Efficiency.Equiv.GpuPower
import XenMiner.Efficiency.Equiv.PowerRestore
import XenMiner.Mining.Equiv.LaneLimit
import XenMiner.Core.Equiv.HeatTrim
import XenMiner.Mining.Equiv.FillPack
import XenMiner.Mining.Equiv.BlockTypes
import XenMiner.Core.Equiv.HitKind
import XenMiner.Lib.PyConvert
import XenMiner.Lib.PyDict
import XenMiner.Monitoring.WalletBalances
import XenMiner.Monitoring.Equiv.WalletBalances
import XenMiner.Lib.ExceptList
import XenMiner.Monitoring.StateFiles
import XenMiner.Monitoring.Equiv.StateFiles
import XenMiner.Strategies.Fibonacci
import XenMiner.Strategies.Equiv.Fibonacci
import XenMiner.Efficiency.Equiv.DerateCurves
import XenMiner.Networking.Difficulty
import XenMiner.Networking.Equiv.Difficulty
import XenMiner.Lib.BoundedSearch
import XenMiner.Mining.Equiv.ClampLoop
import XenMiner.Monitoring.Equiv.OutageScan
import XenMiner.BlockQueue.Equiv.Balance
import XenMiner.Core.Equiv.QueueBalance
import XenMiner.Core.Equiv.RunLoop
import XenMiner.BlockQueue.Equiv.Start
import XenMiner.Lib.DropOldest
import XenMiner.Monitoring.XenblockscanReporter
import XenMiner.Monitoring.Equiv.XenblockscanReporter
import XenMiner.Monitoring.Equiv.Timelapse
import XenMiner.Lib.Paced
import XenMiner.Networking.Equiv.Poller
import XenMiner.Core.Equiv.Provenance
import XenMiner.Monitoring.Equiv.WoodyminerStats
import XenMiner.Monitoring.Equiv.LocalStatsView
import XenMiner.Monitoring.Equiv.ServerUptimeView
