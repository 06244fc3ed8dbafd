import PrimoMiner.ApiService
import PrimoMiner.BlockHeight
import PrimoMiner.Bytes
import PrimoMiner.Clhash
import PrimoMiner.ClhashBuilds
import PrimoMiner.ClhashReduction
import PrimoMiner.ClhashReference
import PrimoMiner.ClhashRounding
import PrimoMiner.ClhashSafety
import PrimoMiner.CoinbaseBounds
import PrimoMiner.Connection
import PrimoMiner.CpuTopology
import PrimoMiner.CrossSession
import PrimoMiner.DevFee
import PrimoMiner.Dns
import PrimoMiner.DnsReply
import PrimoMiner.DnsServers
import PrimoMiner.DutyCycle
import PrimoMiner.Globals
import PrimoMiner.HarakaKeyed
import PrimoMiner.HashTarget
import PrimoMiner.HexCodec
import PrimoMiner.InEffect
import PrimoMiner.JobUpdate
import PrimoMiner.Library.BlockHash
import PrimoMiner.Library.EventLog
import PrimoMiner.Library.RankedRuns
import PrimoMiner.Library.RingScan
import PrimoMiner.Library.Runs
import PrimoMiner.Library.Salsa20
import PrimoMiner.Library.Sha256
import PrimoMiner.Library.SlotTable
import PrimoMiner.LineFraming
import PrimoMiner.MinerThread
import PrimoMiner.NonceCoverage
import PrimoMiner.Pbkdf2
import PrimoMiner.PendingIds
import PrimoMiner.PoolTimeout
import PrimoMiner.RandomxNonces
import PrimoMiner.RandomxRefinement
import PrimoMiner.RandomxSeed
import PrimoMiner.ReconnectFlag
import PrimoMiner.RetryBound
import PrimoMiner.Rpc
import PrimoMiner.ScryptAsm
import PrimoMiner.ScryptCores
import PrimoMiner.ScryptExact
import PrimoMiner.ServiceExit
import PrimoMiner.Session
import PrimoMiner.SessionRuns
import PrimoMiner.SessionSteps
import PrimoMiner.Sha256Asm
import PrimoMiner.SliceHead
import PrimoMiner.SocketSend
import PrimoMiner.StandardWire
import PrimoMiner.Submit
import PrimoMiner.SubmitSteps
import PrimoMiner.TargetBounds
import PrimoMiner.Text
import PrimoMiner.VerusEpochs
import PrimoMiner.VerusExact
import PrimoMiner.VerusExtranonce
import PrimoMiner.VerusReplay
import PrimoMiner.VerusTarget
import PrimoMiner.WakeUp
import PrimoMiner.WebSocket
import PrimoMiner.Work
import PrimoMiner.WorkGeneration
import PrimoMiner.XmrTarget
import PrimoMiner.Library.RingBuffer
import PrimoMiner.ApiHistory
import PrimoMiner.ApiRequest
import PrimoMiner.MiningReturn
