import Vesal.Proofs.Lz4sMalformed
import Vesal.Proofs.CodecFatal
import Vesal.Proofs.ScatteredChecksum
import Vesal.Proofs.SglBounds
import Vesal.Proofs.RingSlots
import Vesal.Proofs.DsaRefinement
import Vesal.Proofs.WorkerShutdown
import Vesal.Proofs.SharedWorkers
import Vesal.Proofs.CypherDelivery
import Vesal.Proofs.CypherIv
import Vesal.Proofs.CypherOutput
import Vesal.Proofs.RingQueueOrder
import Vesal.Proofs.KaeChecks
import Vesal.Proofs.KaeDelivery
import Vesal.Proofs.ChecksumPclmul
import Vesal.Proofs.PoolPlan
import Vesal.Proofs.PoolLifecycle
import Vesal.Proofs.ExternalEntries
import Vesal.Proofs.BufCache
import Vesal.Proofs.FailedSubmission
import Vesal.Proofs.PoolConservation
import Vesal.Proofs.HandleUnits
import Vesal.Proofs.HaTrigger
import Vesal.Proofs.DsaAdmission
import Vesal.Proofs.DsaQuota
import Vesal.Proofs.ObjectCache
import Vesal.Proofs.XxHash32
import Vesal.Proofs.InstanceIds
