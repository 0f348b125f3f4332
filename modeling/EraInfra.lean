import EraInfra.Protocol.LeaseFencing
import EraInfra.Protocol.Registrations
import EraInfra.Protocol.JitConfig
import EraInfra.Protocol.SlotAccounting
import EraInfra.Protocol.ProvisioningFailures
import EraInfra.Protocol.JobEvents
import EraInfra.Protocol.DeliveryRuns
import EraInfra.Protocol.LabelConflicts
import EraInfra.Protocol.AccountAuthority
import EraInfra.Protocol.AccountTable
import EraInfra.Egress.Agreement
import EraInfra.Cache.ReservationRuns
import EraInfra.Cache.Eviction
import EraInfra.Cache.WriteScope
import EraInfra.Infra.RunHistories
import EraInfra.Infra.Outages
import EraInfra.Agent.Removals
import EraInfra.Infra.DeployEnvironment
import EraInfra.Agent.DockerPolicy
import EraInfra.Fleet.Endpoints
import EraInfra.Egress.Resolver
import EraInfra.Cache.SessionRuns
import EraInfra.Protocol.JobStarted
import EraInfra.Protocol.RecoveryProgress
import EraInfra.Cache.AdminReplay
import EraInfra.Fleet.PortRuns
import EraInfra.Infra.LogAudit
import EraInfra.Mesh.Relays
import EraInfra.Backend.RunnerReleases
import EraInfra.Egress.Prefixes
