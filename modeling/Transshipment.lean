import Transshipment.Checked
import Transshipment.Answers
import Transshipment.Network.Basic
import Transshipment.Network.Relaxation
import Transshipment.Network.Tree
import Transshipment.Network.Shipment
import Transshipment.Network.Chart
import Transshipment.Router
import Transshipment.Problem
import Transshipment.Request
import Transshipment.Specification
import Transshipment.Session
import Transshipment.History
import Transshipment.Clerk
import Transshipment.Arena
import Transshipment.Proofs.Endings
import Transshipment.Proofs.Matching
import Transshipment.Proofs.NetworkSoundness
import Transshipment.Proofs.CheapestWalks
import Transshipment.Proofs.FlowDuality
import Transshipment.Proofs.ShipmentEffect
import Transshipment.Proofs.StartPotentials
import Transshipment.Proofs.SearchTree
import Transshipment.Proofs.TreeGrowth
import Transshipment.Proofs.Repricing
import Transshipment.Proofs.RoutingRounds
import Transshipment.Proofs.RoutingCertificates
import Transshipment.Proofs.RoutingOptimality
import Transshipment.Proofs.RoutingResumption
import Transshipment.Proofs.ProblemSoundness
import Transshipment.Proofs.SettlementNetwork
import Transshipment.Proofs.SettlementFlows
import Transshipment.Proofs.SettlementCycles
import Transshipment.Proofs.SettlementOptimality
import Transshipment.Proofs.RequestAnswers
import Transshipment.Proofs.FlowConservation
import Transshipment.Proofs.SettlementRefusals
import Transshipment.Proofs.RequestAgreement
import Transshipment.Proofs.AmountBounds
import Transshipment.Proofs.RoutingLimits
import Transshipment.Proofs.RefusedRequests
import Transshipment.Proofs.RequestReordering
import Transshipment.Proofs.IdleNodeSearches
import Transshipment.Proofs.IdleNodes
import Transshipment.Proofs.ChartedSearches
import Transshipment.Proofs.CheapestPaths
import Transshipment.Proofs.PotentialDistances
import Transshipment.Proofs.RisingFares
import Transshipment.Proofs.ProblemRepresentation
import Transshipment.Proofs.ClerkRuns
import Transshipment.Proofs.HistoryIndependence
import Transshipment.Proofs.ArenaLayout
import Transshipment.Proofs.ArenaRepresentation
import Transshipment.Proofs.SearchEffort
import Transshipment.Proofs.RoutingProgress
import Transshipment.Proofs.ShipmentExactness
import Transshipment.Proofs.RoutingMessages
import Transshipment.Proofs.ShrinkingReach
import Transshipment.Proofs.WideNetworks
import Transshipment.Proofs.ParallelArcs
import Transshipment.Proofs.DeadLinks
import Transshipment.Proofs.DeadLinkRuns
import Transshipment.Proofs.CapacityArithmetic
