import AttributeFlow.Forms.ExpressionArena
import AttributeFlow.Forms.Report
import AttributeFlow.Json.Reader
import AttributeFlow.Proofs.AnalysesStand
import AttributeFlow.Proofs.PassBound
import AttributeFlow.Proofs.PlacementMeaning
import AttributeFlow.Proofs.SharedKeys
import AttributeFlow.Proofs.EffectLinks
import AttributeFlow.Proofs.OwnershipRuns
import AttributeFlow.Proofs.AnalysisFaults
import AttributeFlow.Proofs.AnalysisGrowth
import AttributeFlow.Proofs.PlacementPartition
import AttributeFlow.Proofs.AnalysisViews
import AttributeFlow.Proofs.OwnershipHistory
import AttributeFlow.Proofs.MovedKeys
import AttributeFlow.Proofs.AnalysisRearrangement
import AttributeFlow.Proofs.PersistedOwners
import AttributeFlow.Proofs.CompleteReports
import AttributeFlow.Proofs.PlanCoverage
import AttributeFlow.Proofs.RefusedActions
import AttributeFlow.Proofs.StageMaps
import AttributeFlow.Proofs.IndependentAssignments
import AttributeFlow.Proofs.TableComparison
import AttributeFlow.Proofs.UnprunedWalks
import AttributeFlow.Proofs.LastingExpressions
import AttributeFlow.Proofs.LimitedCollections
import AttributeFlow.Proofs.PlacementsOfFacts
import AttributeFlow.Proofs.MergeCounts
import AttributeFlow.Proofs.StaleAnalyses
import AttributeFlow.Proofs.PrintedReports
import AttributeFlow.Proofs.StageEdits
import AttributeFlow.Proofs.CollectionLogs
import AttributeFlow.Proofs.OwnerEntries
import AttributeFlow.Proofs.EndlessWalks
