import PaddingAudit.Main
import PaddingAudit.Proofs.Action
import PaddingAudit.Proofs.Reading
import PaddingAudit.Proofs.Cache
import PaddingAudit.Proofs.PlainLayout
import PaddingAudit.Proofs.Derivation
import PaddingAudit.Proofs.Resolution
import PaddingAudit.Proofs.Query
import PaddingAudit.Proofs.Exploration
import PaddingAudit.Proofs.History
import PaddingAudit.Proofs.Diagnosis
import PaddingAudit.Proofs.Placement
import PaddingAudit.Proofs.Limit
import PaddingAudit.Proofs.Admission
import PaddingAudit.Proofs.Contract
import PaddingAudit.Proofs.Survey
import PaddingAudit.Proofs.Repetition
import PaddingAudit.Proofs.Selection
import PaddingAudit.Proofs.Comparison
import PaddingAudit.Proofs.Duplicates
import PaddingAudit.Proofs.FileTree
import PaddingAudit.Proofs.Command
import PaddingAudit.Proofs.Accounting
import PaddingAudit.Proofs.Recency
import PaddingAudit.Proofs.JsonTokens
import PaddingAudit.Proofs.RecordAlignment
import PaddingAudit.Proofs.JsonReading
import PaddingAudit.Proofs.ReportDecoding
import PaddingAudit.Proofs.Identity
import PaddingAudit.Proofs.BestOrder
import PaddingAudit.Proofs.ReportOrder
import PaddingAudit.Proofs.Overlap
import PaddingAudit.Proofs.LayoutBounds
import PaddingAudit.Proofs.Lockstep
import PaddingAudit.Proofs.AlignmentCap
import PaddingAudit.Proofs.Sorting
import PaddingAudit.Proofs.ReportPermutation
import PaddingAudit.Proofs.Analysis
import PaddingAudit.Proofs.FieldOrder
import PaddingAudit.Proofs.AliasChain
import PaddingAudit.Proofs.Inclusion
import PaddingAudit.Proofs.PowerOfTwo
import PaddingAudit.Proofs.Invariant
import PaddingAudit.Proofs.SourceFile
import PaddingAudit.Proofs.ArrayNesting
import PaddingAudit.Proofs.Readiness
import PaddingAudit.Proofs.Precedence
