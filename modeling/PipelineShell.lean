import PipelineShell.Batch
import PipelineShell.Log.Recording
import PipelineShell.Main
import PipelineShell.Proofs.Accounting
import PipelineShell.Proofs.Assembly
import PipelineShell.Proofs.Atomicity
import PipelineShell.Proofs.BlankSplit
import PipelineShell.Proofs.Bounds
import PipelineShell.Proofs.Builtins
import PipelineShell.Proofs.CollectionOrder
import PipelineShell.Proofs.Completion
import PipelineShell.Proofs.Configuration
import PipelineShell.Proofs.Conversation
import PipelineShell.Proofs.Defects
import PipelineShell.Proofs.Grammar
import PipelineShell.Proofs.Grouping
import PipelineShell.Proofs.Isolation
import PipelineShell.Proofs.Layout
import PipelineShell.Proofs.NulPosition
import PipelineShell.Proofs.PartialStart
import PipelineShell.Proofs.Prompt
import PipelineShell.Proofs.Quotation
import PipelineShell.Proofs.Refinement
import PipelineShell.Proofs.Refusal
import PipelineShell.Proofs.Reports
import PipelineShell.Proofs.Trimming
import PipelineShell.Proofs.WorkingDirectory
import PipelineShell.Retry
