import ShaderFlatten.Main
import ShaderFlatten.Proofs.Ledger
import ShaderFlatten.Proofs.Machine
import ShaderFlatten.Proofs.Canonical
import ShaderFlatten.Proofs.Stack
import ShaderFlatten.Proofs.Recursion
import ShaderFlatten.Proofs.Accounting
import ShaderFlatten.Proofs.Session
import ShaderFlatten.Proofs.Layers
import ShaderFlatten.Proofs.Writing
import ShaderFlatten.Proofs.OutputPlan
import ShaderFlatten.Proofs.Delivery
import ShaderFlatten.Proofs.Targets
import ShaderFlatten.Proofs.Places
import ShaderFlatten.Proofs.Trace
import ShaderFlatten.Proofs.Transparency
import ShaderFlatten.Proofs.Lines
import ShaderFlatten.Proofs.Outline
import ShaderFlatten.Proofs.Preflight
import ShaderFlatten.Proofs.Relevance
import ShaderFlatten.Proofs.ImportGraph
import ShaderFlatten.Proofs.Cycle
import ShaderFlatten.Proofs.Warmth
import ShaderFlatten.Proofs.Nameable
import ShaderFlatten.Proofs.Refusal
import ShaderFlatten.Proofs.Batch
import ShaderFlatten.Proofs.Exits
import ShaderFlatten.Proofs.Contents
import ShaderFlatten.Proofs.Parallel
import ShaderFlatten.Proofs.Values
import ShaderFlatten.Proofs.Hidden
import ShaderFlatten.Proofs.Returns
import ShaderFlatten.Proofs.LineEnds
import ShaderFlatten.Proofs.Scan
import ShaderFlatten.Proofs.Grammar
import ShaderFlatten.Proofs.ImportPaths
import ShaderFlatten.Proofs.Partition
import ShaderFlatten.Proofs.Visible
import ShaderFlatten.Proofs.BlockTree
import ShaderFlatten.Proofs.Kinds
import ShaderFlatten.Proofs.Layout
import ShaderFlatten.Proofs.DepthLimit
import ShaderFlatten.Proofs.Search
import ShaderFlatten.Proofs.Loops
import ShaderFlatten.Proofs.Making
import ShaderFlatten.Proofs.Completion
import ShaderFlatten.Proofs.BlockSteps
import ShaderFlatten.Proofs.Documents
import ShaderFlatten.Proofs.IgnoredLayers
import ShaderFlatten.Proofs.Rounding
import ShaderFlatten.Proofs.ReadBack
