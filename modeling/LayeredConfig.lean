import LayeredConfig.Main
import LayeredConfig.Proofs.DeepMerge
import LayeredConfig.Proofs.Answer
import LayeredConfig.Proofs.Supply
import LayeredConfig.Proofs.Layers
import LayeredConfig.Proofs.Held
import LayeredConfig.Proofs.Settled
import LayeredConfig.Proofs.Resolution
import LayeredConfig.Proofs.Narrow
import LayeredConfig.Proofs.Places
import LayeredConfig.Proofs.Overwriting
import LayeredConfig.Proofs.Found
import LayeredConfig.Proofs.Touched
import LayeredConfig.Proofs.KeyedResolution
import LayeredConfig.Proofs.Leaves
import LayeredConfig.Proofs.Tracking
import LayeredConfig.Proofs.Trail
import LayeredConfig.Proofs.Origins
import LayeredConfig.Proofs.Attribution
import LayeredConfig.Proofs.Histories
import LayeredConfig.Proofs.Runs
import LayeredConfig.Proofs.Isolation
import LayeredConfig.Proofs.Refusal
import LayeredConfig.Proofs.Fixpoint
import LayeredConfig.Proofs.Audit
import LayeredConfig.Proofs.Stream
import LayeredConfig.Proofs.Calls
import LayeredConfig.Proofs.Delivery
import LayeredConfig.Proofs.Candidates
import LayeredConfig.Proofs.Connected
import LayeredConfig.Proofs.Provenance
import LayeredConfig.Proofs.Exposure
import LayeredConfig.Proofs.Placement
import LayeredConfig.Proofs.Defaults
import LayeredConfig.Proofs.Messages
import LayeredConfig.Proofs.Nested
import LayeredConfig.Proofs.MergePaths
import LayeredConfig.Proofs.Flattening
import LayeredConfig.Proofs.TrackerRuns
import LayeredConfig.Proofs.FileCalls
import LayeredConfig.Proofs.IniTables
import LayeredConfig.Proofs.ConnectionFiles
import LayeredConfig.Proofs.DefaultSections
import LayeredConfig.Proofs.Replacement
import LayeredConfig.Proofs.Placeholders
import LayeredConfig.Proofs.ByteOrder
import LayeredConfig.Proofs.Variables
import LayeredConfig.Proofs.WrittenFlags
import LayeredConfig.Proofs.SilentText
import LayeredConfig.Proofs.LoadedSettings
import LayeredConfig.Proofs.Noted
import LayeredConfig.Proofs.Masking
import LayeredConfig.Proofs.Selection
import LayeredConfig.Proofs.ConnectionNames
import LayeredConfig.Proofs.Synthesis
import LayeredConfig.Proofs.ExitCodes
import LayeredConfig.Proofs.HistoryLookup
