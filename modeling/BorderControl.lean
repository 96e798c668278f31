import BorderControl.CommandLine
import BorderControl.Conformance.Fault
import BorderControl.Main
import BorderControl.Proofs.Chain
import BorderControl.Proofs.Findings
import BorderControl.Proofs.Folding
import BorderControl.Proofs.Release
import BorderControl.Proofs.Interleaving
import BorderControl.Proofs.Numerals
import BorderControl.Proofs.ResultOrder
import BorderControl.Proofs.SameDecision
import BorderControl.Proofs.Spelling
import BorderControl.Proofs.JsonText
import BorderControl.Proofs.Rereading
import BorderControl.Proofs.Marker
import BorderControl.Proofs.StoreFile
import BorderControl.Proofs.RereadFindings
import BorderControl.Proofs.SyncAgain
import BorderControl.Proofs.Linking
import BorderControl.Proofs.PriorityTable
import BorderControl.Proofs.History
import BorderControl.Proofs.FirstWrite
import BorderControl.Proofs.Coverage
import BorderControl.Proofs.Rearranging
import BorderControl.Proofs.Relevance
import BorderControl.Proofs.Interference
import BorderControl.Proofs.Consulting
import BorderControl.Proofs.Failure
import BorderControl.Proofs.Saving
import BorderControl.Proofs.Effects
import BorderControl.Proofs.Utf8
import BorderControl.Proofs.Pairing
import BorderControl.Proofs.ReferenceGrammar
import BorderControl.Proofs.Grouping
import BorderControl.Proofs.Reasons
import BorderControl.Proofs.Reporting
import BorderControl.Proofs.DecimalValue
import BorderControl.Proofs.Weighing
import BorderControl.Proofs.Comparing
import BorderControl.Proofs.Evidence
import BorderControl.Proofs.Snapshot
import BorderControl.Proofs.Loading
