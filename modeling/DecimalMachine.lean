import DecimalMachine.Main
import DecimalMachine.Proofs.Step
import DecimalMachine.Proofs.Footprint
import DecimalMachine.Proofs.FailedStep
import DecimalMachine.Proofs.Runs
import DecimalMachine.Proofs.Json.Lexing
import DecimalMachine.Proofs.Json.RoundTrip
import DecimalMachine.Proofs.Saved
import DecimalMachine.Proofs.Reachable
import DecimalMachine.Proofs.Invariant
import DecimalMachine.Proofs.Reference
import DecimalMachine.Proofs.View
import DecimalMachine.Proofs.Execution
import DecimalMachine.Proofs.Dialogue
import DecimalMachine.Proofs.Refinement
import DecimalMachine.Proofs.Reliable
import DecimalMachine.Proofs.Steps
import DecimalMachine.Proofs.Lockstep
import DecimalMachine.Proofs.Outcome
import DecimalMachine.Proofs.Report
import DecimalMachine.Proofs.Bookkeeping
import DecimalMachine.Proofs.Restored
import DecimalMachine.Proofs.Texts
import DecimalMachine.Proofs.Moments
import DecimalMachine.Proofs.Intake
import DecimalMachine.Proofs.Resumption
import DecimalMachine.Proofs.Truncation
import DecimalMachine.Proofs.Recital
import DecimalMachine.Proofs.Loaders
import DecimalMachine.Proofs.Delivery
import DecimalMachine.Proofs.ExitStatus
import DecimalMachine.Proofs.Arguments
import DecimalMachine.Proofs.Files
import DecimalMachine.Proofs.Lines
import DecimalMachine.Proofs.Loading
import DecimalMachine.Proofs.Ways
import DecimalMachine.Proofs.Signs
import DecimalMachine.Proofs.Replacement
import DecimalMachine.Proofs.Mnemonics
import DecimalMachine.Proofs.Instalments
import DecimalMachine.Proofs.Accounts
import DecimalMachine.Proofs.Scan
import DecimalMachine.Proofs.Entry
import DecimalMachine.Proofs.Faults
import DecimalMachine.Proofs.Addressing
import DecimalMachine.Proofs.Rejections
import DecimalMachine.Proofs.Readings
import DecimalMachine.Proofs.Shown
import DecimalMachine.Proofs.Keyboard
import DecimalMachine.Proofs.Placement
import DecimalMachine.Proofs.Index
import DecimalMachine.Proofs.Endless
import DecimalMachine.Proofs.Dump
import DecimalMachine.Proofs.Packing
import DecimalMachine.Proofs.Cells
import DecimalMachine.Proofs.History
import DecimalMachine.Proofs.Listing
import DecimalMachine.Proofs.Limit
