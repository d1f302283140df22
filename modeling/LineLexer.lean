import LineLexer.Session
import LineLexer.Directory
import LineLexer.Main
import LineLexer.Proofs.Outside
import LineLexer.Proofs.Excess
import LineLexer.Proofs.Grammar
import LineLexer.Proofs.Conservation
import LineLexer.Proofs.WellFormed
import LineLexer.Proofs.RoundTrip
import LineLexer.Proofs.Diagnosis
import LineLexer.Proofs.Balance
import LineLexer.Proofs.Lines
import LineLexer.Proofs.Script
import LineLexer.Proofs.Compose
import LineLexer.Proofs.Transcript
import LineLexer.Proofs.ReadBack
import LineLexer.Proofs.Listing
import LineLexer.Proofs.Slices
import LineLexer.Proofs.Tiling
import LineLexer.Proofs.Pins
import LineLexer.Proofs.Report
import LineLexer.Proofs.Positions
import LineLexer.Proofs.Carets
import LineLexer.Proofs.LetterRuns
import LineLexer.Proofs.Blanks
import LineLexer.Proofs.Terminator
import LineLexer.Proofs.WiderLimits
import LineLexer.Proofs.Joined
import LineLexer.Proofs.OpaqueStrings
import LineLexer.Proofs.Registers
import LineLexer.Proofs.Invariant
