import ParenCall.Main
import ParenCall.Proofs.ForgottenLayout
import ParenCall.Proofs.PreservedContent
import ParenCall.Proofs.SettledReadings
import ParenCall.Proofs.ResumedScans
import ParenCall.Proofs.CompletablePrefixes
import ParenCall.Proofs.IndependentLines
import ParenCall.Proofs.ParenthesisErrors
import ParenCall.Proofs.ScanFailures
import ParenCall.Proofs.InessentialLayout
import ParenCall.Proofs.CallExpressions
import ParenCall.Proofs.LoweredPhrases
import ParenCall.Proofs.DroppedKeywords
import ParenCall.Proofs.FaithfulOutlines
import ParenCall.Proofs.FaithfulDumps
import ParenCall.Proofs.EnclosingCalls
import ParenCall.Proofs.ValidOffsets
