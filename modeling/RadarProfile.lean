import RadarProfile.Endpoint.Scripted
import RadarProfile.Files
import RadarProfile.Main
import RadarProfile.Proofs.Chronicle
import RadarProfile.Proofs.Dispatch
import RadarProfile.Proofs.Turns
import RadarProfile.Proofs.Aftermath
import RadarProfile.Proofs.Prediction
import RadarProfile.Proofs.Conversion
import RadarProfile.Proofs.Outcome
import RadarProfile.Proofs.Composition
import RadarProfile.Proofs.Rounding
import RadarProfile.Proofs.Literals
import RadarProfile.Proofs.ShortestDigits
import RadarProfile.Proofs.Writing
import RadarProfile.Proofs.ReadBack
import RadarProfile.Proofs.Indifference
import RadarProfile.Proofs.Lines
import RadarProfile.Proofs.Stream
import RadarProfile.Proofs.Decoding
import RadarProfile.Proofs.Framing
import RadarProfile.Proofs.SilentLines
import RadarProfile.Proofs.Layout
import RadarProfile.Proofs.Publishing
import RadarProfile.Proofs.ExitStatus
import RadarProfile.Proofs.LogRecovery
import RadarProfile.Proofs.Rules
import RadarProfile.Proofs.Nearest
import RadarProfile.Proofs.FloatFields
import RadarProfile.Proofs.Answers
import RadarProfile.Proofs.Replacing
import RadarProfile.Proofs.WholeText
import RadarProfile.Proofs.Words
import RadarProfile.Proofs.Keywords
import RadarProfile.Proofs.Responses
import RadarProfile.Proofs.IntegerFields
import RadarProfile.Proofs.Antennas
import RadarProfile.Proofs.Passthrough
import RadarProfile.Proofs.Retrying
import RadarProfile.Proofs.Precedence
