import Latitude.Encoding
import Latitude.Main
import Latitude.Proofs.FrontLaws
import Latitude.Proofs.IntegerLaws
import Latitude.Proofs.Spelling
import Latitude.Proofs.SpellingLaws
import Latitude.Proofs.Recognition
import Latitude.Proofs.Unambiguity
import Latitude.Proofs.Tour
import Latitude.Proofs.Language
import Latitude.Proofs.RoundTrip
import Latitude.Proofs.Truncation
import Latitude.Proofs.Reports
import Latitude.Proofs.Boundary
import Latitude.Proofs.Rendering
import Latitude.Proofs.Cutoff
import Latitude.Proofs.Calls
import Latitude.Proofs.Lossless
import Latitude.Proofs.Queries
import Latitude.Proofs.Segmentation
import Latitude.Proofs.Tiling
import Latitude.Proofs.Flaws
import Latitude.Proofs.Diagnosis
import Latitude.Proofs.NormalForm
import Latitude.Proofs.Shifting
import Latitude.Proofs.Concatenation
import Latitude.Proofs.Origins
import Latitude.Proofs.Refusals
import Latitude.Proofs.Literals
import Latitude.Proofs.Notices
import Latitude.Proofs.HeaderFields
import Latitude.Proofs.CommandLines
import Latitude.Proofs.Invocations
import Latitude.Proofs.BlockAccounts
import Latitude.Proofs.Log
import Latitude.Proofs.Widths
import Latitude.Proofs.Rounds
import Latitude.Proofs.Progress
import Latitude.Proofs.Lines
