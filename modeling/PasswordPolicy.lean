import PasswordPolicy.Blocklist.Bundled
import PasswordPolicy.Diagnostic.Excerpt
import PasswordPolicy.Log
import PasswordPolicy.Proofs.AnyOrder
import PasswordPolicy.Proofs.BetweenBrackets
import PasswordPolicy.Proofs.BlocklistRuns
import PasswordPolicy.Proofs.CanonicalShape
import PasswordPolicy.Proofs.DiagnosticPlaces
import PasswordPolicy.Proofs.ExcerptPlaces
import PasswordPolicy.Proofs.GrammarSound
import PasswordPolicy.Proofs.JoinedClasses
import PasswordPolicy.Proofs.JoinedDocuments
import PasswordPolicy.Proofs.NormalForm
import PasswordPolicy.Proofs.PolicyForm
import PasswordPolicy.Proofs.Progress
import PasswordPolicy.Proofs.QuotedAttribute
import PasswordPolicy.Proofs.RangeReading
import PasswordPolicy.Proofs.RangeSafety
import PasswordPolicy.Proofs.RoundTrip
import PasswordPolicy.Proofs.SeparateKinds
import PasswordPolicy.Proofs.SkippedSpacing
import PasswordPolicy.Proofs.TwoForms
import PasswordPolicy.Report
import PasswordPolicy.Rule.Json
