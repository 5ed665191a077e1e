import Selectors.Report
import Selectors.Main
import Selectors.Proofs.Shadowing
import Selectors.Proofs.Redeclaration
import Selectors.Proofs.Omission
import Selectors.Proofs.Checking
import Selectors.Proofs.Rearrangement
import Selectors.Proofs.Multiplicity
import Selectors.Proofs.Instantiation
import Selectors.Proofs.RenamedMatching
import Selectors.Proofs.Conjunction
import Selectors.Proofs.Batches
import Selectors.Proofs.WrittenDocuments
import Selectors.Proofs.TaggedArguments
import Selectors.Proofs.Widening
import Selectors.Proofs.GivenScopes
import Selectors.Proofs.Views
import Selectors.Proofs.Enumeration
import Selectors.Proofs.ConstraintChecks
import Selectors.Proofs.Reordering
import Selectors.Proofs.DeclarationChecks
import Selectors.Proofs.SubstitutionLaws
import Selectors.Proofs.ConstraintReports
